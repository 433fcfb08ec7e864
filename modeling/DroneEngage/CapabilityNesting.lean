import DroneEngage.CapabilityNormalForm

/-!
# Objects nested in parameters

The checker descends into the fields of an object with other rules than those of
the parameters themselves: a field that is neither optional nor has a default
must be there, but a field with a default is not filled in and a key that is not
declared is no error.  So the values given, and the defaults that take their
place, decide whether the nested objects obey the rules of the top level.
-/

namespace DroneEngage.Capabilities

variable {library : JsonLibrary}

/-- An object found inside the value of a parameter, with the `fields` that the
schema declares for it. -/
inductive DeclaredObject : Json → Json → Json → Json → Prop
  | here {param value fields : Json} (typed : .object ∈ paramTypes param)
      (declared : param.member? "fields" = some fields) :
      DeclaredObject param value fields value
  | element {param value items element fields object : Json}
      (typed : .array ∈ paramTypes param) (declared : param.member? "items" = some items)
      (listed : element ∈ value.elements)
      (inside : DeclaredObject items element fields object) :
      DeclaredObject param value fields object
  | field {param value entries field inner fields object : Json} {key : String}
      (typed : .object ∈ paramTypes param) (declared : param.member? "fields" = some entries)
      (named : entries.member? key = some field) (present : value.member? key = some inner)
      (inside : DeclaredObject field inner fields object) :
      DeclaredObject param value fields object

def OnlyDeclared (fields object : Json) : Prop :=
  ∀ key, object.contains key = true → fields.contains key = true

def HasFields (kind : Json → Prop) (fields object : Json) : Prop :=
  ∀ key field, fields.member? key = some field → kind field → object.contains key = true

/-- All objects nested in the values of the parameters are as they should be. -/
def EveryNested (params : Json) (valueOf : String → Json → Option Json)
    (holds : Json → Json → Prop) : Prop :=
  ∀ key param value, params.member? key = some param → valueOf key param = some value →
    ∀ fields object, DeclaredObject param value fields object → holds fields object

/-- The nested objects obey the rules of the top level: only declared keys, and
every field that is expected. -/
def NestedRules (params filled : Json) : Prop :=
  EveryNested params (fun key _ => filled.member? key) fun fields object =>
    OnlyDeclared fields object ∧ HasFields IsExpected fields object

/-- The nested objects of what is given, and of the defaults that are used, have
only declared keys and lack no field that has a default. -/
def NestedComplete (params given : Json) : Prop :=
  EveryNested params (fun key param => (given.member? key).or (param.member? "default"))
    fun fields object => OnlyDeclared fields object ∧
      HasFields (fun field => field.contains "default" = true) fields object

def PassesValidation (library : JsonLibrary) (levels : Nat) (param : Json) : Prop :=
  ∃ path, ∀ check ∈ capValidateParam levels param path, check.run library = .valid

theorem not_passesValidation_zero {param : Json} : ¬ PassesValidation library 0 param := by
  rintro ⟨path, succeeds⟩
  have failed := run_require_iff.mp (succeeds _ (List.mem_singleton_self _))
  exact Bool.false_ne_true failed

theorem PassesValidation.types {levels : Nat} {param : Json} {type : CapType}
    (passes : PassesValidation library levels param) (typed : type ∈ paramTypes param)
    (compound : type.isCompound = true) :
    ∃ name, capTypeList param = some [name] ∧ CapType.ofName? name = some type := by
  obtain ⟨path, succeeds⟩ := passes
  cases levels with
  | zero => exact absurd ⟨path, succeeds⟩ not_passesValidation_zero
  | succ levels =>
      rw [capValidateParam, List.forall_mem_cons] at succeeds
      rw [paramTypes] at typed
      cases types : capTypeList param with
      | none => simp [types] at typed
      | some names =>
          cases names with
          | nil => simp [types] at typed
          | cons name others =>
              simp only [types, List.forall_mem_append] at succeeds
              obtain ⟨-, ⟨⟨named, -⟩, -⟩, -⟩ := succeeds
              rw [types, Option.getD_some] at typed
              obtain ⟨written, listed, known⟩ := List.mem_filterMap.mp typed
              cases others with
              | nil =>
                  obtain rfl := List.mem_singleton.mp listed
                  exact ⟨written, rfl, known⟩
              | cons other more =>
                  -- a list of several types holds no compound one
                  rw [typeChecks, if_pos (by simp), List.forall_mem_append] at named
                  have scalar := run_require_iff.mp
                    (named.2 _ (List.mem_map.mpr ⟨written, listed, rfl⟩))
                  simp [known, compound] at scalar

theorem PassesValidation.items {levels : Nat} {param items : Json}
    (passes : PassesValidation library (levels + 1) param)
    (typed : .array ∈ paramTypes param) (declared : param.member? "items" = some items) :
    PassesValidation library levels items := by
  obtain ⟨name, types, known⟩ := passes.types typed rfl
  obtain ⟨path, succeeds⟩ := passes
  refine ⟨path ++ "[]", fun check listed => succeeds check ?_⟩
  rw [capValidateParam, types]
  simp only [known, List.mem_cons, List.mem_append]
  exact .inr (.inl (.inl (.inr (mem_onMember declared listed))))

theorem PassesValidation.entry {levels : Nat} {param fields : Json} {entry : String × Json}
    (passes : PassesValidation library (levels + 1) param)
    (typed : .object ∈ paramTypes param) (declared : param.member? "fields" = some fields)
    (listed : entry ∈ objectMembers fields) : PassesValidation library levels entry.2 := by
  obtain ⟨name, types, known⟩ := passes.types typed rfl
  obtain ⟨path, succeeds⟩ := passes
  refine ⟨path ++ "." ++ entry.1, fun check member => succeeds check ?_⟩
  rw [capValidateParam, types]
  simp only [known, onMember, declared, Option.elim_some, List.mem_cons, List.mem_append,
    List.mem_flatMap]
  exact .inr (.inl (.inl (.inr (.inr ⟨entry, listed, .inr member⟩))))

theorem PassesValidation.field {levels : Nat} {param fields field : Json} {key : String}
    (passes : PassesValidation library (levels + 1) param)
    (typed : .object ∈ paramTypes param) (declared : param.member? "fields" = some fields)
    (named : fields.member? key = some field) : PassesValidation library levels field := by
  rw [← lookup_objectMembers] at named
  obtain ⟨before, after, split, -⟩ := List.lookup_eq_some_iff.mp named
  have listed : (key, field) ∈ objectMembers fields := by simp [split]
  exact passes.entry typed declared listed

/-- The type that a value takes is the only one its parameter names. -/
theorem find?_of_compound {levels below : Nat} {param value : Json} {type : CapType}
    (passes : PassesValidation library below param)
    (typed : type ∈ paramTypes param) (compound : type.isCompound = true)
    (fits : Conforms levels param value) :
    (paramTypes param).find? (capValueMatches value) = some type := by
  obtain ⟨name, types, known⟩ := passes.types typed compound
  have only : paramTypes param = [type] := by
    simp [paramTypes, types, known]
  cases taken : (paramTypes param).find? (capValueMatches value) with
  | none => cases levels <;> simp [Conforms, ConformsWith, taken] at fits
  | some found =>
      have listed := List.mem_of_find?_eq_some taken
      rw [only, List.mem_singleton] at listed
      rw [listed]

theorem conforms_element {levels below : Nat} {param value items element : Json}
    (passes : PassesValidation library below param)
    (typed : .array ∈ paramTypes param) (declared : param.member? "items" = some items)
    (fits : Conforms (levels + 1) param value) (listed : element ∈ value.elements) :
    Conforms levels items element := by
  have taken := find?_of_compound passes typed rfl fits
  simp only [Conforms, ConformsWith, taken] at fits
  exact fits items declared element listed

/-- A field of an object that fits its parameter fits, where it is present, and
may be absent where it is not. -/
theorem conforms_field {levels below : Nat} {param value fields field : Json} {key : String}
    (passes : PassesValidation library below param)
    (typed : .object ∈ paramTypes param) (declared : param.member? "fields" = some fields)
    (fits : Conforms (levels + 1) param value) (named : fields.member? key = some field) :
    match value.member? key with
    | some inner => Conforms levels field inner
    | none => MayBeAbsent field := by
  have taken := find?_of_compound passes typed rfl fits
  simp only [Conforms, ConformsWith, taken] at fits
  rw [← lookup_objectMembers] at named
  obtain ⟨before, after, split, -⟩ := List.lookup_eq_some_iff.mp named
  exact (fits fields declared).2 (key, field) (by simp [split])

/-- A field that is missing from a nested object may be absent, however deep the
object lies. -/
theorem mayBeAbsent_of_conforms {levels : Nat} {param value fields object : Json}
    (found : DeclaredObject param value fields object)
    (passes : PassesValidation library (levels + 1) param) (fits : Conforms levels param value)
    {key : String} {field : Json} (named : fields.member? key = some field)
    (missing : object.member? key = none) : MayBeAbsent field := by
  induction found generalizing levels with
  | here typed declared =>
      cases levels with
      | zero => exact absurd (passes.field typed declared named) not_passesValidation_zero
      | succ levels =>
          have absent := conforms_field passes typed declared fits named
          rwa [missing] at absent
  | element typed declared listed inside ih =>
      cases levels with
      | zero => exact absurd (passes.items typed declared) not_passesValidation_zero
      | succ levels =>
          have below := conforms_element passes typed declared fits listed
          exact ih (passes.items typed declared) below named missing
  | field typed declared outer present inside ih =>
      cases levels with
      | zero => exact absurd (passes.field typed declared outer) not_passesValidation_zero
      | succ levels =>
          have below := conforms_field passes typed declared fits outer
          rw [present] at below
          exact ih (passes.field typed declared outer) below named missing

/-- The values of filled parameters are those given and the defaults, and they
fit. -/
theorem conforms_filled {schema result : List (String × Json)} {given param value : Json}
    {key : String}
    (validated : ∀ entry ∈ schema, PassesValidation library 5 entry.2)
    (loop : checkEachParam library given schema (objectMembers given) = .ok ([], result))
    (declared : schema.lookup key = some param)
    (taken : (given.member? key).or (param.member? "default") = some value) :
    PassesValidation library 5 param ∧ Conforms 4 param value := by
  obtain ⟨before, after, split, -⟩ := List.lookup_eq_some_iff.mp declared
  have listed : (key, param) ∈ schema := by simp [split]
  have passes := validated _ listed
  refine ⟨passes, ?_⟩
  have settled := checkEachParam_settled loop _ listed
  cases present : given.member? key with
  | some found =>
      rw [present, Option.some_or, Option.some.injEq] at taken
      simpa [Settled, present, taken] using settled
  | none =>
      rw [present, Option.none_or] at taken
      obtain ⟨path, succeeds⟩ := passes
      exact conforms_of_validated succeeds taken

/-- On parameters checked without errors, the nested objects obey the rules of
the top level exactly when those given, and those in the defaults used, already
are complete and have no unknown keys. -/
theorem nestedRules_iff {advert action given filled : Json} {act : String}
    (accepted : Accepted library advert)
    (found : (actionsOf advert).lookup act = some action)
    (checked : capCheckParams library (paramsSchema action) given = .ok ([], filled)) :
    NestedRules (paramsSchema action) filled ↔ NestedComplete (paramsSchema action) given := by
  obtain ⟨schema, isSchema, wellFormed, succeeds⟩ := paramsSchema_of_lookup accepted found
  rw [isSchema] at checked ⊢
  obtain ⟨result, rfl, loop, -⟩ := capCheckParams_clean checked
  unfold NestedRules NestedComplete EveryNested
  refine forall_congr' fun key => forall_congr' fun param => forall_congr' fun value =>
    forall_congr' fun declared => ?_
  beta_reduce
  rw [member?_filled wellFormed.sorted loop declared]
  refine forall_congr' fun taken => forall_congr' fun fields => forall_congr' fun object =>
    forall_congr' fun nested => and_congr_right fun _ => ?_
  constructor
  · intro has name field named withDefault
    exact has name field named (.inl withDefault)
  · intro has name field named expected
    obtain ⟨passes, fits⟩ := conforms_filled
      (fun entry listed => ⟨_, succeeds entry listed⟩) loop declared taken
    by_contra missing
    have absent : object.member? name = none := Option.not_isSome_iff_eq_none.mp missing
    obtain ⟨optional, read, allowed⟩ :=
      mayBeAbsent_of_conforms nested passes fits named absent
    rcases allowed with rfl | withDefault
    · rcases expected with withDefault | notOptional
      · exact missing (has name field named withDefault)
      · exact notOptional read
    · exact missing (has name field named withDefault)

def speedParam : Json :=
  .object [("default", .numberUnsigned 1), ("type", .string "int")]

/-- A parameter whose objects have that number as their only field. -/
def lensParam : Json :=
  .object [("fields", .object [("speed", speedParam)]), ("type", .string "object")]

theorem wellFormed_lensParam : lensParam.WellFormed := by
  have speed : speedParam.WellFormed := by
    refine .object _ (by decide) ?_
    simp only [List.forall_mem_cons]
    exact ⟨.numberUnsigned _, .string _, by simp⟩
  refine .object _ (by decide) ?_
  simp only [List.forall_mem_cons]
  exact ⟨speed.singleton _, .string _, by simp⟩

def lensLibrary : JsonLibrary :=
  readingLibrary _ (wellFormed_captureAdvert wellFormed_lensParam)

theorem accepted_lens : Accepted lensLibrary (captureAdvert lensParam) := by
  have stored : setCapabilities lensLibrary
      [(captureAdvert lensParam).dump parsedLibrary none] =
        .ok (some [captureAdvert lensParam]) :=
    setCapabilities_readingLibrary _ (by decide +kernel) (by decide +kernel)
  exact accepted_of_setCapabilities stored _ (List.mem_singleton_self _)

theorem contains_singleton {name key : String} {value : Json} :
    (Json.object [(name, value)]).contains key = true ↔ key = name := by
  rw [Json.contains, Json.member?, Json.lookup_cons_eq_ite]
  split <;> simp_all

theorem not_declaredObject_speed {value fields object : Json} :
    ¬ DeclaredObject speedParam value fields object := by
  have types : paramTypes speedParam = [.int] := rfl
  intro found
  cases found with
  | here typed => simp [types] at typed
  | element typed => simp [types] at typed
  | field typed => simp [types] at typed

theorem declaredObject_lens {value fields object : Json}
    (found : DeclaredObject lensParam value fields object) :
    fields = .object [("speed", speedParam)] ∧ object = value := by
  have types : paramTypes lensParam = [.object] := rfl
  cases found with
  | here typed declared =>
      obtain rfl := Option.some.inj declared
      exact ⟨rfl, rfl⟩
  | element typed => simp [types] at typed
  | @field _ _ _ _ _ _ _ key typed declared named present inside =>
      obtain rfl := Option.some.inj declared
      rw [Json.member?, Json.lookup_cons_eq_ite] at named
      split at named
      · obtain rfl := Option.some.inj named
        exact absurd inside not_declaredObject_speed
      · cases named

/-- An object with the field it declares obeys the rules. -/
theorem nestedRules_lens :
    NestedRules (paramsSchema (captureWith lensParam))
      (.object [("zoom", .object [("speed", .numberUnsigned 2)])]) := by
  have found : (actionsOf (captureAdvert lensParam)).lookup "capture" =
      some (captureWith lensParam) :=
    rfl
  have checked : capCheckParams lensLibrary (paramsSchema (captureWith lensParam))
      (.object [("zoom", .object [("speed", .numberUnsigned 2)])]) =
        .ok ([], .object [("zoom", .object [("speed", .numberUnsigned 2)])]) :=
    rfl
  refine (nestedRules_iff accepted_lens found checked).mpr ?_
  intro key param value declared taken fields object nested
  have named : (Json.object [("zoom", lensParam)]).contains key = true :=
    Option.isSome_iff_exists.mpr ⟨param, declared⟩
  obtain rfl := contains_singleton.mp named
  obtain rfl := Option.some.inj declared
  obtain rfl := Option.some.inj taken
  obtain ⟨rfl, rfl⟩ := declaredObject_lens nested
  constructor
  · intro name present
    rwa [contains_singleton] at present ⊢
  · intro name field named _
    have present : (Json.object [("speed", speedParam)]).contains name = true := by
      rw [Json.contains, named, Option.isSome_some]
    rwa [contains_singleton] at present ⊢

/-- A nested object keeps an unknown key and stays without the default of its
field, and the check has no errors. -/
theorem nestedRules_fails :
    ∃ given filled, Accepted lensLibrary (captureAdvert lensParam) ∧
      (actionsOf (captureAdvert lensParam)).lookup "capture" =
        some (captureWith lensParam) ∧
      capCheckParams lensLibrary (paramsSchema (captureWith lensParam)) given =
        .ok ([], filled) ∧
      ¬ NestedRules (paramsSchema (captureWith lensParam)) filled := by
  refine ⟨.object [("zoom", .object [("rate", .null)])],
    .object [("zoom", .object [("rate", .null)])], accepted_lens, rfl, rfl, fun rules => ?_⟩
  have object : DeclaredObject lensParam (.object [("rate", .null)])
      (.object [("speed", speedParam)]) (.object [("rate", .null)]) :=
    .here (List.mem_singleton_self _) rfl
  have unknown := (rules "zoom" lensParam _ rfl rfl _ _ object).1 "rate" rfl
  cases unknown

end DroneEngage.Capabilities
