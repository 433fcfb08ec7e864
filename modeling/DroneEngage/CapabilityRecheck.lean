import DroneEngage.AcceptedAdverts

/-!
# Checking filled parameters again

The parameters that come out of a check without errors pass it again unchanged:
what was given is checked as before, and what was filled in is a default that
the validator has checked for its parameter.
-/

namespace DroneEngage.Capabilities

variable {library : JsonLibrary}

theorem collect_eq_nil {α : Type} {check : α → Except JsonException (List String)}
    {entries : List α} :
    collect check entries = .ok [] ↔ ∀ entry ∈ entries, check entry = .ok [] := by
  induction entries with
  | nil => simp [collect]
  | cons entry rest ih =>
      rw [collect, List.forall_mem_cons, ← ih]
      simp only [bind_eq_ok, Except.ok.injEq, List.append_eq_nil_iff]
      constructor
      · rintro ⟨errors, checked, more, collected, rfl, rfl⟩
        exact ⟨checked, collected⟩
      · rintro ⟨checked, collected⟩
        exact ⟨[], checked, [], collected, rfl, rfl⟩

def WithinBounds (param value : Json) : Prop :=
  (∀ minimum, numberMember? param "min" = some minimum →
    value.toDouble.lt minimum.toDouble = false) ∧
  ∀ maximum, numberMember? param "max" = some maximum →
    maximum.toDouble.lt value.toDouble = false

def IsChoice (param value : Json) : Prop :=
  ∃ allowed ∈ ((param.member? "values").getD (.array [])).elements,
    allowed.equal value = true

/-- A field that an object may lack. -/
def MayBeAbsent (field : Json) : Prop :=
  ∃ optional, field.value Json.getBoolean "optional" false = .ok optional ∧
    (optional = true ∨ field.contains "default" = true)

/-- A value fits a parameter, given what fits one level below. -/
def ConformsWith (descend : Option (Json → Json → Prop)) (param value : Json) : Prop :=
  match (paramTypes param).find? (capValueMatches value), descend with
  | none, _ => False
  | some .int, _ | some .number, _ => WithinBounds param value
  | some .enum, _ => IsChoice param value
  | some .array, some descend =>
      ∀ items, param.member? "items" = some items →
        ∀ element ∈ value.elements, descend items element
  | some .object, some descend =>
      ∀ fields, param.member? "fields" = some fields →
        ¬ Throws fields.members ∧ ∀ entry ∈ objectMembers fields,
          match value.member? entry.1 with
          | some inner => descend entry.2 inner
          | none => MayBeAbsent entry.2
  | _, _ => True

/-- A value fits a parameter, down to the given number of levels. -/
def Conforms : Nat → Json → Json → Prop
  | 0 => ConformsWith none
  | levels + 1 => ConformsWith (some (Conforms levels))

theorem boundErrors_eq_nil {param value : Json} {path : String} :
    boundErrors library param value path = [] ↔ WithinBounds param value := by
  unfold boundErrors WithinBounds
  cases numberMember? param "min" <;> cases numberMember? param "max" <;> simp

theorem choiceErrors_eq_nil {param value : Json} {path : String} :
    choiceErrors param value path = [] ↔ IsChoice param value := by
  simp [choiceErrors, IsChoice]

theorem fieldErrors_eq_nil {descend : Json → Json → String → Except JsonException (List String)}
    {value : Json} {path : String} {entry : String × Json} :
    fieldErrors descend value path entry = .ok [] ↔
      match value.member? entry.1 with
      | some inner => descend entry.2 inner (path ++ "." ++ entry.1) = .ok []
      | none => MayBeAbsent entry.2 := by
  unfold fieldErrors MayBeAbsent
  cases value.member? entry.1 with
  | some inner => rfl
  | none =>
      simp only [bind_eq_ok]
      refine exists_congr fun optional => and_congr_right fun _ => ?_
      cases optional <;> cases entry.2.contains "default" <;> simp

theorem forall_mem_zipIdx {α : Type} {holds : α → Prop} {entries : List α} :
    (∀ entry ∈ entries.zipIdx, holds entry.1) ↔ ∀ entry ∈ entries, holds entry := by
  conv_rhs => rw [← List.zipIdx_map_fst 0 entries]
  simp only [List.forall_mem_map]

theorem checkValueWith_eq_nil
    {descend : Option (Json → Json → String → Except JsonException (List String))}
    {fits : Option (Json → Json → Prop)}
    (same : Option.Rel (fun check fit => ∀ param value path,
      check param value path = .ok [] ↔ fit param value) descend fits)
    {param value : Json} {path : String} :
    checkValueWith library descend param value path = .ok [] ↔
      ConformsWith fits param value := by
  unfold checkValueWith ConformsWith paramTypes
  cases capTypeList param with
  | none => cases fits <;> simp
  | some types =>
      cases types with
      | nil => cases fits <;> simp
      | cons type others =>
          simp only [matchedType, Option.getD_some]
          cases ((type :: others).filterMap CapType.ofName?).find? (capValueMatches value) with
          | none => cases fits <;> simp
          | some taken =>
              cases same with
              | none =>
                  cases taken <;> simp [boundErrors_eq_nil, choiceErrors_eq_nil]
              | some same =>
                  cases taken <;> simp only [Except.ok.injEq, boundErrors_eq_nil,
                    choiceErrors_eq_nil]
                  case array =>
                    cases param.member? "items" with
                    | none => simp
                    | some items =>
                        simp only [collect_eq_nil, same, Option.some.injEq, forall_eq',
                          forall_mem_zipIdx]
                  case object =>
                    cases param.member? "fields" with
                    | none => simp
                    | some fields =>
                        simp only [bind_eq_ok, Option.some.injEq, forall_eq',
                          collect_eq_nil, fieldErrors_eq_nil, same]
                        by_cases unreadable : Throws fields.members
                        · obtain ⟨exception, threw⟩ := unreadable
                          simp [threw]
                        · simp [members_eq_of_not_throws unreadable]

/-- The checker finds no error exactly where the value fits. -/
theorem capCheckValue_eq_nil {levels : Nat} {param value : Json} {path : String} :
    capCheckValue library levels param value path = .ok [] ↔
      Conforms levels param value := by
  induction levels generalizing param value path with
  | zero => exact checkValueWith_eq_nil .none
  | succ levels ih =>
      have same : Option.Rel
          (fun (check : Json → Json → String → Except JsonException (List String)) fit =>
            ∀ param value path, check param value path = .ok [] ↔ fit param value)
          (some (capCheckValue library levels)) (some (Conforms levels)) :=
        .some fun _ _ _ => ih
      exact checkValueWith_eq_nil same

/-- The default that is filled in for a parameter, if it has one and no value is
given. -/
def filledIn (given : Json) (name : String) (param : Json) : Option Json :=
  if (given.member? name).isSome then none else param.member? "default"

/-- What one parameter of the schema adds: nothing where a value is given, its
default, or nothing where it is optional or missing. -/
theorem checkParam_cases {given param : Json} {name : String} {errors : List String}
    {filled next : List (String × Json)}
    (checked : checkParam library given filled name param = .ok (errors, next)) :
    (∃ value, given.member? name = some value ∧
      capCheckValue library 4 param value name = .ok errors ∧ next = filled) ∨
    (∃ fallback, given.member? name = none ∧ param.member? "default" = some fallback ∧
      next = Json.insertMember name fallback filled) ∨
    (given.member? name = none ∧ param.member? "default" = none ∧ next = filled ∧
      (errors = [] → param.value Json.getBoolean "optional" false = .ok true)) := by
  unfold checkParam at checked
  split at checked
  · rename_i value present
    obtain ⟨found, checkedValue, same⟩ := bind_eq_ok.mp checked
    cases same
    exact .inl ⟨value, present, checkedValue, rfl⟩
  · rename_i absent
    split at checked
    · rename_i fallback present
      cases checked
      exact .inr (.inl ⟨fallback, absent, present, rfl⟩)
    · rename_i noDefault
      obtain ⟨optional, read, same⟩ := bind_eq_ok.mp checked
      cases optional with
      | true =>
          cases same
          exact .inr (.inr ⟨absent, noDefault, rfl, fun _ => read⟩)
      | false =>
          cases same
          exact .inr (.inr ⟨absent, noDefault, rfl, by simp⟩)

theorem checkParam_lookup {given param : Json} {name : String} {errors : List String}
    {filled next : List (String × Json)}
    (checked : checkParam library given filled name param = .ok (errors, next))
    (key : String) :
    next.lookup key =
      (if key = name then filledIn given name param else none).or (filled.lookup key) := by
  unfold filledIn
  obtain ⟨value, present, -, rfl⟩ | ⟨fallback, absent, present, rfl⟩ |
    ⟨absent, noDefault, rfl, -⟩ := checkParam_cases checked
  · simp [present]
  · rw [Json.lookup_insertMember, absent, present]
    by_cases same : key = name <;> simp [same]
  · simp [absent, noDefault]

theorem checkEachParam_cons {given : Json} {entry : String × Json}
    {rest filled result : List (String × Json)} {errors : List String}
    (checked : checkEachParam library given (entry :: rest) filled = .ok (errors, result)) :
    ∃ first next more, checkParam library given filled entry.1 entry.2 = .ok (first, next) ∧
      checkEachParam library given rest next = .ok (more, result) ∧
        errors = first ++ more := by
  rw [checkEachParam] at checked
  obtain ⟨⟨first, next⟩, head, checked⟩ := bind_eq_ok.mp checked
  obtain ⟨⟨more, last⟩, tail, same⟩ := bind_eq_ok.mp checked
  cases same
  exact ⟨first, next, more, head, tail, rfl⟩

theorem checkEachParam_lookup {given : Json} {schema filled result : List (String × Json)}
    {errors : List String}
    (sorted : schema.Pairwise fun left right => Json.keyBefore left.1 right.1)
    (checked : checkEachParam library given schema filled = .ok (errors, result))
    (key : String) :
    result.lookup key =
      ((schema.lookup key).bind (filledIn given key)).or (filled.lookup key) := by
  induction schema generalizing filled errors with
  | nil =>
      cases checked
      simp
  | cons entry rest ih =>
      obtain ⟨first, next, more, head, tail, -⟩ := checkEachParam_cons checked
      have fresh := Json.lookup_tail sorted
      rw [ih sorted.of_cons tail, checkParam_lookup head, Json.lookup_cons_eq_ite]
      by_cases same : key = entry.1
      · subst same
        simp [fresh]
      · simp [same]

/-- What the check of a parameter without errors has found. -/
def Settled (given : Json) (entry : String × Json) : Prop :=
  match given.member? entry.1 with
  | some value => Conforms 4 entry.2 value
  | none => entry.2.member? "default" = none →
      entry.2.value Json.getBoolean "optional" false = .ok true

theorem checkParam_errors_iff {given param : Json} {name : String} {errors : List String}
    {filled next : List (String × Json)}
    (checked : checkParam library given filled name param = .ok (errors, next)) :
    errors = [] ↔ Settled given (name, param) := by
  unfold checkParam at checked
  unfold Settled
  dsimp only
  cases present : given.member? name with
  | some value =>
      simp only [present] at checked ⊢
      obtain ⟨found, checkedValue, same⟩ := bind_eq_ok.mp checked
      cases same
      rw [← @capCheckValue_eq_nil library 4 param value name, checkedValue, Except.ok.injEq]
  | none =>
      simp only [present] at checked ⊢
      cases fallback : param.member? "default" with
      | some value =>
          simp only [fallback] at checked
          cases checked
          simp
      | none =>
          simp only [fallback] at checked
          obtain ⟨optional, read, same⟩ := bind_eq_ok.mp checked
          cases optional <;> cases same <;> simp [read]

/-- The loop over the schema finds no error exactly where every parameter is settled. -/
theorem checkEachParam_errors_iff {given : Json} {schema filled result : List (String × Json)}
    {errors : List String}
    (checked : checkEachParam library given schema filled = .ok (errors, result)) :
    errors = [] ↔ ∀ entry ∈ schema, Settled given entry := by
  induction schema generalizing filled errors with
  | nil =>
      cases checked
      simp
  | cons entry rest ih =>
      obtain ⟨first, next, more, head, tail, rfl⟩ := checkEachParam_cons checked
      rw [List.append_eq_nil_iff, List.forall_mem_cons, checkParam_errors_iff head, ih tail]

theorem checkEachParam_settled {given : Json} {schema filled result : List (String × Json)}
    (checked : checkEachParam library given schema filled = .ok ([], result)) :
    ∀ entry ∈ schema, Settled given entry :=
  (checkEachParam_errors_iff checked).mp rfl

/-- A schema whose parameters are each settled without a default changes nothing. -/
theorem checkEachParam_eq {given : Json} {schema filled : List (String × Json)}
    (settled : ∀ entry ∈ schema, Settled given entry)
    (noDefault : ∀ entry ∈ schema, given.member? entry.1 = none →
      entry.2.member? "default" = none) :
    checkEachParam library given schema filled = .ok ([], filled) := by
  induction schema with
  | nil => rfl
  | cons entry rest ih =>
      have head : checkParam library given filled entry.1 entry.2 = .ok ([], filled) := by
        have settled := settled entry List.mem_cons_self
        have noDefault := noDefault entry List.mem_cons_self
        unfold Settled at settled
        unfold checkParam
        cases present : given.member? entry.1 with
        | some value =>
            simp only [present] at settled
            simp only [capCheckValue_eq_nil.mpr settled]
            rfl
        | none =>
            simp only [present, noDefault present, forall_const] at settled ⊢
            simp only [settled]
            rfl
      have tail := ih (fun other listed => settled other (List.mem_cons_of_mem _ listed))
        fun other listed => noDefault other (List.mem_cons_of_mem _ listed)
      rw [checkEachParam, head]
      simp only [Bind.bind, Except.bind, tail]
      rfl

/-- A check without errors: every given parameter is one of the schema, and the
loop over the schema has found nothing. -/
theorem capCheckParams_clean {schema : List (String × Json)} {given filled : Json}
    (checked : capCheckParams library (.object schema) given = .ok ([], filled)) :
    ∃ result, filled = .object result ∧
      checkEachParam library given schema (objectMembers given) = .ok ([], result) ∧
        ∀ entry ∈ objectMembers given, (Json.object schema).contains entry.1 = true := by
  rw [capCheckParams] at checked
  obtain ⟨⟨errors, result⟩, loop, same⟩ := bind_eq_ok.mp checked
  simp only [Except.ok.injEq, Prod.mk.injEq, List.append_eq_nil_iff,
    List.filterMap_eq_nil_iff] at same
  obtain ⟨⟨⟨-, known⟩, rfl⟩, rfl⟩ := same
  exact ⟨result, rfl, loop, fun entry listed => by simpa using known entry listed⟩

/-- A default that the validator let pass fits its parameter. -/
theorem conforms_of_validated {levels : Nat} {param fallback : Json} {path : String}
    (succeeds : ∀ check ∈ capValidateParam (levels + 1) param path,
      check.run library = .valid)
    (given : param.member? "default" = some fallback) : Conforms 4 param fallback := by
  have listed : Check.checkDefault path param fallback ∈
      capValidateParam (levels + 1) param path ∨
        .require false (path ++ ": missing or invalid 'type'") ∈
          capValidateParam (levels + 1) param path := by
    rw [capValidateParam]
    split
    · simp
    · simp
    · exact .inl (List.mem_cons_of_mem _ (List.mem_append_right _
        (mem_onMember given (List.mem_singleton_self _))))
  rcases listed with checked | typeless
  · have passed := succeeds _ checked
    rw [Check.run] at passed
    split at passed
    · rename_i filled clean
      obtain ⟨result, -, loop, -⟩ := capCheckParams_clean clean
      have settled := checkEachParam_settled loop (path, param) (List.mem_singleton_self _)
      simpa [Settled, Json.member?] using settled
    · cases passed
    · cases passed
  · exact absurd (run_require_iff.mp (succeeds _ typeless)) Bool.false_ne_true

theorem lookup_objectMembers (given : Json) (key : String) :
    (objectMembers given).lookup key = given.member? key := by
  cases given <;> rfl

theorem known_filled {schema result : List (String × Json)} {given : Json}
    (sorted : schema.Pairwise fun left right => Json.keyBefore left.1 right.1)
    (loop : checkEachParam library given schema (objectMembers given) = .ok ([], result))
    (known : ∀ entry ∈ objectMembers given, (Json.object schema).contains entry.1 = true) :
    ∀ entry ∈ result, (Json.object schema).contains entry.1 = true := by
  intro entry listed
  by_contra unknown
  have missing : schema.lookup entry.1 = none := Option.not_isSome_iff_eq_none.mp unknown
  have notGiven : (objectMembers given).lookup entry.1 = none := by
    apply List.lookup_eq_none_iff.mpr
    intro other member
    rw [bne_iff_ne]
    intro same
    exact unknown (same ▸ known other member)
  have absent := checkEachParam_lookup sorted loop entry.1
  rw [missing, notGiven] at absent
  simpa using List.lookup_eq_none_iff.mp absent entry listed

/-- What is filled in under a declared key: the value given for it or, without
one, the default. -/
theorem member?_filled {schema result : List (String × Json)} {given param : Json}
    {key : String} {errors : List String}
    (sorted : schema.Pairwise fun left right => Json.keyBefore left.1 right.1)
    (loop : checkEachParam library given schema (objectMembers given) = .ok (errors, result))
    (declared : schema.lookup key = some param) :
    (Json.object result).member? key = (given.member? key).or (param.member? "default") := by
  rw [Json.member?, checkEachParam_lookup sorted loop, declared, lookup_objectMembers,
    Option.bind_some, filledIn]
  cases given.member? key <;> simp

/-- Parameters that were checked without errors pass the check again as they
are. -/
theorem capCheckParams_again {schema : List (String × Json)} {given filled : Json}
    (sorted : schema.Pairwise fun left right => Json.keyBefore left.1 right.1)
    (defaults : ∀ entry ∈ schema, ∀ fallback, entry.2.member? "default" = some fallback →
      Conforms 4 entry.2 fallback)
    (checked : capCheckParams library (.object schema) given = .ok ([], filled)) :
    capCheckParams library (.object schema) filled = .ok ([], filled) := by
  obtain ⟨result, rfl, loop, known⟩ := capCheckParams_clean checked
  -- a parameter that was given is kept, the others get their defaults
  have filledWith : ∀ entry ∈ schema, (Json.object result).member? entry.1 =
      (given.member? entry.1).or (entry.2.member? "default") := by
    intro entry listed
    exact member?_filled sorted loop (Json.lookup_of_mem sorted listed)
  have settled : ∀ entry ∈ schema, Settled (.object result) entry := by
    intro entry listed
    have before := checkEachParam_settled loop entry listed
    unfold Settled at before ⊢
    rw [filledWith entry listed]
    cases present : given.member? entry.1 with
    | some value => simpa [present] using before
    | none =>
        cases fallback : entry.2.member? "default" with
        | some value => exact defaults entry listed value fallback
        | none => simpa [present, fallback] using before
  have noDefault : ∀ entry ∈ schema, (Json.object result).member? entry.1 = none →
      entry.2.member? "default" = none := by
    intro entry listed absent
    rw [filledWith entry listed, Option.or_eq_none_iff] at absent
    exact absent.2
  have noUnknown : (result.filterMap fun entry =>
      if (Json.object schema).contains entry.1 then none
      else some (entry.1 ++ ": unknown param")) = [] := by
    apply List.filterMap_eq_nil_iff.mpr
    intro entry listed
    rw [if_pos (known_filled sorted loop known entry listed)]
  rw [capCheckParams, objectMembers, checkEachParam_eq settled noDefault]
  simp only [Bind.bind, Except.bind, noUnknown]
  rfl

end DroneEngage.Capabilities
