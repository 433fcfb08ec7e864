import DroneEngage.CapabilityNesting

/-!
# The checker reaches every level

The validator rejects parameters that are nested deeper than the checker descends.
So on the parameters of a valid advert the checker agrees with the rules that hold
at every level, without a limit.
-/

namespace DroneEngage.Capabilities

/-- A field or parameter that need not be given. -/
def MayOmit (param : Json) : Prop :=
  param.contains "default" = true ∨ param.value Json.getBoolean "optional" false = .ok true

/-- A value fits a parameter, and whatever is nested in it fits what is declared for it,
to every level. -/
inductive Fits : Json → Json → Prop
  | scalar {param value : Json} {type : CapType}
      (taken : (paramTypes param).find? (capValueMatches value) = some type)
      (simple : type = .bool ∨ type = .string ∨ type = .geo) : Fits param value
  | number {param value : Json} {type : CapType}
      (taken : (paramTypes param).find? (capValueMatches value) = some type)
      (numeric : type = .int ∨ type = .number)
      (bounds : WithinBounds param value) : Fits param value
  | enum {param value : Json}
      (taken : (paramTypes param).find? (capValueMatches value) = some .enum)
      (choice : IsChoice param value) : Fits param value
  | array {param value : Json}
      (taken : (paramTypes param).find? (capValueMatches value) = some .array)
      (elements : ∀ items, param.member? "items" = some items →
        ∀ element ∈ value.elements, Fits items element) : Fits param value
  | object {param value : Json}
      (taken : (paramTypes param).find? (capValueMatches value) = some .object)
      (present : ∀ fields, param.member? "fields" = some fields →
        ∀ entry ∈ objectMembers fields, ∀ inner, value.member? entry.1 = some inner →
          Fits entry.2 inner)
      (absent : ∀ fields, param.member? "fields" = some fields →
        ∀ entry ∈ objectMembers fields, value.member? entry.1 = none → MayOmit entry.2) :
      Fits param value

/-- Parameters conform to a map of parameters: none is unknown, each that is given
fits, and the others need not be given. -/
structure ParamsFit (params given : Json) : Prop where
  declared : ∀ entry ∈ objectMembers given, params.contains entry.1 = true
  present : ∀ entry ∈ objectMembers params, ∀ value,
    given.member? entry.1 = some value → Fits entry.2 value
  absent : ∀ entry ∈ objectMembers params, given.member? entry.1 = none → MayOmit entry.2

/-- The members of a section of an advert. -/
def sectionOf (advert : Json) (key : String) : List (String × Json) :=
  (advert.member? key).elim [] objectMembers

/-- The maps of parameters in an advert. -/
inductive ParamMapOf (advert params : Json) : Prop
  | action {entry : String × Json} (listed : entry ∈ actionsOf advert)
      (present : entry.2.member? "params" = some params)
  | event {entry : String × Json} (listed : entry ∈ sectionOf advert "events")
      (present : entry.2.member? "payload" = some params)
  | pattern {entry : String × Json} (listed : entry ∈ sectionOf advert "event_patterns")
      (present : entry.2.member? "payload" = some params)
  | state (present : advert.member? "state" = some params)

variable {library : JsonLibrary}

theorem mem_sectionChecks {advert : Json} {key : String} {each : String → Json → List Check}
    {entry : String × Json} {check : Check} (listed : entry ∈ sectionOf advert key)
    (member : check ∈ each entry.1 entry.2) :
    check ∈ onMember advert key (sectionChecks key each) := by
  cases present : advert.member? key with
  | none => simp [sectionOf, present] at listed
  | some entries =>
      rw [sectionOf, present] at listed
      apply mem_onMember present
      exact List.mem_cons_of_mem _ (List.mem_flatMap.mpr ⟨entry, listed, member⟩)

/-- Every map of parameters in an advert is checked by the validator. -/
theorem ParamMapOf.checked {advert params : Json} (inside : ParamMapOf advert params) :
    ∃ path, ∀ check ∈ capValidateParamMap params path, check ∈ advertChecks advert := by
  cases inside with
  | @action entry listed present =>
      refine ⟨"actions." ++ entry.1 ++ ".params", fun check member => ?_⟩
      have checked : check ∈ onMember advert "actions" (sectionChecks "actions" actionChecks) :=
        mem_sectionChecks listed (List.mem_append_right _ (mem_onMember present member))
      simp only [advertChecks, List.mem_append]
      tauto
  | @event entry listed present =>
      refine ⟨"events." ++ entry.1 ++ ".payload", fun check member => ?_⟩
      have checked : check ∈ onMember advert "events" (sectionChecks "events" eventChecks) :=
        mem_sectionChecks listed (List.mem_append_right _ (mem_onMember present member))
      simp only [advertChecks, List.mem_append]
      tauto
  | @pattern entry listed present =>
      refine ⟨"event_patterns." ++ entry.1 ++ ".payload", fun check member => ?_⟩
      have checked : check ∈
          onMember advert "event_patterns" (sectionChecks "event_patterns" patternChecks) := by
        apply mem_sectionChecks listed
        exact List.mem_append_right _ (List.mem_cons_of_mem _ (mem_onMember present member))
      simp only [advertChecks, List.mem_append]
      tauto
  | state present =>
      refine ⟨"state", fun check member => ?_⟩
      have checked : check ∈ onMember advert "state" fun state =>
          capValidateParamMap state "state" :=
        mem_onMember present member
      simp only [advertChecks, List.mem_append]
      tauto

/-- The maps of parameters in a valid advert are objects, and each of their parameters
has passed the validator. -/
theorem ParamMapOf.passesValidation {advert params : Json}
    (inside : ParamMapOf advert params) (valid : capValidateAdvert library advert = .valid) :
    ∃ schema, params = .object schema ∧ ∀ entry ∈ schema, PassesValidation library 5 entry.2 := by
  obtain ⟨path, checked⟩ := inside.checked
  have succeeds : ∀ check ∈ capValidateParamMap params path, check.run library = .valid :=
    fun check member => runChecks_eq_valid_iff.mp valid check (checked check member)
  rw [capValidateParamMap, List.forall_mem_cons] at succeeds
  cases params with
  | object schema =>
      refine ⟨schema, rfl, fun entry listed => ⟨path ++ "." ++ entry.1, fun check member => ?_⟩⟩
      apply succeeds.2 check
      exact List.mem_flatMap.mpr ⟨entry, listed, List.mem_cons_of_mem _ member⟩
  | _ => simp [Json.isObject] at succeeds

theorem mayOmit_of_mayBeAbsent {field : Json} (absent : MayBeAbsent field) : MayOmit field := by
  obtain ⟨optional, read, rfl | withDefault⟩ := absent
  · exact .inr read
  · exact .inl withDefault

theorem mayBeAbsent_of_mayOmit {field : Json} (readable : OptionalReadable field)
    (omitted : MayOmit field) : MayBeAbsent field := by
  have reads : ¬ Throws (field.value Json.getBoolean "optional" false) :=
    fun throws => throws_value_optional.mp throws readable
  obtain ⟨optional, read⟩ := not_throws_iff.mp reads
  refine ⟨optional, read, ?_⟩
  rcases omitted with withDefault | isOptional
  · exact .inr withDefault
  · exact .inl (Except.ok.inj (read.symm.trans isOptional))

/-- What a value takes of its parameter fits, where it is of no nested type. -/
theorem fits_of_conformsWith {descend : Option (Json → Json → Prop)} {param value : Json}
    (conforms : ConformsWith descend param value)
    (array : (paramTypes param).find? (capValueMatches value) = some .array → Fits param value)
    (object : (paramTypes param).find? (capValueMatches value) = some .object →
      Fits param value) :
    Fits param value := by
  cases taken : (paramTypes param).find? (capValueMatches value) with
  | none => simp [ConformsWith, taken] at conforms
  | some type =>
      simp only [ConformsWith, taken] at conforms
      cases type with
      | bool => exact .scalar taken (.inl rfl)
      | string => exact .scalar taken (.inr (.inl rfl))
      | geo => exact .scalar taken (.inr (.inr rfl))
      | int => exact .number taken (.inl rfl) conforms
      | number => exact .number taken (.inr rfl) conforms
      | enum => exact .enum taken conforms
      | array => exact array taken
      | object => exact object taken

/-- A value that fits down to the levels that the validator allows fits to every
level: below them nothing is declared. -/
theorem fits_of_conforms {levels : Nat} {param value : Json}
    (passes : PassesValidation library (levels + 1) param)
    (conforms : Conforms levels param value) : Fits param value := by
  induction levels generalizing param value with
  | zero =>
      refine fits_of_conformsWith conforms (fun taken => ?_) fun taken => ?_
      · have typed := List.mem_of_find?_eq_some taken
        refine .array taken fun items declared => ?_
        exact absurd (passes.items typed declared) not_passesValidation_zero
      · have typed := List.mem_of_find?_eq_some taken
        refine .object taken (fun fields declared entry listed => ?_)
          fun fields declared entry listed => ?_
        · exact absurd (passes.entry typed declared listed) not_passesValidation_zero
        · exact absurd (passes.entry typed declared listed) not_passesValidation_zero
  | succ levels ih =>
      refine fits_of_conformsWith conforms (fun taken => ?_) fun taken => ?_
      · have typed := List.mem_of_find?_eq_some taken
        simp only [Conforms, ConformsWith, taken] at conforms
        refine .array taken fun items declared element listed => ?_
        exact ih (passes.items typed declared) (conforms items declared element listed)
      · have typed := List.mem_of_find?_eq_some taken
        simp only [Conforms, ConformsWith, taken] at conforms
        refine .object taken (fun fields declared entry listed inner present => ?_)
          fun fields declared entry listed absent => ?_
        · have below := (conforms fields declared).2 entry listed
          rw [present] at below
          exact ih (passes.entry typed declared listed) below
        · have below := (conforms fields declared).2 entry listed
          rw [absent] at below
          exact mayOmit_of_mayBeAbsent below

/-- What fits conforms, where it is of no nested type. -/
theorem Fits.conformsWith {descend : Option (Json → Json → Prop)} {param value : Json}
    (fits : Fits param value)
    (array : (paramTypes param).find? (capValueMatches value) = some .array →
      (∀ items, param.member? "items" = some items →
        ∀ element ∈ value.elements, Fits items element) →
      ConformsWith descend param value)
    (object : (paramTypes param).find? (capValueMatches value) = some .object →
      (∀ fields, param.member? "fields" = some fields →
        ∀ entry ∈ objectMembers fields, ∀ inner, value.member? entry.1 = some inner →
          Fits entry.2 inner) →
      (∀ fields, param.member? "fields" = some fields →
        ∀ entry ∈ objectMembers fields, value.member? entry.1 = none → MayOmit entry.2) →
      ConformsWith descend param value) :
    ConformsWith descend param value := by
  cases fits with
  | scalar taken simple =>
      rcases simple with rfl | rfl | rfl <;> simp [ConformsWith, taken]
  | number taken numeric bounds =>
      rcases numeric with rfl | rfl <;> simpa [ConformsWith, taken] using bounds
  | enum taken choice => simpa [ConformsWith, taken] using choice
  | array taken elements => exact array taken elements
  | object taken present absent => exact object taken present absent

/-- A value that fits to every level fits down to any number of levels, unless the
checker throws on the way. -/
theorem conforms_of_fits {levels : Nat} {param value : Json} (fits : Fits param value)
    (readable : ¬ ReadsBadOptional levels param value) : Conforms levels param value := by
  induction levels generalizing param value with
  | zero =>
      refine fits.conformsWith (fun taken _ => ?_) fun taken _ _ => ?_
      · simp [ConformsWith, taken]
      · simp [ConformsWith, taken]
  | succ levels ih =>
      refine fits.conformsWith (fun taken elements => ?_) fun taken present absent => ?_
      · simp only [ReadsBadOptional, taken] at readable
        simp only [ConformsWith, taken]
        intro items declared element listed
        apply ih (elements items declared element listed)
        exact fun bad => readable ⟨items, declared, element, listed, bad⟩
      · simp only [ReadsBadOptional, taken] at readable
        simp only [ConformsWith, taken]
        intro fields declared
        constructor
        · exact fun throws => readable ⟨fields, declared, .inl throws⟩
        · intro entry listed
          cases found : value.member? entry.1 with
          | some inner =>
              apply ih (present fields declared entry listed inner found)
              intro bad
              exact readable ⟨fields, declared, .inr ⟨entry, listed, by simpa [found] using bad⟩⟩
          | none =>
              apply mayBeAbsent_of_mayOmit _ (absent fields declared entry listed found)
              by_contra bad
              exact readable ⟨fields, declared, .inr ⟨entry, listed, by simpa [found] using bad⟩⟩

/-- A parameter on which the check does not throw is settled exactly where its value
fits, or it need not be given. -/
theorem settled_iff {given : Json} {entry : String × Json}
    (passes : PassesValidation library 5 entry.2) (quiet : ¬ ParamThrows given entry) :
    Settled given entry ↔
      (∀ value, given.member? entry.1 = some value → Fits entry.2 value) ∧
        (given.member? entry.1 = none → MayOmit entry.2) := by
  unfold Settled
  unfold ParamThrows at quiet
  cases present : given.member? entry.1 with
  | some value =>
      simp only [present] at quiet
      simp only [Option.some.injEq, forall_eq', reduceCtorEq, false_implies, and_true]
      constructor
      · exact fits_of_conforms passes
      · exact fun fits => conforms_of_fits fits quiet
  | none =>
      simp only [reduceCtorEq, false_implies, implies_true, true_and, forall_const]
      unfold MayOmit Json.contains
      cases entry.2.member? "default" <;> simp

/-- On the parameters of a valid advert, the check ends without errors exactly where
what is given conforms at every level, unless it throws. -/
theorem errors_eq_nil_iff_paramsFit {advert params given filled : Json} {errors : List String}
    (valid : capValidateAdvert library advert = .valid) (inside : ParamMapOf advert params)
    (object : given.isObject = true)
    (checked : capCheckParams library params given = .ok (errors, filled)) :
    errors = [] ↔ ParamsFit params given := by
  obtain ⟨schema, rfl, passes⟩ := inside.passesValidation valid
  have quiet : ∀ entry ∈ schema, ¬ ParamThrows given entry := by
    intro entry listed throws
    have threw := (throws_capCheckParams library).mpr ⟨entry, listed, throws⟩
    rw [checked] at threw
    exact not_throws_ok _ threw
  rw [capCheckParams] at checked
  obtain ⟨⟨found, result⟩, loop, same⟩ := bind_eq_ok.mp checked
  cases same
  have known : (objectMembers given).filterMap (fun entry =>
      if (Json.object schema).contains entry.1 then none
      else some (entry.1 ++ ": unknown param")) = [] ↔
        ∀ entry ∈ objectMembers given, (Json.object schema).contains entry.1 = true := by
    rw [List.filterMap_eq_nil_iff]
    refine forall_congr' fun entry => forall_congr' fun _ => ?_
    cases (Json.object schema).contains entry.1 <;> simp
  have settled : (∀ entry ∈ schema, Settled given entry) ↔ ∀ entry ∈ schema,
      (∀ value, given.member? entry.1 = some value → Fits entry.2 value) ∧
        (given.member? entry.1 = none → MayOmit entry.2) :=
    forall_congr' fun entry => forall_congr' fun listed =>
      settled_iff (passes entry listed) (quiet entry listed)
  simp only [object, Bool.not_true, Bool.and_false, Bool.false_eq_true, if_false,
    List.nil_append, List.append_eq_nil_iff]
  rw [known, checkEachParam_errors_iff loop, settled]
  constructor
  · rintro ⟨declared, each⟩
    exact ⟨declared, fun entry listed => (each entry listed).1,
      fun entry listed => (each entry listed).2⟩
  · intro fit
    exact ⟨fit.declared, fun entry listed =>
      ⟨fit.present entry listed, fit.absent entry listed⟩⟩

/-- A parameter whose values are lists of lenses. -/
def presetsParam : Json :=
  .object [("items", lensParam), ("type", .string "array")]

/-- The objects in a list inside a parameter are checked field by field; the second one
leaves out the field with a default. -/
theorem errors_eq_nil_iff_paramsFit_presets :
    ParamsFit (paramsSchema (captureWith presetsParam))
      (.object [("zoom", .array [.object [("speed", .numberUnsigned 2)], .object []])]) := by
  have valid : capValidateAdvert lensLibrary (captureAdvert presetsParam) = .valid := by
    decide +kernel
  have inside : ParamMapOf (captureAdvert presetsParam)
      (paramsSchema (captureWith presetsParam)) :=
    .action (List.mem_singleton_self ("capture", captureWith presetsParam)) rfl
  have checked : capCheckParams lensLibrary (paramsSchema (captureWith presetsParam))
      (.object [("zoom", .array [.object [("speed", .numberUnsigned 2)], .object []])]) =
        .ok ([], .object [("zoom", .array [.object [("speed", .numberUnsigned 2)],
          .object []])]) :=
    rfl
  exact (errors_eq_nil_iff_paramsFit valid inside rfl checked).mp rfl

end DroneEngage.Capabilities
