import DroneEngage.CapabilityAdverts

/-!
# Where validator and checker throw

The only member that both read with a fixed type and never check is
`optional`.  The checker throws exactly on the values that make it read an
`optional` that is not a boolean, and the validator on the defaults that do so
before it has met an error.
-/

namespace DroneEngage.Capabilities

section Throws

variable {α β : Type}

/-- The call ends in an exception. -/
def Throws (result : Except JsonException α) : Prop :=
  ∃ exception, result = .error exception

@[simp]
theorem not_throws_ok (value : α) : ¬ Throws (.ok value) := by
  rintro ⟨exception, same⟩
  cases same

@[simp]
theorem throws_error (exception : JsonException) :
    Throws (.error exception : Except JsonException α) :=
  ⟨exception, rfl⟩

theorem not_throws_iff {result : Except JsonException α} :
    ¬ Throws result ↔ ∃ value, result = .ok value := by
  cases result <;> simp

/-- A sequence of calls returns when each of them does. -/
theorem bind_eq_ok {first : Except JsonException α} {next : α → Except JsonException β}
    {result : β} :
    (first >>= next) = .ok result ↔ ∃ value, first = .ok value ∧ next value = .ok result := by
  cases first with
  | ok value => simp [Bind.bind, Except.bind]
  | error exception => simp [Bind.bind, Except.bind]

theorem throws_bind {first : Except JsonException α}
    {next : α → Except JsonException β} :
    Throws (first >>= next) ↔
      Throws first ∨ ∃ value, first = .ok value ∧ Throws (next value) := by
  cases first with
  | ok value => simp [Bind.bind, Except.bind]
  | error exception => simp [Bind.bind, Except.bind]

/-- What follows the call does not throw, so only the call itself can. -/
theorem throws_bind_ok {first : Except JsonException α} {next : α → β} :
    Throws (first >>= fun value => .ok (next value)) ↔ Throws first := by
  simp [throws_bind]

theorem throws_collect {check : α → Except JsonException (List String)}
    {entries : List α} :
    Throws (collect check entries) ↔ ∃ entry ∈ entries, Throws (check entry) := by
  induction entries with
  | nil => simp [collect]
  | cons entry rest ih =>
      rw [collect, throws_bind]
      simp only [throws_bind_ok, ih, List.exists_mem_cons_iff]
      cases check entry <;> simp

theorem throws_ite_ok {condition : Prop} [Decidable condition] {yes no : α} :
    ¬ Throws (if condition then .ok yes else .ok no) := by
  split <;> simp

end Throws

section Checker

variable (library : JsonLibrary)

/-- `value("optional", false)` can be read. -/
def OptionalReadable (field : Json) : Prop :=
  field.isObject = true ∧
    ∀ found, field.member? "optional" = some found → found.isBoolean = true

theorem throws_value_optional {field : Json} :
    Throws (field.value Json.getBoolean "optional" false) ↔ ¬ OptionalReadable field := by
  cases field with
  | object members =>
      simp only [Json.value, OptionalReadable, Json.isObject, Json.member?, true_and]
      cases members.lookup "optional" with
      | none => simp
      | some found => cases found <;> simp [Json.getBoolean, Json.isBoolean]
  | _ => simp [Json.value, OptionalReadable, Json.isObject]

theorem members_eq_of_not_throws {fields : Json} (readable : ¬ Throws fields.members) :
    fields.members = .ok (objectMembers fields) := by
  cases fields with
  | null => rfl
  | object members => rfl
  | array elements =>
      cases elements with
      | nil => rfl
      | cons first rest => exact absurd (throws_error _) readable
  | _ => exact absurd (throws_error _) readable

/-- The known types that a parameter names, in order. -/
def paramTypes (param : Json) : List CapType :=
  ((capTypeList param).getD []).filterMap CapType.ofName?

/-- Checking the value reads an `optional` that is not a boolean, or meets
fields without keys. -/
def ReadsBadOptional : Nat → Json → Json → Prop
  | 0, _, _ => False
  | levels + 1, param, value =>
      match (paramTypes param).find? (capValueMatches value) with
      | some .array =>
          ∃ items, param.member? "items" = some items ∧
            ∃ element ∈ value.elements, ReadsBadOptional levels items element
      | some .object =>
          ∃ fields, param.member? "fields" = some fields ∧
            (Throws fields.members ∨ ∃ entry ∈ objectMembers fields,
              match value.member? entry.1 with
              | some inner => ReadsBadOptional levels entry.2 inner
              | none => ¬ OptionalReadable entry.2)
      | _ => False

theorem throws_fieldErrors
    {descend : Json → Json → String → Except JsonException (List String)}
    {value : Json} {path : String} {entry : String × Json} :
    Throws (fieldErrors descend value path entry) ↔
      match value.member? entry.1 with
      | some inner => Throws (descend entry.2 inner (path ++ "." ++ entry.1))
      | none => ¬ OptionalReadable entry.2 := by
  unfold fieldErrors
  cases value.member? entry.1 with
  | some inner => rfl
  | none => simp [throws_bind, throws_ite_ok, throws_value_optional]

/-- The checker descends by the type the value takes. -/
theorem checkValueWith_throws
    {descend : Option (Json → Json → String → Except JsonException (List String))}
    {param value : Json} {path : String} :
    Throws (checkValueWith library descend param value path) ↔
      match (paramTypes param).find? (capValueMatches value), descend with
      | some .array, some descend =>
          ∃ items, param.member? "items" = some items ∧ ∃ entry ∈ value.elements.zipIdx,
            Throws (descend items entry.1 (path ++ "[" ++ toString entry.2 ++ "]"))
      | some .object, some descend =>
          ∃ fields, param.member? "fields" = some fields ∧
            (Throws fields.members ∨ ∃ entry ∈ objectMembers fields,
              Throws (fieldErrors descend value path entry))
      | _, _ => False := by
  unfold checkValueWith paramTypes
  cases capTypeList param with
  | none => simp
  | some types =>
      cases types with
      | nil => simp
      | cons type others =>
          simp only [matchedType, Option.getD_some]
          cases ((type :: others).filterMap CapType.ofName?).find? (capValueMatches value) with
          | none => simp
          | some taken =>
              cases taken <;> cases descend <;> simp only [not_throws_ok]
              case array.some descend =>
                cases param.member? "items" with
                | none => simp
                | some items => simp only [throws_collect, Option.some.injEq, exists_eq_left']
              case object.some descend =>
                cases param.member? "fields" with
                | none => simp
                | some fields =>
                    simp only [throws_bind, Option.some.injEq, exists_eq_left']
                    by_cases unreadable : Throws fields.members
                    · simp [unreadable]
                    · simp [members_eq_of_not_throws unreadable, throws_collect]

theorem exists_mem_zipIdx {α : Type} {holds : α → Prop} {entries : List α} :
    (∃ entry ∈ entries.zipIdx, holds entry.1) ↔ ∃ entry ∈ entries, holds entry := by
  conv_rhs => rw [← List.zipIdx_map_fst 0 entries]
  simp only [List.mem_map, exists_exists_and_eq_and]

/-- The checker throws exactly on the values that reach a bad `optional`. -/
theorem throws_capCheckValue {levels : Nat} {param value : Json} {path : String} :
    Throws (capCheckValue library levels param value path) ↔
      ReadsBadOptional levels param value := by
  induction levels generalizing param value path with
  | zero =>
      rw [capCheckValue, checkValueWith_throws, ReadsBadOptional]
      cases (paramTypes param).find? (capValueMatches value) with
      | none => simp
      | some taken => cases taken <;> simp
  | succ levels ih =>
      rw [capCheckValue, checkValueWith_throws, ReadsBadOptional]
      cases (paramTypes param).find? (capValueMatches value) with
      | none => simp
      | some taken =>
          cases taken <;> simp only [throws_fieldErrors, ih]
          case array => simp only [exists_mem_zipIdx]

/-- What makes the check of one parameter throw: the value given for it, or its
own `optional` when there is neither a value nor a default. -/
def ParamThrows (given : Json) (entry : String × Json) : Prop :=
  match given.member? entry.1 with
  | some value => ReadsBadOptional 4 entry.2 value
  | none => entry.2.contains "default" = false ∧ ¬ OptionalReadable entry.2

theorem throws_checkParam {given : Json} {filled : List (String × Json)}
    {entry : String × Json} :
    Throws (checkParam library given filled entry.1 entry.2) ↔ ParamThrows given entry := by
  unfold checkParam ParamThrows Json.contains
  cases given.member? entry.1 with
  | some value => simp [throws_bind_ok, throws_capCheckValue]
  | none =>
      cases entry.2.member? "default" with
      | some fallback => simp
      | none => simp [throws_bind, throws_ite_ok, throws_value_optional]

theorem throws_checkEachParam {given : Json} {schema filled : List (String × Json)} :
    Throws (checkEachParam library given schema filled) ↔
      ∃ entry ∈ schema, ParamThrows given entry := by
  induction schema generalizing filled with
  | nil => simp [checkEachParam]
  | cons entry rest ih =>
      obtain ⟨name, param⟩ := entry
      rw [checkEachParam, throws_bind, List.exists_mem_cons_iff,
        ← @throws_checkParam library given filled (name, param)]
      cases checkParam library given filled name param with
      | error exception => simp
      | ok checked => simp [throws_bind_ok, ih]

theorem throws_capCheckParams {given : Json} {schema : List (String × Json)} :
    Throws (capCheckParams library (.object schema) given) ↔
      ∃ entry ∈ schema, ParamThrows given entry := by
  rw [capCheckParams]
  simp only [throws_bind_ok, throws_checkEachParam]

/-- Every `optional` that the checker can be made to read inside a parameter is
absent or a boolean. -/
def FieldsReadable : Nat → Json → Prop
  | 0, _ => True
  | levels + 1, param =>
      (.array ∈ paramTypes param → ∀ items, param.member? "items" = some items →
        FieldsReadable levels items) ∧
      (.object ∈ paramTypes param → ∀ fields, param.member? "fields" = some fields →
        ¬ Throws fields.members ∧ ∀ entry ∈ objectMembers fields,
          OptionalReadable entry.2 ∧ FieldsReadable levels entry.2)

/-- A value that matches one type only takes this type wherever it is listed. -/
theorem find?_capValueMatches {types : List CapType} {type : CapType} {value : Json}
    (listed : type ∈ types) (fits : capValueMatches value type = true)
    (only : ∀ other, capValueMatches value other = true → other = type) :
    types.find? (capValueMatches value) = some type := by
  cases found : types.find? (capValueMatches value) with
  | none => exact absurd fits (List.find?_eq_none.mp found type listed)
  | some other => rw [only other (List.find?_some found)]

theorem find?_object {types : List CapType} {members : List (String × Json)}
    (listed : .object ∈ types) :
    types.find? (capValueMatches (.object members)) = some .object := by
  refine find?_capValueMatches listed rfl fun other fits => ?_
  cases other <;> first | rfl | cases fits

theorem find?_array {types : List CapType} {element : Json} (listed : .array ∈ types) :
    types.find? (capValueMatches (.array [element])) = some .array := by
  refine find?_capValueMatches listed rfl fun other fits => ?_
  cases other <;> first | rfl | cases fits

theorem not_readsBadOptional {levels : Nat} {param : Json}
    (readable : FieldsReadable levels param) (value : Json) :
    ¬ ReadsBadOptional levels param value := by
  induction levels generalizing param value with
  | zero => exact id
  | succ levels ih =>
      rw [ReadsBadOptional]
      cases taken : (paramTypes param).find? (capValueMatches value) with
      | none => exact id
      | some type =>
          have listed := List.mem_of_find?_eq_some taken
          cases type <;> try exact id
          case array =>
            rintro ⟨items, present, element, -, bad⟩
            exact ih (readable.1 listed items present) element bad
          case object =>
            rintro ⟨fields, present, throws | ⟨entry, member, bad⟩⟩
            · exact (readable.2 listed fields present).1 throws
            · have field := (readable.2 listed fields present).2 entry member
              split at bad
              · exact ih field.2 _ bad
              · exact bad field.1

/-- Where some `optional` can not be read, some value makes the checker read it. -/
theorem exists_readsBadOptional {levels : Nat} {param : Json}
    (unreadable : ¬ FieldsReadable levels param) :
    ∃ value, value.WellFormed ∧ ReadsBadOptional levels param value := by
  induction levels generalizing param with
  | zero => exact absurd trivial unreadable
  | succ levels ih =>
      rw [FieldsReadable, not_and_or] at unreadable
      have emptyObject : (Json.object []).WellFormed := .object [] .nil (by simp)
      rcases unreadable with inItems | inFields
      · push Not at inItems
        obtain ⟨listed, items, present, unreadable⟩ := inItems
        obtain ⟨value, wellFormed, bad⟩ := ih unreadable
        refine ⟨.array [value], .array _ (by simpa using wellFormed), ?_⟩
        simp only [ReadsBadOptional, find?_array listed]
        exact ⟨items, present, value, by simp [Json.elements], bad⟩
      · push Not at inFields
        obtain ⟨listed, fields, present, unreadable⟩ := inFields
        by_cases keyed : Throws fields.members
        · refine ⟨.object [], emptyObject, ?_⟩
          simp only [ReadsBadOptional, find?_object listed]
          exact ⟨fields, present, .inl keyed⟩
        · obtain ⟨entry, member, unreadable⟩ := unreadable keyed
          by_cases optional : OptionalReadable entry.2
          · obtain ⟨value, wellFormed, bad⟩ := ih (unreadable optional)
            refine ⟨.object [(entry.1, value)], wellFormed.singleton _, ?_⟩
            simp only [ReadsBadOptional, find?_object listed]
            refine ⟨fields, present, .inr ⟨entry, member, ?_⟩⟩
            simpa [Json.member?] using bad
          · refine ⟨.object [], emptyObject, ?_⟩
            simp only [ReadsBadOptional, find?_object listed]
            exact ⟨fields, present, .inr ⟨entry, member, by simpa [Json.member?] using optional⟩⟩

/-- Every `optional` that `capCheckParams` can be made to read for this parameter
is absent or a boolean. -/
def ParamReadable (param : Json) : Prop :=
  (param.contains "default" = true ∨ OptionalReadable param) ∧ FieldsReadable 4 param

theorem capCheckParams_total_iff {schema : List (String × Json)} :
    (∀ given : List (String × Json), (Json.object given).WellFormed →
        ¬ Throws (capCheckParams library (.object schema) (.object given))) ↔
      ∀ entry ∈ schema, ParamReadable entry.2 := by
  simp only [throws_capCheckParams, not_exists, not_and]
  constructor
  · intro total entry member
    constructor
    · by_contra unread
      rw [not_or, Bool.not_eq_true] at unread
      apply total [] (.object [] .nil (by simp)) entry member
      simpa [ParamThrows, Json.member?] using unread
    · by_contra unreadable
      obtain ⟨value, wellFormed, bad⟩ := exists_readsBadOptional unreadable
      refine total [(entry.1, value)] (wellFormed.singleton _) entry member ?_
      simpa [ParamThrows, Json.member?] using bad
  · intro readable given _ entry member throws
    have param := readable entry member
    rw [ParamThrows] at throws
    split at throws
    · exact not_readsBadOptional param.2 _ throws
    · rcases param.1 with filled | optional
      · simp [filled] at throws
      · exact throws.2 optional

theorem not_throws_validate_iff {advert : Json} :
    (∀ exception, capValidateAdvert library advert ≠ .threw exception) ↔
      ∀ before path param fallback after,
        advertChecks advert = before ++ .checkDefault path param fallback :: after →
        (∀ earlier ∈ before, earlier.run library = .valid) →
          ¬ ReadsBadOptional 4 param fallback := by
  have run_threw (path : String) (param fallback : Json) :
      (∃ exception, (Check.checkDefault path param fallback).run library =
        .threw exception) ↔ ReadsBadOptional 4 param fallback := by
    have single := @throws_capCheckParams library (.object [(path, fallback)])
      [(path, param)]
    simp only [List.mem_singleton, exists_eq_left, ParamThrows, Json.member?,
      List.lookup_cons_self] at single
    rw [← single, Check.run]
    rcases capCheckParams library (.object [(path, param)]) (.object [(path, fallback)])
      with exception | ⟨errors, filled⟩
    · simp
    · cases errors <;> simp
  simp only [capValidateAdvert, Ne, runChecks_eq_threw_iff]
  constructor
  · intro total before path param fallback after listed earlier bad
    obtain ⟨exception, threw⟩ := (run_threw path param fallback).mpr bad
    exact total exception ⟨before, _, after, listed, earlier, threw⟩
  · rintro reached exception ⟨before, check, after, listed, earlier, threw⟩
    cases check with
    | require holds err => cases holds <;> simp [Check.run] at threw
    | checkDefault path param fallback =>
        exact reached before path param fallback after listed earlier
          ((run_threw path param fallback).mp ⟨exception, threw⟩)

end Checker

/-- An advert is validated without an exception, and if it is accepted, no
invoke of its actions can make the parameter check throw. -/
structure SafeToUse (library : JsonLibrary) (advert : Json) : Prop where
  validates : ∀ exception, capValidateAdvert library advert ≠ .threw exception
  checks : capValidateAdvert library advert = .valid →
    ∀ action ∈ actionsOf advert, ∀ params, action.2.member? "params" = some params →
      ∀ given : List (String × Json), (Json.object given).WellFormed →
        ∃ checked, capCheckParams library params (.object given) = .ok checked

/-- Validation reaches no default whose check reads a bad `optional`, and where
the advert is accepted, every `optional` of its action parameters that can be
read is absent or a boolean. -/
structure OptionalsReadable (library : JsonLibrary) (advert : Json) : Prop where
  defaults : ∀ before path param fallback after,
    advertChecks advert = before ++ .checkDefault path param fallback :: after →
    (∀ earlier ∈ before, earlier.run library = .valid) →
      ¬ ReadsBadOptional 4 param fallback
  params : capValidateAdvert library advert = .valid →
    ∀ action ∈ actionsOf advert, ∀ params, action.2.member? "params" = some params →
      ∀ param ∈ objectMembers params, ParamReadable param.2

/-- Adverts are safe exactly where every `optional` that is read can be. -/
theorem capValidateAdvert_safe_iff (library : JsonLibrary) (advert : Json) :
    SafeToUse library advert ↔ OptionalsReadable library advert := by
  constructor
  · rintro ⟨validates, checks⟩
    refine ⟨(not_throws_validate_iff library).mp validates, ?_⟩
    intro valid action listed params present
    obtain ⟨schema, rfl, -⟩ := valid_params valid listed present
    apply (capCheckParams_total_iff library).mp
    intro given wellFormed
    exact not_throws_iff.mpr (checks valid action listed _ present given wellFormed)
  · rintro ⟨defaults, readable⟩
    refine ⟨(not_throws_validate_iff library).mpr defaults, ?_⟩
    intro valid action listed params present given wellFormed
    obtain ⟨schema, rfl, -⟩ := valid_params valid listed present
    refine not_throws_iff.mp ((capCheckParams_total_iff library).mpr ?_ given wellFormed)
    exact readable valid action listed _ present

/-- A parameter whose `optional` is a string. -/
def misspeltOptional : Json :=
  .object [("optional", .string "yes"), ("type", .string "int")]

/-- An action with one parameter. -/
def captureWith (param : Json) : Json :=
  .object [("params", .object [("zoom", param)])]

/-- On an accepted advert an invoke without the parameter throws. -/
theorem capValidateAdvert_unsafe :
    ¬ ∀ (library : JsonLibrary) (advert : Json), SafeToUse library advert := by
  intro always
  have safe := always parsedLibrary (cameraAdvert [("capture", captureWith misspeltOptional)])
  obtain ⟨checked, same⟩ := safe.checks (by decide) ("capture", captureWith misspeltOptional)
    (List.mem_singleton_self _) _ rfl [] (.object [] .nil (by simp))
  cases same

-- The validator itself throws on a default that lacks the field.
example :
    capValidateAdvert parsedLibrary
      (cameraAdvert [("capture", captureWith (.object
        [ ("default", .object []),
          ("fields", .object [("zoom", misspeltOptional)]),
          ("type", .string "object") ]))]) = .threw .typeMismatch := by
  decide

end DroneEngage.Capabilities
