import DroneEngage.CapabilityRecheck

/-!
# The normal form of parameters

Parameters checked without errors come out complete: what was given is still
there, every parameter that the action cannot do without is there, none is there
that the action does not declare, and checking them once more changes nothing.
-/

namespace DroneEngage.Capabilities

variable {library : JsonLibrary}

/-- A parameter that an action cannot do without: one with a default, or one
that is not optional. -/
def IsExpected (param : Json) : Prop :=
  param.contains "default" = true ∨
    param.value Json.getBoolean "optional" false ≠ .ok true

/-- `filled` is what the parameters that were given become under a schema. -/
structure NormalForm (library : JsonLibrary) (params given filled : Json) : Prop where
  kept : ∀ key value, given.member? key = some value → filled.member? key = some value
  declared : ∀ key, filled.contains key = true → params.contains key = true
  complete : ∀ key param, params.member? key = some param → IsExpected param →
    filled.contains key = true
  settled : capCheckParams library params filled = .ok ([], filled)

theorem member?_filled_of_given {schema result : List (String × Json)} {given value : Json}
    {key : String} {errors : List String}
    (sorted : schema.Pairwise fun left right => Json.keyBefore left.1 right.1)
    (loop : checkEachParam library given schema (objectMembers given) = .ok (errors, result))
    (present : given.member? key = some value) :
    (Json.object result).member? key = some value := by
  rw [Json.member?, checkEachParam_lookup sorted loop, lookup_objectMembers, present]
  cases schema.lookup key <;> simp [filledIn, present]

theorem contains_of_isExpected {schema result : List (String × Json)} {given param : Json}
    {key : String}
    (sorted : schema.Pairwise fun left right => Json.keyBefore left.1 right.1)
    (loop : checkEachParam library given schema (objectMembers given) = .ok ([], result))
    (declared : schema.lookup key = some param) (expected : IsExpected param) :
    (Json.object result).contains key = true := by
  rw [Json.contains, member?_filled sorted loop declared]
  cases present : given.member? key with
  | some value => simp
  | none =>
      cases fallback : param.member? "default" with
      | some value => simp
      | none =>
          obtain ⟨before, after, split, -⟩ := List.lookup_eq_some_iff.mp declared
          have listed : (key, param) ∈ schema := by simp [split]
          have settled := checkEachParam_settled loop (key, param) listed
          simp only [Settled, present] at settled
          rcases expected with withDefault | notOptional
          · simp [Json.contains, fallback] at withDefault
          · exact absurd (settled fallback) notOptional

/-- The parameters of an action of an accepted advert, checked without errors,
are in normal form. -/
theorem normalForm_of_capCheckParams {advert action given filled : Json} {act : String}
    (accepted : Accepted library advert)
    (found : (actionsOf advert).lookup act = some action)
    (checked : capCheckParams library (paramsSchema action) given = .ok ([], filled)) :
    filled.isObject = true ∧ NormalForm library (paramsSchema action) given filled ∧
      ∀ key, given.contains key = true →
        filled.contains key = true ∧ (paramsSchema action).contains key = true := by
  obtain ⟨schema, isSchema, wellFormed, succeeds⟩ := paramsSchema_of_lookup accepted found
  rw [isSchema] at checked ⊢
  have again : capCheckParams library (.object schema) filled = .ok ([], filled) := by
    refine capCheckParams_again wellFormed.sorted ?_ checked
    exact fun entry listed fallback present =>
      conforms_of_validated (succeeds entry listed) present
  obtain ⟨result, rfl, loop, known⟩ := capCheckParams_clean checked
  have kept : ∀ key value, given.member? key = some value →
      (Json.object result).member? key = some value :=
    fun key value => member?_filled_of_given wellFormed.sorted loop
  have declared : ∀ key, (Json.object result).contains key = true →
      (Json.object schema).contains key = true := by
    intro key present
    obtain ⟨value, present⟩ := Option.isSome_iff_exists.mp present
    obtain ⟨before, after, split, -⟩ := List.lookup_eq_some_iff.mp present
    exact known_filled wellFormed.sorted loop known (key, value) (by simp [split])
  have complete : ∀ key param, (Json.object schema).member? key = some param →
      IsExpected param → (Json.object result).contains key = true :=
    fun key param => contains_of_isExpected wellFormed.sorted loop
  refine ⟨rfl, ⟨kept, declared, complete, again⟩, fun key present => ?_⟩
  obtain ⟨value, present⟩ := Option.isSome_iff_exists.mp present
  have contained : (Json.object result).contains key = true := by
    rw [Json.contains, kept key value present, Option.isSome_some]
  exact ⟨contained, declared key contained⟩

/-- A missing parameter is taken from its default, and then stays. -/
theorem normalForm_switch :
    capCheckParams switchLibrary (paramsSchema (captureWith switchParam))
        (.object [("zoom", .boolean false)]) = .ok ([], .object [("zoom", .boolean false)]) ∧
      NormalForm switchLibrary (paramsSchema (captureWith switchParam))
        (.object [("zoom", .boolean false)]) (.object [("zoom", .boolean false)]) := by
  have accepted : Accepted switchLibrary (captureAdvert switchParam) :=
    accepted_of_setCapabilities stored_switch _ (List.mem_singleton_self _)
  have checked : capCheckParams switchLibrary (paramsSchema (captureWith switchParam))
      (.object [("zoom", .boolean false)]) = .ok ([], .object [("zoom", .boolean false)]) :=
    rfl
  have found : (actionsOf (captureAdvert switchParam)).lookup "capture" =
      some (captureWith switchParam) :=
    rfl
  exact ⟨checked, (normalForm_of_capCheckParams accepted found checked).2.1⟩

end DroneEngage.Capabilities
