import DroneEngage.CapabilityInvoke
import DroneEngage.CapabilityLookup
import DroneEngage.CapabilityTotality

/-!
# Adverts that `setCapabilities` has accepted

On accepted adverts the lookup of an invoke never throws, and what it finds is
the action under the name it hands on.
-/

namespace DroneEngage.Capabilities

/-- What is known of an advert the module has stored. -/
structure Accepted (library : JsonLibrary) (advert : Json) : Prop where
  valid : capValidateAdvert library advert = .valid
  wellFormed : advert.WellFormed

def nsOf (advert : Json) : String := stringMember advert "ns"

/-- The action an accepted advert has for a name, with its current name. -/
def resolved (advert : Json) (act : String) : Option (Json × String) :=
  match (actionsOf advert).lookup act with
  | some action => some (action, act)
  | none =>
      ((actionsOf advert).find? fun entry => aliasOf entry.2 = act).map fun entry =>
        (entry.2, entry.1)

variable {library : JsonLibrary}

theorem accepted_of_setCapabilities {texts : List (List Char)} {adverts : List Json}
    (stored : setCapabilities library texts = .ok (some adverts)) :
    ∀ advert ∈ adverts, Accepted library advert := by
  induction texts generalizing adverts with
  | nil =>
      cases stored
      simp
  | cons text rest ih =>
      rw [setCapabilities] at stored
      split at stored
      · cases stored
      · split at stored
        · cases stored
        · rename_i advert parsed
          split at stored
          · rename_i valid
            obtain ⟨more, storedRest, same⟩ := bind_eq_ok.mp stored
            obtain ⟨others, rfl, rfl⟩ := Option.map_eq_some_iff.mp (Except.ok.inj same)
            rw [List.forall_mem_cons]
            exact ⟨⟨valid, library.parse_wellFormed parsed⟩, ih storedRest⟩
          · cases stored
          · cases stored

theorem Accepted.isObject {advert : Json} (accepted : Accepted library advert) :
    advert.isObject = true := by
  have succeeds := runChecks_eq_valid_iff.mp accepted.valid
  refine run_require_iff.mp (succeeds (.require advert.isObject "advert must be an object") ?_)
  simp [advertChecks]

theorem Accepted.value_ns {advert : Json} (accepted : Accepted library advert) :
    advert.value Json.getString "ns" "" = .ok (nsOf advert) := by
  have succeeds := runChecks_eq_valid_iff.mp accepted.valid
  have named := run_require_iff.mp (succeeds
    (.require
      ((advert.member? "ns").any (isStringWith fun ns => capIsValidName (utf8Chars ns)))
      "missing or bad 'ns'") (by simp [advertChecks]))
  apply value_string accepted.isObject
  intro found present
  rw [present, Option.any_some] at named
  cases found with
  | string text => exact ⟨text, rfl⟩
  | _ => simp [isStringWith] at named

/-- On accepted adverts the first with the namespace decides, without throwing. -/
theorem resolveAction_eq {adverts : List Json}
    (accepted : ∀ advert ∈ adverts, Accepted library advert) (ns act : String) :
    resolveAction ns act adverts =
      .ok ((adverts.find? fun advert => nsOf advert = ns).bind fun advert =>
        resolved advert act) := by
  induction adverts with
  | nil => rfl
  | cons advert rest ih =>
      rw [List.forall_mem_cons] at accepted
      rw [resolveAction, accepted.1.value_ns, List.find?_cons]
      simp only [Bind.bind, Except.bind]
      by_cases same : nsOf advert = ns
      · simp only [if_pos same, decide_eq_true same, Option.bind_some,
          capFindAction_eq accepted.1.valid, capCanonicalAction_eq accepted.1.valid]
        unfold resolved
        cases (actionsOf advert).lookup act with
        | some action => rfl
        | none =>
            cases (actionsOf advert).find? fun entry => aliasOf entry.2 = act <;> rfl
      · simp only [if_neg same, decide_eq_false same]
        exact ih accepted.2

/-- The action found for a name is the one under the name that is handed on. -/
theorem lookup_of_resolved {advert action : Json} {act canonical : String}
    (accepted : Accepted library advert)
    (found : resolved advert act = some (action, canonical)) :
    (actionsOf advert).lookup canonical = some action := by
  unfold resolved at found
  split at found
  · rename_i same named
    cases found
    exact named
  · obtain ⟨entry, first, same⟩ := Option.map_eq_some_iff.mp found
    cases same
    have listed := List.mem_of_find?_eq_some first
    cases present : advert.member? "actions" with
    | none => simp [actionsOf, present] at listed
    | some actions =>
        have wellFormed := accepted.wellFormed.member present
        rw [actionsOf, present] at listed ⊢
        cases actions with
        | object entries => exact Json.lookup_of_mem wellFormed.sorted listed
        | _ => simp [objectMembers] at listed

theorem Accepted.action_wellFormed {advert action : Json} {act : String}
    (accepted : Accepted library advert)
    (found : (actionsOf advert).lookup act = some action) : action.WellFormed := by
  cases present : advert.member? "actions" with
  | none => simp [actionsOf, present] at found
  | some actions =>
      have wellFormed := accepted.wellFormed.member present
      rw [actionsOf, present] at found
      cases actions with
      | object entries => exact wellFormed.member found
      | _ => simp [objectMembers] at found

/-- The parameter schema of an action of an accepted advert is an object, and
every check on its parameters succeeds. -/
theorem paramsSchema_of_lookup {advert action : Json} {act : String}
    (accepted : Accepted library advert)
    (found : (actionsOf advert).lookup act = some action) :
    ∃ schema, paramsSchema action = .object schema ∧
      (Json.object schema).WellFormed ∧
      ∀ param ∈ schema,
        ∀ check ∈ capValidateParam 5 param.2 ("actions." ++ act ++ ".params." ++ param.1),
          check.run library = .valid := by
  obtain ⟨before, after, split, -⟩ := List.lookup_eq_some_iff.mp found
  have listed : (act, action) ∈ actionsOf advert := by simp [split]
  cases present : action.member? "params" with
  | none => exact ⟨[], by simp [paramsSchema, present], .object [] .nil (by simp), by simp⟩
  | some params =>
      obtain ⟨schema, rfl, succeeds⟩ := valid_params accepted.valid listed present
      refine ⟨schema, by simp [paramsSchema, present], ?_, succeeds⟩
      exact (accepted.action_wellFormed found).member present

/-- The library on the compact text of one document without doubles. -/
def readingLibrary (document : Json) (wellFormed : document.WellFormed) : JsonLibrary where
  parse := fun text =>
    if text = document.dump parsedLibrary none then some document else none
  dumpFloat := fun _ => "null".toList
  parse_wellFormed := by
    intro text found parsed
    split at parsed
    · exact Option.some.inj parsed ▸ wellFormed
    · simp at parsed

theorem setCapabilities_readingLibrary {document : Json} (wellFormed : document.WellFormed)
    (small : (document.dump parsedLibrary none).length ≤ capAdvertMaxBytes)
    (valid : capValidateAdvert (readingLibrary document wellFormed) document = .valid) :
    setCapabilities (readingLibrary document wellFormed)
      [document.dump parsedLibrary none] = .ok (some [document]) := by
  have parsed : (readingLibrary document wellFormed).parse
      (document.dump parsedLibrary none) = some document := if_pos rfl
  rw [setCapabilities, if_neg (Nat.not_lt.mpr small)]
  simp only [parsed, valid]
  rfl

theorem wellFormed_cameraAdvert {actions : List (String × Json)}
    (wellFormed : (Json.object actions).WellFormed) : (cameraAdvert actions).WellFormed := by
  refine .object _ ?_ fun entry member => ?_
  · simp only [List.pairwise_cons, List.forall_mem_cons]
    decide
  simp only [List.mem_cons, List.not_mem_nil, or_false] at member
  rcases member with rfl | rfl | rfl | rfl | rfl
  · exact wellFormed
  all_goals exact .string _

def captureAdvert (param : Json) : Json :=
  cameraAdvert [("capture", captureWith param)]

theorem wellFormed_captureAdvert {param : Json} (wellFormed : param.WellFormed) :
    (captureAdvert param).WellFormed :=
  wellFormed_cameraAdvert (((wellFormed.singleton _).singleton _).singleton _)

def captureMessage : Json :=
  .object [("act", .string "capture"), ("id", .string "i1"), ("ns", .string "camera")]

def captureRequest : InvokeRequest where
  id := "i1"
  ns := "camera"
  act := "capture"
  given := .object []
  deadlineS := tenSeconds

def switchParam : Json :=
  .object [("default", .boolean true), ("type", .string "bool")]

theorem wellFormed_switchParam : switchParam.WellFormed :=
  .object _ (by decide) (by
    simp only [List.forall_mem_cons]
    exact ⟨.boolean _, .string _, by simp⟩)

def switchLibrary : JsonLibrary :=
  readingLibrary _ (wellFormed_captureAdvert wellFormed_switchParam)

theorem stored_switch :
    setCapabilities switchLibrary
      [(captureAdvert switchParam).dump parsedLibrary none] =
        .ok (some [captureAdvert switchParam]) :=
  setCapabilities_readingLibrary _ (by decide +kernel) (by decide +kernel)

def switchCall : HandlerCall where
  id := "i1"
  ns := "camera"
  act := "capture"
  params := .object [("zoom", .boolean true)]
  deadlineS := tenSeconds

end DroneEngage.Capabilities
