import DroneEngage.CapabilityAdverts
import DroneEngage.GeoSightings

/-!
# The advert of the projector agrees with what it sends

The advert is accepted by the validator, every event passes the check against the
payload it declares, and every published member is declared in its state.
-/

namespace DroneEngage

open Capabilities

/-- A parameter of a type, with the members that come before and after `type`. -/
def declared (type : String) (optional : Bool) (desc : Option String)
    (values : List String) : Json :=
  .object
    ((desc.toList.map fun text => ("desc", .string text)) ++
      (if optional then [("optional", .boolean true)] else []) ++
      [("type", .string type)] ++
      (if values.isEmpty then [] else [("values", .array (values.map .string))]))

def detectedSchema : Json :=
  .object
    [ ("cam_id", declared "string" true (some "camera the observation came from") []),
      ("class", declared "string" true (some "observation class (obs.cls)") []),
      ("conf", declared "number" false none []),
      ("pos", declared "geo" false (some "[lat,lng,0]") []),
      ("range_m", declared "number" false (some "horizontal distance (m)") []),
      ("src", declared "enum" false none ["ai"]),
      ("trk", declared "int" true (some "track id of the observation") []),
      ("unc_m", declared "number" false (some "~95% radius (m)") []) ]

def detectState : Json :=
  .object
    [ ("ai", declared "enum" true (some "last AI_Recognition_STATUS seen")
        ["lost", "detected", "enabled", "disabled"]),
      ("enabled", declared "bool" false none []),
      ("last_fix_age_s",
        declared "number" false (some "seconds since the last projected detection") []) ]

def buildAdvert (module version : String) : Json :=
  .object
    [ ("actions", .object
        [ ("disable",
            .object [("desc", .string "Turn the AI-detection ground projector off")]),
          ("enable",
            .object [("desc", .string "Turn the AI-detection ground projector on")]) ]),
      ("events", .object
        [ ("detected", .object
            [ ("desc", .string "An observation was projected to the ground"),
              ("payload", detectedSchema) ]) ]),
      ("module", .string module),
      ("ns", .string "detect"),
      ("schema", .string "de.cap/1"),
      ("state", detectState),
      ("ver", .string version) ]

def payloadSchema? (advert : Json) (event : String) : Option Json := do
  let events ← advert.member? "events"
  let declaration ← events.member? event
  declaration.member? "payload"

def stateParam? (advert : Json) (key : String) : Option Json := do
  let state ← advert.member? "state"
  state.member? key

section Checks

variable (library : JsonLibrary)

/-- Every member is declared in the state of an advert and conforms to its parameter. -/
def StateConforms (advert changed : Json) : Prop :=
  changed.isObject = true ∧
    ∀ key value, changed.member? key = some value →
      ∃ param, stateParam? advert key = some param ∧
        capCheckValue library 4 param value key = .ok []

theorem capValidateAdvert_buildAdvert (module version : String) :
    capValidateAdvert library (buildAdvert module version) = .valid := by
  rfl

variable {library}

/-- The payload passes with and without a track, whatever the projection gives. -/
theorem capCheckParams_detectedPayload (camId : String) (o : Observation Double)
    (r : GeoProjectionResult Double) :
    capCheckParams library detectedSchema (CGeoProjectorCore.detectedPayload camId o r) =
      .ok ([], CGeoProjectorCore.detectedPayload camId o r) := by
  unfold CGeoProjectorCore.detectedPayload
  cases o.hasTrk <;> rfl

theorem stateConforms_singleton {advert : Json} {key : String} {param value : Json}
    (declares : stateParam? advert key = some param)
    (conforms : capCheckValue library 4 param value key = .ok []) :
    StateConforms library advert (.object [(key, value)]) := by
  refine ⟨rfl, fun other found present => ?_⟩
  rw [Json.member?, Json.lookup_cons_eq_ite] at present
  split at present
  · rename_i same
    subst same
    obtain rfl := Option.some.inj present
    exact ⟨param, declares, conforms⟩
  · cases present

/-- The names of the statuses are among the declared ones. -/
theorem capCheckValue_aiStateName {module version : String} (status : Int32) :
    ∃ param, stateParam? (buildAdvert module version) "ai" = some param ∧
      capCheckValue library 4 param (.string (aiStateName status)) "ai" = .ok [] := by
  refine ⟨_, rfl, ?_⟩
  unfold aiStateName
  split
  · rfl
  · split
    · rfl
    · split <;> rfl

variable {module version : String} {core : CGeoProjectorCore} {changed : Json}

theorem eq_of_mem_publishState {published : Json}
    (member : .publishState changed ∈ core.publishState published) : changed = published := by
  unfold CGeoProjectorCore.publishState at member
  split at member
  · exact GeoOutput.publishState.inj (List.mem_singleton.mp member)
  · cases member

theorem stateConforms_setEnabled {enabled : Bool}
    (published : .publishState changed ∈ (core.setEnabled enabled).2.2) :
    StateConforms library (buildAdvert module version) changed := by
  unfold CGeoProjectorCore.setEnabled at published
  split at published
  · cases published
  · obtain rfl := eq_of_mem_publishState published
    exact stateConforms_singleton rfl rfl

theorem stateConforms_onAIStatus {cmd : Json}
    (published : .publishState changed ∈ (core.onAIStatus cmd).2) :
    StateConforms library (buildAdvert module version) changed := by
  unfold CGeoProjectorCore.onAIStatus at published
  split at published
  · dsimp only at published
    split at published
    · cases published
    · obtain rfl := eq_of_mem_publishState published
      obtain ⟨param, declares, conforms⟩ := capCheckValue_aiStateName _
      exact stateConforms_singleton declares conforms
  · cases published

theorem stateConforms_tick {now : UInt64}
    (published : .publishState changed ∈ (core.tick now).2) :
    StateConforms library (buildAdvert module version) changed := by
  unfold CGeoProjectorCore.tick at published
  split at published
  · cases published
  · split at published
    · cases published
    · dsimp only at published
      split at published
      · cases published
      · obtain rfl := eq_of_mem_publishState published
        exact stateConforms_singleton rfl rfl

end Checks

/-- What a projector in any state sends agrees with its advert. -/
theorem traffic_agrees_with_advert (library : JsonLibrary) (beyondUInt : Double → UInt64)
    (cmath : CMath Double) (module version : String) (core : CGeoProjectorCore) :
    capValidateAdvert library (buildAdvert module version) = .valid ∧
      (∀ ms now poseAt payload,
        .fireEvent payload ∈ (core.onObservations beyondUInt cmath ms now poseAt).2.2 →
          ∃ schema filled, payloadSchema? (buildAdvert module version) "detected" =
              some schema ∧
            capCheckParams library schema payload = .ok ([], filled)) ∧
      (∀ enabled changed, .publishState changed ∈ (core.setEnabled enabled).2.2 →
        StateConforms library (buildAdvert module version) changed) ∧
      (∀ cmd changed, .publishState changed ∈ (core.onAIStatus cmd).2 →
        StateConforms library (buildAdvert module version) changed) ∧
      ∀ now changed, .publishState changed ∈ (core.tick now).2 →
        StateConforms library (buildAdvert module version) changed := by
  refine ⟨capValidateAdvert_buildAdvert library module version, ?_, ?_, ?_, ?_⟩
  · intro ms now poseAt payload fired
    obtain ⟨frame, fix, o, -, rfl⟩ := core.fired_of_onObservations fired
    exact ⟨detectedSchema, _, rfl, capCheckParams_detectedPayload _ _ _⟩
  · intro enabled changed published
    exact stateConforms_setEnabled published
  · intro cmd changed published
    exact stateConforms_onAIStatus published
  · intro now changed published
    exact stateConforms_tick published

end DroneEngage
