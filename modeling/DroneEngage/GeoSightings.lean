import DroneEngage.GeoProjectorCore

/-!
# The sightings that reach the throttle

What a frame has for the throttle depends on the configuration, the frame and the
pose only.  The throttle takes the sightings one by one; the events of the frame
are those that pass.
-/

namespace DroneEngage

open GeoNumber

/-- What detections are told apart by: the track where there is one, else the class. -/
inductive DetectIdentity
  | track (trk : Int)
  | untracked (cls : String)
  deriving DecidableEq

structure DetectTarget where
  camId : String
  identity : DetectIdentity
  deriving DecidableEq

def DetectTarget.key (target : DetectTarget) : String :=
  match target.identity with
  | .track trk => target.camId ++ "|t" ++ toString trk
  | .untracked cls => target.camId ++ "|c" ++ if cls.isEmpty then "*" else cls

structure Sighting where
  camId : String
  o : Observation Double
  r : GeoProjectionResult Double

namespace Sighting

variable (sighting : Sighting)

def target : DetectTarget where
  camId := sighting.camId
  identity := if sighting.o.hasTrk then .track sighting.o.trk else .untracked sighting.o.cls

def payload : Json :=
  CGeoProjectorCore.detectedPayload sighting.camId sighting.o sighting.r

theorem key_target :
    sighting.target.key = CGeoProjectorCore.throttleKey sighting.camId sighting.o := by
  unfold target DetectTarget.key CGeoProjectorCore.throttleKey
  cases sighting.o.hasTrk <;> rfl

end Sighting

namespace CGeoProjectorCore

section Sightings

variable (core : CGeoProjectorCore) (cmath : CMath Double)

/-- The sighting of an observation, unless it is below `min_conf` or has no place on
the ground. -/
def sighting? (camId : String) (camera : GeoCameraParams Double)
    (mount : GeoMountParams Double) (fix : GeoPoseFix) (o : Observation Double) :
    Option Sighting :=
  let r := core.projectObservation cmath camera mount fix o
  if lt o.conf core.config.minConf || !r.ok then none
  else some { camId := camId, o := o, r := r }

def frameSightings (frame : ObservationFrame Double) (fix : GeoPoseFix) : List Sighting :=
  if (core.config.cameras.find? frame.camId).isNone && core.registryActive then []
  else
    let cam := core.cameraFor frame.camId
    frame.obs.filterMap (core.sighting? cmath frame.camId cam.camera (liveMount cam fix) fix)

def sightings (ms : Json) (now : UInt64) (poseAt : UInt64 → Option GeoPoseFix) :
    List Sighting :=
  if core.config.enabled then
    match obsParse ms with
    | .error _ => []
    | .ok frame =>
        if frame.obs.isEmpty then []
        else
          match poseAt (core.frameTime frame.tmCapture now) with
          | none => []
          | some fix => core.frameSightings cmath frame fix
  else []

/-- What an event comes from: an observation of a frame that is parsed and has a
pose, with the camera that the table has for it. -/
structure Fires (ms : Json) (now : UInt64) (poseAt : UInt64 → Option GeoPoseFix)
    (frame : ObservationFrame Double) (fix : GeoPoseFix) (o : Observation Double) : Prop where
  parsed : obsParse ms = .ok frame
  posed : poseAt (core.frameTime frame.tmCapture now) = some fix
  member : o ∈ frame.obs
  known : core.registryActive = true → (core.config.cameras.find? frame.camId).isSome

variable {core cmath} {ms : Json} {now : UInt64} {poseAt : UInt64 → Option GeoPoseFix}
  {sighting : Sighting}

theorem sighting_of_mem_frameSightings {frame : ObservationFrame Double} {fix : GeoPoseFix}
    (member : sighting ∈ core.frameSightings cmath frame fix) :
    sighting.o ∈ frame.obs ∧
      (core.registryActive = true → (core.config.cameras.find? frame.camId).isSome) ∧
      sighting.payload = detectedPayload frame.camId sighting.o
        (core.projectObservation cmath (core.cameraFor frame.camId).camera
          (liveMount (core.cameraFor frame.camId) fix) fix sighting.o) := by
  unfold frameSightings at member
  dsimp only at member
  split at member
  · cases member
  · rename_i known
    obtain ⟨o, listed, seen⟩ := List.mem_filterMap.mp member
    unfold sighting? at seen
    dsimp only at seen
    split at seen
    · cases seen
    · obtain rfl := Option.some.inj seen
      refine ⟨listed, fun active => ?_, rfl⟩
      rw [active, Bool.and_true, Option.isNone_iff_eq_none] at known
      exact Option.isSome_iff_ne_none.mpr known

/-- A sighting is of an observation of the frame, with the camera that the table has. -/
theorem fires_of_mem_sightings (member : sighting ∈ core.sightings cmath ms now poseAt) :
    ∃ frame fix, core.Fires ms now poseAt frame fix sighting.o ∧
      sighting.payload = detectedPayload frame.camId sighting.o
        (core.projectObservation cmath (core.cameraFor frame.camId).camera
          (liveMount (core.cameraFor frame.camId) fix) fix sighting.o) := by
  unfold sightings at member
  split at member
  · split at member
    · cases member
    · rename_i frame parsed
      split at member
      · cases member
      · split at member
        · cases member
        · rename_i fix posed
          obtain ⟨listed, known, same⟩ := sighting_of_mem_frameSightings member
          exact ⟨frame, fix, ⟨parsed, posed, listed, known⟩, same⟩
  · cases member

end Sightings

section Throttle

variable (beyondUInt : Double → UInt64) (cmath : CMath Double)

/-- The sightings that pass one after the other, and the throttle after them. -/
def throttleEach (rateHz : Double) (now : UInt64) :
    OrderedMap String ThrottleEntry → List Sighting →
      List Sighting × OrderedMap String ThrottleEntry
  | throttle, [] => ([], throttle)
  | throttle, sighting :: rest =>
      let decided :=
        passesThrottle beyondUInt cmath rateHz throttle sighting.camId sighting.o sighting.r now
      let others := throttleEach rateHz now decided.2 rest
      (if decided.1 then sighting :: others.1 else others.1, others.2)

variable {beyondUInt cmath} (core : CGeoProjectorCore) {camId : String}
  {camera : GeoCameraParams Double} {mount : GeoMountParams Double} {fix : GeoPoseFix}
  {now : UInt64}

theorem observe_of_none {o : Observation Double}
    (hidden : core.sighting? cmath camId camera mount fix o = none) :
    core.observe beyondUInt cmath camId camera mount fix now o = (core, []) := by
  unfold sighting? at hidden
  unfold observe
  dsimp only at hidden ⊢
  split
  · rfl
  · rename_i confident
    rw [Bool.not_eq_true] at confident
    rw [confident, Bool.false_or] at hidden
    split
    · rename_i ok
      rw [ok] at hidden
      cases hidden
    · rfl

theorem observe_of_some {o : Observation Double} {sighting : Sighting}
    (seen : core.sighting? cmath camId camera mount fix o = some sighting) :
    let decided := passesThrottle beyondUInt cmath core.config.rateHz core.throttle
      sighting.camId sighting.o sighting.r now
    (core.observe beyondUInt cmath camId camera mount fix now o).1.throttle = decided.2 ∧
      (core.observe beyondUInt cmath camId camera mount fix now o).2 =
        if decided.1 then [.fireEvent sighting.payload] else [] := by
  unfold sighting? at seen
  unfold observe
  dsimp only at seen ⊢
  split at seen
  · cases seen
  · rename_i reached
    obtain rfl := Option.some.inj seen
    rw [Bool.or_eq_true, not_or, Bool.not_eq_true', Bool.not_eq_false] at reached
    rw [if_neg reached.1, if_pos reached.2]
    split <;> simp_all [Sighting.payload]

theorem sighting?_congr {other : CGeoProjectorCore} (same : other.config = core.config) :
    other.sighting? cmath camId camera mount fix = core.sighting? cmath camId camera mount fix := by
  funext o
  unfold sighting?
  rw [core.projectObservation_congr same, same]

/-- The loop is the throttle on the sightings. -/
theorem observeEach_eq_throttleEach (obs : List (Observation Double)) :
    let decided := throttleEach beyondUInt cmath core.config.rateHz now core.throttle
      (obs.filterMap (core.sighting? cmath camId camera mount fix))
    (core.observeEach beyondUInt cmath camId camera mount fix now obs).1.throttle = decided.2 ∧
      (core.observeEach beyondUInt cmath camId camera mount fix now obs).2 =
        decided.1.map fun sighting => .fireEvent sighting.payload := by
  induction obs generalizing core with
  | nil => exact ⟨rfl, rfl⟩
  | cons o rest ih =>
      have setup : core.SameSetup
          (core.observe beyondUInt cmath camId camera mount fix now o).1 :=
        core.sameSetup_observe o
      have others := ih (core.observe beyondUInt cmath camId camera mount fix now o).1
      rw [core.sighting?_congr setup.config, setup.config] at others
      dsimp only at others ⊢
      rw [observeEach]
      dsimp only
      cases seen : core.sighting? cmath camId camera mount fix o with
      | none =>
          rw [core.observe_of_none seen] at others ⊢
          rw [List.filterMap_cons_none seen]
          exact others
      | some sighting =>
          have first : _ ∧ (core.observe beyondUInt cmath camId camera mount fix now o).2 = _ :=
            core.observe_of_some seen
          rw [List.filterMap_cons_some seen, throttleEach]
          rw [first.1] at others
          refine ⟨others.1, ?_⟩
          rw [first.2, others.2]
          dsimp only
          split <;> rfl

theorem filterMap_payload_map (passed : List Sighting) :
    (passed.map fun sighting => GeoOutput.fireEvent sighting.payload).filterMap
        GeoOutput.payload? = passed.map Sighting.payload := by
  rw [List.filterMap_map]
  exact congrFun List.filterMap_eq_map passed

theorem projectFrame_eq_throttleEach (frame : ObservationFrame Double) :
    let decided := throttleEach beyondUInt cmath core.config.rateHz now core.throttle
      (core.frameSightings cmath frame fix)
    (core.projectFrame beyondUInt cmath frame fix now).1.throttle = decided.2 ∧
      (core.projectFrame beyondUInt cmath frame fix now).2.2.filterMap GeoOutput.payload? =
        decided.1.map Sighting.payload := by
  unfold projectFrame frameSightings
  dsimp only
  split
  · unfold dropFrame
    split <;> exact ⟨rfl, rfl⟩
  · obtain ⟨throttle, events⟩ := core.observeEach_eq_throttleEach frame.obs
    rw [throttle, events, filterMap_payload_map]
    exact ⟨rfl, rfl⟩

/-- The events of a call are those of the sightings that pass. -/
theorem onObservations_eq_throttleEach (ms : Json) (poseAt : UInt64 → Option GeoPoseFix) :
    let decided := throttleEach beyondUInt cmath core.config.rateHz now core.throttle
      (core.sightings cmath ms now poseAt)
    (core.onObservations beyondUInt cmath ms now poseAt).1.throttle = decided.2 ∧
      (core.onObservations beyondUInt cmath ms now poseAt).2.2.filterMap GeoOutput.payload? =
        decided.1.map Sighting.payload := by
  unfold onObservations sightings
  split
  · cases obsParse ms with
    | error err => exact ⟨rfl, rfl⟩
    | ok frame =>
        dsimp only
        split
        · exact ⟨rfl, rfl⟩
        · cases poseAt (core.frameTime frame.tmCapture now) with
          | none => exact ⟨rfl, rfl⟩
          | some fix => exact core.projectFrame_eq_throttleEach frame
  · exact ⟨rfl, rfl⟩

theorem mem_of_mem_throttleEach {rateHz : Double} {throttle : OrderedMap String ThrottleEntry}
    {sightings : List Sighting} {sighting : Sighting}
    (passed : sighting ∈ (throttleEach beyondUInt cmath rateHz now throttle sightings).1) :
    sighting ∈ sightings := by
  induction sightings generalizing throttle with
  | nil => exact passed
  | cons first rest ih =>
      rw [throttleEach] at passed
      dsimp only at passed
      split at passed
      · exact (List.mem_cons.mp passed).elim (fun same => same ▸ List.mem_cons_self)
          fun later => List.mem_cons_of_mem _ (ih later)
      · exact List.mem_cons_of_mem _ (ih passed)

/-- An event is the projection of an observation of the frame. -/
theorem fired_of_onObservations {ms : Json} {poseAt : UInt64 → Option GeoPoseFix}
    {payload : Json}
    (fired : .fireEvent payload ∈
      (core.onObservations beyondUInt cmath ms now poseAt).2.2) :
    ∃ frame fix o, core.Fires ms now poseAt frame fix o ∧
      payload = detectedPayload frame.camId o
        (core.projectObservation cmath (core.cameraFor frame.camId).camera
          (liveMount (core.cameraFor frame.camId) fix) fix o) := by
  have listed : payload ∈ (core.onObservations beyondUInt cmath ms now poseAt).2.2.filterMap
      GeoOutput.payload? :=
    List.mem_filterMap.mpr ⟨_, fired, rfl⟩
  rw [(core.onObservations_eq_throttleEach ms poseAt).2] at listed
  obtain ⟨sighting, passed, rfl⟩ := List.mem_map.mp listed
  obtain ⟨frame, fix, fires, same⟩ := fires_of_mem_sightings (mem_of_mem_throttleEach passed)
  exact ⟨frame, fix, sighting.o, fires, same⟩

end Throttle

end CGeoProjectorCore

end DroneEngage
