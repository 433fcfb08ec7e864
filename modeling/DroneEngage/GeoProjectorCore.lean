import DroneEngage.CameraRegistry
import DroneEngage.GeoProjection
import DroneEngage.ObservationWire

/-!
# The projector of detections

`CGeoProjectorCore` takes observation frames, projects the boxes to the ground
and fires `detect.detected`.  What it sends through its callbacks is returned by
each call; the pose of a frame, the clock and the registry files are given to it.
-/

namespace DroneEngage

open GeoNumber

/-- `static_cast<uint64_t>` of a double; `beyondUInt` is what the machine makes of a
value that does not fit. -/
def Double.toUInt64 (beyondUInt : Double → UInt64) (value : Double) : UInt64 :=
  match value.truncate with
  | some whole =>
      if 0 ≤ whole ∧ whole < 2 ^ 64 then UInt64.ofNat whole.toNat else beyondUInt value
  | none => beyondUInt value

def Double.ofUInt64 (value : UInt64) : Double :=
  .ofInt value.toNat

structure GeoCameraEntry where
  camera : GeoCameraParams Double
  mount : GeoMountParams Double

structure GeoProjectorConfig where
  enabled : Bool
  defaults : GeoCameraEntry
  cameras : OrderedMap String GeoCameraEntry
  mountHeightM : Double
  latencyMs : Int32
  minConf : Double
  rateHz : Double
  sigmaAttDeg : Double
  sigmaAltM : Double

structure GeoPoseFix where
  att : GeoAttitude Double
  pose : GeoPose Double
  rangefinderM : Double
  hasMountPitch : Bool
  hasMountYaw : Bool
  mountPitchDeg : Double
  mountYawDeg : Double

structure ThrottleEntry where
  lastSentUs : UInt64
  lastLat : Double
  lastLng : Double
  lastUncM : Double

/-- What goes out through the callbacks. -/
inductive GeoOutput
  | publishState (changed : Json)
  | fireEvent (payload : Json)
  | logError (line : String)

def GeoOutput.payload? : GeoOutput → Option Json
  | .fireEvent payload => some payload
  | _ => none

def GeoCameraEntry.default : GeoCameraEntry where
  camera := .default
  mount := .default

def GeoProjectorConfig.default : GeoProjectorConfig where
  enabled := false
  defaults := .default
  cameras := .empty
  mountHeightM := whole 0
  latencyMs := 150
  minConf := decimal 6 1
  rateHz := whole 1
  sigmaAttDeg := whole 2
  sigmaAltM := whole 2

def ThrottleEntry.default : ThrottleEntry where
  lastSentUs := 0
  lastLat := whole 0
  lastLng := whole 0
  lastUncM := whole 0

structure CGeoProjectorCore where
  config : GeoProjectorConfig
  throttle : OrderedMap String ThrottleEntry
  droppedCameras : List String
  aiStatus : Int32
  lastFixUs : UInt64
  lastStatePubUs : UInt64
  capsAdvertised : Bool
  registryActive : Bool

def frameTimeWindowUs : UInt64 := 2000000

def steadyResendUs : UInt64 := 5000000

/-- `TrackingTarget_STATUS_AI_Recognition_CLASS_LIST` -/
def aiRecognitionClassList : Int32 := 4

/-- `aiStateName`, of `TrackingTarget_STATUS_AI_Recognition_LOST` and the others -/
def aiStateName (status : Int32) : String :=
  if status = 0 then "lost"
  else if status = 1 then "detected"
  else if status = 2 then "enabled"
  else "disabled"

section Registry

variable (cmath : CMath Double) (entry : CameraRegistryEntry)

/-- The angle in degrees that a size in pixels subtends at a focal length. -/
def fovOf (size : Int32) (focal : Double) : Double :=
  whole 2 * cmath.atan (.ofInt size.toInt / (whole 2 * focal)) * whole 180 / pi

/-- `hfovDeg` -/
def CameraRegistryEntry.horizontalFov : Double :=
  if lt (whole 0) entry.hfovDeg then entry.hfovDeg
  else if entry.validIntrinsics then fovOf cmath entry.imageWidth entry.fx
  else whole 0

/-- `vfovDeg` -/
def CameraRegistryEntry.verticalFov : Double :=
  if entry.validIntrinsics then fovOf cmath entry.imageHeight entry.fy else whole 0

def entryFromRegistry : GeoCameraEntry where
  camera :=
    { hfovDeg := entry.horizontalFov cmath
      vfovDeg := entry.verticalFov cmath
      k1 := entry.distortion.getD 0 GeoCameraParams.default.k1
      k2 := entry.distortion.getD 1 GeoCameraParams.default.k2 }
  mount :=
    { pitchDeg := entry.mountPitchDeg
      yawDeg := entry.mountYawDeg
      rollDeg := entry.mountRollDeg }

end Registry

section Assignments

/-- A call on a part of the state; what it has done when an exception ends it stays
done. -/
def within {State Part α : Type} (part : State → Part) (put : State → Part → State)
    (call : EStateM JsonException Part α) : EStateM JsonException State α :=
  fun state =>
    match call (part state) with
    | .ok result changed => .ok result (put state changed)
    | .error exception changed => .error exception (put state changed)

theorem run_bind_eq_ok {State Exception α β : Type} {first : EStateM Exception State α}
    {next : α → EStateM Exception State β} {state final : State} {result : β} :
    (first >>= next).run state = .ok result final ↔
      ∃ value middle, first.run state = .ok value middle ∧
        (next value).run middle = .ok result final := by
  rw [EStateM.run_bind]
  cases first.run state <;> simp

/-- `field = c.value(key, current)` -/
def assign {State α : Type} (read : Json → Except JsonException α) (c : Json) (key : String)
    (current : α) (put : State → α → State) : EStateM JsonException State Unit :=
  match readMember read c key current with
  | .ok value => modify fun state => put state value
  | .error exception => throw exception

/-- `readEntry`, into an entry -/
def readEntry (c : Json) (base : GeoCameraEntry) :
    EStateM JsonException GeoCameraEntry Unit := do
  assign Json.getDouble c "hfov_deg" base.camera.hfovDeg fun e hfovDeg =>
    { e with camera := { e.camera with hfovDeg } }
  assign Json.getDouble c "vfov_deg" base.camera.vfovDeg fun e vfovDeg =>
    { e with camera := { e.camera with vfovDeg } }
  assign Json.getDouble c "k1" base.camera.k1 fun e k1 =>
    { e with camera := { e.camera with k1 } }
  assign Json.getDouble c "k2" base.camera.k2 fun e k2 =>
    { e with camera := { e.camera with k2 } }
  assign Json.getDouble c "mount_pitch_deg" base.mount.pitchDeg fun e pitchDeg =>
    { e with mount := { e.mount with pitchDeg } }
  assign Json.getDouble c "mount_yaw_deg" base.mount.yawDeg fun e yawDeg =>
    { e with mount := { e.mount with yawDeg } }
  assign Json.getDouble c "mount_roll_deg" base.mount.rollDeg fun e rollDeg =>
    { e with mount := { e.mount with rollDeg } }

variable (beyondInt : Double → Int32)

/-- The fields of `m_config` but the cameras. -/
def readConfig (c : Json) : EStateM JsonException GeoProjectorConfig Unit := do
  let config ← get
  assign Json.getBoolean c "enabled" config.enabled fun config enabled =>
    { config with enabled }
  within (·.defaults) (fun config defaults => { config with defaults })
    (readEntry c config.defaults)
  assign Json.getDouble c "mount_height_m" config.mountHeightM fun config mountHeightM =>
    { config with mountHeightM }
  assign (Json.getInt beyondInt) c "latency_ms" config.latencyMs fun config latencyMs =>
    { config with latencyMs }
  assign Json.getDouble c "min_conf" config.minConf fun config minConf =>
    { config with minConf }
  assign Json.getDouble c "rate_hz" config.rateHz fun config rateHz =>
    { config with rateHz }
  assign Json.getDouble c "sigma_att_deg" config.sigmaAttDeg fun config sigmaAttDeg =>
    { config with sigmaAttDeg }
  assign Json.getDouble c "sigma_alt_m" config.sigmaAltM fun config sigmaAltM =>
    { config with sigmaAltM }

def readCameraEntries : List (String × Json) → EStateM JsonException GeoProjectorConfig Unit
  | [] => return
  | (key, value) :: rest => do
      if value.isObject then
        let config ← get
        match readEntry value config.defaults config.defaults with
        | .ok _ e => set { config with cameras := config.cameras.insert key e }
        | .error exception _ => throw exception
      readCameraEntries rest

/-- `m_config.cameras` -/
def readCameras (c : Json) : EStateM JsonException GeoProjectorConfig Unit := do
  modify fun config => { config with cameras := .empty }
  match c.member? "cameras" with
  | some (.object entries) => readCameraEntries entries
  | _ => return

end Assignments

namespace CGeoProjectorCore

abbrev Call :=
  EStateM JsonException CGeoProjectorCore

section Configuration

variable (beyondInt : Double → Int32) (cmath : CMath Double) (files : String → RegistryFile)

/-- `loadCameraRegistry`, with what it returns and logs -/
def loadCameraRegistry (path : String) : Call (Bool × List GeoOutput) := do
  modify fun core =>
    { core with registryActive := true, config := { core.config with cameras := .empty } }
  match CCameraRegistry.load beyondInt path (files path) with
  | .error exception => throw exception
  | .ok (.error err) =>
      return (false,
        [.logError ("geo_projection: " ++ err ++ " - failing closed (all obs dropped)")])
  | .ok (.ok reg) =>
      modify fun core =>
        { core with
          config := { core.config with
            cameras := reg.cameras.mapValues (entryFromRegistry cmath) } }
      if reg.cameras.entries.isEmpty then
        return (false,
          [.logError ("geo_projection: camera registry '" ++ path ++ "' has no usable cameras" ++
            (if reg.err.isEmpty then "" else " (" ++ reg.err ++ ")") ++
            " - failing closed (all obs dropped)")])
      else if reg.err.isEmpty then return (true, [])
      else return (true, [.logError ("geo_projection: " ++ reg.err)])

/-- The end of `init`: the registry, if one is configured. -/
def configureRegistry (c : Json) : Call (List GeoOutput) := do
  match c.member? "camera_registry" with
  | none => return []
  | some (.string path) =>
      let (_, outputs) ← loadCameraRegistry beyondInt cmath files path
      return outputs
  | some _ =>
      modify fun core =>
        { core with registryActive := true, config := { core.config with cameras := .empty } }
      return [.logError ("geo_projection: 'camera_registry' must be a string path - " ++
        "failing closed (all obs dropped)")]

def init (c : Json) : Call (List GeoOutput) := do
  if c.isObject then
    within (·.config) (fun core config => { core with config }) do
      readConfig beyondInt c
      readCameras c
    modify fun core => { core with droppedCameras := [], registryActive := false }
    configureRegistry beyondInt cmath files c
  else return []

end Configuration

variable (core : CGeoProjectorCore)

def fresh : CGeoProjectorCore where
  config := .default
  throttle := .empty
  droppedCameras := []
  aiStatus := -1
  lastFixUs := 0
  lastStatePubUs := 0
  capsAdvertised := false
  registryActive := false

def publishState (changed : Json) : List GeoOutput :=
  if core.capsAdvertised then [.publishState changed] else []

/-- `setEnabled`, with what it returns and publishes -/
def setEnabled (enabled : Bool) : CGeoProjectorCore × Bool × List GeoOutput :=
  if core.config.enabled = enabled then (core, false, [])
  else
    let core := { core with config := { core.config with enabled } }
    (core, true, core.publishState (.object [("enabled", .boolean enabled)]))

def onAdvertised (advertised : Bool) : CGeoProjectorCore :=
  { core with
    capsAdvertised := advertised
    lastFixUs := if advertised then core.lastFixUs else 0 }

def onAIStatus (cmd : Json) : CGeoProjectorCore × List GeoOutput :=
  match cmd.member? "a" with
  | some a =>
      let status := a.getInt32
      if !a.isNumberInteger || status = aiRecognitionClassList || status = core.aiStatus then
        (core, [])
      else
        let core := { core with aiStatus := status }
        (core, core.publishState (.object [("ai", .string (aiStateName status))]))
  | none => (core, [])

def tick (now : UInt64) : CGeoProjectorCore × List GeoOutput :=
  if !core.capsAdvertised || !core.config.enabled then (core, [])
  else if now - core.lastStatePubUs < 1000000 then (core, [])
  else
    let core := { core with lastStatePubUs := now }
    if core.lastFixUs = 0 then (core, [])
    else
      let age : Double := .ofUInt64 (now - core.lastFixUs) / whole 1000000
      (core, core.publishState (.object [("last_fix_age_s", .numberFloat age)]))

/-- `invoke`, with what it returns, `err` where it sets one, and what it publishes -/
def invoke (ns act : String) :
    CGeoProjectorCore × Json × Option String × List GeoOutput :=
  if ns ≠ "detect" then (core, .object [], some ("unknown namespace " ++ ns), [])
  else if act = "enable" then
    let (core, _, outputs) := core.setEnabled true
    (core, .object [("enabled", .boolean true)], none, outputs)
  else if act = "disable" then
    let (core, _, outputs) := core.setEnabled false
    (core, .object [("enabled", .boolean false)], none, outputs)
  else (core, .object [], some ("unknown action " ++ ns ++ "." ++ act), [])

def reset (_core : CGeoProjectorCore) : CGeoProjectorCore :=
  fresh

section Observations

variable (beyondUInt : Double → UInt64) (cmath : CMath Double)

def throttleKey (camId : String) (o : Observation Double) : String :=
  if o.hasTrk then camId ++ "|t" ++ toString o.trk
  else camId ++ "|c" ++ if o.cls.isEmpty then "*" else o.cls

def periodUs (rateHz : Double) : UInt64 :=
  if lt (whole 0) rateHz then (whole 1000000 / rateHz : Double).toUInt64 beyondUInt else 0

/-- Old entries are dropped where there are many. -/
def purge (throttle : OrderedMap String ThrottleEntry) (now : UInt64) :
    OrderedMap String ThrottleEntry :=
  if 256 < throttle.entries.length then
    throttle.filter fun te => !decide (60000000 < now - te.lastSentUs)
  else throttle

/-- Whether the entry of a key holds a projection back. -/
def heldBack (rateHz : Double) (te : ThrottleEntry) (r : GeoProjectionResult Double)
    (now : UInt64) : Bool :=
  let moveGateM := if lt (whole 0) te.lastUncM then te.lastUncM else r.uncM
  let moved := lt moveGateM (geoDistanceM cmath te.lastLat te.lastLng r.lat r.lng)
  let steadyTimeout := decide (steadyResendUs ≤ now - te.lastSentUs)
  te.lastSentUs != 0 &&
    (decide (now - te.lastSentUs < periodUs beyondUInt rateHz) || (!moved && !steadyTimeout))

/-- `passesThrottle`, with `m_throttle` after it -/
def passesThrottle (rateHz : Double) (throttle : OrderedMap String ThrottleEntry)
    (camId : String) (o : Observation Double) (r : GeoProjectionResult Double)
    (now : UInt64) : Bool × OrderedMap String ThrottleEntry :=
  let key := throttleKey camId o
  let throttle := purge throttle now
  let te := (throttle.find? key).getD .default
  if heldBack beyondUInt cmath rateHz te r now then (false, throttle.insert key te)
  else
    (true, throttle.insert key
      { lastSentUs := now
        lastLat := r.lat
        lastLng := r.lng
        lastUncM := r.uncM })

def detectedPayload (camId : String) (o : Observation Double)
    (r : GeoProjectionResult Double) : Json :=
  .object
    ([ ("cam_id", .string camId),
       ("class", .string o.cls),
       ("conf", .numberFloat o.conf),
       ("pos", .array [.numberFloat r.lat, .numberFloat r.lng, .numberInteger 0]),
       ("range_m", .numberFloat r.groundRangeM),
       ("src", .string "ai") ] ++
      (if o.hasTrk then [("trk", .numberInteger (Int64.ofInt o.trk))] else []) ++
      [("unc_m", .numberFloat r.uncM)])

def projectObservation (camera : GeoCameraParams Double) (mount : GeoMountParams Double)
    (fix : GeoPoseFix) (o : Observation Double) : GeoProjectionResult Double :=
  geoProjectToGround cmath
    (geoBoxToCentered o.x + o.w / whole 2) (geoBoxToCentered o.y + o.h / whole 2)
    o.w o.h camera mount fix.att fix.pose core.config.sigmaAttDeg core.config.sigmaAltM
    fix.rangefinderM

/-- One round of the loop in `onObservations`. -/
def observe (camId : String) (camera : GeoCameraParams Double)
    (mount : GeoMountParams Double) (fix : GeoPoseFix) (now : UInt64)
    (o : Observation Double) : CGeoProjectorCore × List GeoOutput :=
  if lt o.conf core.config.minConf then (core, [])
  else
    let r := core.projectObservation cmath camera mount fix o
    if r.ok then
      let (passes, throttle) :=
        passesThrottle beyondUInt cmath core.config.rateHz core.throttle camId o r now
      let core := { core with lastFixUs := now, throttle }
      if passes then
        ({ core with lastStatePubUs := now }, [.fireEvent (detectedPayload camId o r)])
      else (core, [])
    else (core, [])

def observeEach (core : CGeoProjectorCore) (camId : String) (camera : GeoCameraParams Double)
    (mount : GeoMountParams Double) (fix : GeoPoseFix) (now : UInt64) :
    List (Observation Double) → CGeoProjectorCore × List GeoOutput
  | [] => (core, [])
  | o :: rest =>
      let (core, first) := core.observe beyondUInt cmath camId camera mount fix now o
      let (core, others) := core.observeEach camId camera mount fix now rest
      (core, first ++ others)

/-- `t_frame`: the frame time on the pose clock, or a latency before now. -/
def frameTime (tmCapture : Int) (now : UInt64) : UInt64 :=
  let tFrame := (Int64.ofInt tmCapture).toUInt64
  if tFrame = 0 || now + 200000 < tFrame || frameTimeWindowUs < now - tFrame then
    now - core.config.latencyMs.toInt64.toUInt64 * 1000
  else tFrame

def liveMount (cam : GeoCameraEntry) (fix : GeoPoseFix) : GeoMountParams Double :=
  { cam.mount with
    pitchDeg := if fix.hasMountPitch then fix.mountPitchDeg else cam.mount.pitchDeg
    yawDeg := if fix.hasMountYaw then fix.mountYawDeg else cam.mount.yawDeg }

def cameraFor (camId : String) : GeoCameraEntry :=
  (core.config.cameras.find? camId).getD core.config.defaults

def dropFrame (camId : String) : CGeoProjectorCore × Nat × List GeoOutput :=
  if core.droppedCameras.contains camId then (core, 0, [])
  else
    ({ core with droppedCameras := camId :: core.droppedCameras }, 0,
      [.logError ("geo_projection: dropping obs for cam_id '" ++ camId ++
        "' - not in the camera registry")])

/-- The second half of `onObservations`, where the frame has a pose. -/
def projectFrame (frame : ObservationFrame Double) (fix : GeoPoseFix) (now : UInt64) :
    CGeoProjectorCore × Nat × List GeoOutput :=
  if (core.config.cameras.find? frame.camId).isNone && core.registryActive then
    core.dropFrame frame.camId
  else
    let cam := core.cameraFor frame.camId
    let looped :=
      core.observeEach beyondUInt cmath frame.camId cam.camera (liveMount cam fix) fix now
        frame.obs
    (looped.1, looped.2.length, looped.2)

/-- `onObservations`, with how many events are fired and what goes out -/
def onObservations (ms : Json) (now : UInt64) (poseAt : UInt64 → Option GeoPoseFix) :
    CGeoProjectorCore × Nat × List GeoOutput :=
  if core.config.enabled then
    match obsParse ms with
    | .error _ => (core, 0, [])
    | .ok frame =>
        if frame.obs.isEmpty then (core, 0, [])
        else
          match poseAt (core.frameTime frame.tmCapture now) with
          | none => (core, 0, [])
          | some fix => core.projectFrame beyondUInt cmath frame fix now
  else (core, 0, [])

/-- The setup of a projector is left as it was. -/
structure SameSetup (other : CGeoProjectorCore) : Prop where
  config : other.config = core.config
  registryActive : other.registryActive = core.registryActive

variable {beyondUInt cmath} {camId : String} {camera : GeoCameraParams Double}
  {mount : GeoMountParams Double} {fix : GeoPoseFix} {now : UInt64}

theorem sameSetup_observe (o : Observation Double) :
    core.SameSetup (core.observe beyondUInt cmath camId camera mount fix now o).1 := by
  unfold observe
  split
  · exact ⟨rfl, rfl⟩
  · dsimp only
    split
    · split <;> exact ⟨rfl, rfl⟩
    · exact ⟨rfl, rfl⟩

theorem sameSetup_observeEach (obs : List (Observation Double)) :
    core.SameSetup
      (core.observeEach beyondUInt cmath camId camera mount fix now obs).1 := by
  induction obs generalizing core with
  | nil => exact ⟨rfl, rfl⟩
  | cons o rest ih =>
      have first : core.SameSetup
          (core.observe beyondUInt cmath camId camera mount fix now o).1 :=
        core.sameSetup_observe o
      have others := ih (core.observe beyondUInt cmath camId camera mount fix now o).1
      exact ⟨others.config.trans first.config,
        others.registryActive.trans first.registryActive⟩

theorem sameSetup_projectFrame (frame : ObservationFrame Double) :
    core.SameSetup (core.projectFrame beyondUInt cmath frame fix now).1 := by
  unfold projectFrame
  dsimp only
  split
  · unfold dropFrame
    split <;> exact ⟨rfl, rfl⟩
  · exact core.sameSetup_observeEach frame.obs

theorem sameSetup_onObservations (ms : Json) (poseAt : UInt64 → Option GeoPoseFix) :
    core.SameSetup (core.onObservations beyondUInt cmath ms now poseAt).1 := by
  unfold onObservations
  split
  · split
    · exact ⟨rfl, rfl⟩
    · rename_i frame parsed
      split
      · exact ⟨rfl, rfl⟩
      · split
        · exact ⟨rfl, rfl⟩
        · exact core.sameSetup_projectFrame frame
  · exact ⟨rfl, rfl⟩

theorem projectObservation_congr {other : CGeoProjectorCore}
    (same : other.config = core.config) (o : Observation Double) :
    other.projectObservation cmath camera mount fix o =
      core.projectObservation cmath camera mount fix o := by
  unfold projectObservation
  rw [same]

end Observations

end CGeoProjectorCore

def levelFix (latDeg : Nat) : GeoPoseFix where
  att := ⟨whole 0, whole 0, whole 0⟩
  pose := ⟨whole latDeg, whole 20, whole 10⟩
  rangefinderM := -whole 1
  hasMountPitch := false
  hasMountYaw := false
  mountPitchDeg := whole 0
  mountYawDeg := whole 0

def centredFrame (camId cls : String) : Json :=
  .object
    [ ("cam_id", .string camId),
      ("obs", .array [.object
        [ ("box", .array
            [ .numberFloat (decimal 25 2), .numberFloat (decimal 25 2),
              .numberFloat (decimal 5 1), .numberFloat (decimal 5 1) ]),
          ("cls", .string cls),
          ("conf", .numberUnsigned 1) ]]),
      ("tm_capture", .numberUnsigned 1) ]

end DroneEngage
