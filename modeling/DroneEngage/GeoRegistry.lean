import DroneEngage.EventRuns
import DroneEngage.GeoSightings

/-!
# The registry decides which cameras are projected

Once a registry is configured, the table of cameras is that of its file and every
other camera is dropped.  The watch on a projector remembers the file that the
latest configuration named; a run keeps the table in step with it.
-/

namespace DroneEngage

open EventRuns CGeoProjectorCore

inductive GeoCall
  | init (c : Json) (files : String → RegistryFile)
  | loadCameraRegistry (path : String) (files : String → RegistryFile)
  | setEnabled (enabled : Bool)
  | onObservations (ms : Json) (now : UInt64) (poseAt : UInt64 → Option GeoPoseFix)

/-- A projector with the registry that is configured, if one is. -/
structure GeoWatch where
  core : CGeoProjectorCore
  registry : Option RegistryFile

/-- The registry that the argument of `init` configures; a key of another type
stands for a file that is missing. -/
def configuredRegistry (c : Json) (files : String → RegistryFile) : Option RegistryFile :=
  match c.member? "camera_registry" with
  | none => none
  | some (.string path) => some (files path)
  | some _ => some .missing

namespace GeoWatch

section Steps

variable (beyondInt : Double → Int32) (beyondUInt : Double → UInt64) (cmath : CMath Double)

/-- A call that returns normally. -/
def step (watch : GeoWatch) : GeoCall → Option GeoWatch
  | .init c files =>
      match (CGeoProjectorCore.init beyondInt cmath files c).run watch.core with
      | .ok _ core =>
          some
            { core := core
              registry := if c.isObject then configuredRegistry c files else watch.registry }
      | .error _ _ => none
  | .loadCameraRegistry path files =>
      match (CGeoProjectorCore.loadCameraRegistry beyondInt cmath files path).run
          watch.core with
      | .ok _ core => some { core := core, registry := some (files path) }
      | .error _ _ => none
  | .setEnabled enabled => some { watch with core := (watch.core.setEnabled enabled).1 }
  | .onObservations ms now poseAt =>
      some { watch with
        core := (watch.core.onObservations beyondUInt cmath ms now poseAt).1 }

/-- The table of cameras is that of a registry file, and no others are projected. -/
structure Follows (core : CGeoProjectorCore) (file : RegistryFile) : Prop where
  active : core.registryActive = true
  cameras : ∀ camId, core.config.cameras.find? camId =
    (registryEntry beyondInt file camId).map (entryFromRegistry cmath)

/-- A payload is the projection of an observation with the lens and mount of a valid
entry of a registry file; live gimbal angles replace the pitch and the yaw. -/
def ProjectedFrom (core : CGeoProjectorCore) (file : RegistryFile) (ms : Json)
    (now : UInt64) (poseAt : UInt64 → Option GeoPoseFix) (payload : Json) : Prop :=
  ∃ frame fix o entry, core.Fires ms now poseAt frame fix o ∧
    registryEntry beyondInt file frame.camId = some entry ∧
    entry.validIntrinsics = true ∧
    payload = detectedPayload frame.camId o
      (core.projectObservation cmath (entryFromRegistry cmath entry).camera
        (liveMount (entryFromRegistry cmath entry) fix) fix o)

def Authoritative (watch : GeoWatch) : Prop :=
  ∀ file, watch.registry = some file → Follows beyondInt cmath watch.core file

end Steps

variable {beyondInt : Double → Int32} {beyondUInt : Double → UInt64} {cmath : CMath Double}
  {files : String → RegistryFile} {core next : CGeoProjectorCore} {file : RegistryFile}

theorem follows_load {path : String} {result : Bool × List GeoOutput}
    (loaded : (CGeoProjectorCore.loadCameraRegistry beyondInt cmath files path).run core =
      .ok result next) : Follows beyondInt cmath next (files path) := by
  unfold CGeoProjectorCore.loadCameraRegistry at loaded
  simp only [run_bind_eq_ok, EStateM.run_modify, EStateM.Result.ok.injEq] at loaded
  obtain ⟨_, middle, ⟨-, rfl⟩, loaded⟩ := loaded
  cases load : CCameraRegistry.load beyondInt path (files path) with
  | error exception =>
      rw [load] at loaded
      cases loaded
  | ok table =>
      rw [load] at loaded
      cases table with
      | error err =>
          cases loaded
          refine ⟨rfl, fun camId => ?_⟩
          rw [registryEntry_of_load_error load]
          rfl
      | ok reg =>
          simp only [run_bind_eq_ok, EStateM.run_modify, EStateM.Result.ok.injEq] at loaded
          obtain ⟨_, middle, ⟨-, rfl⟩, loaded⟩ := loaded
          have cameras : ∀ camId,
              (reg.cameras.mapValues (entryFromRegistry cmath)).find? camId =
                (registryEntry beyondInt (files path) camId).map (entryFromRegistry cmath) := by
            intro camId
            rw [OrderedMap.find?_mapValues, find?_load load]
          split at loaded
          · cases loaded
            exact ⟨rfl, cameras⟩
          · split at loaded <;> cases loaded <;> exact ⟨rfl, cameras⟩

theorem follows_configureRegistry {c : Json} {outputs : List GeoOutput}
    (configured : (CGeoProjectorCore.configureRegistry beyondInt cmath files c).run core =
      .ok outputs next) (named : configuredRegistry c files = some file) :
    Follows beyondInt cmath next file := by
  unfold CGeoProjectorCore.configureRegistry at configured
  unfold configuredRegistry at named
  split at configured
  · rename_i absent
    rw [absent] at named
    cases named
  · rename_i path text
    rw [text] at named
    cases named
    obtain ⟨result, middle, loaded, returned⟩ := run_bind_eq_ok.mp configured
    cases returned
    exact follows_load loaded
  · rename_i other notText found
    rw [found] at named
    obtain rfl : file = .missing := by
      split at named
      · cases named
      · rename_i path same
        exact absurd (Option.some.inj same) (notText path)
      · exact (Option.some.inj named).symm
    obtain ⟨_, middle, cleared, returned⟩ := run_bind_eq_ok.mp configured
    cases cleared
    cases returned
    exact ⟨rfl, fun _ => rfl⟩

theorem follows_init {c : Json} {outputs : List GeoOutput} (object : c.isObject = true)
    (returned : (CGeoProjectorCore.init beyondInt cmath files c).run core = .ok outputs next)
    (named : configuredRegistry c files = some file) : Follows beyondInt cmath next file := by
  unfold CGeoProjectorCore.init at returned
  rw [if_pos object] at returned
  obtain ⟨_, read, -, returned⟩ := run_bind_eq_ok.mp returned
  obtain ⟨_, cleared, -, configured⟩ := run_bind_eq_ok.mp returned
  exact follows_configureRegistry configured named

theorem Follows.sameSetup (follows : Follows beyondInt cmath core file)
    (same : core.SameSetup next) : Follows beyondInt cmath next file where
  active := same.registryActive.trans follows.active
  cameras := by
    rw [same.config]
    exact follows.cameras

theorem Follows.setEnabled (follows : Follows beyondInt cmath core file) (enabled : Bool) :
    Follows beyondInt cmath (core.setEnabled enabled).1 file := by
  unfold CGeoProjectorCore.setEnabled
  split
  · exact follows
  · exact ⟨follows.active, follows.cameras⟩

variable {watch later : GeoWatch} {call : GeoCall} {calls : List GeoCall}

theorem authoritative_step
    (stepped : watch.step beyondInt beyondUInt cmath call = some later)
    (authoritative : watch.Authoritative beyondInt cmath) :
    later.Authoritative beyondInt cmath := by
  intro file configured
  cases call with
  | init c files =>
      rw [step] at stepped
      split at stepped
      · rename_i outputs core returned
        obtain rfl := Option.some.inj stepped
        dsimp only at configured ⊢
        split at configured
        · rename_i object
          exact follows_init object returned configured
        · rename_i scalar
          rw [CGeoProjectorCore.init, if_neg scalar] at returned
          cases returned
          exact authoritative file configured
      · cases stepped
  | loadCameraRegistry path files =>
      rw [step] at stepped
      split at stepped
      · rename_i result core loaded
        obtain rfl := Option.some.inj stepped
        obtain rfl := Option.some.inj configured
        exact follows_load loaded
      · cases stepped
  | setEnabled enabled =>
      obtain rfl := Option.some.inj stepped
      exact (authoritative file configured).setEnabled enabled
  | onObservations ms now poseAt =>
      obtain rfl := Option.some.inj stepped
      exact (authoritative file configured).sameSetup
        (watch.core.sameSetup_onObservations ms poseAt)

theorem Follows.fired {ms : Json} {now : UInt64} {poseAt : UInt64 → Option GeoPoseFix}
    {payload : Json} (follows : Follows beyondInt cmath core file)
    (fired : .fireEvent payload ∈ (core.onObservations beyondUInt cmath ms now poseAt).2.2) :
    ProjectedFrom beyondInt cmath core file ms now poseAt payload := by
  obtain ⟨frame, fix, o, fires, same⟩ := core.fired_of_onObservations fired
  have known := fires.known follows.active
  rw [CGeoProjectorCore.cameraFor, follows.cameras] at same
  rw [follows.cameras] at known
  cases found : registryEntry beyondInt file frame.camId with
  | none =>
      rw [found] at known
      cases known
  | some entry =>
      rw [found] at same
      exact ⟨frame, fix, o, entry, fires, found, registryEntry_validIntrinsics found, same⟩

/-- Where a registry is configured, every event is projected with a valid entry of
its file, and a file that is not loaded has none. -/
theorem projected_from_registry {start : CGeoProjectorCore}
    (run : Run (step beyondInt beyondUInt cmath) ⟨start, none⟩ calls watch)
    (configured : watch.registry = some file) (ms : Json) (now : UInt64)
    (poseAt : UInt64 → Option GeoPoseFix) :
    (∀ payload,
      .fireEvent payload ∈ (watch.core.onObservations beyondUInt cmath ms now poseAt).2.2 →
        ProjectedFrom beyondInt cmath watch.core file ms now poseAt payload) ∧
      ∀ path err, CCameraRegistry.load beyondInt path file = .ok (.error err) →
        ∀ payload, .fireEvent payload ∉
          (watch.core.onObservations beyondUInt cmath ms now poseAt).2.2 := by
  have authoritative : watch.Authoritative beyondInt cmath := by
    apply run.invariant (Authoritative beyondInt cmath)
    · intro file none
      cases none
    · intro _ _ _ _ _ stepped
      exact authoritative_step stepped
  have follows := authoritative file configured
  constructor
  · intro payload fired
    exact follows.fired fired
  · intro path err failed payload fired
    obtain ⟨frame, fix, o, entry, fires, found, valid, same⟩ := follows.fired fired
    rw [registryEntry_of_load_error failed] at found
    cases found

def oneCamera : Json :=
  .object
    [ ("cameras", .object
        [ ("DE-CAM1", .object
            [ ("camera_matrix", .array
                [ .numberUnsigned 1, .numberUnsigned 0, .numberUnsigned 1,
                  .numberUnsigned 0, .numberUnsigned 1, .numberUnsigned 1,
                  .numberUnsigned 0, .numberUnsigned 0, .numberUnsigned 1 ]),
              ("hfov_deg", .numberUnsigned 90),
              ("image_height", .numberUnsigned 2),
              ("image_width", .numberUnsigned 2) ]) ]) ]

theorem wellFormed_oneCamera : oneCamera.WellFormed := by
  refine Json.WellFormed.singleton (Json.WellFormed.singleton ?_ _) _
  refine .object _ (by decide) ?_
  simp only [List.forall_mem_cons]
  refine ⟨.array _ ?_, .numberUnsigned _, .numberUnsigned _, .numberUnsigned _, by simp⟩
  intro element member
  obtain ⟨value, rfl⟩ : ∃ value, element = .numberUnsigned value := by
    simp only [List.mem_cons, List.not_mem_nil, or_false] at member
    rcases member with same | same | same | same | same | same | same | same | same <;>
      exact ⟨_, same⟩
  exact .numberUnsigned value

def oneCameraFiles (path : String) : RegistryFile :=
  if path = "cameras.json" then .document oneCamera wellFormed_oneCamera else .missing

def downwardStep : GeoWatch → GeoCall → Option GeoWatch :=
  step (fun _ => 0) (fun _ => 0) downwardMath

def configureOneCamera : GeoCall :=
  .init (.object [("camera_registry", .string "cameras.json"), ("enabled", .boolean true)])
    oneCameraFiles

def oneCameraWatch : GeoWatch :=
  (downwardStep ⟨fresh, none⟩ configureOneCamera).getD ⟨fresh, none⟩

/-- What a frame of that camera leads to. -/
def oneCameraOutputs : List GeoOutput :=
  (oneCameraWatch.core.onObservations (fun _ => 0) downwardMath
    (centredFrame "DE-CAM1" "person") 1000000 fun _ => some (levelFix 10)).2.2

/-- The frame of a camera that looks straight down is projected with its entry. -/
theorem projected_from_registry_oneCamera :
    ∃ payload, .fireEvent payload ∈ oneCameraOutputs ∧
      ProjectedFrom (fun _ => 0) downwardMath oneCameraWatch.core
        (oneCameraFiles "cameras.json") (centredFrame "DE-CAM1" "person") 1000000
        (fun _ => some (levelFix 10)) payload := by
  have run : Run downwardStep ⟨fresh, none⟩ [configureOneCamera] oneCameraWatch :=
    .of_foldlM rfl
  have fired : (oneCameraOutputs.any fun output => output.payload?.isSome) = true := by
    decide +kernel
  obtain ⟨output, member, event⟩ := List.any_eq_true.mp fired
  cases output with
  | fireEvent payload =>
      exact ⟨payload, member, (projected_from_registry run rfl _ _ _).1 payload member⟩
  | publishState changed => cases event
  | logError line => cases event

end GeoWatch

end DroneEngage
