import DroneEngage.GeoRegistry
import DroneEngage.InterruptedCalls
import DroneEngage.RegistryLoading

/-!
# Configurations of a wrong type

`init` reads its members one after the other, and the registry comes last.  A
member of another type is thrown before that, with the table that was there or the
cameras that have been read so far.
-/

namespace DroneEngage

open EventRuns InterruptedCalls CGeoProjectorCore

namespace CGeoProjectorCore

/-- The members of a camera entry are numbers. -/
def entryTyped (c : Json) : Bool :=
  c.memberIs Json.isNumber "hfov_deg" && c.memberIs Json.isNumber "vfov_deg" &&
    c.memberIs Json.isNumber "k1" && c.memberIs Json.isNumber "k2" &&
    c.memberIs Json.isNumber "mount_pitch_deg" && c.memberIs Json.isNumber "mount_yaw_deg" &&
    c.memberIs Json.isNumber "mount_roll_deg"

/-- The members at the top of a configuration, but the cameras and the registry. -/
def configTyped (c : Json) : Bool :=
  c.memberIs Json.isBoolean "enabled" && entryTyped c &&
    c.memberIs Json.isNumber "mount_height_m" && c.memberIs Json.givesInt "latency_ms" &&
    c.memberIs Json.isNumber "min_conf" && c.memberIs Json.isNumber "rate_hz" &&
    c.memberIs Json.isNumber "sigma_att_deg" && c.memberIs Json.isNumber "sigma_alt_m"

/-- A member of `cameras` that is no object is passed over. -/
def cameraTyped (value : Json) : Bool :=
  !value.isObject || entryTyped value

/-- The `cameras` of a configuration, where they are an object. -/
def cameraMembers (c : Json) : List (String × Json) :=
  match c.member? "cameras" with
  | some (.object entries) => entries
  | _ => []

def camerasTyped (c : Json) : Bool :=
  (cameraMembers c).all fun entry => cameraTyped entry.2

/-- The cameras of a list that are read, up to the first of a wrong type. -/
def ReadBefore (entries : List (String × Json)) (camId : String) : Prop :=
  ∃ value, (camId, value) ∈ entries.takeWhile (fun entry => cameraTyped entry.2) ∧
    value.isObject = true

/-- The cameras in the table where a configuration is thrown: those from before, or
those that have been read. -/
def LeftInTable (core : CGeoProjectorCore) (c : Json) (camId : String) : Prop :=
  if configTyped c then ReadBefore (cameraMembers c) camId
  else (core.config.cameras.find? camId).isSome

/-- The table of cameras is active and holds entries of a registry file only, so that
frames of all other cameras are dropped. -/
structure Closed (beyondInt : Double → Int32) (core : CGeoProjectorCore) (file : RegistryFile) :
    Prop where
  active : core.registryActive = true
  listed : ∀ camId, (core.config.cameras.find? camId).isSome →
    (registryEntry beyondInt file camId).isSome

end CGeoProjectorCore

theorem GeoWatch.Follows.closed {beyondInt : Double → Int32} {cmath : CMath Double}
    {core : CGeoProjectorCore} {file : RegistryFile}
    (follows : GeoWatch.Follows beyondInt cmath core file) : Closed beyondInt core file where
  active := follows.active
  listed := by
    intro camId found
    rw [follows.cameras] at found
    simpa using found

section Reading

variable {State Part α : Type} {keeps : State → State → Prop}

theorem getsWhere_getBoolean : GetsWhere Json.getBoolean Json.isBoolean := by
  intro j
  cases j with
  | boolean value => exact .inl ⟨rfl, _, rfl⟩
  | _ => exact .inr ⟨rfl, rfl⟩

theorem ends_assign {get : Json → Except JsonException α} {accepts : Json → Bool}
    (gets : GetsWhere get accepts) (c : Json) (key : String) (current : α)
    {put : State → α → State} (kept : ∀ state value, keeps state (put state value))
    (reflexive : ∀ state, keeps state state) :
    Ends (assign get c key current put) (c.memberIs accepts key) keeps := by
  intro state
  unfold assign
  rw [readMember_eq gets]
  cases c.memberIs accepts key with
  | true => exact ⟨rfl, kept state _⟩
  | false => exact ⟨rfl, reflexive state⟩

theorem endsIn_within {part : State → Part} {put : State → Part → State}
    {call : EStateM JsonException Part α} {returns : Bool} {inner : Part → Prop}
    {holds : State → Prop} {state : State} (ended : EndsIn returns inner (call.run (part state)))
    (kept : ∀ changed, inner changed → holds (put state changed)) :
    EndsIn returns holds ((within part put call).run state) := by
  unfold within
  unfold EStateM.run at ended ⊢
  dsimp only
  cases ran : call (part state) with
  | ok result changed =>
      rw [ran] at ended
      exact ⟨ended.1, kept changed ended.2⟩
  | error exception changed =>
      rw [ran] at ended
      exact ⟨ended.1, kept changed ended.2⟩

end Reading

namespace CGeoProjectorCore

section Configurations

variable {beyondInt : Double → Int32} {cmath : CMath Double}
  {files : String → RegistryFile} {core : CGeoProjectorCore} {file : RegistryFile} {c : Json}

theorem ends_readEntry (base : GeoCameraEntry) :
    Ends (readEntry c base) (entryTyped c) fun _ _ => True := by
  have number : ∀ (key : String) (current : Double)
      (put : GeoCameraEntry → Double → GeoCameraEntry),
      Ends (assign Json.getDouble c key current put) (c.memberIs Json.isNumber key)
        fun _ _ => True :=
    fun key current _ =>
      ends_assign getsWhere_getDouble c key current (fun _ _ => trivial) fun _ => trivial
  unfold readEntry entryTyped
  simp only [Bool.and_assoc]
  refine (number _ _ _).seq ?_ fun _ _ => trivial
  refine (number _ _ _).seq ?_ fun _ _ => trivial
  refine (number _ _ _).seq ?_ fun _ _ => trivial
  refine (number _ _ _).seq ?_ fun _ _ => trivial
  refine (number _ _ _).seq ?_ fun _ _ => trivial
  exact (number _ _ _).seq (number _ _ _) fun _ _ => trivial

/-- The members at the top leave the cameras as they are. -/
theorem ends_readConfig :
    Ends (readConfig beyondInt c) (configTyped c) fun config left =>
      left.cameras = config.cameras := by
  have same : ∀ {first second third : GeoProjectorConfig},
      second.cameras = first.cameras → third.cameras = second.cameras →
        third.cameras = first.cameras :=
    fun first second => second.trans first
  have member : ∀ {α : Type} {get : Json → Except JsonException α} {accepts : Json → Bool},
      GetsWhere get accepts → ∀ (key : String) (current : α)
        (put : GeoProjectorConfig → α → GeoProjectorConfig),
        (∀ config value, (put config value).cameras = config.cameras) →
          Ends (assign get c key current put) (c.memberIs accepts key)
            fun config left => left.cameras = config.cameras :=
    fun gets key current _ kept => ends_assign gets c key current kept fun _ => rfl
  unfold readConfig configTyped
  simp only [Bool.and_assoc]
  refine Ends.get fun config => ?_
  refine (member getsWhere_getBoolean _ _ _ fun _ _ => by rfl).seq ?_ same
  have defaults : Ends
      (within GeoProjectorConfig.defaults
        (fun (config : GeoProjectorConfig) defaults => { config with defaults })
        (readEntry c config.defaults)) (entryTyped c)
      fun (config left : GeoProjectorConfig) => left.cameras = config.cameras :=
    fun _ => endsIn_within (ends_readEntry _ _) fun _ _ => rfl
  refine defaults.seq ?_ same
  refine (member getsWhere_getDouble _ _ _ fun _ _ => by rfl).seq ?_ same
  refine (member getsWhere_getInt _ _ _ fun _ _ => by rfl).seq ?_ same
  refine (member getsWhere_getDouble _ _ _ fun _ _ => by rfl).seq ?_ same
  refine (member getsWhere_getDouble _ _ _ fun _ _ => by rfl).seq ?_ same
  exact (member getsWhere_getDouble _ _ _ fun _ _ => by rfl).seq
    (member getsWhere_getDouble _ _ _ fun _ _ => by rfl) same

theorem readBefore_cons {key camId : String} {value : Json} {rest : List (String × Json)} :
    ReadBefore ((key, value) :: rest) camId ↔
      cameraTyped value = true ∧
        (camId = key ∧ value.isObject = true ∨ ReadBefore rest camId) := by
  unfold ReadBefore
  rw [List.takeWhile_cons]
  cases cameraTyped value with
  | false => simp
  | true =>
      simp only [if_true, List.mem_cons, Prod.mk.injEq, true_and]
      constructor
      · rintro ⟨found, ⟨rfl, rfl⟩ | later, object⟩
        · exact .inl ⟨rfl, object⟩
        · exact .inr ⟨found, later, object⟩
      · rintro (⟨rfl, object⟩ | ⟨found, later, object⟩)
        · exact ⟨value, .inl ⟨rfl, rfl⟩, object⟩
        · exact ⟨found, .inr later, object⟩

theorem readCameraEntries_typed {key : String} {value : Json} {rest : List (String × Json)}
    (object : value.isObject = true) (typed : entryTyped value = true)
    (config : GeoProjectorConfig) :
    ∃ e, (readCameraEntries ((key, value) :: rest)).run config =
      (readCameraEntries rest).run { config with cameras := config.cameras.insert key e } := by
  have ended := @ends_readEntry value config.defaults config.defaults
  rw [typed] at ended
  obtain ⟨_, e, ran, -⟩ := ended.exists_ok
  unfold EStateM.run at ran
  refine ⟨e, ?_⟩
  rw [readCameraEntries, if_pos object, EStateM.run_bind, EStateM.run_get]
  dsimp only
  rw [ran]
  rfl

theorem readCameraEntries_mistyped {key : String} {value : Json} {rest : List (String × Json)}
    (object : value.isObject = true) (mistyped : entryTyped value = false)
    (config : GeoProjectorConfig) :
    ∃ exception, (readCameraEntries ((key, value) :: rest)).run config =
      .error exception config := by
  have ended := @ends_readEntry value config.defaults config.defaults
  rw [mistyped] at ended
  obtain ⟨exception, e, ran, -⟩ := ended.exists_error
  unfold EStateM.run at ran
  refine ⟨exception, ?_⟩
  rw [readCameraEntries, if_pos object, EStateM.run_bind, EStateM.run_get]
  dsimp only
  rw [ran]
  rfl

/-- The loop reads the cameras before the first of a wrong type. -/
theorem ends_readCameraEntries (entries : List (String × Json)) :
    Ends (readCameraEntries entries) (entries.all fun entry => cameraTyped entry.2)
      fun config left => ∀ camId, (left.cameras.find? camId).isSome ↔
        ReadBefore entries camId ∨ (config.cameras.find? camId).isSome := by
  induction entries with
  | nil => exact fun config => ⟨rfl, fun camId => by simp [ReadBefore]⟩
  | cons first rest ih =>
      obtain ⟨key, value⟩ := first
      intro config
      rw [List.all_cons]
      simp only [readBefore_cons]
      cases object : value.isObject with
      | false =>
          have passed : cameraTyped value = true := by simp [cameraTyped, object]
          have skipped : readCameraEntries ((key, value) :: rest) = readCameraEntries rest := by
            rw [readCameraEntries, if_neg (by simp [object])]
          rw [skipped, passed]
          exact (ih config).imp fun final left camId => by simp [left camId]
      | true =>
          have same : cameraTyped value = entryTyped value := by simp [cameraTyped, object]
          rw [same]
          cases typed : entryTyped value with
          | false =>
              obtain ⟨exception, ran⟩ := @readCameraEntries_mistyped key value rest object typed
                config
              rw [ran]
              exact ⟨rfl, fun camId => by simp⟩
          | true =>
              obtain ⟨e, ran⟩ := @readCameraEntries_typed key value rest object typed config
              rw [ran]
              refine (ih _).imp fun final left camId => ?_
              rw [left camId, OrderedMap.find?_insert]
              by_cases taken : camId = key <;> simp [taken]

theorem run_readCameras (config : GeoProjectorConfig) :
    (readCameras c).run config =
      (readCameraEntries (cameraMembers c)).run { config with cameras := .empty } := by
  unfold readCameras cameraMembers
  rw [EStateM.run_bind, EStateM.run_modify]
  dsimp only
  cases c.member? "cameras" with
  | none => rfl
  | some found => cases found <;> rfl

theorem ends_readCameras :
    Ends (readCameras c) (camerasTyped c) fun _ left =>
      ∀ camId, (left.cameras.find? camId).isSome ↔ ReadBefore (cameraMembers c) camId := by
  intro config
  rw [run_readCameras]
  have ended := ends_readCameraEntries (cameraMembers c) { config with cameras := .empty }
  refine ended.imp fun final left camId => ?_
  have listed := left camId
  simpa using listed

/-- What is read before the registry, and the table that is left where it throws. -/
theorem endsIn_reading (config : GeoProjectorConfig) :
    EndsIn (configTyped c && camerasTyped c)
      (fun left => (configTyped c && camerasTyped c) = false →
        ∀ camId, (left.cameras.find? camId).isSome ↔
          if configTyped c then ReadBefore (cameraMembers c) camId
          else (config.cameras.find? camId).isSome)
      ((do readConfig beyondInt c; readCameras c).run config) := by
  have first := @ends_readConfig beyondInt c config
  rw [EStateM.run_bind]
  cases typed : configTyped c with
  | false =>
      rw [typed] at first
      obtain ⟨exception, left, ran, kept⟩ := first.exists_error
      rw [ran]
      exact ⟨rfl, fun _ camId => by simp [kept]⟩
  | true =>
      rw [typed] at first
      obtain ⟨_, middle, ran, -⟩ := first.exists_ok
      rw [ran]
      exact (ends_readCameras middle).imp fun left listed _ camId => by simp [listed camId]

/-- A well-typed configuration is read up to the registry, and of any other the
registry is not looked at. -/
theorem init_cases (object : c.isObject = true) :
    ((configTyped c && camerasTyped c) = true ∧
        ∃ read, (init beyondInt cmath files c).run core =
          (configureRegistry beyondInt cmath files c).run read) ∨
      (configTyped c && camerasTyped c) = false ∧
        ∃ exception left, (init beyondInt cmath files c).run core = .error exception left ∧
          left.registryActive = core.registryActive ∧
          ∀ camId, (left.config.cameras.find? camId).isSome ↔ LeftInTable core c camId := by
  have ended : EndsIn (configTyped c && camerasTyped c)
      (fun left => left.registryActive = core.registryActive ∧
        ((configTyped c && camerasTyped c) = false →
          ∀ camId, (left.config.cameras.find? camId).isSome ↔ LeftInTable core c camId))
      ((within (·.config) (fun core config => { core with config }) (do
        readConfig beyondInt c
        readCameras c)).run core) :=
    endsIn_within (endsIn_reading core.config) fun config listed => ⟨rfl, listed⟩
  unfold init
  rw [if_pos object, EStateM.run_bind]
  cases typed : configTyped c && camerasTyped c with
  | true =>
      rw [typed] at ended
      obtain ⟨_, read, ran, -⟩ := ended.exists_ok
      rw [ran]
      exact .inl ⟨rfl, _, rfl⟩
  | false =>
      rw [typed] at ended
      obtain ⟨exception, left, ran, same, listed⟩ := ended.exists_error
      rw [ran]
      exact .inr ⟨rfl, exception, left, rfl, same, listed rfl⟩

/-- A load that throws has cleared the table before. -/
theorem closed_of_load_error {path : String} {exception : JsonException}
    {left : CGeoProjectorCore}
    (threw : (loadCameraRegistry beyondInt cmath files path).run core = .error exception left) :
    Closed beyondInt left file := by
  unfold CGeoProjectorCore.loadCameraRegistry at threw
  rw [EStateM.run_bind, EStateM.run_modify] at threw
  cases load : CCameraRegistry.load beyondInt path (files path) with
  | error thrown =>
      rw [load] at threw
      cases threw
      exact ⟨rfl, fun camId found => by simp at found⟩
  | ok table =>
      rw [load] at threw
      cases table with
      | error err => cases threw
      | ok reg =>
          dsimp only at threw
          rw [EStateM.run_bind, EStateM.run_modify] at threw
          dsimp only at threw
          split at threw
          · cases threw
          · split at threw <;> cases threw

theorem closed_loadCameraRegistry (path : String) :
    Closed beyondInt (leaves (loadCameraRegistry beyondInt cmath files path) core)
      (files path) := by
  unfold leaves
  cases ran : (loadCameraRegistry beyondInt cmath files path).run core with
  | ok result left => exact (GeoWatch.follows_load ran).closed
  | error exception left => exact closed_of_load_error ran

/-- Once the registry is looked at, only its cameras are left in the table. -/
theorem closed_configureRegistry (named : configuredRegistry c files = some file) :
    Closed beyondInt (leaves (configureRegistry beyondInt cmath files c) core) file := by
  unfold leaves
  cases ran : (configureRegistry beyondInt cmath files c).run core with
  | ok outputs left => exact (GeoWatch.follows_configureRegistry ran named).closed
  | error exception left =>
      unfold configureRegistry at ran
      split at ran
      · cases ran
      · rename_i path text
        rw [EStateM.run_bind] at ran
        cases loaded : (loadCameraRegistry beyondInt cmath files path).run core with
        | ok result middle =>
            rw [loaded] at ran
            cases ran
        | error thrown middle =>
            rw [loaded] at ran
            cases ran
            exact closed_of_load_error loaded
      · cases ran

/-- A configuration with a registry fails closed where it is well typed up to the
registry, and elsewhere where a registry was active before and the table that is
left has none but cameras of the new one. -/
def FailsClosedOn (beyondInt : Double → Int32) (core : CGeoProjectorCore) (c : Json)
    (file : RegistryFile) : Prop :=
  (configTyped c && camerasTyped c) = true ∨
    core.registryActive = true ∧
      ∀ camId, LeftInTable core c camId → (registryEntry beyondInt file camId).isSome

theorem closed_init_iff (object : c.isObject = true)
    (named : configuredRegistry c files = some file) :
    Closed beyondInt (leaves (init beyondInt cmath files c) core) file ↔
      FailsClosedOn beyondInt core c file := by
  unfold leaves
  rcases @init_cases beyondInt cmath files core c object with
    ⟨typed, read, ran⟩ | ⟨mistyped, exception, left, ran, active, listed⟩
  · rw [ran]
    exact iff_of_true (closed_configureRegistry named) (.inl typed)
  · rw [ran]
    constructor
    · intro closed
      exact .inr ⟨active.symm.trans closed.active, fun camId kept =>
        closed.listed camId ((listed camId).mpr kept)⟩
    · rintro (typed | ⟨before, known⟩)
      · exact absurd (mistyped.symm.trans typed) (by decide)
      · exact ⟨active.trans before, fun camId found => known camId ((listed camId).mp found)⟩

end Configurations

/-- The calls that may come before the next `init`. -/
inductive LaterCall
  | loadCameraRegistry (path : String) (files : String → RegistryFile)
  | setEnabled (enabled : Bool)
  | onAdvertised (advertised : Bool)
  | onAIStatus (cmd : Json)
  | tick (now : UInt64)
  | invoke (ns act : String)
  | onObservations (ms : Json) (now : UInt64) (poseAt : UInt64 → Option GeoPoseFix)
  | reset

section Runs

variable (beyondInt : Double → Int32) (beyondUInt : Double → UInt64) (cmath : CMath Double)
  (core : CGeoProjectorCore) (file : RegistryFile)

/-- The projector after a call, whether it returns or throws. -/
def later : LaterCall → CGeoProjectorCore
  | .loadCameraRegistry path files =>
      leaves (CGeoProjectorCore.loadCameraRegistry beyondInt cmath files path) core
  | .setEnabled enabled => (core.setEnabled enabled).1
  | .onAdvertised advertised => core.onAdvertised advertised
  | .onAIStatus cmd => (core.onAIStatus cmd).1
  | .tick now => (core.tick now).1
  | .invoke ns act => (core.invoke ns act).1
  | .onObservations ms now poseAt => (core.onObservations beyondUInt cmath ms now poseAt).1
  | .reset => core.reset

def laterStep (call : LaterCall) : Option CGeoProjectorCore :=
  some (later beyondInt beyondUInt cmath core call)

/-- A call that neither puts the projector back nor loads a registry with further
cameras. -/
def KeepsRegistry : LaterCall → Prop
  | .reset => False
  | .loadCameraRegistry path files => ∀ camId,
      (registryEntry beyondInt (files path) camId).isSome →
        (registryEntry beyondInt file camId).isSome
  | _ => True

/-- Frames of a camera without a valid entry in a registry file are dropped, and each
event is of a camera that has one. -/
structure FailsClosed : Prop where
  closed : Closed beyondInt core file
  fired : ∀ ms now poseAt payload,
    .fireEvent payload ∈ (core.onObservations beyondUInt cmath ms now poseAt).2.2 →
      ∃ camId entry, payload.member? "cam_id" = some (.string camId) ∧
        registryEntry beyondInt file camId = some entry ∧ entry.validIntrinsics = true

variable {beyondInt beyondUInt cmath core file}

theorem Closed.failsClosed (closed : Closed beyondInt core file) :
    FailsClosed beyondInt beyondUInt cmath core file where
  closed := closed
  fired := by
    intro ms now poseAt payload fired
    obtain ⟨frame, fix, o, fires, rfl⟩ := core.fired_of_onObservations fired
    obtain ⟨entry, found⟩ :=
      Option.isSome_iff_exists.mp (closed.listed _ (fires.known closed.active))
    exact ⟨frame.camId, entry, rfl, found, registryEntry_validIntrinsics found⟩

theorem Closed.congr {other : CGeoProjectorCore} (closed : Closed beyondInt core file)
    (active : other.registryActive = core.registryActive)
    (cameras : other.config.cameras = core.config.cameras) : Closed beyondInt other file where
  active := active.trans closed.active
  listed := by
    rw [cameras]
    exact closed.listed

theorem Closed.setEnabled (closed : Closed beyondInt core file) (enabled : Bool) :
    Closed beyondInt (core.setEnabled enabled).1 file := by
  unfold CGeoProjectorCore.setEnabled
  split
  · exact closed
  · exact closed.congr rfl rfl

theorem Closed.onAIStatus (closed : Closed beyondInt core file) (cmd : Json) :
    Closed beyondInt (core.onAIStatus cmd).1 file := by
  unfold CGeoProjectorCore.onAIStatus
  split
  · dsimp only
    split
    · exact closed
    · exact closed.congr rfl rfl
  · exact closed

theorem Closed.tick (closed : Closed beyondInt core file) (now : UInt64) :
    Closed beyondInt (core.tick now).1 file := by
  unfold CGeoProjectorCore.tick
  split
  · exact closed
  · split
    · exact closed
    · dsimp only
      split <;> exact closed.congr rfl rfl

theorem Closed.invoke (closed : Closed beyondInt core file) (ns act : String) :
    Closed beyondInt (core.invoke ns act).1 file := by
  unfold CGeoProjectorCore.invoke
  split
  · exact closed
  · split
    · exact closed.setEnabled true
    · split
      · exact closed.setEnabled false
      · exact closed

theorem Closed.later {call : LaterCall} (closed : Closed beyondInt core file)
    (keeps : KeepsRegistry beyondInt file call) :
    Closed beyondInt (later beyondInt beyondUInt cmath core call) file := by
  cases call with
  | loadCameraRegistry path files =>
      have loaded := @closed_loadCameraRegistry beyondInt cmath files core path
      exact ⟨loaded.active, fun camId found => keeps camId (loaded.listed camId found)⟩
  | setEnabled enabled => exact closed.setEnabled enabled
  | onAdvertised advertised => exact closed.congr rfl rfl
  | onAIStatus cmd => exact closed.onAIStatus cmd
  | tick now => exact closed.tick now
  | invoke ns act => exact closed.invoke ns act
  | onObservations ms now poseAt =>
      have same := @sameSetup_onObservations core beyondUInt cmath now ms poseAt
      exact closed.congr same.registryActive (congrArg (·.cameras) same.config)
  | reset => exact keeps.elim

/-- After a configuration with a registry, however it ends, the projector fails closed
until the next one exactly under the condition. -/
theorem init_failsClosed_iff {files : String → RegistryFile} {c : Json}
    (object : c.isObject = true) (named : configuredRegistry c files = some file) :
    (∀ calls left,
      RunWhere (laterStep beyondInt beyondUInt cmath) (fun _ => KeepsRegistry beyondInt file)
          (leaves (init beyondInt cmath files c) core) calls left →
        FailsClosed beyondInt beyondUInt cmath left file) ↔
      FailsClosedOn beyondInt core c file := by
  constructor
  · intro always
    exact (closed_init_iff object named).mp (always [] _ .nil).closed
  · intro condition calls left run
    have initial := (@closed_init_iff beyondInt cmath files core file c object named).mpr condition
    have closed : Closed beyondInt left file := by
      apply run.invariant fun core => Closed beyondInt core file
      · exact initial
      · rintro calls state next call - stepped keeps closed
        obtain rfl := Option.some.inj stepped
        exact closed.later keeps
    exact closed.failsClosed

end Runs

/-- The angle of view of the lens is given as a word. -/
def wordedLens : Json :=
  .object
    [ ("camera_registry", .string "cameras.json"), ("enabled", .boolean true),
      ("hfov_deg", .string "wide") ]

def wordedCore : CGeoProjectorCore :=
  leaves (init (fun _ => 0) downwardMath GeoWatch.oneCameraFiles wordedLens) fresh

def wordedOutputs : List GeoOutput :=
  (wordedCore.onObservations (fun _ => 0) downwardMath (centredFrame "DE-CAM2" "person")
    1000000 fun _ => some (levelFix 10)).2.2

/-- The word is thrown before the registry, and a camera that is not in it fires. -/
theorem failsClosed_fails :
    ¬ ∀ (beyondInt : Double → Int32) (beyondUInt : Double → UInt64) (cmath : CMath Double)
      (core : CGeoProjectorCore) (files : String → RegistryFile) (file : RegistryFile) (c : Json),
      c.isObject = true → configuredRegistry c files = some file →
        ∀ calls left,
          RunWhere (laterStep beyondInt beyondUInt cmath)
              (fun _ => KeepsRegistry beyondInt file)
              (leaves (init beyondInt cmath files c) core) calls left →
            ∀ ms now poseAt payload,
              .fireEvent payload ∈ (left.onObservations beyondUInt cmath ms now poseAt).2.2 →
                ∃ camId entry, payload.member? "cam_id" = some (.string camId) ∧
                  registryEntry beyondInt file camId = some entry ∧
                    entry.validIntrinsics = true := by
  intro always
  have fired : (wordedOutputs.any fun output =>
      (output.payload?.bind fun payload => payload.member? "cam_id").any fun camId =>
        textOf camId == "DE-CAM2") = true := by decide +kernel
  obtain ⟨output, member, named⟩ := List.any_eq_true.mp fired
  cases output with
  | fireEvent payload =>
      obtain ⟨camId, entry, same, found, -⟩ := always _ _ _ fresh GeoWatch.oneCameraFiles _
        wordedLens rfl rfl [] _ .nil _ _ _ payload member
      have unknown : camId = "DE-CAM2" := by simpa [GeoOutput.payload?, same, textOf] using named
      subst unknown
      cases found
  | publishState changed => cases named
  | logError line => cases named

/-- A well-typed configuration of a fresh projector with a registry. -/
theorem init_failsClosed_iff_oneCamera :
    FailsClosed (fun _ => 0) (fun _ => 0) downwardMath
      (leaves (init (fun _ => 0) downwardMath GeoWatch.oneCameraFiles
        (.object [("camera_registry", .string "cameras.json"), ("enabled", .boolean true)])) fresh)
      (GeoWatch.oneCameraFiles "cameras.json") :=
  (init_failsClosed_iff rfl rfl).mpr (.inl (by decide)) [] _ .nil

end CGeoProjectorCore

end DroneEngage
