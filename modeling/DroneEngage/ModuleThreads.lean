import DroneEngage.EventRuns
import DroneEngage.ModuleRegistration

/-!
# The threads of a module

What each step of the main thread and of the receive thread can do, and which of them the
start of the transport and the end of `init` put in order.
-/

namespace DroneEngage.ModuleBus

open Capabilities EventRuns

/-- `setCapabilities` takes the adverts. -/
def accepts (library : JsonLibrary) (adverts : List String) : Bool :=
  match Capabilities.setCapabilities library (adverts.map utf8Chars) with
  | .ok (some _) => true
  | _ => false

/-- The route of a message that comes in. -/
def ModuleEvent.route? (library : JsonLibrary) (beyondInt : Double → Int32) :
    ModuleEvent → Option Route
  | .onReceive message => do (route beyondInt (← library.parse message)).toOption
  | _ => none

/-! How far a thread has come with the adverts. -/

/-- It has found that they have not been sent. -/
@[simp]
def PublishStage.claims : PublishStage → Bool
  | .claim => true
  | _ => false

@[simp]
def PublishStage.sends : PublishStage → Bool
  | .send => true
  | _ => false

/-- It hands something to the client. -/
def PublishStage.transmits : PublishStage → Bool
  | .store _ | .claim | .send => true
  | _ => false

@[simp]
def RegisterStage.claims : RegisterStage → Bool
  | .claim => true
  | _ => false

@[simp]
def RegisterStage.sends : RegisterStage → Bool
  | .send => true
  | _ => false

section Steps

variable {library : JsonLibrary} {beyondInt : Double → Int32} {state : ModuleState}

/-- `setCapabilities` refuses the adverts, or it takes them over and goes on. -/
theorem setCapabilities_cases (state : ModuleState)
    (memory : Sha256Ctx (Vector (BitVec 32) 8)) (adverts : List String) :
    (accepts library adverts = false ∧
      state.setCapabilities library memory adverts = (state, none)) ∨
    ∃ parsed, accepts library adverts = true ∧
      state.setCapabilities library memory adverts =
        (state.storeCapabilities memory adverts parsed, some .appendHash) := by
  unfold ModuleState.setCapabilities accepts
  cases Capabilities.setCapabilities library (adverts.map utf8Chars) with
  | error exception => exact .inl ⟨rfl, rfl⟩
  | ok stored =>
      cases stored with
      | none => exact .inl ⟨rfl, rfl⟩
      | some parsed => exact .inr ⟨parsed, rfl, rfl⟩

/-- A message changes nothing, or is taken by its route. -/
theorem onReceive_cases (state : ModuleState) (message : List Char) :
    ((ModuleEvent.onReceive message).route? library beyondInt = none ∧
      state.onReceive library beyondInt message = ⟨state, [], none⟩) ∨
    ∃ jMsg taken, (ModuleEvent.onReceive message).route? library beyondInt = some taken ∧
      state.onReceive library beyondInt message =
        (state.takeRoute jMsg taken).withMessage jMsg := by
  unfold ModuleState.onReceive
  cases parsed : library.parse message with
  | none => exact .inl ⟨by simp [ModuleEvent.route?, parsed], rfl⟩
  | some jMsg =>
      cases routed : route beyondInt jMsg with
      | error exception =>
          exact .inl
            ⟨by simp [ModuleEvent.route?, parsed, routed, Except.toOption], by simp [routed]⟩
      | ok taken =>
          refine .inr ⟨jMsg, taken, ?_, by simp [routed]⟩
          simp [ModuleEvent.route?, parsed, routed, Except.toOption]

/-- What a call of the main thread leaves as it is. -/
theorem take_keeps (call : Call) :
    (state.take library call).1.capabilitiesSent = state.capabilitiesSent ∧
      (state.take library call).1.partyId = state.partyId ∧
      (state.take library call).1.firstReceived = state.firstReceived ∧
      (state.take library call).1.eventCounter = state.eventCounter := by
  cases call with
  | setCapabilities memory adverts =>
      rw [ModuleState.take]
      rcases @setCapabilities_cases library state memory adverts with
        ⟨-, same⟩ | ⟨parsed, -, same⟩ <;>
      · rw [same]
        exact ⟨rfl, rfl, rfl, rfl⟩
  | _ => exact ⟨rfl, rfl, rfl, rfl⟩

/-- The main thread goes on where `setCapabilities` has taken adverts over; else the adverts
stay as they are. -/
theorem take_next (call : Call) :
    (state.take library call).2 = some .appendHash ∨
      (state.take library call).2 = none ∧
        (state.take library call).1.capabilityAdverts = state.capabilityAdverts ∧
        (state.take library call).1.capabilityHash = state.capabilityHash := by
  cases call with
  | setCapabilities memory adverts =>
      rw [ModuleState.take]
      rcases @setCapabilities_cases library state memory adverts with
        ⟨-, same⟩ | ⟨parsed, -, same⟩
      · rw [same]
        exact .inr ⟨rfl, rfl, rfl⟩
      · rw [same]
        exact .inl rfl
  | _ => exact .inr ⟨rfl, rfl, rfl⟩

/-- A message may tell the party and the group, and changes nothing else at once. -/
theorem onReceive_state (state : ModuleState) (message : List Char) :
    ∃ partyId groupId, (state.onReceive library beyondInt message).state =
      { state with partyId := partyId, groupId := groupId } := by
  rcases @onReceive_cases library beyondInt state message with
    ⟨-, same⟩ | ⟨jMsg, taken, -, same⟩
  · rw [same]
    exact ⟨state.partyId, state.groupId, rfl⟩
  · rw [same]
    cases taken with
    | partyRecord sd gr =>
        cases gr with
        | none => exact ⟨sd, state.groupId, rfl⟩
        | some gr => exact ⟨sd, gr, rfl⟩
    | _ => exact ⟨state.partyId, state.groupId, rfl⟩

/-- The receive thread goes on with the first reply only. -/
theorem onReceive_next (state : ModuleState) (message : List Char) :
    (state.onReceive library beyondInt message).next = none ∨
      ∃ jMsg, state.firstReceived = true ∧
          (state.onReceive library beyondInt message).next = some (.forward, jMsg) ∨
        state.firstReceived = false ∧
          (state.onReceive library beyondInt message).next = some (.refresh, jMsg) := by
  rcases @onReceive_cases library beyondInt state message with
    ⟨-, same⟩ | ⟨jMsg, taken, -, same⟩
  · rw [same]
    exact .inl rfl
  · rw [same]
    cases taken with
    | partyRecord sd gr =>
        cases gr with
        | none => exact .inl rfl
        | some gr =>
            refine .inr ⟨jMsg, ?_⟩
            cases received : state.firstReceived with
            | true => exact .inl ⟨rfl, by simp [ModuleState.takeRoute, Progress.withMessage,
                received]⟩
            | false => exact .inr ⟨rfl, by simp [ModuleState.takeRoute, Progress.withMessage,
                received]⟩
    | _ => exact .inl rfl

/-- The ID message is made anew once `init` is done. -/
theorem publish_refresh (beyondInt : Double → Int32) (state : ModuleState) :
    (state.initialized = true ∧
      state.publish beyondInt .refresh = ⟨state, [], some (.store (state.createJSONID false))⟩) ∨
    (state.initialized = false ∧
      state.publish beyondInt .refresh = ⟨state, [], some .check⟩) := by
  cases done : state.initialized with
  | true => exact .inl ⟨rfl, by simp [ModuleState.publish, done]⟩
  | false => exact .inr ⟨rfl, by simp [ModuleState.publish, done]⟩

/-- The adverts are to be sent by a module that is registered and has not sent them. -/
theorem publish_check (beyondInt : Double → Int32) (state : ModuleState) :
    (state.initialized = true ∧ state.partyId.isEmpty = false ∧ state.capabilitiesSent = false ∧
      state.publish beyondInt .check = ⟨state, [], some .claim⟩) ∨
    ((state.initialized = false ∨ state.partyId.isEmpty = true ∨
        state.capabilitiesSent = true) ∧
      state.publish beyondInt .check = ⟨state, [], none⟩) := by
  cases done : state.initialized with
  | false => exact .inr ⟨.inl rfl, by simp [ModuleState.publish, done]⟩
  | true =>
      cases anonymous : state.partyId.isEmpty with
      | true => exact .inr ⟨.inr (.inl rfl), by simp [ModuleState.publish, done, anonymous]⟩
      | false =>
          cases sent : state.capabilitiesSent with
          | true =>
              exact .inr ⟨.inr (.inr rfl), by simp [ModuleState.publish, done, anonymous, sent]⟩
          | false =>
              exact .inl ⟨rfl, rfl, rfl, by simp [ModuleState.publish, done, anonymous, sent]⟩

/-- They are to be sent with the first reply where there are any and none have been. -/
theorem register_check (state : ModuleState) (jMsg : Json) :
    (state.capabilitiesSent = false ∧
      state.register jMsg .check = ⟨state, [], some .claim⟩) ∨
    ((state.capabilitiesSent = true ∨ state.capabilityAdverts = []) ∧
      state.register jMsg .check = ⟨state, [], some .forward⟩) := by
  cases sent : state.capabilitiesSent with
  | true => exact .inr ⟨.inl rfl, by simp [ModuleState.register, sent]⟩
  | false =>
      cases adverts : state.capabilityAdverts with
      | nil => exact .inr ⟨.inr rfl, by simp [ModuleState.register, adverts]⟩
      | cons => exact .inl ⟨rfl, by simp [ModuleState.register, sent, adverts]⟩

end Steps

section Runs

variable {library : JsonLibrary} {beyondInt : Double → Int32} {events : List ModuleEvent}
  {instanceTimeStamp : Int64} {run next : ModuleRun} {event : ModuleEvent}

theorem step_eq_some_iff :
    run.step library beyondInt event = some next ↔
      run.permits event = true ∧ next = run.advance library beyondInt event := by
  unfold ModuleRun.step
  split
  · rename_i permitted
    simp [permitted, eq_comm]
  · rename_i refused
    simp [refused]

/-- Each step of the threads, with what it does. -/
theorem step_cases (stepped : run.step library beyondInt event = some next) :
    (∃ call, event = .call call ∧ run.publishing = none ∧ run.state.permits call = true ∧
      next =
        { run with
          state := (run.state.take library call).1
          publishing := (run.state.take library call).2 }) ∨
    (∃ ns changed full, event = .publishState ns changed full ∧
      next = { run with outputs := run.outputs ++ run.state.publishState ns changed full }) ∨
    (∃ ms ns ev payload, event = .fireEvent ms ns ev payload ∧
      next =
        { run with
          state := (run.state.fireEvent ms ns ev payload).1
          outputs := run.outputs ++ (run.state.fireEvent ms ns ev payload).2
          nonces := run.nonces ++ [run.state.nextNonce ms] }) ∨
    (∃ message, event = .onReceive message ∧ run.registering = none ∧
      run.state.started = true ∧
      next = run.afterRegister (run.state.onReceive library beyondInt message)) ∨
    (∃ stage, event = .publish ∧ run.publishing = some stage ∧
      next = run.afterPublish (run.state.publish beyondInt stage)) ∨
    (∃ stage jMsg, event = .register ∧ run.registering = some (stage, jMsg) ∧
      next = run.afterRegister ((run.state.register jMsg stage).withMessage jMsg)) := by
  obtain ⟨permitted, rfl⟩ := step_eq_some_iff.mp stepped
  cases event with
  | call call =>
      obtain ⟨free, permitted⟩ := Bool.and_eq_true_iff.mp permitted
      exact .inl ⟨call, rfl, Option.isNone_iff_eq_none.mp free, permitted, rfl⟩
  | publishState ns changed full => exact .inr (.inl ⟨ns, changed, full, rfl, rfl⟩)
  | fireEvent ms ns ev payload => exact .inr (.inr (.inl ⟨ms, ns, ev, payload, rfl, rfl⟩))
  | onReceive message =>
      obtain ⟨free, started⟩ := Bool.and_eq_true_iff.mp permitted
      exact .inr (.inr (.inr (.inl
        ⟨message, rfl, Option.isNone_iff_eq_none.mp free, started, rfl⟩)))
  | publish =>
      obtain ⟨stage, reached⟩ := Option.isSome_iff_exists.mp permitted
      refine .inr (.inr (.inr (.inr (.inl ⟨stage, rfl, reached, ?_⟩))))
      simp only [ModuleRun.advance, reached]
  | register =>
      obtain ⟨⟨stage, jMsg⟩, reached⟩ := Option.isSome_iff_exists.mp permitted
      refine .inr (.inr (.inr (.inr (.inr ⟨stage, jMsg, rfl, reached, ?_⟩))))
      simp only [ModuleRun.advance, reached]

/-- A run from a module that has not been defined yet. -/
abbrev Reaches (library : JsonLibrary) (beyondInt : Double → Int32) (instanceTimeStamp : Int64)
    (events : List ModuleEvent) (run : ModuleRun) : Prop :=
  Run (ModuleRun.step library beyondInt) (.fresh instanceTimeStamp) events run

/-- The transport is started before `init` is done and before a reply comes, and
`setCapabilities` is not called in between. -/
structure StartedFirst (run : ModuleRun) : Prop where
  initialized : run.state.initialized → run.state.started
  registering : run.registering ≠ none → run.state.started
  firstReceived : run.state.firstReceived → run.state.started
  publishing : run.publishing ≠ none → run.state.started → run.state.initialized
  transmits : run.publishing.any PublishStage.transmits → run.state.started

theorem StartedFirst.call {call : Call} (startedFirst : StartedFirst run)
    (permitted : run.state.permits call = true) :
    StartedFirst
      { run with
        state := (run.state.take library call).1
        publishing := (run.state.take library call).2 } := by
  obtain ⟨initialized, registering, firstReceived, -, -⟩ := startedFirst
  have running (between : (!run.state.started || run.state.initialized) = true)
      (started : run.state.started = true) : run.state.initialized = true := by
    rwa [started] at between
  cases call with
  | startTransport => exact ⟨fun _ => rfl, fun _ => rfl, fun _ => rfl, nofun, nofun⟩
  | finishInit =>
      have started : run.state.started = true := by
        simp only [ModuleState.permits, ModuleState.mainFree] at permitted
        cases started : run.state.started with
        | false => simp [started] at permitted
        | true => rfl
      exact ⟨fun _ => started, registering, firstReceived, nofun, nofun⟩
  | setCapabilities memory adverts =>
      rw [ModuleState.take]
      rcases @setCapabilities_cases library run.state memory adverts with
        ⟨-, same⟩ | ⟨parsed, -, same⟩
      · rw [same]
        exact ⟨initialized, registering, firstReceived, nofun, nofun⟩
      · rw [same]
        exact ⟨initialized, registering, firstReceived, fun _ => running permitted, nofun⟩
  | _ => exact ⟨initialized, registering, firstReceived, nofun, nofun⟩

theorem StartedFirst.onReceive {message : List Char} (startedFirst : StartedFirst run)
    (started : run.state.started = true) :
    StartedFirst (run.afterRegister (run.state.onReceive library beyondInt message)) := by
  obtain ⟨partyId, groupId, same⟩ := @onReceive_state library beyondInt run.state message
  unfold ModuleRun.afterRegister
  rw [same]
  exact ⟨fun _ => started, fun _ => started, fun _ => started, startedFirst.publishing,
    fun _ => started⟩

theorem StartedFirst.publish {stage : PublishStage} (startedFirst : StartedFirst run)
    (reached : run.publishing = some stage) :
    StartedFirst (run.afterPublish (run.state.publish beyondInt stage)) := by
  obtain ⟨initialized, registering, firstReceived, publishing, transmits⟩ := startedFirst
  rw [reached] at publishing transmits
  have running := publishing nofun
  cases stage with
  | refresh =>
      rcases publish_refresh beyondInt run.state with ⟨done, same⟩ | ⟨-, same⟩
      · rw [same]
        exact ⟨initialized, registering, firstReceived, fun _ => running,
          fun _ => initialized done⟩
      · rw [same]
        exact ⟨initialized, registering, firstReceived, fun _ => running, nofun⟩
  | check =>
      rcases publish_check beyondInt run.state with ⟨done, -, -, same⟩ | ⟨-, same⟩
      · rw [same]
        exact ⟨initialized, registering, firstReceived, fun _ => running,
          fun _ => initialized done⟩
      · rw [same]
        exact ⟨initialized, registering, firstReceived, fun _ => running, nofun⟩
  | claim =>
      exact ⟨initialized, registering, firstReceived, fun _ => running, fun _ => transmits rfl⟩
  | _ => exact ⟨initialized, registering, firstReceived, fun _ => running, nofun⟩

theorem StartedFirst.register {stage : RegisterStage} {jMsg : Json}
    (startedFirst : StartedFirst run) (reached : run.registering = some (stage, jMsg)) :
    StartedFirst (run.afterRegister ((run.state.register jMsg stage).withMessage jMsg)) := by
  have started := startedFirst.registering (by rw [reached]; nofun)
  cases stage <;>
    exact ⟨fun _ => started, fun _ => started, fun _ => started, startedFirst.publishing,
      fun _ => started⟩

theorem StartedFirst.step (startedFirst : StartedFirst run)
    (stepped : run.step library beyondInt event = some next) : StartedFirst next := by
  rcases step_cases stepped with ⟨call, -, -, permitted, rfl⟩ | ⟨ns, changed, full, -, rfl⟩ |
    ⟨ms, ns, ev, payload, -, rfl⟩ | ⟨message, -, -, started, rfl⟩ | ⟨stage, -, reached, rfl⟩ |
    ⟨stage, jMsg, -, reached, rfl⟩
  · exact startedFirst.call permitted
  · exact ⟨startedFirst.initialized, startedFirst.registering, startedFirst.firstReceived,
      startedFirst.publishing, startedFirst.transmits⟩
  · exact ⟨startedFirst.initialized, startedFirst.registering, startedFirst.firstReceived,
      startedFirst.publishing, startedFirst.transmits⟩
  · exact startedFirst.onReceive started
  · exact startedFirst.publish reached
  · exact startedFirst.register reached

theorem Reaches.startedFirst (reaches : Reaches library beyondInt instanceTimeStamp events run) :
    StartedFirst run := by
  refine Run.invariant reaches StartedFirst ?_ fun _ stepped before => before.step stepped
  exact ⟨nofun, fun going => absurd rfl going, nofun, fun going => absurd rfl going, nofun⟩

end Runs

end DroneEngage.ModuleBus
