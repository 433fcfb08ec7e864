import DroneEngage.AcceptedAdverts
import DroneEngage.ModuleThreads

/-!
# What a module makes known of its capabilities

The adverts go out unasked once: with the first reply to the ID message, or with
`setCapabilities` if the reply has come by then.  Every other message with adverts answers
a request.  As the threads look and claim in two steps, both may do so.
-/

namespace DroneEngage.ModuleBus

open Capabilities EventRuns Sha256Standard

def Output.isCapabilities : Output → Bool
  | .message envelope => envelope.andruavMessageId == typeModuleCapabilities
  | _ => false

/-- A message that asks for the adverts. -/
def ModuleEvent.asks (library : JsonLibrary) (beyondInt : Double → Int32) (event : ModuleEvent) :
    Bool :=
  match event.route? library beyondInt with
  | some (.capabilityRequest r) => r
  | _ => false

/-- A party in a message that comes in has a name. -/
def ModuleEvent.namesParty (library : JsonLibrary) (beyondInt : Double → Int32)
    (event : ModuleEvent) : Bool :=
  match event.route? library beyondInt with
  | some (.partyRecord sd _) => !sd.isEmpty
  | _ => true

/-- No thread claims to send the adverts when the other has claimed it since it looked. -/
def ClaimsUnsent (run : ModuleRun) : ModuleEvent → Bool
  | .publish =>
      match run.publishing with
      | some .claim => !run.state.capabilitiesSent
      | _ => true
  | .register =>
      match run.registering with
      | some (.claim, _) => !run.state.capabilitiesSent
      | _ => true
  | _ => true

/-- It may find that the adverts have not been sent. -/
def PublishStage.owes : PublishStage → Bool
  | .send => false
  | _ => true

def RegisterStage.owes : RegisterStage → Bool
  | .send | .forward => false
  | _ => true

/-- The threads that are about to claim that they send the adverts. -/
def ModuleRun.claiming (run : ModuleRun) : Nat :=
  (run.publishing.any PublishStage.claims).toNat +
    (run.registering.any fun stage => stage.1.claims).toNat

/-- The threads that are about to send them. -/
def ModuleRun.sending (run : ModuleRun) : Nat :=
  (run.publishing.any PublishStage.sends).toNat +
    (run.registering.any fun stage => stage.1.sends).toNat

section Steps

variable {library : JsonLibrary} {beyondInt : Double → Int32} {state : ModuleState}

/-- The number of messages with adverts. -/
def countCapabilities (outputs : List Output) : Nat :=
  outputs.countP Output.isCapabilities

@[simp]
theorem countCapabilities_append (front back : List Output) :
    countCapabilities (front ++ back) = countCapabilities front + countCapabilities back :=
  List.countP_append

theorem countCapabilities_sendJMSG {cmd : Json} {andruavMessageId : Int32}
    (other : andruavMessageId ≠ typeModuleCapabilities) :
    countCapabilities (state.sendJMSG cmd andruavMessageId) = 0 := by
  unfold ModuleState.sendJMSG
  split
  · simp [countCapabilities, Output.isCapabilities, other]
  · rfl

theorem countCapabilities_sendCapabilities (started : state.started = true) :
    countCapabilities state.sendCapabilities = 1 := by
  rw [ModuleState.sendCapabilities, ModuleState.sendJMSG, if_pos started]
  simp [countCapabilities, Output.isCapabilities]

@[simp]
theorem countCapabilities_forward (jMsg : Json) :
    countCapabilities (state.forward jMsg) = 0 := by
  unfold ModuleState.forward
  split
  · simp [countCapabilities, Output.isCapabilities]
  · rfl

@[simp]
theorem appendExtraField_capabilitiesSent (name : String) (ms : Json) :
    (state.appendExtraField name ms).capabilitiesSent = state.capabilitiesSent :=
  rfl

@[simp]
theorem capAddToFilter_capabilitiesSent (msgId : Int32) :
    (state.capAddToFilter beyondInt msgId).capabilitiesSent = state.capabilitiesSent :=
  rfl

@[simp]
theorem setJsonId_capabilitiesSent (jsonId : Json) :
    (state.setJsonId jsonId).capabilitiesSent = state.capabilitiesSent :=
  rfl

/-- A message that comes in is answered where it asks for the adverts. -/
theorem onReceive_counts {message : List Char} (started : state.started = true) :
    countCapabilities (state.onReceive library beyondInt message).outputs =
      ((ModuleEvent.onReceive message).asks library beyondInt).toNat := by
  rcases @onReceive_cases library beyondInt state message with
    ⟨unrouted, same⟩ | ⟨jMsg, taken, routed, same⟩
  · rw [same, ModuleEvent.asks, unrouted]
    rfl
  · rw [same, ModuleEvent.asks, routed]
    cases taken with
    | partyRecord sd gr => cases gr <;> rfl
    | capabilityRequest r =>
        cases r with
        | false => rfl
        | true =>
            exact countCapabilities_sendCapabilities started
    | other => exact countCapabilities_forward jMsg
    | _ => rfl

end Steps

/-- The number of messages with adverts that are `sent`, of the threads about to send one
and of those about to claim it: a message answers a request or follows a claim, and `again`
of the claims came when another had been made. -/
structure Tally (asked sent sending claiming : Nat) (claimed : Bool) (again : Nat) : Prop where
  total : sent + sending = asked + claimed.toNat + again
  unclaimed : claimed = false → again = 0
  once : claimed = true → again + claiming ≤ 1

section Tally

variable {asked sent sending claiming again : Nat} {claimed : Bool}

theorem Tally.look (tally : Tally asked sent sending claiming claimed again)
    (fresh : claimed = false) : Tally asked sent sending (claiming + 1) claimed again := by
  refine ⟨tally.total, tally.unclaimed, fun found => ?_⟩
  rw [fresh] at found
  cases found

theorem Tally.claim (tally : Tally asked sent sending (claiming + 1) claimed again)
    (few : claiming ≤ 1) :
    Tally asked sent (sending + 1) claiming true (again + claimed.toNat) := by
  obtain ⟨total, unclaimed, once⟩ := tally
  cases claimed with
  | false =>
      obtain rfl := unclaimed rfl
      exact ⟨by simp at total ⊢; omega, nofun, fun _ => by simpa using few⟩
  | true =>
      have alone := once rfl
      exact ⟨by simp at total ⊢; omega, nofun, fun _ => by simp; omega⟩

theorem Tally.send (tally : Tally asked sent (sending + 1) claiming claimed again) :
    Tally asked (sent + 1) sending claiming claimed again :=
  ⟨by rw [← tally.total]; omega, tally.unclaimed, tally.once⟩

theorem Tally.answer (tally : Tally asked sent sending claiming claimed again) (answers : Nat) :
    Tally (asked + answers) (sent + answers) sending claiming claimed again :=
  ⟨by have total := tally.total; omega, tally.unclaimed, tally.once⟩

end Tally

section Runs

variable {library : JsonLibrary} {beyondInt : Double → Int32} {events : List ModuleEvent}
  {instanceTimeStamp : Int64} {run next : ModuleRun} {event : ModuleEvent} {asked again : Nat}

/-- The tally of a run. -/
def Tallied (asked : Nat) (run : ModuleRun) (again : Nat) : Prop :=
  Tally asked (countCapabilities run.outputs) run.sending run.claiming
    run.state.capabilitiesSent again

theorem Tallied.call {call : Call} (tallied : Tallied asked run again)
    (free : run.publishing = none) :
    Tallied asked
      { run with
        state := (run.state.take library call).1
        publishing := (run.state.take library call).2 } again := by
  obtain ⟨sameSent, -⟩ := @take_keeps library run.state call
  unfold Tallied ModuleRun.sending ModuleRun.claiming at tallied ⊢
  rw [free] at tallied
  dsimp only
  rw [sameSent]
  rcases @take_next library run.state call with goesOn | ⟨goesOn, -⟩ <;>
  · rw [goesOn]
    exact tallied

theorem Tallied.onReceive {message : List Char} (tallied : Tallied asked run again)
    (free : run.registering = none) (started : run.state.started = true) :
    Tallied (asked + ((ModuleEvent.onReceive message).asks library beyondInt).toNat)
      (run.afterRegister (run.state.onReceive library beyondInt message)) again := by
  obtain ⟨partyId, groupId, same⟩ := @onReceive_state library beyondInt run.state message
  have sameSent : (run.state.onReceive library beyondInt message).state.capabilitiesSent =
      run.state.capabilitiesSent := by
    rw [same]
  have answered := tallied.answer ((ModuleEvent.onReceive message).asks library beyondInt).toNat
  rw [← @onReceive_counts library beyondInt run.state message started,
    ← countCapabilities_append] at answered
  unfold ModuleRun.sending ModuleRun.claiming at answered
  rw [free] at answered
  unfold Tallied ModuleRun.sending ModuleRun.claiming ModuleRun.afterRegister
  dsimp only
  rw [sameSent, ← @onReceive_counts library beyondInt run.state message started]
  rcases @onReceive_next library beyondInt run.state message with
    idle | ⟨jMsg, ⟨-, forward⟩ | ⟨-, refresh⟩⟩
  · rw [idle]
    exact answered
  · rw [forward]
    exact answered
  · rw [refresh]
    exact answered

/-- No stage of `setCapabilities` sends adverts without a claim. -/
theorem Tallied.publish {stage : PublishStage} (tallied : Tallied asked run again)
    (startedFirst : StartedFirst run) (reached : run.publishing = some stage) :
    Tallied asked (run.afterPublish (run.state.publish beyondInt stage))
      (again + (!ClaimsUnsent run .publish).toNat) := by
  have started := startedFirst.transmits
  have few := Bool.toNat_le (run.registering.any fun stage => stage.1.claims)
  unfold Tallied ModuleRun.sending ModuleRun.claiming at tallied ⊢
  unfold ClaimsUnsent ModuleRun.afterPublish
  simp only [reached, Option.any_some] at tallied started ⊢
  generalize (run.registering.any fun stage => stage.1.claims).toNat = claiming at few tallied ⊢
  generalize (run.registering.any fun stage => stage.1.sends).toNat = sending at tallied ⊢
  cases stage with
  | refresh =>
      rcases publish_refresh beyondInt run.state with ⟨-, same⟩ | ⟨-, same⟩ <;>
      · rw [same]
        simpa using tallied
  | check =>
      rcases publish_check beyondInt run.state with ⟨-, -, fresh, same⟩ | ⟨-, same⟩
      · have looked := tallied.look fresh
        rw [same]
        simpa [add_comm] using looked
      · rw [same]
        simpa using tallied
  | claim =>
      have pending : Tally asked (countCapabilities run.outputs) sending (claiming + 1)
          run.state.capabilitiesSent again := by
        simpa [add_comm] using tallied
      have claimed := pending.claim few
      simpa [ModuleState.publish, add_comm] using claimed
  | send =>
      have pending : Tally asked (countCapabilities run.outputs) (sending + 1) claiming
          run.state.capabilitiesSent again := by
        simpa [add_comm] using tallied
      have counts := countCapabilities_sendCapabilities (started rfl)
      simpa [ModuleState.publish, counts] using pending.send
  | _ => simpa [ModuleState.publish] using tallied

theorem Tallied.register {stage : RegisterStage} {jMsg : Json}
    (tallied : Tallied asked run again) (startedFirst : StartedFirst run)
    (reached : run.registering = some (stage, jMsg)) :
    Tallied asked (run.afterRegister ((run.state.register jMsg stage).withMessage jMsg))
      (again + (!ClaimsUnsent run .register).toNat) := by
  have started := startedFirst.registering (by rw [reached]; nofun)
  have few := Bool.toNat_le (run.publishing.any PublishStage.claims)
  unfold Tallied ModuleRun.sending ModuleRun.claiming at tallied ⊢
  unfold ClaimsUnsent ModuleRun.afterRegister Progress.withMessage
  simp only [reached, Option.any_some, Option.any_map] at tallied ⊢
  generalize (run.publishing.any PublishStage.claims).toNat = claiming at few tallied ⊢
  generalize (run.publishing.any PublishStage.sends).toNat = sending at tallied ⊢
  cases stage with
  | check =>
      rcases register_check run.state jMsg with ⟨fresh, same⟩ | ⟨-, same⟩
      · rw [same]
        simpa using tallied.look fresh
      · rw [same]
        simpa using tallied
  | claim =>
      have claimed := Tally.claim tallied few
      simpa [ModuleState.register] using claimed
  | send =>
      have counts := countCapabilities_sendCapabilities started
      simpa [ModuleState.register, counts] using Tally.send tallied
  | _ => simpa [ModuleState.register] using tallied

theorem Tallied.step (tallied : Tallied asked run again) (startedFirst : StartedFirst run)
    (stepped : run.step library beyondInt event = some next) :
    Tallied (asked + (event.asks library beyondInt).toNat) next
      (again + (!ClaimsUnsent run event).toNat) := by
  rcases step_cases stepped with ⟨call, rfl, free, -, rfl⟩ | ⟨ns, changed, full, rfl, rfl⟩ |
    ⟨ms, ns, ev, payload, rfl, rfl⟩ | ⟨message, rfl, free, started, rfl⟩ |
    ⟨stage, rfl, reached, rfl⟩ | ⟨stage, jMsg, rfl, reached, rfl⟩
  · exact tallied.call free
  · have none : countCapabilities (run.state.publishState ns changed full) = 0 :=
      countCapabilities_sendJMSG (by decide)
    unfold Tallied
    rw [countCapabilities_append, none]
    exact tallied
  · have none : countCapabilities (run.state.fireEvent ms ns ev payload).2 = 0 :=
      countCapabilities_sendJMSG (by decide)
    unfold Tallied
    rw [countCapabilities_append, none]
    exact tallied
  · exact tallied.onReceive free started
  · exact tallied.publish startedFirst reached
  · exact tallied.register startedFirst reached

theorem countP_snoc (events : List ModuleEvent) (event : ModuleEvent) :
    (events ++ [event]).countP (ModuleEvent.asks library beyondInt) =
      events.countP (ModuleEvent.asks library beyondInt) +
        (event.asks library beyondInt).toNat := by
  rw [List.countP_append, List.countP_singleton]
  cases event.asks library beyondInt <;> rfl

theorem Reaches.tallied (reaches : Reaches library beyondInt instanceTimeStamp events run) :
    ∃ again, Tallied (events.countP (ModuleEvent.asks library beyondInt)) run again := by
  induction reaches with
  | nil => exact ⟨0, rfl, fun _ => rfl, nofun⟩
  | snoc earlier stepped ih =>
      obtain ⟨again, tallied⟩ := ih
      rw [countP_snoc]
      exact ⟨_, tallied.step (Reaches.startedFirst earlier) stepped⟩

/-- What a registered module has sent, or one of its threads will see to: it has a party. -/
structure Published (run : ModuleRun) : Prop where
  party : run.state.firstReceived = true ∨ run.registering ≠ none →
    run.state.partyId.isEmpty = false
  owed : run.state.firstReceived = true → run.state.capabilityAdverts ≠ [] →
    run.state.capabilitiesSent = true ∨ run.publishing.any PublishStage.owes = true ∨
      run.registering.any (fun stage => stage.1.owes) = true

theorem Published.call {call : Call} (published : Published run) (free : run.publishing = none) :
    Published
      { run with
        state := (run.state.take library call).1
        publishing := (run.state.take library call).2 } := by
  obtain ⟨sameSent, sameParty, sameFirst, -⟩ := @take_keeps library run.state call
  constructor
  · dsimp only
    rw [sameParty, sameFirst]
    exact published.party
  · dsimp only
    rw [sameSent, sameFirst]
    intro received given
    rcases @take_next library run.state call with goesOn | ⟨goesOn, sameAdverts, -⟩
    · rw [goesOn]
      exact .inr (.inl rfl)
    · rw [sameAdverts] at given
      rw [goesOn, ← free]
      exact published.owed received given

theorem Published.onReceive {message : List Char} (published : Published run)
    (free : run.registering = none)
    (named : (ModuleEvent.onReceive message).namesParty library beyondInt) :
    Published (run.afterRegister (run.state.onReceive library beyondInt message)) := by
  have owed := published.owed
  rw [free] at owed
  have settled (received : run.state.firstReceived = true)
      (given : run.state.capabilityAdverts ≠ []) :
      run.state.capabilitiesSent = true ∨ run.publishing.any PublishStage.owes = true := by
    simpa using owed received given
  rcases @onReceive_cases library beyondInt run.state message with
    ⟨-, same⟩ | ⟨jMsg, taken, routed, same⟩
  · rw [same]
    exact ⟨fun received => published.party (received.imp_right fun going => absurd rfl going),
      owed⟩
  · rw [same]
    cases taken with
    | partyRecord sd gr =>
        have named : sd.isEmpty = false := by
          simpa [ModuleEvent.namesParty, routed] using named
        refine ⟨fun _ => ?_, fun received given => ?_⟩
        · cases gr <;> exact named
        · cases gr with
          | none => exact owed received given
          | some gr => exact (settled received given).imp_right .inl
    | _ =>
        exact ⟨fun received => published.party (received.imp_right fun going => absurd rfl going),
          owed⟩

theorem Published.publish {stage : PublishStage} (published : Published run)
    (startedFirst : StartedFirst run) (reached : run.publishing = some stage) :
    Published (run.afterPublish (run.state.publish beyondInt stage)) := by
  obtain ⟨party, owed⟩ := published
  rw [reached] at owed
  have initialized (received : run.state.firstReceived = true) : run.state.initialized = true :=
    startedFirst.publishing (by rw [reached]; nofun) (startedFirst.firstReceived received)
  cases stage with
  | refresh =>
      rcases publish_refresh beyondInt run.state with ⟨-, same⟩ | ⟨-, same⟩ <;>
      · rw [same]
        exact ⟨party, fun _ _ => .inr (.inl rfl)⟩
  | check =>
      rcases publish_check beyondInt run.state with ⟨-, -, -, same⟩ | ⟨settled, same⟩
      · rw [same]
        exact ⟨party, fun _ _ => .inr (.inl rfl)⟩
      · rw [same]
        refine ⟨party, fun received given => ?_⟩
        rcases settled with pending | anonymous | sent
        · rw [initialized received] at pending
          cases pending
        · rw [party (.inl received)] at anonymous
          cases anonymous
        · exact .inl sent
  | claim => exact ⟨party, fun _ _ => .inl rfl⟩
  | send => exact ⟨party, owed⟩
  | _ => exact ⟨party, fun _ _ => .inr (.inl rfl)⟩

theorem Published.register {stage : RegisterStage} {jMsg : Json} (published : Published run)
    (reached : run.registering = some (stage, jMsg)) :
    Published (run.afterRegister ((run.state.register jMsg stage).withMessage jMsg)) := by
  have named := published.party (.inr (by rw [reached]; nofun))
  have owed := published.owed
  rw [reached] at owed
  cases stage with
  | check =>
      rcases register_check run.state jMsg with ⟨-, same⟩ | ⟨settled, same⟩
      · rw [same]
        exact ⟨fun _ => named, fun _ _ => .inr (.inr rfl)⟩
      · rw [same]
        exact ⟨fun _ => named, fun _ given => settled.imp_right fun nothing => absurd nothing given⟩
  | claim => exact ⟨fun _ => named, fun _ _ => .inl rfl⟩
  | send => exact ⟨fun _ => named, owed⟩
  | forward => exact ⟨fun _ => named, owed⟩
  | _ => exact ⟨fun _ => named, fun _ _ => .inr (.inr rfl)⟩

theorem Published.step (published : Published run) (startedFirst : StartedFirst run)
    (stepped : run.step library beyondInt event = some next)
    (named : event.namesParty library beyondInt) : Published next := by
  rcases step_cases stepped with ⟨call, rfl, free, -, rfl⟩ | ⟨ns, changed, full, rfl, rfl⟩ |
    ⟨ms, ns, ev, payload, rfl, rfl⟩ | ⟨message, rfl, free, -, rfl⟩ |
    ⟨stage, rfl, reached, rfl⟩ | ⟨stage, jMsg, rfl, reached, rfl⟩
  · exact published.call free
  · exact ⟨published.party, published.owed⟩
  · exact ⟨published.party, published.owed⟩
  · exact published.onReceive free named
  · exact published.publish startedFirst reached
  · exact published.register reached

theorem Reaches.published (reaches : Reaches library beyondInt instanceTimeStamp events run)
    (named : ∀ event ∈ events, event.namesParty library beyondInt) : Published run := by
  induction reaches with
  | nil =>
      refine ⟨fun replied => ?_, nofun⟩
      rcases replied with received | going
      · cases received
      · exact absurd rfl going
  | snoc earlier stepped ih =>
      rw [List.forall_mem_append, List.forall_mem_singleton] at named
      exact (ih named.1).step (Reaches.startedFirst earlier) stepped named.2

end Runs

section Camera

/-- The communicator tells the party and the group. -/
def partyReply : Json :=
  .object
    [ ("ms", .object [("f", .object [("gr", .string "g1"), ("sd", .string "p1")])]),
      ("mt", .numberUnsigned 9100), ("ty", .string "uv") ]

def advertsRequest : Json :=
  .object
    [ ("ms", .object [("r", .boolean true)]), ("mt", .numberUnsigned 6542),
      ("ty", .string "uv") ]

def cameraText : String :=
  "\x7b\"actions\":\x7b\x7d,\"module\":\"cam\",\"ns\":\"camera\"," ++
    "\"schema\":\"de.cap/1\",\"ver\":\"1\"\x7d"

/-- The library on the advert and on two messages. -/
def registrationLibrary : JsonLibrary where
  parse := fun text =>
    if text = utf8Chars cameraText then some (cameraAdvert [])
    else if text = "reply".toList then some partyReply
    else if text = "request".toList then some advertsRequest
    else none
  dumpFloat := fun _ => "null".toList
  parse_wellFormed := by
    intro text found parsed
    have number (value : UInt64) : (Json.numberUnsigned value).WellFormed := .numberUnsigned _
    split at parsed
    · obtain rfl := Option.some.inj parsed
      exact wellFormed_cameraAdvert (.object _ .nil (by simp))
    · split at parsed
      · obtain rfl := Option.some.inj parsed
        refine .object _ (by decide) ?_
        simp only [List.forall_mem_cons]
        refine ⟨.singleton (.object _ (by decide) ?_) _, number _, .string _, by simp⟩
        simp only [List.forall_mem_cons]
        exact ⟨.string _, .string _, by simp⟩
      · split at parsed
        · obtain rfl := Option.some.inj parsed
          refine .object _ (by decide) ?_
          simp only [List.forall_mem_cons]
          exact ⟨.singleton (.boolean _) _, number _, .string _, by simp⟩
        · cases parsed

/-- The module takes adverts over while the reply to its ID message is handled. -/
def cameraEvents : List ModuleEvent :=
  [ .call (.defineModule "camera" "CAM" "k1" "1.0" (.array [])), .call .startTransport,
    .call .finishInit, .fireEvent 5 "camera" "ready" .null, .onReceive "reply".toList,
    .register, .register,
    .call (.setCapabilities ⟨.replicate 8 0, 0, .replicate 64 0, 0⟩ [cameraText]),
    .publish, .register, .publish, .register, .fireEvent 5 "camera" "ready" .null, .publish,
    .publish, .publish, .register, .publish, .register, .register,
    .onReceive "request".toList ]

def cameraRun : ModuleRun :=
  (cameraEvents.foldlM (ModuleRun.step registrationLibrary fun _ => 0) (.fresh 0)).getD (.fresh 0)

theorem cameraRun_reaches :
    Reaches registrationLibrary (fun _ => 0) 0 cameraEvents cameraRun := by
  have taken : (cameraEvents.foldlM (ModuleRun.step registrationLibrary fun _ => 0)
      (.fresh 0)).isSome = true := by
    decide +kernel
  apply Run.of_foldlM
  unfold cameraRun
  obtain ⟨run, found⟩ := Option.isSome_iff_exists.mp taken
  rw [found]
  rfl

/-- Both threads find that the adverts have not been sent, and send them. -/
def crossedEvents : List ModuleEvent :=
  [ .call (.defineModule "camera" "CAM" "k1" "1.0" (.array [])), .call .startTransport,
    .call .finishInit, .onReceive "reply".toList, .register, .register, .register,
    .call (.setCapabilities ⟨.replicate 8 0, 0, .replicate 64 0, 0⟩ [cameraText]) ] ++
  .replicate 6 .publish ++ [.register, .publish, .register, .publish, .register, .register]

example : ((crossedEvents.foldlM (ModuleRun.step registrationLibrary fun _ => 0)
    (.fresh 0)).map fun run => countCapabilities run.outputs) = some 2 := by
  decide +kernel

end Camera

end DroneEngage.ModuleBus
