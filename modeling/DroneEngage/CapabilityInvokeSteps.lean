import DroneEngage.CapabilityInvoke
import DroneEngage.CapabilityTotality

/-!
# What one step of the invoke system can do

`Transition` lists the effects of a step with all that is known when it is
taken.  The invariants of the system are proved from it, one case an effect.
-/

namespace DroneEngage.Capabilities.InvokeSystem

/-- The effects of one step, with the event where it matters. -/
inductive Transition (library : JsonLibrary) (system : InvokeSystem) :
    InvokeEvent → InvokeSystem → Prop
  /-- a message without an id, one that is still running, or one whose fields
  have the wrong types -/
  | ignored (cmd : Json) :
      system.receiver = .idle → Transition library system (.deliver cmd) system
  | replayed (cmd : Json) (id : String) (result : Json) :
      system.receiver = .idle → system.tables.results.lookup id = some result →
      Transition library system (.deliver cmd)
        { system with sent := system.sent ++ [(id, result)] }
  | registered (cmd : Json) (request : InvokeRequest) :
      system.receiver = .idle → readInvoke cmd = .ok request →
      request.id.isEmpty = false → system.tables.results.lookup request.id = none →
      request.id ∉ system.tables.inflight →
      Transition library system (.deliver cmd)
        { system with
          tables := system.tables.insertInflight request.id
          receiver := .registered request }
  | prepared (event : InvokeEvent) (request : InvokeRequest) (call : HandlerCall) :
      system.receiver = .registered request →
      prepareCall library system.adverts system.hasHandler request = .ok (.ok call) →
      Transition library system event { system with receiver := .dispatching call }
  | refused (event : InvokeEvent) (request : InvokeRequest) (err : String) :
      system.receiver = .registered request →
      Transition library system event
        { system with receiver := .failing request.id err }
  | abandoned (threadCreated : Bool) (request : InvokeRequest)
      (exception : JsonException) :
      system.receiver = .registered request →
      prepareCall library system.adverts system.hasHandler request = .error exception →
      Transition library system (.receive threadCreated)
        { system with receiver := .idle }
  | failureErased (event : InvokeEvent) (id err : String) :
      system.receiver = .failing id err →
      Transition library system event
        { system with
          tables := system.tables.eraseInflight id
          receiver := .failed id (failureBody id err) }
  | failureCached (event : InvokeEvent) (id : String) (result : Json) :
      system.receiver = .failed id result →
      Transition library system event
        { system with
          tables := system.tables.cacheInvokeResult id result
          receiver := .answering id result }
  | failureSent (event : InvokeEvent) (id : String) (result : Json) :
      system.receiver = .answering id result →
      Transition library system event
        { system with sent := system.sent ++ [(id, result)], receiver := .idle }
  | spawned (event : InvokeEvent) (call : HandlerCall) :
      system.receiver = .dispatching call →
      Transition library system event
        { system with
          managers := system.managers ++ [⟨call, false, .waiting⟩]
          receiver := .idle }
  | unspawned (call : HandlerCall) :
      system.receiver = .dispatching call →
      Transition library system (.receive false) { system with receiver := .idle }
  | started (event : InvokeEvent) (before after : List Manager) (call : HandlerCall)
      (phase : ManagerPhase) :
      system.managers = before ++ ⟨call, false, phase⟩ :: after →
      Transition library system event
        { system with
          managers := before ++ ⟨call, true, phase⟩ :: after
          started := system.started ++ [call] }
  | idErased (event : InvokeEvent) (before after : List Manager) (call : HandlerCall)
      (handlerStarted : Bool) (result : Json) :
      system.managers = before ++ ⟨call, handlerStarted, .waiting⟩ :: after →
      Transition library system event
        { system with
          managers := before ++ ⟨call, handlerStarted, .erased result⟩ :: after
          tables := system.tables.eraseInflight call.id }
  | resultCached (event : InvokeEvent) (before after : List Manager)
      (call : HandlerCall) (handlerStarted : Bool) (result : Json) :
      system.managers = before ++ ⟨call, handlerStarted, .erased result⟩ :: after →
      Transition library system event
        { system with
          managers := before ++ ⟨call, handlerStarted, .cached result⟩ :: after
          tables := system.tables.cacheInvokeResult call.id result }
  | resultSent (event : InvokeEvent) (before after : List Manager) (call : HandlerCall)
      (handlerStarted : Bool) (result : Json) :
      system.managers = before ++ ⟨call, handlerStarted, .cached result⟩ :: after →
      Transition library system event
        { system with
          managers := before ++ ⟨call, handlerStarted, .finished result⟩ :: after
          sent := system.sent ++ [(call.id, result)] }

theorem managers_split {managers : List Manager} {index : Nat} {manager : Manager}
    (found : managers[index]? = some manager) :
    ∃ before after, managers = before ++ manager :: after ∧
      ∀ changed, managers.set index changed = before ++ changed :: after := by
  obtain ⟨inRange, rfl⟩ := List.getElem?_eq_some_iff.mp found
  refine ⟨managers.take index, managers.drop (index + 1), ?_, fun changed => ?_⟩
  · rw [List.getElem_cons_drop, List.take_append_drop]
  · exact List.set_eq_take_append_cons_drop.trans (if_pos inRange)

variable {library : JsonLibrary} {system next : InvokeSystem}

theorem transition_of_deliver {cmd : Json} (stepped : system.deliver cmd = some next) :
    Transition library system (.deliver cmd) next := by
  unfold deliver at stepped
  split at stepped
  · rename_i idle
    split at stepped
    · obtain rfl := Option.some.inj stepped
      rename_i request read
      unfold register
      split
      · exact .ignored cmd idle
      · rename_i named
        split
        · rename_i result cached
          exact .replayed cmd request.id result idle cached
        · rename_i uncached
          split
          · exact .ignored cmd idle
          · rename_i absent
            exact .registered cmd request idle read (by simpa using named) uncached absent
    · obtain rfl := Option.some.inj stepped
      exact .ignored cmd idle
  · cases stepped

theorem transition_of_receive {threadCreated : Bool}
    (stepped : system.receive library threadCreated = some next) :
    Transition library system (.receive threadCreated) next := by
  unfold receive at stepped
  split at stepped
  · cases stepped
  · rename_i request held
    split at stepped
    · rename_i call prepared
      obtain rfl := Option.some.inj stepped
      exact .prepared _ request call held prepared
    · rename_i err _
      obtain rfl := Option.some.inj stepped
      exact .refused _ request err held
    · rename_i exception threw
      obtain rfl := Option.some.inj stepped
      exact .abandoned threadCreated request exception held threw
  · rename_i id err held
    obtain rfl := Option.some.inj stepped
    exact .failureErased _ id err held
  · rename_i id result held
    obtain rfl := Option.some.inj stepped
    exact .failureCached _ id result held
  · rename_i id result held
    obtain rfl := Option.some.inj stepped
    exact .failureSent _ id result held
  · rename_i call held
    split at stepped
    · obtain rfl := Option.some.inj stepped
      exact .spawned _ call held
    · rename_i uncreated
      obtain rfl := Option.some.inj stepped
      rw [Bool.not_eq_true] at uncreated
      rw [uncreated]
      exact .unspawned call held

/-- Every step has one of the listed effects. -/
theorem transition_of_step {event : InvokeEvent}
    (stepped : system.step library event = some next) :
    Transition library system event next := by
  cases event with
  | deliver cmd => exact transition_of_deliver stepped
  | receive threadCreated => exact transition_of_receive stepped
  | startHandler index =>
      simp only [step, startHandler, setManager] at stepped
      split at stepped
      · rename_i call phase found
        obtain ⟨before, after, split, changes⟩ := managers_split found
        obtain rfl := Option.some.inj stepped
        rw [changes]
        exact .started _ before after call phase split
      · cases stepped
  | handlerReady index outcome =>
      simp only [step, handlerReady, eraseId, setManager] at stepped
      split at stepped
      · rename_i call found
        obtain ⟨before, after, split, changes⟩ := managers_split found
        obtain rfl := Option.some.inj stepped
        rw [changes]
        exact .idErased _ before after call true (resultBody call.id outcome) split
      · cases stepped
  | handlerTimeout index =>
      simp only [step, handlerTimeout, eraseId, setManager] at stepped
      split at stepped
      · rename_i call handlerStarted found
        obtain ⟨before, after, split, changes⟩ := managers_split found
        obtain rfl := Option.some.inj stepped
        rw [changes]
        exact .idErased _ before after call handlerStarted (failureBody call.id "timeout")
          split
      · cases stepped
  | cacheResult index =>
      simp only [step, cacheResult, setManager] at stepped
      split at stepped
      · rename_i call handlerStarted result found
        obtain ⟨before, after, split, changes⟩ := managers_split found
        obtain rfl := Option.some.inj stepped
        rw [changes]
        exact .resultCached _ before after call handlerStarted result split
      · cases stepped
  | sendResult index =>
      simp only [step, sendResult, setManager] at stepped
      split at stepped
      · rename_i call handlerStarted result found
        obtain ⟨before, after, split, changes⟩ := managers_split found
        obtain rfl := Option.some.inj stepped
        rw [changes]
        exact .resultSent _ before after call handlerStarted result split
      · cases stepped

theorem Transition.adverts_eq {event : InvokeEvent}
    (transition : Transition library system event next) :
    next.adverts = system.adverts ∧ next.hasHandler = system.hasHandler := by
  cases transition <;> exact ⟨rfl, rfl⟩

theorem Run.adverts_eq {adverts : List Json} {hasHandler : Bool}
    {events : List InvokeEvent} (run : Run library (init adverts hasHandler) events system) :
    system.adverts = adverts := by
  refine run.invariant (fun state => state.adverts = adverts) rfl fun _ stepped ih => ?_
  exact (transition_of_step stepped).adverts_eq.1.trans ih

theorem checkCall_eq_call {hasHandler : Bool} {request : InvokeRequest} {action : Json}
    {act : String} {call : HandlerCall}
    (prepared : checkCall library hasHandler request action act = .ok (.ok call)) :
    capCheckParams library (paramsSchema action) request.given = .ok ([], call.params) ∧
      call.id = request.id ∧ call.ns = request.ns ∧ call.act = act := by
  unfold checkCall at prepared
  obtain ⟨⟨errors, filled⟩, checked, called⟩ := bind_eq_ok.mp prepared
  cases errors with
  | cons error errors => cases called
  | nil =>
      cases hasHandler with
      | false => cases called
      | true =>
          cases called
          exact ⟨checked, rfl, rfl, rfl⟩

/-- The call that is prepared for a request: its action was found and its
parameters checked without an error. -/
theorem prepareCall_eq_call {adverts : List Json} {hasHandler : Bool}
    {request : InvokeRequest} {call : HandlerCall}
    (prepared : prepareCall library adverts hasHandler request = .ok (.ok call)) :
    ∃ action, resolveAction request.ns request.act adverts = .ok (some (action, call.act)) ∧
      capCheckParams library (paramsSchema action) request.given = .ok ([], call.params) ∧
      call.id = request.id ∧ call.ns = request.ns := by
  unfold prepareCall at prepared
  obtain ⟨found, resolved, called⟩ := bind_eq_ok.mp prepared
  cases found with
  | none => cases called
  | some found =>
      obtain ⟨checked, sameId, sameNs, sameAct⟩ := checkCall_eq_call called
      exact ⟨found.1, by rw [sameAct, resolved], checked, sameId, sameNs⟩

theorem throws_checkCall {hasHandler : Bool} {request : InvokeRequest} {action : Json}
    {act : String} :
    Throws (checkCall library hasHandler request action act) ↔
      Throws (capCheckParams library (paramsSchema action) request.given) := by
  unfold checkCall
  rw [throws_bind, or_iff_left_iff_imp]
  rintro ⟨⟨errors, filled⟩, -, threw⟩
  cases errors <;> cases hasHandler <;> simp at threw

/-- Where the lookup does not throw, preparing a call throws when the check of
the parameters does. -/
theorem throws_prepareCall {adverts : List Json} {hasHandler : Bool}
    {request : InvokeRequest}
    (resolves : ¬ Throws (resolveAction request.ns request.act adverts)) :
    Throws (prepareCall library adverts hasHandler request) ↔
      ∃ action act, resolveAction request.ns request.act adverts = .ok (some (action, act)) ∧
        Throws (capCheckParams library (paramsSchema action) request.given) := by
  obtain ⟨found, resolved⟩ := not_throws_iff.mp resolves
  unfold prepareCall
  cases found with
  | none => simp [resolved, throws_bind]
  | some found =>
      obtain ⟨action, act⟩ := found
      simp [resolved, throws_bind, throws_checkCall]

end DroneEngage.Capabilities.InvokeSystem
