import DroneEngage.CapabilityIdempotency
import DroneEngage.CapabilityRecheck

/-!
# The handler only sees validated calls

A call is prepared from a request that was delivered, and on accepted adverts
its parameters pass their check again as they are.  It is then handed on
unchanged: to the dispatch, to a manager thread and to the handler.
-/

namespace DroneEngage.Capabilities

variable {library : JsonLibrary}

/-- The call answers a delivered message: the first advert with the namespace of
the message has the action of the call, and the parameters of the call pass the
check of that action unchanged. -/
def Validated (library : JsonLibrary) (adverts : List Json) (events : List InvokeEvent)
    (call : HandlerCall) : Prop :=
  ∃ cmd request, .deliver cmd ∈ events ∧ readInvoke cmd = .ok request ∧
    call.id = request.id ∧ call.ns = request.ns ∧
    ∃ advert action, (adverts.find? fun advert => nsOf advert = request.ns) = some advert ∧
      (actionsOf advert).lookup call.act = some action ∧
      capCheckParams library (paramsSchema action) call.params = .ok ([], call.params)

theorem Validated.mono {adverts : List Json} {events more : List InvokeEvent}
    {call : HandlerCall} (validated : Validated library adverts events call) :
    Validated library adverts (events ++ more) call := by
  obtain ⟨cmd, request, delivered, answers⟩ := validated
  exact ⟨cmd, request, List.mem_append_left _ delivered, answers⟩

/-- A call prepared on accepted adverts is found again and passes its check
again. -/
theorem validated_of_prepareCall {adverts : List Json} {hasHandler : Bool}
    {events : List InvokeEvent} {cmd : Json} {request : InvokeRequest} {call : HandlerCall}
    (accepted : ∀ advert ∈ adverts, Accepted library advert)
    (delivered : .deliver cmd ∈ events) (read : readInvoke cmd = .ok request)
    (prepared : prepareCall library adverts hasHandler request = .ok (.ok call)) :
    Validated library adverts events call := by
  obtain ⟨action, found, checked, sameId, sameNs⟩ :=
    InvokeSystem.prepareCall_eq_call prepared
  rw [resolveAction_eq accepted, Except.ok.injEq, Option.bind_eq_some_iff] at found
  obtain ⟨advert, first, resolvedTo⟩ := found
  have stored := accepted advert (List.mem_of_find?_eq_some first)
  have named := lookup_of_resolved stored resolvedTo
  obtain ⟨schema, isSchema, wellFormed, succeeds⟩ := paramsSchema_of_lookup stored named
  refine ⟨cmd, request, delivered, read, sameId, sameNs, advert, action, first, named, ?_⟩
  rw [isSchema] at checked ⊢
  refine capCheckParams_again wellFormed.sorted ?_ checked
  exact fun entry listed fallback given => conforms_of_validated (succeeds entry listed) given

namespace InvokeSystem

/-- The receive thread holds a delivered request or a validated call. -/
def ReceiverValidated (library : JsonLibrary) (adverts : List Json)
    (events : List InvokeEvent) : Receiver → Prop
  | .registered request => ∃ cmd, .deliver cmd ∈ events ∧ readInvoke cmd = .ok request
  | .dispatching call => Validated library adverts events call
  | _ => True

/-- Every call in the system is validated. -/
structure AllValidated (library : JsonLibrary) (adverts : List Json)
    (events : List InvokeEvent) (system : InvokeSystem) : Prop where
  receiver : ReceiverValidated library adverts events system.receiver
  managers : ∀ manager ∈ system.managers, Validated library adverts events manager.call
  started : ∀ call ∈ system.started, Validated library adverts events call

variable {system next : InvokeSystem} {event : InvokeEvent} {adverts : List Json}
  {events more : List InvokeEvent}

theorem AllValidated.mono (validated : AllValidated library adverts events system) :
    AllValidated library adverts (events ++ more) system where
  receiver := by
    have receiver := validated.receiver
    cases held : system.receiver with
    | registered request =>
        rw [held] at receiver
        obtain ⟨cmd, delivered, read⟩ := receiver
        exact ⟨cmd, List.mem_append_left _ delivered, read⟩
    | dispatching call =>
        rw [held] at receiver
        exact Validated.mono receiver
    | _ => trivial
  managers := fun manager listed => (validated.managers manager listed).mono
  started := fun call listed => (validated.started call listed).mono

/-- The record of a manager thread changes, not its call. -/
theorem managers_validated {before after : List Manager} {manager changed : Manager}
    (validated : ∀ other ∈ before ++ manager :: after,
      Validated library adverts events other.call)
    (same : changed.call = manager.call) :
    ∀ other ∈ before ++ changed :: after, Validated library adverts events other.call := by
  rw [List.forall_mem_append, List.forall_mem_cons] at validated ⊢
  exact ⟨validated.1, same ▸ validated.2.1, validated.2.2⟩

theorem Transition.allValidated (transition : Transition library system event next)
    (adverts_eq : system.adverts = adverts)
    (accepted : ∀ advert ∈ adverts, Accepted library advert)
    (earlier : AllValidated library adverts events system) :
    AllValidated library adverts (events ++ [event]) next := by
  have validated : AllValidated library adverts (events ++ [event]) system := earlier.mono
  cases transition with
  | ignored cmd idle => exact validated
  | replayed cmd id result idle cached =>
      exact ⟨validated.receiver, validated.managers, validated.started⟩
  | registered cmd request idle read named uncached absent =>
      exact ⟨⟨cmd, by simp, read⟩, validated.managers, validated.started⟩
  | prepared _ request call held prepared =>
      have receiver := validated.receiver
      rw [held] at receiver
      obtain ⟨cmd, delivered, read⟩ := receiver
      refine ⟨?_, validated.managers, validated.started⟩
      exact validated_of_prepareCall accepted delivered read (adverts_eq ▸ prepared)
  | refused _ request err held => exact ⟨trivial, validated.managers, validated.started⟩
  | abandoned _ request exception held threw =>
      exact ⟨trivial, validated.managers, validated.started⟩
  | failureErased _ id err held => exact ⟨trivial, validated.managers, validated.started⟩
  | failureCached _ id result held => exact ⟨trivial, validated.managers, validated.started⟩
  | failureSent _ id result held => exact ⟨trivial, validated.managers, validated.started⟩
  | spawned _ call held =>
      have receiver := validated.receiver
      rw [held] at receiver
      refine ⟨trivial, ?_, validated.started⟩
      exact List.forall_mem_append.mpr
        ⟨validated.managers, List.forall_mem_singleton.mpr receiver⟩
  | unspawned call held => exact ⟨trivial, validated.managers, validated.started⟩
  | started _ before after call phase split =>
      have managers := validated.managers
      rw [split] at managers
      refine ⟨validated.receiver, managers_validated managers rfl, ?_⟩
      have called := managers ⟨call, false, phase⟩ (by simp)
      exact List.forall_mem_append.mpr
        ⟨validated.started, List.forall_mem_singleton.mpr called⟩
  | idErased _ before after call handlerStarted result split =>
      have managers := validated.managers
      rw [split] at managers
      exact ⟨validated.receiver, managers_validated managers rfl, validated.started⟩
  | resultCached _ before after call handlerStarted result split =>
      have managers := validated.managers
      rw [split] at managers
      exact ⟨validated.receiver, managers_validated managers rfl, validated.started⟩
  | resultSent _ before after call handlerStarted result split =>
      have managers := validated.managers
      rw [split] at managers
      exact ⟨validated.receiver, managers_validated managers rfl, validated.started⟩

/-- On accepted adverts every call of the handler answers a delivered message, is
for an action of the first advert with its namespace, and has parameters that
pass the check of that action unchanged. -/
theorem handler_calls_validated (library : JsonLibrary) (texts : List (List Char))
    (adverts : List Json) (stored : setCapabilities library texts = .ok (some adverts))
    (hasHandler : Bool) (events : List InvokeEvent) (system : InvokeSystem)
    (run : Run library (init adverts hasHandler) events system) :
    ∀ call ∈ system.started, Validated library adverts events call := by
  have accepted := accepted_of_setCapabilities stored
  have validated : AllValidated library adverts events system := by
    induction run with
    | nil => exact ⟨trivial, by simp [init], by simp [init]⟩
    | snoc run stepped ih =>
        exact (transition_of_step stepped).allValidated (Run.adverts_eq run) accepted ih
  exact validated.started

/-- The handler is started with the default that the advert gives. -/
theorem handler_calls_validated_switch :
    Validated switchLibrary [captureAdvert switchParam] switchEvents switchCall :=
  handler_calls_validated switchLibrary _ _ stored_switch true switchEvents switchStarted
    raceFreeRun_switch.run switchCall (List.mem_singleton_self _)

end InvokeSystem

end DroneEngage.Capabilities
