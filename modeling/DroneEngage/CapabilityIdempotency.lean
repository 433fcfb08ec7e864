import DroneEngage.CapabilityInflight

/-!
# Answering an id once

An id that no thread is working on and that has no result is fresh.  A message
registers fresh ids only, unless it comes while a manager thread is between
erasing the id and caching the result.  Without such a message every id gets
one manager thread at most and one result, which all answers repeat as long as
no result is evicted.
-/

namespace DroneEngage.Capabilities

/-- The order lists the ids with a result, each once and all from `ids`. -/
structure InvokeTables.Filed (tables : InvokeTables) (ids : List String) : Prop where
  distinct : tables.order.Nodup
  cached : ∀ id, id ∈ tables.order ↔ tables.results.lookup id ≠ none
  known : tables.order ⊆ ids

namespace InvokeTables

variable {tables : InvokeTables} {ids : List String} {id : String} {result : Json}

theorem evict_eq {order : List String} {results : List (String × Json)}
    (few : order.length ≤ 64) : evict order results = (order, results) := by
  cases order with
  | nil => rfl
  | cons front rest => rw [evict, if_neg (Nat.not_lt.mpr few)]

theorem Filed.append (filed : tables.Filed ids) (known : id ∈ ids)
    (fresh : tables.results.lookup id = none) :
    (tables.order ++ [id]).Nodup ∧ tables.order ++ [id] ⊆ ids := by
  have unlisted : id ∉ tables.order := fun listed => (filed.cached id).mp listed fresh
  constructor
  · simpa using filed.distinct.concat unlisted
  · exact List.append_subset.mpr ⟨filed.known, by simpa using known⟩

/-- While few ids occur, caching the first result of an id evicts nothing. -/
theorem cacheInvokeResult_eq (filed : tables.Filed ids) (few : ids.length ≤ 64)
    (known : id ∈ ids) (fresh : tables.results.lookup id = none) :
    tables.cacheInvokeResult id result =
      { tables with
        order := tables.order ++ [id]
        results := Json.insertMember id result tables.results } := by
  obtain ⟨distinct, within⟩ := filed.append known fresh
  have room : (tables.order ++ [id]).length ≤ 64 :=
    Nat.le_trans (distinct.length_le_of_subset within) few
  simp only [cacheInvokeResult, fresh, Option.isNone_none, if_true, evict_eq room]

theorem lookup_cacheInvokeResult (filed : tables.Filed ids) (few : ids.length ≤ 64)
    (known : id ∈ ids) (fresh : tables.results.lookup id = none) (other : String) :
    (tables.cacheInvokeResult id result).results.lookup other =
      if other = id then some result else tables.results.lookup other := by
  rw [cacheInvokeResult_eq filed few known fresh]
  exact Json.lookup_insertMember id result tables.results other

theorem Filed.cacheInvokeResult (filed : tables.Filed ids) (few : ids.length ≤ 64)
    (known : id ∈ ids) (fresh : tables.results.lookup id = none) :
    (tables.cacheInvokeResult id result).Filed ids := by
  obtain ⟨distinct, within⟩ := filed.append known fresh
  have order : (tables.cacheInvokeResult id result).order = tables.order ++ [id] := by
    rw [cacheInvokeResult_eq filed few known fresh]
  refine ⟨order ▸ distinct, fun other => ?_, order ▸ within⟩
  rw [order, lookup_cacheInvokeResult filed few known fresh, List.mem_append,
    List.mem_singleton, filed.cached]
  by_cases same : other = id <;> simp [same, fresh]

end InvokeTables

/-- What a manager thread knows of the tables. -/
def Manager.Agrees (tables : InvokeTables) (manager : Manager) : Prop :=
  match manager.phase with
  | .waiting => tables.results.lookup manager.call.id = none
  | .erased _ =>
      tables.results.lookup manager.call.id = none ∧ manager.call.id ∉ tables.inflight
  | .cached result | .finished result =>
      tables.results.lookup manager.call.id = some result

/-- An id without a result and without a manager thread. -/
def Fresh (results : List (String × Json)) (managed : List String) (id : String) : Prop :=
  results.lookup id = none ∧ id ∉ managed

/-- What the receive thread knows of the id it works on. -/
def Receiver.Agrees (ids : List String) (results : List (String × Json))
    (managed : List String) : Receiver → Prop
  | idle => True
  | registered request => Fresh results managed request.id ∧ request.id ∈ ids
  | failing id _ | failed id _ => Fresh results managed id ∧ id ∈ ids
  | dispatching call => Fresh results managed call.id ∧ call.id ∈ ids
  | answering id result => results.lookup id = some result

section Caching

variable {results changed : List (String × Json)} {managed ids : List String} {id : String}

theorem Manager.Agrees.congr {manager : Manager} {tables tables' : InvokeTables}
    (agrees : manager.Agrees tables)
    (same : tables'.results.lookup manager.call.id = tables.results.lookup manager.call.id)
    (inflight : manager.call.id ∈ tables'.inflight → manager.call.id ∈ tables.inflight) :
    manager.Agrees tables' := by
  unfold Manager.Agrees at agrees ⊢
  rw [same]
  cases phase : manager.phase with
  | erased result =>
      simp only [phase] at agrees ⊢
      exact ⟨agrees.1, fun member => agrees.2 (inflight member)⟩
  | _ => simpa only [phase] using agrees

theorem Fresh.cache {other : String} (fresh : Fresh results managed other)
    (listed : id ∈ managed)
    (keeps : ∀ other, other ≠ id → changed.lookup other = results.lookup other) :
    Fresh changed managed other := by
  have apart : other ≠ id := fun same => fresh.2 (same ▸ listed)
  exact ⟨(keeps other apart).trans fresh.1, fresh.2⟩

/-- A manager thread caches its result; the receive thread works on another id. -/
theorem Receiver.Agrees.cache {receiver : Receiver}
    (agrees : receiver.Agrees ids results managed)
    (listed : id ∈ managed) (uncached : results.lookup id = none)
    (keeps : ∀ other, other ≠ id → changed.lookup other = results.lookup other) :
    receiver.Agrees ids changed managed := by
  cases receiver with
  | idle => trivial
  | registered request => exact ⟨agrees.1.cache listed keeps, agrees.2⟩
  | failing id err => exact ⟨agrees.1.cache listed keeps, agrees.2⟩
  | failed id result => exact ⟨agrees.1.cache listed keeps, agrees.2⟩
  | dispatching call => exact ⟨agrees.1.cache listed keeps, agrees.2⟩
  | answering other result =>
      have apart : other ≠ id := by
        rintro rfl
        rw [Receiver.Agrees, uncached] at agrees
        cases agrees
      exact (keeps other apart).trans agrees

end Caching

namespace InvokeSystem

def managedIds (managers : List Manager) : List String :=
  managers.map fun manager => manager.call.id

/-- Every id has one manager thread at most and is answered with its result. -/
structure Consistent (ids : List String) (system : InvokeSystem) : Prop where
  filed : system.tables.Filed ids
  receiver : system.receiver.Agrees ids system.tables.results (managedIds system.managers)
  distinct : (managedIds system.managers).Nodup
  known : managedIds system.managers ⊆ ids
  agrees : ∀ manager ∈ system.managers, manager.Agrees system.tables
  startedOnce : (system.started.map HandlerCall.id).Nodup
  startedBy : ∀ call ∈ system.started, ∃ manager ∈ system.managers,
    manager.call.id = call.id ∧ manager.handlerStarted = true
  sent : ∀ answer ∈ system.sent, system.tables.results.lookup answer.1 = some answer.2

/-- A message does not come while a manager thread for its id is between erasing
the id and caching the result. -/
def RaceFree (system : InvokeSystem) : InvokeEvent → Prop
  | .deliver cmd => ∀ request, readInvoke cmd = .ok request →
      ∀ manager ∈ system.managers, manager.call.id = request.id →
        ∀ result, manager.phase ≠ .erased result
  | _ => True

/-- The runs whose messages all come like this. -/
abbrev RaceFreeRun (library : JsonLibrary) :
    InvokeSystem → List InvokeEvent → InvokeSystem → Prop :=
  EventRuns.RunWhere (step library) RaceFree

variable {library : JsonLibrary} {system next : InvokeSystem} {event : InvokeEvent}
  {ids : List String}

theorem Consistent.fresh_of_registered {request : InvokeRequest}
    (consistent : Consistent ids system) (owned : system.Owned)
    (raceFree : ∀ manager ∈ system.managers, manager.call.id = request.id →
      ∀ result, manager.phase ≠ .erased result)
    (uncached : system.tables.results.lookup request.id = none)
    (absent : request.id ∉ system.tables.inflight) :
    Fresh system.tables.results (managedIds system.managers) request.id := by
  refine ⟨uncached, fun managed => ?_⟩
  obtain ⟨manager, listed, same⟩ := List.mem_map.mp managed
  have agrees := consistent.agrees manager listed
  cases phase : manager.phase with
  | waiting =>
      refine absent (owned.inflight _ (List.mem_append_right _ ?_))
      refine List.mem_flatMap.mpr ⟨manager, listed, ?_⟩
      obtain ⟨call, handlerStarted, _⟩ := manager
      obtain rfl := phase
      exact List.mem_singleton.mpr same.symm
  | erased result => exact raceFree manager listed same result phase
  | cached result => simp [Manager.Agrees, phase, same, uncached] at agrees
  | finished result => simp [Manager.Agrees, phase, same, uncached] at agrees

/-- The ids in flight may change, but none with a manager thread comes back. -/
theorem Consistent.setInflight (consistent : Consistent ids system)
    (inflight : List String)
    (back : ∀ id ∈ managedIds system.managers, id ∈ inflight → id ∈ system.tables.inflight) :
    Consistent ids
      { system with tables := { system.tables with inflight := inflight } } :=
  { consistent with
    filed := ⟨consistent.filed.distinct, consistent.filed.cached, consistent.filed.known⟩
    agrees := fun manager listed => (consistent.agrees manager listed).congr rfl
      (back manager.call.id (List.mem_map_of_mem listed)) }

theorem Consistent.eraseInflight (consistent : Consistent ids system) (id : String) :
    Consistent ids { system with tables := system.tables.eraseInflight id } :=
  consistent.setInflight _ fun _ _ member => (mem_eraseInflight.mp member).1

theorem Consistent.setReceiver (consistent : Consistent ids system) (receiver : Receiver)
    (agrees : receiver.Agrees ids system.tables.results (managedIds system.managers)) :
    Consistent ids { system with receiver := receiver } :=
  { consistent with receiver := agrees }

theorem Consistent.send (consistent : Consistent ids system) {id : String} {result : Json}
    (cached : system.tables.results.lookup id = some result) :
    Consistent ids { system with sent := system.sent ++ [(id, result)] } :=
  { consistent with
    sent := List.forall_mem_append.mpr
      ⟨consistent.sent, List.forall_mem_singleton.mpr cached⟩ }

section Managers

variable {before after : List Manager} {manager changed : Manager}

theorem managedIds_set (split : system.managers = before ++ manager :: after)
    (call : changed.call = manager.call) :
    managedIds (before ++ changed :: after) = managedIds system.managers := by
  simp [managedIds, split, call]

/-- A manager thread whose record changes still stands for the calls it started. -/
theorem Consistent.startedBy_set (consistent : Consistent ids system)
    (split : system.managers = before ++ manager :: after)
    (call : changed.call = manager.call)
    (started : manager.handlerStarted = true → changed.handlerStarted = true) :
    ∀ called ∈ system.started, ∃ manager ∈ before ++ changed :: after,
      manager.call.id = called.id ∧ manager.handlerStarted = true := by
  intro called listed
  obtain ⟨other, member, same, flagged⟩ := consistent.startedBy called listed
  rw [split, List.mem_append, List.mem_cons] at member
  rcases member with front | rfl | back
  · exact ⟨other, List.mem_append_left _ front, same, flagged⟩
  · exact ⟨changed, List.mem_append_right _ List.mem_cons_self,
      (congrArg HandlerCall.id call).trans same, started flagged⟩
  · exact ⟨other, List.mem_append_right _ (List.mem_cons_of_mem _ back), same, flagged⟩

theorem Consistent.setManager (consistent : Consistent ids system)
    (split : system.managers = before ++ manager :: after) (changed : Manager)
    (call : changed.call = manager.call)
    (started : manager.handlerStarted = true → changed.handlerStarted = true)
    (agrees : changed.Agrees system.tables) :
    Consistent ids { system with managers := before ++ changed :: after } := by
  have managed := managedIds_set split call
  have earlier := consistent.agrees
  rw [split, List.forall_mem_append, List.forall_mem_cons] at earlier
  exact
    { consistent with
      receiver := managed ▸ consistent.receiver
      distinct := managed ▸ consistent.distinct
      known := managed ▸ consistent.known
      agrees := List.forall_mem_append.mpr
        ⟨earlier.1, List.forall_mem_cons.mpr ⟨agrees, earlier.2.2⟩⟩
      startedBy := consistent.startedBy_set split call started }

theorem Consistent.apart (consistent : Consistent ids system)
    (split : system.managers = before ++ manager :: after) :
    (∀ other ∈ before, other.call.id ≠ manager.call.id) ∧
      ∀ other ∈ after, other.call.id ≠ manager.call.id := by
  have distinct := consistent.distinct
  simp only [managedIds, split, List.map_append, List.map_cons, List.nodup_middle,
    List.nodup_cons, List.mem_append, List.mem_map, not_or, not_exists, not_and] at distinct
  exact distinct.1

theorem Consistent.mem_managedIds (split : system.managers = before ++ manager :: after) :
    manager.call.id ∈ managedIds system.managers := by
  simp [managedIds, split]

end Managers

/-- The answers that were sent stay cached. -/
theorem Consistent.sent_cache (consistent : Consistent ids system) {id : String}
    {results : List (String × Json)} (uncached : system.tables.results.lookup id = none)
    (keeps : ∀ other, other ≠ id →
      results.lookup other = system.tables.results.lookup other) :
    ∀ answer ∈ system.sent, results.lookup answer.1 = some answer.2 := by
  intro answer listed
  have cached := consistent.sent answer listed
  have apart : answer.1 ≠ id := by
    intro same
    rw [same, uncached] at cached
    cases cached
  exact (keeps _ apart).trans cached

theorem Consistent.failureCached (consistent : Consistent ids system)
    (few : ids.length ≤ 64) {id : String} {result : Json}
    (held : system.receiver = .failed id result) :
    Consistent ids
      { system with
        tables := system.tables.cacheInvokeResult id result
        receiver := .answering id result } := by
  have receiver := consistent.receiver
  rw [held] at receiver
  obtain ⟨⟨uncached, unmanaged⟩, known⟩ := receiver
  have lookup := @InvokeTables.lookup_cacheInvokeResult _ _ _ result consistent.filed few
    known uncached
  have keeps (other : String) (apart : other ≠ id) := (lookup other).trans (if_neg apart)
  refine
    { consistent with
      filed := consistent.filed.cacheInvokeResult few known uncached
      receiver := (lookup id).trans (if_pos rfl)
      agrees := fun manager listed => ?_
      sent := consistent.sent_cache uncached keeps }
  have apart : manager.call.id ≠ id := fun same =>
    unmanaged (same ▸ List.mem_map_of_mem listed)
  exact (consistent.agrees manager listed).congr (keeps _ apart) (fun member => member)

theorem Consistent.resultCached (consistent : Consistent ids system)
    (few : ids.length ≤ 64) {before after : List Manager} {call : HandlerCall}
    {handlerStarted : Bool} {result : Json}
    (split : system.managers = before ++ ⟨call, handlerStarted, .erased result⟩ :: after) :
    Consistent ids
      { system with
        managers := before ++ ⟨call, handlerStarted, .cached result⟩ :: after
        tables := system.tables.cacheInvokeResult call.id result } := by
  have earlier := consistent.agrees
  rw [split, List.forall_mem_append, List.forall_mem_cons] at earlier
  obtain ⟨front, ⟨uncached, -⟩, back⟩ := earlier
  have listed := Consistent.mem_managedIds split
  have known := consistent.known listed
  have lookup := @InvokeTables.lookup_cacheInvokeResult _ _ _ result consistent.filed few
    known uncached
  have keeps (other : String) (apart : other ≠ call.id) :=
    (lookup other).trans (if_neg apart)
  have managed := @managedIds_set _ _ _ _ ⟨call, handlerStarted, .cached result⟩ split rfl
  obtain ⟨apartFront, apartBack⟩ := consistent.apart split
  refine
    { consistent with
      filed := consistent.filed.cacheInvokeResult few known uncached
      receiver := managed ▸ consistent.receiver.cache listed uncached keeps
      distinct := managed ▸ consistent.distinct
      known := managed ▸ consistent.known
      agrees := List.forall_mem_append.mpr ⟨fun other member => ?_,
        List.forall_mem_cons.mpr ⟨(lookup call.id).trans (if_pos rfl), fun other member => ?_⟩⟩
      startedBy := consistent.startedBy_set split rfl id
      sent := consistent.sent_cache uncached keeps }
  · exact (front other member).congr (keeps _ (apartFront other member)) fun inflight => inflight
  · exact (back other member).congr (keeps _ (apartBack other member)) fun inflight => inflight

/-- The first call for its id: no other manager thread has the id. -/
theorem Consistent.started (consistent : Consistent ids system)
    {before after : List Manager} {call : HandlerCall} {phase : ManagerPhase}
    (split : system.managers = before ++ ⟨call, false, phase⟩ :: after) :
    Consistent ids
      { system with
        managers := before ++ ⟨call, true, phase⟩ :: after
        started := system.started ++ [call] } := by
  have agrees := consistent.agrees ⟨call, false, phase⟩ (by simp [split])
  have changed := consistent.setManager split ⟨call, true, phase⟩ rfl (fun _ => rfl) agrees
  obtain ⟨apartFront, apartBack⟩ := consistent.apart split
  have unstarted : call.id ∉ system.started.map HandlerCall.id := by
    intro listed
    obtain ⟨other, member, same⟩ := List.mem_map.mp listed
    obtain ⟨manager, managed, sameId, flagged⟩ := consistent.startedBy other member
    rw [split, List.mem_append, List.mem_cons] at managed
    rcases managed with front | rfl | back
    · exact apartFront manager front (sameId.trans same)
    · cases flagged
    · exact apartBack manager back (sameId.trans same)
  exact
    { changed with
      startedOnce := by simpa using consistent.startedOnce.concat unstarted
      startedBy := List.forall_mem_append.mpr ⟨changed.startedBy,
        List.forall_mem_singleton.mpr ⟨⟨call, true, phase⟩, by simp, rfl, rfl⟩⟩ }

/-- A fresh id gets its manager thread. -/
theorem Consistent.spawned (consistent : Consistent ids system) {call : HandlerCall}
    (held : system.receiver = .dispatching call) :
    Consistent ids
      { system with
        managers := system.managers ++ [⟨call, false, .waiting⟩]
        receiver := .idle } := by
  have receiver := consistent.receiver
  rw [held] at receiver
  obtain ⟨⟨uncached, unmanaged⟩, known⟩ := receiver
  have managed : managedIds (system.managers ++ [⟨call, false, .waiting⟩]) =
      managedIds system.managers ++ [call.id] := by
    simp [managedIds]
  exact
    { consistent with
      receiver := trivial
      distinct := by
        rw [managed]
        simpa using consistent.distinct.concat unmanaged
      known := by
        rw [managed]
        exact List.append_subset.mpr ⟨consistent.known, by simpa using known⟩
      agrees := List.forall_mem_append.mpr
        ⟨consistent.agrees, List.forall_mem_singleton.mpr uncached⟩
      startedBy := fun called listed => by
        obtain ⟨manager, member, started⟩ := consistent.startedBy called listed
        exact ⟨manager, List.mem_append_left _ member, started⟩ }

theorem Transition.consistent (transition : Transition library system event next)
    (few : ids.length ≤ 64)
    (known : ∀ cmd request, event = .deliver cmd → readInvoke cmd = .ok request →
      request.id ≠ "" → request.id ∈ ids)
    (raceFree : RaceFree system event) (owned : system.Owned)
    (consistent : Consistent ids system) : Consistent ids next := by
  have receiver := consistent.receiver
  cases transition with
  | ignored cmd idle => exact consistent
  | replayed cmd id result idle cached => exact consistent.send cached
  | registered cmd request idle read named uncached absent =>
      have fresh := consistent.fresh_of_registered owned (raceFree request read) uncached absent
      have listed : request.id ∈ ids :=
        known cmd request rfl read fun empty => by simp [empty] at named
      have back : ∀ id ∈ managedIds system.managers,
          id ∈ request.id :: system.tables.inflight → id ∈ system.tables.inflight := by
        intro id managed member
        apply (List.mem_cons.mp member).resolve_left
        rintro rfl
        exact fresh.2 managed
      exact (consistent.setInflight _ back).setReceiver (.registered request) ⟨fresh, listed⟩
  | prepared _ request call held prepared =>
      obtain ⟨-, -, -, sameId, -⟩ := prepareCall_eq_call prepared
      rw [held] at receiver
      apply consistent.setReceiver (.dispatching call)
      rw [Receiver.Agrees, sameId]
      exact receiver
  | refused _ request err held =>
      rw [held] at receiver
      exact consistent.setReceiver (.failing request.id err) receiver
  | abandoned _ request exception held threw =>
      exact consistent.setReceiver .idle trivial
  | failureErased _ id err held =>
      rw [held] at receiver
      exact (consistent.eraseInflight id).setReceiver (.failed id (failureBody id err))
        receiver
  | failureCached _ id result held => exact consistent.failureCached few held
  | failureSent _ id result held =>
      rw [held] at receiver
      exact (consistent.send receiver).setReceiver .idle trivial
  | spawned _ call held => exact consistent.spawned held
  | unspawned call held => exact consistent.setReceiver .idle trivial
  | started _ before after call phase split => exact consistent.started split
  | idErased _ before after call handlerStarted result split =>
      have agrees := consistent.agrees ⟨call, handlerStarted, .waiting⟩ (by simp [split])
      have erased : call.id ∉ (system.tables.eraseInflight call.id).inflight := fun member =>
        (mem_eraseInflight.mp member).2 rfl
      exact (consistent.eraseInflight call.id).setManager split
        ⟨call, handlerStarted, .erased result⟩ rfl id ⟨agrees, erased⟩
  | resultCached _ before after call handlerStarted result split =>
      exact consistent.resultCached few split
  | resultSent _ before after call handlerStarted result split =>
      have agrees := consistent.agrees ⟨call, handlerStarted, .cached result⟩ (by simp [split])
      exact (consistent.setManager split ⟨call, handlerStarted, .finished result⟩ rfl id
        agrees).send agrees

/-- The handler runs once for an id at most, and all its results are the same. -/
structure Idempotent (system : InvokeSystem) : Prop where
  startedOnce : (system.started.map HandlerCall.id).Nodup
  sentSame : ∀ id body body', (id, body) ∈ system.sent → (id, body') ∈ system.sent →
    body = body'

theorem Consistent.idempotent (consistent : Consistent ids system) :
    system.Idempotent where
  startedOnce := consistent.startedOnce
  sentSame := fun _ _ _ first second =>
    Option.some.inj ((consistent.sent _ first).symm.trans (consistent.sent _ second))

theorem consistent_init {adverts : List Json} {hasHandler : Bool} :
    Consistent ids (init adverts hasHandler) where
  filed := ⟨.nil, by simp [init, InvokeTables.empty], by simp [init, InvokeTables.empty]⟩
  receiver := trivial
  distinct := .nil
  known := by simp [init, managedIds]
  agrees := by simp [init]
  startedOnce := .nil
  startedBy := by simp [init]
  sent := by simp [init]

section Runs

variable {adverts : List Json} {hasHandler : Bool} {events : List InvokeEvent}

theorem consistent_of_raceFreeRun
    (run : RaceFreeRun library (init adverts hasHandler) events system)
    (few : ids.length ≤ 64)
    (known : ∀ cmd request, .deliver cmd ∈ events → readInvoke cmd = .ok request →
      request.id ≠ "" → request.id ∈ ids) : Consistent ids system := by
  induction run with
  | nil => exact consistent_init
  | snoc run stepped raceFree ih =>
      have earlier := ih fun cmd request listed =>
        known cmd request (List.mem_append_left _ listed)
      refine (transition_of_step stepped).consistent few ?_ raceFree (Run.owned run.run) earlier
      rintro cmd request rfl
      exact known cmd request (by simp)

/-- The first message that does come in between registers its id again, although
the id has its manager thread. -/
theorem registers_again
    (run : RaceFreeRun library (init adverts hasHandler) events system)
    (few : ids.length ≤ 64) (unnamed : "" ∉ ids)
    (known : ∀ cmd request, .deliver cmd ∈ events → readInvoke cmd = .ok request →
      request.id ≠ "" → request.id ∈ ids)
    (idle : system.receiver = .idle) {cmd : Json}
    (race : ¬ RaceFree system (.deliver cmd)) :
    ∃ request, readInvoke cmd = .ok request ∧ request.id ∈ managedIds system.managers ∧
      system.step library (.deliver cmd) =
        some
          { system with
            tables := system.tables.insertInflight request.id
            receiver := .registered request } := by
  have consistent := consistent_of_raceFreeRun run few known
  unfold RaceFree at race
  push Not at race
  obtain ⟨request, read, manager, listed, same, result, phase⟩ := race
  have managed : request.id ∈ managedIds system.managers :=
    same ▸ List.mem_map_of_mem listed
  have named : request.id.isEmpty = false := by
    rw [Bool.eq_false_iff, Ne, String.isEmpty_iff]
    intro empty
    exact unnamed (empty ▸ consistent.known managed)
  have agrees := consistent.agrees manager listed
  simp only [Manager.Agrees, phase, same] at agrees
  refine ⟨request, read, managed, ?_⟩
  simp [step, deliver, register, idle, read, named, agrees.1, agrees.2]

end Runs

/-- Invokes are idempotent in every run with 64 ids at most in which no message
comes while a manager thread for its id is between erasing the id and caching
the result. -/
theorem invoke_idempotent (library : JsonLibrary) (adverts : List Json)
    (hasHandler : Bool) (events : List InvokeEvent) (system : InvokeSystem)
    (run : RaceFreeRun library (init adverts hasHandler) events system)
    (ids : List String) (few : ids.length ≤ 64)
    (known : ∀ cmd request, .deliver cmd ∈ events → readInvoke cmd = .ok request →
      request.id ≠ "" → request.id ∈ ids) : system.Idempotent := by
  have consistent : Consistent ids system := consistent_of_raceFreeRun run few known
  exact consistent.idempotent

def switchStart : InvokeSystem := init [captureAdvert switchParam] true

/-- One message has come and its handler call has started. -/
def switchStarted : InvokeSystem where
  adverts := [captureAdvert switchParam]
  hasHandler := true
  tables := ⟨["i1"], [], []⟩
  receiver := .idle
  managers := [⟨switchCall, true, .waiting⟩]
  started := [switchCall]
  sent := []

def switchEvents : List InvokeEvent :=
  [.deliver captureMessage, .receive true, .receive true, .startHandler 0]

theorem raceFreeRun_switch :
    RaceFreeRun switchLibrary switchStart switchEvents switchStarted := by
  let registered := { switchStart with
    tables := ⟨["i1"], [], []⟩
    receiver := .registered captureRequest }
  let dispatching := { registered with receiver := .dispatching switchCall }
  let spawned := { registered with
    managers := [⟨switchCall, false, .waiting⟩]
    receiver := .idle }
  have delivered : switchStart.step switchLibrary (.deliver captureMessage) =
      some registered := rfl
  have prepared : registered.step switchLibrary (.receive true) = some dispatching := rfl
  have dispatched : dispatching.step switchLibrary (.receive true) = some spawned := rfl
  have started : spawned.step switchLibrary (.startHandler 0) = some switchStarted := rfl
  have raceFree : RaceFree switchStart (.deliver captureMessage) := by
    simp [RaceFree, switchStart, init]
  exact (((EventRuns.RunWhere.nil.snoc delivered raceFree).snoc prepared trivial).snoc dispatched
    trivial).snoc started trivial

def switchResult : Json := resultBody "i1" (.returned .null "")

/-- The handler returns, its result is sent, and the message comes again. -/
def replayEvents : List InvokeEvent :=
  switchEvents ++ [.handlerReady 0 (.returned .null "")] ++ [.cacheResult 0] ++
    [.sendResult 0] ++ [.deliver captureMessage]

theorem raceFreeRun_replay :
    ∃ system, RaceFreeRun switchLibrary switchStart replayEvents system ∧
      system.sent = [("i1", switchResult), ("i1", switchResult)] := by
  let erased := { switchStarted with
    tables := ⟨[], [], []⟩
    managers := [⟨switchCall, true, .erased switchResult⟩] }
  let cached := { switchStarted with
    tables := ⟨[], [("i1", switchResult)], ["i1"]⟩
    managers := [⟨switchCall, true, .cached switchResult⟩] }
  let answered := { cached with
    managers := [⟨switchCall, true, .finished switchResult⟩]
    sent := [("i1", switchResult)] }
  have returned : switchStarted.step switchLibrary
      (.handlerReady 0 (.returned .null "")) = some erased := rfl
  have caching : erased.step switchLibrary (.cacheResult 0) = some cached := rfl
  have sending : cached.step switchLibrary (.sendResult 0) = some answered := rfl
  have replayed : answered.step switchLibrary (.deliver captureMessage) =
      some { answered with sent := [("i1", switchResult), ("i1", switchResult)] } := rfl
  have raceFree : RaceFree answered (.deliver captureMessage) := by
    simp [RaceFree, answered]
  exact ⟨_, (((raceFreeRun_switch.snoc returned trivial).snoc caching trivial).snoc sending
    trivial).snoc replayed raceFree, rfl⟩

theorem id_captureMessage {request : InvokeRequest}
    (read : readInvoke captureMessage = .ok request) : request.id = "i1" := by
  obtain rfl : captureRequest = request := Except.ok.inj read
  rfl

theorem invoke_idempotent_replay :
    ∃ system : InvokeSystem,
      system.sent = [("i1", switchResult), ("i1", switchResult)] ∧ system.Idempotent := by
  obtain ⟨system, run, sent⟩ := raceFreeRun_replay
  refine ⟨system, sent, invoke_idempotent switchLibrary _ true replayEvents system run ["i1"]
    (by decide) fun cmd request listed read _ => ?_⟩
  obtain rfl : cmd = captureMessage := by simpa [replayEvents, switchEvents] using listed
  simp [id_captureMessage read]

/-- The deadline passes and the message comes again before the result is
cached. -/
def raceEvents : List InvokeEvent :=
  switchEvents ++ [.handlerTimeout 0] ++ [.deliver captureMessage] ++ [.receive true] ++
    [.receive true] ++ [.startHandler 1]

theorem run_race :
    ∃ system, Run switchLibrary switchStart raceEvents system ∧
      system.started = [switchCall, switchCall] := by
  let erased := { switchStarted with
    tables := ⟨[], [], []⟩
    managers := [⟨switchCall, true, .erased (failureBody "i1" "timeout")⟩] }
  let registered := { erased with
    tables := ⟨["i1"], [], []⟩
    receiver := .registered captureRequest }
  let dispatching := { registered with receiver := .dispatching switchCall }
  let spawned := { registered with
    managers :=
      [ ⟨switchCall, true, .erased (failureBody "i1" "timeout")⟩,
        ⟨switchCall, false, .waiting⟩ ]
    receiver := .idle }
  have expired : switchStarted.step switchLibrary (.handlerTimeout 0) = some erased := rfl
  have delivered : erased.step switchLibrary (.deliver captureMessage) =
      some registered := rfl
  have prepared : registered.step switchLibrary (.receive true) = some dispatching := rfl
  have dispatched : dispatching.step switchLibrary (.receive true) = some spawned := rfl
  have started : spawned.step switchLibrary (.startHandler 1) =
      some { spawned with
        managers :=
          [ ⟨switchCall, true, .erased (failureBody "i1" "timeout")⟩,
            ⟨switchCall, true, .waiting⟩ ]
        started := [switchCall, switchCall] } := rfl
  exact ⟨_, ((((raceFreeRun_switch.run.snoc expired).snoc delivered).snoc prepared).snoc
    dispatched).snoc started, rfl⟩

/-- A message that comes between the erasure and the caching runs the handler a
second time. -/
theorem invoke_not_idempotent :
    ¬ ∀ (library : JsonLibrary) (texts : List (List Char)) (adverts : List Json)
        (hasHandler : Bool) (events : List InvokeEvent) (system : InvokeSystem)
        (ids : List String),
      setCapabilities library texts = .ok (some adverts) →
      Run library (init adverts hasHandler) events system → ids.length ≤ 64 →
      (∀ cmd request, .deliver cmd ∈ events → readInvoke cmd = .ok request →
        request.id ≠ "" → request.id ∈ ids) →
      system.Idempotent := by
  intro always
  obtain ⟨system, run, started⟩ := run_race
  have idempotent := always switchLibrary _ _ true raceEvents system ["i1"] stored_switch run
    (by decide) fun cmd request listed read _ => by
      obtain rfl : cmd = captureMessage := by simpa [raceEvents, switchEvents] using listed
      simp [id_captureMessage read]
  have once := idempotent.startedOnce
  simp [started] at once

end InvokeSystem

end DroneEngage.Capabilities
