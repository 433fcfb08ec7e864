import DroneEngage.AcceptedAdverts
import DroneEngage.CapabilityInvokeSteps
import Mathlib.Data.List.Nodup

/-!
# Who keeps an id in flight

An id in `m_invoke_inflight` is owned by the receive thread while it works on
the message, and then by the manager thread that will erase it.  It loses its
owner only when an exception ends `handleCapabilityInvoke` after the id was
registered.
-/

namespace DroneEngage.Capabilities

/-- The registered id that the receive thread has yet to hand on or erase. -/
@[simp]
def Receiver.holds : Receiver → List String
  | registered request => [request.id]
  | failing id _ => [id]
  | dispatching call => [call.id]
  | idle | failed _ _ | answering _ _ => []

/-- The id that a manager thread has yet to erase. -/
@[simp]
def Manager.holds : Manager → List String
  | ⟨call, _, .waiting⟩ => [call.id]
  | ⟨_, _, .erased _⟩ | ⟨_, _, .cached _⟩ | ⟨_, _, .finished _⟩ => []

namespace InvokeSystem

/-- The ids in flight that some thread will take out. -/
def owners (system : InvokeSystem) : List String :=
  system.receiver.holds ++ system.managers.flatMap Manager.holds

/-- Owned ids are in flight, each with one owner. -/
structure Owned (system : InvokeSystem) : Prop where
  inflight : ∀ id ∈ system.owners, id ∈ system.tables.inflight
  distinct : system.owners.Nodup

theorem mem_eraseInflight {tables : InvokeTables} {id other : String} :
    other ∈ (tables.eraseInflight id).inflight ↔ other ∈ tables.inflight ∧ other ≠ id := by
  simp [InvokeTables.eraseInflight]

variable {library : JsonLibrary} {system next : InvokeSystem} {event : InvokeEvent}

/-- An exception ends the work of the receive thread on a registered id. -/
def Stops (library : JsonLibrary) (system : InvokeSystem) (event : InvokeEvent) : Prop :=
  match event, system.receiver with
  | .receive _, .registered request =>
      Throws (prepareCall library system.adverts system.hasHandler request)
  | .receive threadCreated, .dispatching _ => threadCreated = false
  | _, _ => False

/-- What a step does to the ids in flight and to their owners. -/
inductive OwnerChange (library : JsonLibrary) (system : InvokeSystem)
    (event : InvokeEvent) (next : InvokeSystem) : Prop
  /-- ids may pass from one thread to another -/
  | same :
      next.tables.inflight = system.tables.inflight →
      next.owners.Perm system.owners → OwnerChange library system event next
  | taken (id : String) :
      id ∉ system.tables.inflight →
      next.tables.inflight = id :: system.tables.inflight →
      next.owners.Perm (id :: system.owners) → OwnerChange library system event next
  | erased (id : String) :
      next.tables.inflight = (system.tables.eraseInflight id).inflight →
      system.owners.Perm (id :: next.owners) → OwnerChange library system event next
  /-- the id stays in flight without an owner -/
  | dropped (id : String) :
      next.tables.inflight = system.tables.inflight →
      system.owners.Perm (id :: next.owners) → Stops library system event →
      OwnerChange library system event next

theorem Transition.ownerChange (transition : Transition library system event next) :
    OwnerChange library system event next := by
  cases transition with
  | ignored cmd idle => exact .same rfl .rfl
  | replayed cmd id result idle cached => exact .same rfl .rfl
  | registered cmd request idle read named uncached absent =>
      refine .taken request.id absent rfl ?_
      simp [owners, idle]
  | prepared _ request call held prepared =>
      obtain ⟨-, -, -, sameId, -⟩ := prepareCall_eq_call prepared
      refine .same rfl ?_
      simp [owners, held, sameId]
  | refused _ request err held =>
      refine .same rfl ?_
      simp [owners, held]
  | abandoned _ request exception held threw =>
      refine .dropped request.id rfl ?_ ?_
      · simp [owners, held]
      · simp [Stops, held, threw]
  | failureErased _ id err held =>
      refine .erased id rfl ?_
      simp [owners, held]
  | failureCached _ id result held =>
      refine .same rfl ?_
      simp [owners, held]
  | failureSent _ id result held =>
      refine .same rfl ?_
      simp [owners, held]
  | spawned _ call held =>
      refine .same rfl ?_
      simp only [owners, held, Receiver.holds, List.flatMap_append, List.flatMap_singleton,
        Manager.holds, List.nil_append, List.singleton_append]
      exact List.perm_append_singleton call.id (system.managers.flatMap Manager.holds)
  | unspawned call held =>
      refine .dropped call.id rfl ?_ ?_
      · simp [owners, held]
      · simp [Stops, held]
  | started _ before after call phase split =>
      refine .same rfl ?_
      cases phase <;> simp [owners, split]
  | idErased _ before after call handlerStarted result split =>
      refine .erased call.id rfl ?_
      simp only [owners, split, List.flatMap_append, List.flatMap_cons, Manager.holds,
        List.nil_append, List.singleton_append]
      rw [← List.append_assoc, ← List.append_assoc]
      exact List.perm_middle
  | resultCached _ before after call handlerStarted result split =>
      refine .same rfl ?_
      simp [owners, split]
  | resultSent _ before after call handlerStarted result split =>
      refine .same rfl ?_
      simp [owners, split]

theorem OwnerChange.owned (change : OwnerChange library system event next)
    (owned : system.Owned) : next.Owned := by
  cases change with
  | same inflight moved =>
      refine ⟨fun id member => ?_, moved.nodup_iff.mpr owned.distinct⟩
      rw [inflight]
      exact owned.inflight id (moved.mem_iff.mp member)
  | taken id absent inflight moved =>
      have unowned : id ∉ system.owners := fun member => absent (owned.inflight id member)
      refine ⟨fun other member => ?_, ?_⟩
      · rw [inflight, List.mem_cons]
        exact (List.mem_cons.mp (moved.mem_iff.mp member)).imp_right (owned.inflight other)
      · exact moved.nodup_iff.mpr (List.nodup_cons.mpr ⟨unowned, owned.distinct⟩)
  | erased id inflight moved =>
      obtain ⟨unowned, distinct⟩ := List.nodup_cons.mp (moved.nodup_iff.mp owned.distinct)
      refine ⟨fun other member => ?_, distinct⟩
      rw [inflight, mem_eraseInflight]
      have before := moved.mem_iff.mpr (List.mem_cons_of_mem id member)
      exact ⟨owned.inflight other before, fun same => unowned (same ▸ member)⟩
  | dropped id inflight moved stops =>
      obtain ⟨-, distinct⟩ := List.nodup_cons.mp (moved.nodup_iff.mp owned.distinct)
      refine ⟨fun other member => ?_, distinct⟩
      rw [inflight]
      exact owned.inflight other (moved.mem_iff.mpr (List.mem_cons_of_mem id member))

theorem Run.owned {adverts : List Json} {hasHandler : Bool} {events : List InvokeEvent}
    (run : Run library (init adverts hasHandler) events system) : system.Owned := by
  refine run.invariant Owned ⟨by simp [init, owners], by simp [init, owners]⟩ ?_
  exact fun _ stepped ih => (transition_of_step stepped).ownerChange.owned ih

/-- The parameters of a request are checked without reading a bad `optional`. -/
def ChecksReadable (adverts : List Json) (request : InvokeRequest) : Prop :=
  ∀ action act, resolveAction request.ns request.act adverts = .ok (some (action, act)) →
    ∀ param ∈ objectMembers (paramsSchema action), ¬ ParamThrows request.given param

theorem throws_prepareCall_iff {adverts : List Json} {hasHandler : Bool}
    {request : InvokeRequest} (accepted : ∀ advert ∈ adverts, Accepted library advert) :
    Throws (prepareCall library adverts hasHandler request) ↔
      ¬ ChecksReadable adverts request := by
  have resolution := resolveAction_eq accepted request.ns request.act
  rw [throws_prepareCall (by rw [resolution]; exact not_throws_ok _), ChecksReadable]
  push Not
  refine exists_congr fun action => exists_congr fun act => and_congr_right fun found => ?_
  rw [resolution, Except.ok.injEq, Option.bind_eq_some_iff] at found
  obtain ⟨advert, first, resolvedTo⟩ := found
  have stored := accepted advert (List.mem_of_find?_eq_some first)
  obtain ⟨schema, isSchema, -⟩ :=
    paramsSchema_of_lookup stored (lookup_of_resolved stored resolvedTo)
  rw [isSchema, throws_capCheckParams, objectMembers]

/-- Once `handleCapabilityInvoke` has ended, an id is in flight only while a
manager thread has yet to take it out. -/
def InflightKept (system : InvokeSystem) : Prop :=
  system.receiver = .idle → ∀ id ∈ system.tables.inflight,
    ∃ manager ∈ system.managers, manager.call.id = id ∧ manager.phase = .waiting

/-- No exception ends the receive thread's work between registering an id and
handing it on. -/
def StepGoesOn (system : InvokeSystem) (event : InvokeEvent) : Prop :=
  match event, system.receiver with
  | .receive _, .registered request => ChecksReadable system.adverts request
  | .receive threadCreated, .dispatching _ => threadCreated = true
  | _, _ => True

/-- Every id in flight has an owner. -/
def Kept (system : InvokeSystem) : Prop :=
  ∀ id ∈ system.tables.inflight, id ∈ system.owners

theorem Kept.inflightKept (kept : system.Kept) : InflightKept system := by
  intro idle id member
  have owned := kept id member
  rw [owners, idle, Receiver.holds, List.nil_append, List.mem_flatMap] at owned
  obtain ⟨manager, listed, holding⟩ := owned
  refine ⟨manager, listed, ?_⟩
  obtain ⟨call, handlerStarted, phase⟩ := manager
  cases phase with
  | waiting => exact ⟨(List.mem_singleton.mp holding).symm, rfl⟩
  | _ => simp at holding

theorem OwnerChange.kept (change : OwnerChange library system event next)
    (goesOn : ¬ Stops library system event) (kept : system.Kept) : next.Kept := by
  intro other member
  cases change with
  | same inflight moved =>
      rw [inflight] at member
      exact moved.mem_iff.mpr (kept other member)
  | taken id absent inflight moved =>
      rw [inflight, List.mem_cons] at member
      exact moved.mem_iff.mpr (List.mem_cons.mpr (member.imp_right (kept other)))
  | erased id inflight moved =>
      rw [inflight, mem_eraseInflight] at member
      have before := moved.mem_iff.mp (kept other member.1)
      exact (List.mem_cons.mp before).resolve_left member.2
  | dropped id inflight moved stops => exact absurd stops goesOn

theorem stops_iff (accepted : ∀ advert ∈ system.adverts, Accepted library advert) :
    Stops library system event ↔ ¬ StepGoesOn system event := by
  cases event with
  | receive threadCreated =>
      cases held : system.receiver with
      | registered request =>
          simp only [Stops, StepGoesOn, held]
          exact throws_prepareCall_iff accepted
      | _ => simp [Stops, StepGoesOn, held]
  | _ => simp [Stops, StepGoesOn]

/-- A step that ends in an exception leaves its id without a manager thread. -/
theorem not_inflightKept_of_stops
    (accepted : ∀ advert ∈ system.adverts, Accepted library advert)
    (owned : system.Owned) (stepped : system.step library event = some next)
    (stops : ¬ StepGoesOn system event) : ¬ InflightKept next := by
  have lost (id : String) (held : system.receiver.holds = [id])
      (ended : next = { system with receiver := .idle }) : ¬ InflightKept next := by
    have split : system.owners = id :: system.managers.flatMap Manager.holds := by
      rw [owners, held, List.singleton_append]
    have distinct := owned.distinct
    have inflight := owned.inflight id
    rw [split] at distinct inflight
    subst ended
    intro kept
    obtain ⟨manager, listed, rfl, waiting⟩ := kept rfl id (inflight List.mem_cons_self)
    refine (List.nodup_cons.mp distinct).1 (List.mem_flatMap.mpr ⟨manager, listed, ?_⟩)
    obtain ⟨call, handlerStarted, phase⟩ := manager
    obtain rfl := waiting
    exact List.mem_singleton_self _
  cases event with
  | receive threadCreated =>
      cases held : system.receiver with
      | registered request =>
          simp only [StepGoesOn, held] at stops
          obtain ⟨exception, threw⟩ :=
            (@throws_prepareCall_iff library _ system.hasHandler _ accepted).mpr stops
          apply lost request.id (by rw [held]; rfl)
          simp only [step, receive, held, threw] at stepped
          exact (Option.some.inj stepped).symm
      | dispatching call =>
          simp only [StepGoesOn, held, Bool.not_eq_true] at stops
          apply lost call.id (by rw [held]; rfl)
          simp only [step, receive, held, stops] at stepped
          exact (Option.some.inj stepped).symm
      | _ => simp [StepGoesOn, held] at stops
  | _ => simp [StepGoesOn] at stops

/-- Ids stay in flight only with a manager thread, in every state that a run
reaches, exactly when no step of the run ends in an exception. -/
theorem inflight_kept_iff (library : JsonLibrary) (texts : List (List Char))
    (adverts : List Json) (stored : setCapabilities library texts = .ok (some adverts))
    (hasHandler : Bool) (events : List InvokeEvent) :
    (∀ before after system, events = before ++ after →
        Run library (init adverts hasHandler) before system → InflightKept system) ↔
      ∀ before event after system next, events = before ++ event :: after →
        Run library (init adverts hasHandler) before system →
          system.step library event = some next → StepGoesOn system event := by
  have accepted := accepted_of_setCapabilities stored
  constructor
  · intro kept before event after system next split run stepped
    by_contra stops
    have acceptedNow := run.adverts_eq ▸ accepted
    apply not_inflightKept_of_stops acceptedNow run.owned stepped stops
    exact kept (before ++ [event]) after next (by simp [split]) (run.snoc stepped)
  · intro goesOn before after system split run
    have going : EventRuns.RunWhere (step library) StepGoesOn (init adverts hasHandler)
        before system := by
      apply run.runWhere
      intro front event rest state next parts early stepped
      exact goesOn front event (rest ++ after) state next (by simp [split, parts]) early stepped
    refine Kept.inflightKept (going.invariant Kept ?_ ?_)
    · intro id member
      simp [init, InvokeTables.empty] at member
    · intro _ _ _ _ early stepped goes kept
      have goesOn := (stops_iff (Run.adverts_eq early ▸ accepted)).not_left.mpr goes
      exact (transition_of_step stepped).ownerChange.kept goesOn kept

/-- The request is registered and handed to a thread that will erase it. -/
theorem inflight_kept_iff_switch :
    ∃ system,
      Run switchLibrary (init [captureAdvert switchParam] true)
        [.deliver captureMessage, .receive true] system ∧
      system.tables.inflight = ["i1"] ∧ InflightKept system := by
  have prepared : prepareCall switchLibrary [captureAdvert switchParam] true captureRequest =
      .ok (.ok switchCall) := rfl
  have goesOn : ∀ before event after system next,
      [.deliver captureMessage, .receive true] = before ++ event :: after →
      Run switchLibrary (init [captureAdvert switchParam] true) before system →
        system.step switchLibrary event = some next → StepGoesOn system event := by
    intro before event after system next split run stepped
    match before, split with
    | [], split =>
        obtain ⟨rfl, -⟩ := List.cons.inj split
        exact trivial
    | [_], split =>
        obtain ⟨rfl, behind⟩ := List.cons.inj split
        obtain ⟨rfl, -⟩ := List.cons.inj behind
        have reached : (init [captureAdvert switchParam] true).step switchLibrary
            (.deliver captureMessage) = some system := by
          simpa using EventRuns.Run.foldlM_eq run
        obtain rfl := Option.some.inj reached
        have passes : ¬ Throws (prepareCall switchLibrary [captureAdvert switchParam] true
            captureRequest) := by
          rw [prepared]
          exact not_throws_ok _
        have accepted := accepted_of_setCapabilities stored_switch
        exact not_not.mp ((throws_prepareCall_iff accepted).not.mp passes)
    | _ :: _ :: _, split => simp at split
  have kept := (inflight_kept_iff switchLibrary _ _ stored_switch true
    [.deliver captureMessage, .receive true]).mpr goesOn
  have run : Run switchLibrary (init [captureAdvert switchParam] true)
      [.deliver captureMessage, .receive true] _ := EventRuns.Run.of_foldlM rfl
  exact ⟨_, run, rfl, kept _ [] _ (List.append_nil _).symm run⟩

theorem wellFormed_misspelt : misspeltOptional.WellFormed :=
  .object _ (by decide) (by
    simp only [List.forall_mem_cons]
    exact ⟨.string _, .string _, by simp⟩)

def misspeltLibrary : JsonLibrary :=
  readingLibrary _ (wellFormed_captureAdvert wellFormed_misspelt)

theorem stored_misspelt :
    setCapabilities misspeltLibrary
      [(captureAdvert misspeltOptional).dump parsedLibrary none] =
        .ok (some [captureAdvert misspeltOptional]) :=
  setCapabilities_readingLibrary _ (by decide +kernel) (by decide +kernel)

theorem run_misspelt :
    ∃ system, Run misspeltLibrary (init [captureAdvert misspeltOptional] true)
      [.deliver captureMessage, .receive true] system ∧ system.receiver = .idle ∧
        system.tables.inflight = ["i1"] ∧ system.managers = [] := by
  let start := init [captureAdvert misspeltOptional] true
  let registered := { start with
    tables := ⟨["i1"], [], []⟩
    receiver := .registered captureRequest }
  have delivered : start.step misspeltLibrary (.deliver captureMessage) =
      some registered := rfl
  have received : registered.step misspeltLibrary (.receive true) =
      some { registered with receiver := .idle } := rfl
  exact ⟨_, (EventRuns.Run.nil.snoc delivered).snoc received, rfl, rfl, rfl⟩

/-- An exception in the parameter check leaves the id in flight for ever. -/
theorem inflight_not_kept :
    ¬ ∀ (library : JsonLibrary) (texts : List (List Char)) (adverts : List Json)
        (hasHandler : Bool) (events : List InvokeEvent) (system : InvokeSystem),
      setCapabilities library texts = .ok (some adverts) →
      Run library (init adverts hasHandler) events system → system.receiver = .idle →
      ∀ id ∈ system.tables.inflight, ∃ manager ∈ system.managers, manager.call.id = id := by
  intro always
  obtain ⟨system, run, idle, inflight, unmanaged⟩ := run_misspelt
  obtain ⟨manager, listed, -⟩ :=
    always _ _ _ _ _ _ stored_misspelt run idle "i1" (by simp [inflight])
  simp [unmanaged] at listed

end InvokeSystem

end DroneEngage.Capabilities
