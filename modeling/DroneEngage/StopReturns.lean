import DroneEngage.ClientShutdown

/-!
# `stop` returns

Wherever the threads are when `stop` is called, they can go on until it returns: the lock is
given back, and the threads that are joined come to their end.  What `stop` gives back is
then gone.
-/

namespace DroneEngage.ClientLifecycle

open EventRuns Mutexes

/-- The step of a thread that is under way, no new call. -/
def ThreadEvent.isInternal : ThreadEvent → Bool
  | .call _ _ | .stop => false
  | _ => true

namespace ClientState

variable {code : ClientCode} {state middle next : ClientState} {event : ThreadEvent}

/-- The threads that are under way can lead from one state to another. -/
def GoesOn (code : ClientCode) (state next : ClientState) : Prop :=
  ∃ more : List ThreadEvent, (∀ event ∈ more, event.isInternal = true) ∧
    more.foldlM (fun state event => state.step code event) state = some next

theorem GoesOn.refl (code : ClientCode) (state : ClientState) : GoesOn code state state :=
  ⟨[], nofun, rfl⟩

theorem GoesOn.trans (first : GoesOn code state middle) (second : GoesOn code middle next) :
    GoesOn code state next := by
  obtain ⟨events, internal, taken⟩ := first
  obtain ⟨more, internalMore, takenMore⟩ := second
  refine ⟨events ++ more, List.forall_mem_append.mpr ⟨internal, internalMore⟩, ?_⟩
  rw [List.foldlM_append, taken]
  exact takenMore

theorem GoesOn.single (internal : event.isInternal = true)
    (stepped : state.step code event = some next) : GoesOn code state next := by
  refine ⟨[event], by simpa using internal, ?_⟩
  rw [List.foldlM_cons, stepped]
  rfl

/-- A state in which `stop` has been called. -/
structure Stopping (state : ClientState) : Prop where
  sound : Sound state
  stopped : state.stopped = true

theorem step_stopped (stopped : state.stopped = true)
    (stepped : state.step code event = some next) : next.stopped = true := by
  cases event with
  | stopStep => exact (stopStep_frame stepped).2.1.trans stopped
  | attempt thread outcome =>
      simp only [ClientState.step] at stepped
      split at stepped
      · split at stepped <;>
        · obtain rfl := Option.some.inj stepped
          exact stopped
      · cases stepped
  | _ =>
      simp only [ClientState.step] at stepped
      repeat' split at stepped
      all_goals first
        | (cases stepped; done)
        | (obtain rfl := Option.some.inj stepped; exact stopped)
        | (obtain rfl := Option.some.inj stepped; rfl)

theorem GoesOn.stopping (goesOn : GoesOn code state next) (stopping : Stopping state) :
    Stopping next := by
  obtain ⟨more, -, taken⟩ := goesOn
  induction more generalizing state with
  | nil => exact Option.some.inj taken ▸ stopping
  | cons event rest ih =>
      rw [List.foldlM_cons] at taken
      obtain ⟨middle, stepped, takenRest⟩ := Option.bind_eq_some_iff.mp taken
      exact ih ⟨stopping.sound.step stepped, step_stopped stopping.stopped stepped⟩ takenRest

/-- What a thread leaves as it is on its way out of `sendMSG`. -/
structure SameStop (state next : ClientState) : Prop where
  stopper : next.stopper = state.stopper
  started : next.started = state.started
  ended : ∀ thread, state.senders thread = .ended → next.senders thread = .ended

theorem SameStop.refl (state : ClientState) : SameStop state state :=
  ⟨rfl, rfl, fun _ ended => ended⟩

theorem SameStop.trans (first : SameStop state middle) (second : SameStop middle next) :
    SameStop state next :=
  ⟨second.stopper.trans first.stopper, second.started.trans first.started,
    fun thread ended => second.ended thread (first.ended thread ended)⟩

theorem sameStop_of_senders {thread : Nat} {pc : SendPc}
    (running : state.senders thread ≠ .ended)
    (senders : next.senders = Function.update state.senders thread pc)
    (stopper : next.stopper = state.stopper) (started : next.started = state.started) :
    SameStop state next := by
  refine ⟨stopper, started, fun other ended => ?_⟩
  have apart : other ≠ thread := fun same => running (same ▸ ended)
  rw [senders, Function.update_of_ne apart]
  exact ended

/-- A thread that holds the lock leaves `sendMSG`. -/
theorem exists_leaves (code : ClientCode) (stopping : Stopping state) {thread : Nat}
    (holds : (state.senders thread).holds = true) :
    ∃ next, GoesOn code state next ∧ next.lock = none ∧
      next.senders = Function.update state.senders thread .away ∧ SameStop state next := by
  have running : state.senders thread ≠ .ended := by
    intro ended
    rw [ended] at holds
    cases holds
  have moved : SameStop state (state.leaveSend thread) :=
    sameStop_of_senders running rfl rfl rfl
  cases here : state.senders thread with
  | entered chunks =>
      have stepped : state.step code (.recheck thread) = some (state.leaveSend thread) := by
        simp [ClientState.step, here, stopping.stopped]
      exact ⟨_, .single rfl stepped, rfl, rfl, moved⟩
  | looping chunks =>
      have stepped : state.step code (.loop thread) = some (state.leaveSend thread) := by
        simp [ClientState.step, here, stopping.stopped]
      exact ⟨_, .single rfl stepped, rfl, rfl, moved⟩
  | sending chunks =>
      have stepped : state.step code (.attempt thread .failed) =
          some
            { state.leaveSend thread with
              effects := state.effects ++
                [Effect.sendto (state.socketOpen && state.addressLive) state.stopped] } := by
        simp only [ClientState.step, here]
        rfl
      exact ⟨_, .single rfl stepped, rfl, rfl, rfl, rfl, moved.ended⟩
  | _ =>
      rw [here] at holds
      cases holds

/-- Outside its own critical sections `stop` gets the lock. -/
theorem exists_free (code : ClientCode) (stopping : Stopping state)
    (out : state.stopper.holds = false) :
    ∃ next, GoesOn code state next ∧ next.lock = none ∧ SameStop state next ∧
      ∀ thread chunks, state.senders thread = .waiting chunks →
        next.senders thread = .waiting chunks := by
  cases held : state.lock with
  | none => exact ⟨state, .refl code state, held, .refl state, fun _ _ waiting => waiting⟩
  | some party =>
      have inside := (stopping.sound.exclusive party).mpr held
      cases party with
      | stopper =>
          have holds : state.stopper.holds = true := inside
          rw [out] at holds
          cases holds
      | sender holder =>
          have holds : (state.senders holder).holds = true := inside
          obtain ⟨next, goesOn, free, senders, same⟩ := exists_leaves code stopping holds
          refine ⟨next, goesOn, free, same, fun thread chunks waiting => ?_⟩
          have apart : thread ≠ holder := by
            rintro rfl
            rw [waiting] at holds
            cases holds
          rw [senders, Function.update_of_ne apart]
          exact waiting

/-- A thread of the client comes to its end. -/
theorem exists_ended_of_away {thread : Nat} (stopping : Stopping state)
    (own : thread ∈ code.own) (away : state.senders thread = .away) :
    ∃ next, GoesOn code state next ∧ next.senders thread = .ended ∧ SameStop state next := by
  have running : state.senders thread ≠ .ended := by
    rw [away]
    nofun
  have stepped : state.step code (.finish thread) =
      some (state.moveSender thread .ended) :=
    if_pos ⟨own, away, stopping.stopped⟩
  exact ⟨_, .single rfl stepped, Function.update_self .., sameStop_of_senders running rfl rfl rfl⟩

theorem exists_ended_of_holds {thread : Nat} (stopping : Stopping state)
    (own : thread ∈ code.own) (holds : (state.senders thread).holds = true) :
    ∃ next, GoesOn code state next ∧ next.senders thread = .ended ∧ SameStop state next := by
  obtain ⟨middle, first, -, senders, same⟩ := exists_leaves code stopping holds
  have away : middle.senders thread = .away := by
    rw [senders, Function.update_self]
  obtain ⟨next, second, ended, sameToo⟩ :=
    exists_ended_of_away (first.stopping stopping) own away
  exact ⟨next, first.trans second, ended, same.trans sameToo⟩

theorem exists_ended {thread : Nat} (stopping : Stopping state)
    (out : state.stopper.holds = false) (own : thread ∈ code.own) :
    ∃ next, GoesOn code state next ∧ next.senders thread = .ended ∧ SameStop state next := by
  cases here : state.senders thread with
  | ended => exact ⟨state, .refl code state, here, .refl state⟩
  | away => exact exists_ended_of_away stopping own here
  | waiting chunks =>
      -- it gets the lock, and leaves again as `stop` has been called
      obtain ⟨middle, first, free, same, waits⟩ := exists_free code stopping out
      have waiting := waits thread chunks here
      have running : middle.senders thread ≠ .ended := by
        rw [waiting]
        nofun
      obtain ⟨inside, stepped, senders, stopper, started⟩ :
          ∃ inside, middle.step code (.lock thread) = some inside ∧
            inside.senders = Function.update middle.senders thread (.entered chunks) ∧
            inside.stopper = middle.stopper ∧ inside.started = middle.started := by
        refine ⟨{ middle.moveSender thread (.entered chunks) with
          lock := some (.sender thread) }, ?_, rfl, rfl, rfl⟩
        simp [ClientState.step, waiting, free]
      have second : GoesOn code middle inside := .single rfl stepped
      have entered : SameStop middle inside :=
        sameStop_of_senders running senders stopper started
      have holds : (inside.senders thread).holds = true := by
        rw [senders, Function.update_self]
        rfl
      obtain ⟨next, third, ended, sameLast⟩ :=
        exists_ended_of_holds ((first.trans second).stopping stopping) own holds
      exact ⟨next, (first.trans second).trans third, ended, (same.trans entered).trans sameLast⟩
  | entered chunks => exact exists_ended_of_holds stopping own (by rw [here]; rfl)
  | looping chunks => exact exists_ended_of_holds stopping own (by rw [here]; rfl)
  | sending chunks => exact exists_ended_of_holds stopping own (by rw [here]; rfl)

/-- All threads that `stop` joins come to their end. -/
theorem exists_allEnded (stopping : Stopping state) (out : state.stopper.holds = false)
    {threads : List Nat} (own : ∀ thread ∈ threads, thread ∈ code.own) :
    ∃ next, GoesOn code state next ∧ (∀ thread ∈ threads, next.senders thread = .ended) ∧
      SameStop state next := by
  induction threads with
  | nil => exact ⟨state, .refl code state, nofun, .refl state⟩
  | cons thread rest ih =>
      rw [List.forall_mem_cons] at own
      obtain ⟨middle, first, endedRest, same⟩ := ih own.2
      have outside : middle.stopper.holds = false := by
        rw [same.stopper]
        exact out
      obtain ⟨next, second, ended, sameLast⟩ :=
        exists_ended (first.stopping stopping) outside own.1
      refine ⟨next, first.trans second, ?_, same.trans sameLast⟩
      rw [List.forall_mem_cons]
      exact ⟨ended, fun other member => sameLast.ended other (endedRest other member)⟩

section Parts

variable {parts : List StopPart}

/-- A critical section of `stop` comes to its end. -/
theorem exists_next_of_section (code : ClientCode) (state : ClientState)
    (here : state.stopper = .closing parts ∨ state.stopper = .closed parts ∨
      state.stopper = .freeing parts ∨ state.stopper = .freed parts) :
    ∃ next, GoesOn code state next ∧ next.stopper = .next parts := by
  have ofClosed {state : ClientState} (here : state.stopper = .closed parts) :
      ∃ next, GoesOn code state next ∧ next.stopper = .next parts := by
    have stepped : state.step code .stopStep =
        some { state.leaveStop parts with socketFd := false } := by
      simp only [ClientState.step, stopStep, here]
    exact ⟨_, .single rfl stepped, rfl⟩
  have ofFreed {state : ClientState} (here : state.stopper = .freed parts) :
      ∃ next, GoesOn code state next ∧ next.stopper = .next parts := by
    have stepped : state.step code .stopStep =
        some { state.leaveStop parts with address := false } := by
      simp only [ClientState.step, stopStep, here]
    exact ⟨_, .single rfl stepped, rfl⟩
  rcases here with here | here | here | here
  · cases fd : state.socketFd with
    | false =>
        have stepped : state.step code .stopStep = some (state.leaveStop parts) := by
          simp [ClientState.step, stopStep, here, fd]
        exact ⟨_, .single rfl stepped, rfl⟩
    | true =>
        obtain ⟨middle, stepped, closed⟩ : ∃ middle,
            state.step code .stopStep = some middle ∧ middle.stopper = .closed parts := by
          simp [ClientState.step, stopStep, here, fd]
        obtain ⟨next, second, reached⟩ := ofClosed closed
        have first : GoesOn code state middle := .single rfl stepped
        exact ⟨next, first.trans second, reached⟩
  · exact ofClosed here
  · cases address : state.address with
    | false =>
        have stepped : state.step code .stopStep = some (state.leaveStop parts) := by
          simp [ClientState.step, stopStep, here, address]
        exact ⟨_, .single rfl stepped, rfl⟩
    | true =>
        obtain ⟨middle, stepped, freed⟩ : ∃ middle,
            state.step code .stopStep = some middle ∧ middle.stopper = .freed parts := by
          simp [ClientState.step, stopStep, here, address]
        obtain ⟨next, second, reached⟩ := ofFreed freed
        have first : GoesOn code state middle := .single rfl stepped
        exact ⟨next, first.trans second, reached⟩
  · exact ofFreed here

/-- `stop` gets behind its next part. -/
theorem exists_next (code : ClientCode) (stopping : Stopping state) {part : StopPart}
    (here : state.stopper = .next (part :: parts)) :
    ∃ next, GoesOn code state next ∧ next.stopper = .next parts := by
  have out : state.stopper.holds = false := by
    rw [here]
    rfl
  cases part with
  | joinThreads =>
      obtain ⟨middle, first, ended, same⟩ :=
        exists_allEnded stopping out fun thread (member : thread ∈ code.own) => member
      have stepped : middle.step code .stopStep =
          some { middle with started := false, stopper := .next parts } := by
        have there : middle.stopper = .next (.joinThreads :: parts) := same.stopper.trans here
        have joined : (code.own.all fun thread => middle.senders thread = .ended) = true := by
          simpa using ended
        simp [ClientState.step, stopStep, there, joined]
      exact ⟨_, first.trans (.single rfl stepped), rfl⟩
  | closeSocket =>
      obtain ⟨middle, first, free, same, -⟩ := exists_free code stopping out
      have there : middle.stopper = .next (.closeSocket :: parts) := same.stopper.trans here
      obtain ⟨inside, stepped, closing⟩ : ∃ inside,
          middle.step code .stopStep = some inside ∧ inside.stopper = .closing parts := by
        simp [ClientState.step, stopStep, there, free]
      obtain ⟨next, last, reached⟩ := exists_next_of_section code inside (.inl closing)
      exact ⟨next, (first.trans (.single rfl stepped)).trans last, reached⟩
  | freeAddresses =>
      obtain ⟨middle, first, free, same, -⟩ := exists_free code stopping out
      have there : middle.stopper = .next (.freeAddresses :: parts) := same.stopper.trans here
      obtain ⟨inside, stepped, freeing⟩ : ∃ inside,
          middle.step code .stopStep = some inside ∧ inside.stopper = .freeing parts := by
        simp [ClientState.step, stopStep, there, free]
      obtain ⟨next, last, reached⟩ :=
        exists_next_of_section code inside (.inr (.inr (.inl freeing)))
      exact ⟨next, (first.trans (.single rfl stepped)).trans last, reached⟩

theorem exists_away_of_next (code : ClientCode) (stopping : Stopping state)
    (here : state.stopper = .next parts) :
    ∃ next, GoesOn code state next ∧ next.stopper = .away := by
  induction parts generalizing state with
  | nil =>
      have stepped : state.step code .stopStep = some { state with stopper := .away } := by
        simp only [ClientState.step, stopStep, here]
      exact ⟨_, .single rfl stepped, rfl⟩
  | cons part parts ih =>
      obtain ⟨middle, first, reached⟩ := exists_next code stopping here
      obtain ⟨next, second, away⟩ := ih (first.stopping stopping) reached
      exact ⟨next, first.trans second, away⟩

theorem exists_away (code : ClientCode) (stopping : Stopping state) :
    ∃ next, GoesOn code state next ∧ next.stopper = .away := by
  have ofSection {parts : List StopPart}
      (here : state.stopper = .closing parts ∨ state.stopper = .closed parts ∨
        state.stopper = .freeing parts ∨ state.stopper = .freed parts) :
      ∃ next, GoesOn code state next ∧ next.stopper = .away := by
    obtain ⟨middle, first, reached⟩ := exists_next_of_section code state here
    obtain ⟨next, second, away⟩ :=
      exists_away_of_next code (first.stopping stopping) reached
    exact ⟨next, first.trans second, away⟩
  cases here : state.stopper with
  | away => exact ⟨state, .refl code state, here⟩
  | next parts => exact exists_away_of_next code stopping here
  | closing parts => exact ofSection (.inl here)
  | closed parts => exact ofSection (.inr (.inl here))
  | freeing parts => exact ofSection (.inr (.inr (.inl here)))
  | freed parts => exact ofSection (.inr (.inr (.inr here)))

end Parts

section Done

/-- What a part of `stop` gives back is there. -/
def has (state : ClientState) : StopPart → Prop
  | .closeSocket => state.socketOpen = true
  | .joinThreads => state.started = true
  | .freeAddresses => state.addressLive = true

/-- The parts of `stop` that have not been done, the current one included. -/
def remaining : StopPc → List StopPart
  | .away => []
  | .next parts => parts
  | .closing parts => .closeSocket :: parts
  | .freeing parts => .freeAddresses :: parts
  | .closed parts | .freed parts => parts

/-- The handles are reset only for what has been given back. -/
structure Handles (state : ClientState) : Prop where
  socket : state.socketOpen = true → state.socketFd = true
  address : state.addressLive = true → state.address = true
  closed : ∀ parts, state.stopper = .closed parts → state.socketOpen = false
  freed : ∀ parts, state.stopper = .freed parts → state.addressLive = false

theorem Handles.stopStep (handles : Handles state) (stepped : state.stopStep code = some next) :
    Handles next := by
  unfold ClientState.stopStep at stepped
  split at stepped
  · cases stepped
  · obtain rfl := Option.some.inj stepped
    exact ⟨handles.socket, handles.address, nofun, nofun⟩
  · split at stepped
    · obtain rfl := Option.some.inj stepped
      exact ⟨handles.socket, handles.address, nofun, nofun⟩
    · cases stepped
  · split at stepped
    · cases stepped
    · obtain rfl := Option.some.inj stepped
      exact ⟨handles.socket, handles.address, nofun, nofun⟩
  · split at stepped
    · obtain rfl := Option.some.inj stepped
      exact ⟨handles.socket, handles.address, nofun, nofun⟩
    · cases stepped
  · split at stepped
    · obtain rfl := Option.some.inj stepped
      exact ⟨nofun, handles.address, fun _ _ => rfl, nofun⟩
    · obtain rfl := Option.some.inj stepped
      exact ⟨handles.socket, handles.address, nofun, nofun⟩
  · rename_i parts here
    obtain rfl := Option.some.inj stepped
    refine ⟨fun isOpen => ?_, handles.address, nofun, nofun⟩
    have isOpen : state.socketOpen = true := isOpen
    rw [handles.closed parts here] at isOpen
    cases isOpen
  · split at stepped
    · obtain rfl := Option.some.inj stepped
      exact ⟨handles.socket, nofun, nofun, fun _ _ => rfl⟩
    · obtain rfl := Option.some.inj stepped
      exact ⟨handles.socket, handles.address, nofun, nofun⟩
  · rename_i parts here
    obtain rfl := Option.some.inj stepped
    refine ⟨handles.socket, fun live => ?_, nofun, nofun⟩
    have live : state.addressLive = true := live
    rw [handles.freed parts here] at live
    cases live

/-- Once `stop` has been called, what is there will be given back. -/
structure Owes (code : ClientCode) (state : ClientState) : Prop where
  handles : Handles state
  owed : state.stopped = true → ∀ part ∈ code.stopParts true, state.has part →
    part ∈ remaining state.stopper
  running : state.stopped = false → state.started = true
  joined : state.started = false → ∀ thread ∈ code.own, state.senders thread = .ended

theorem Owes.fresh (code : ClientCode) : Owes code ClientState.fresh :=
  ⟨⟨fun _ => rfl, fun _ => rfl, nofun, nofun⟩, nofun, fun _ => rfl, nofun⟩

/-- What a step of a sender leaves alone. -/
structure SameResources (state next : ClientState) : Prop where
  stop : SameStop state next
  stopped : next.stopped = state.stopped
  socketOpen : next.socketOpen = state.socketOpen
  addressLive : next.addressLive = state.addressLive
  socketFd : next.socketFd = state.socketFd
  address : next.address = state.address

theorem Owes.ofSame (owes : Owes code state) (same : SameResources state next) :
    Owes code next := by
  have sameHas (part : StopPart) : next.has part ↔ state.has part := by
    cases part with
    | closeSocket => rw [has, has, same.socketOpen]
    | joinThreads => rw [has, has, same.stop.started]
    | freeAddresses => rw [has, has, same.addressLive]
  refine ⟨⟨?_, ?_, ?_, ?_⟩, ?_, ?_, ?_⟩
  · rw [same.socketOpen, same.socketFd]
    exact owes.handles.socket
  · rw [same.addressLive, same.address]
    exact owes.handles.address
  · rw [same.stop.stopper, same.socketOpen]
    exact owes.handles.closed
  · rw [same.stop.stopper, same.addressLive]
    exact owes.handles.freed
  · rw [same.stopped, same.stop.stopper]
    intro called part listed there
    exact owes.owed called part listed ((sameHas part).mp there)
  · rw [same.stopped, same.stop.started]
    exact owes.running
  · rw [same.stop.started]
    intro joined thread own
    exact same.stop.ended thread (owes.joined joined thread own)

/-- After `stop` has gone on, what is there is among the parts that remain. -/
theorem stopStep_owed {parts : List StopPart} (handles : Handles state)
    (owed : ∀ part ∈ parts, state.has part → part ∈ remaining state.stopper)
    (stepped : state.stopStep code = some next) :
    ∀ part ∈ parts, next.has part → part ∈ remaining next.stopper := by
  have behind {first : StopPart} {rest : List StopPart}
      (owed : ∀ part ∈ parts, state.has part → part ∈ first :: rest)
      (gone : ¬ next.has first) (same : ∀ part ≠ first, next.has part → state.has part) :
      ∀ part ∈ parts, next.has part → part ∈ rest := by
    intro part listed there
    have apart : part ≠ first := fun same => gone (same ▸ there)
    exact List.mem_of_ne_of_mem apart (owed part listed (same part apart there))
  unfold ClientState.stopStep at stepped
  split at stepped
  · cases stepped
  · rename_i here
    obtain rfl := Option.some.inj stepped
    rw [here] at owed
    exact owed
  · rename_i rest here
    rw [here] at owed
    split at stepped
    · obtain rfl := Option.some.inj stepped
      exact owed
    · cases stepped
  · rename_i rest here
    rw [here] at owed
    split at stepped
    · cases stepped
    · obtain rfl := Option.some.inj stepped
      refine behind owed (by simp [has]) fun part apart there => ?_
      cases part with
      | joinThreads => exact absurd rfl apart
      | closeSocket => exact there
      | freeAddresses => exact there
  · rename_i rest here
    rw [here] at owed
    split at stepped
    · obtain rfl := Option.some.inj stepped
      exact owed
    · cases stepped
  · rename_i rest here
    rw [here] at owed
    split at stepped
    · obtain rfl := Option.some.inj stepped
      refine behind owed (by simp [has]) fun part apart there => ?_
      cases part with
      | closeSocket => exact absurd rfl apart
      | joinThreads => exact there
      | freeAddresses => exact there
    · rename_i reset
      obtain rfl := Option.some.inj stepped
      exact behind owed (fun isOpen => reset (handles.socket isOpen)) fun part _ there => by
        cases part <;> exact there
  · rename_i rest here
    obtain rfl := Option.some.inj stepped
    rw [here] at owed
    intro part listed there
    exact owed part listed (by cases part <;> exact there)
  · rename_i rest here
    rw [here] at owed
    split at stepped
    · obtain rfl := Option.some.inj stepped
      refine behind owed (by simp [has]) fun part apart there => ?_
      cases part with
      | freeAddresses => exact absurd rfl apart
      | joinThreads => exact there
      | closeSocket => exact there
    · rename_i reset
      obtain rfl := Option.some.inj stepped
      exact behind owed (fun live => reset (handles.address live)) fun part _ there => by
        cases part <;> exact there
  · rename_i rest here
    obtain rfl := Option.some.inj stepped
    rw [here] at owed
    intro part listed there
    exact owed part listed (by cases part <;> exact there)

theorem stopStep_joined
    (joined : state.started = false → ∀ thread ∈ code.own, state.senders thread = .ended)
    (stepped : state.stopStep code = some next) :
    next.started = false → ∀ thread ∈ code.own, next.senders thread = .ended := by
  unfold ClientState.stopStep at stepped
  split at stepped
  · cases stepped
  · obtain rfl := Option.some.inj stepped
    exact joined
  · split at stepped
    · obtain rfl := Option.some.inj stepped
      exact joined
    · cases stepped
  · split at stepped
    · cases stepped
    · rename_i ready
      obtain rfl := Option.some.inj stepped
      intro _
      cases started : state.started with
      | false => exact joined started
      | true => simpa [started] using ready
  · split at stepped
    · obtain rfl := Option.some.inj stepped
      exact joined
    · cases stepped
  · split at stepped <;>
    · obtain rfl := Option.some.inj stepped
      exact joined
  · obtain rfl := Option.some.inj stepped
    exact joined
  · split at stepped <;>
    · obtain rfl := Option.some.inj stepped
      exact joined
  · obtain rfl := Option.some.inj stepped
    exact joined

theorem Owes.stopStep (owes : Owes code state) (called : state.stopped = true)
    (stepped : state.stopStep code = some next) : Owes code next := by
  obtain ⟨-, sameStopped, -, -⟩ := stopStep_frame stepped
  refine ⟨owes.handles.stopStep stepped, fun _ => ?_, fun running => ?_, ?_⟩
  · exact stopStep_owed owes.handles (owes.owed called) stepped
  · rw [sameStopped, called] at running
    cases running
  · exact stopStep_joined owes.joined stepped

/-- A step of a sender moves only this sender. -/
theorem step_senders (internal : event ≠ .stop ∧ event ≠ .stopStep)
    (stepped : state.step code event = some next) : SameResources state next := by
  have moved {thread : Nat} {pc : SendPc} (running : state.senders thread ≠ .ended)
      (senders : next.senders = Function.update state.senders thread pc)
      (stopper : next.stopper = state.stopper) (started : next.started = state.started) :
      SameStop state next :=
    sameStop_of_senders running senders stopper started
  cases event with
  | stop => exact absurd rfl internal.1
  | stopStep => exact absurd rfl internal.2
  | call thread chunks =>
      simp only [ClientState.step] at stepped
      split at stepped
      · rename_i away
        split at stepped
        · obtain rfl := Option.some.inj stepped
          exact ⟨.refl state, rfl, rfl, rfl, rfl, rfl⟩
        · obtain rfl := Option.some.inj stepped
          exact ⟨moved (by simp [away]) rfl rfl rfl, rfl, rfl, rfl, rfl, rfl⟩
      · cases stepped
  | lock thread =>
      simp only [ClientState.step] at stepped
      split at stepped
      · rename_i chunks here
        split at stepped
        · obtain rfl := Option.some.inj stepped
          exact ⟨moved (by simp [here]) rfl rfl rfl, rfl, rfl, rfl, rfl, rfl⟩
        · cases stepped
      · cases stepped
  | recheck thread =>
      simp only [ClientState.step] at stepped
      split at stepped
      · rename_i chunks here
        split at stepped <;>
        · obtain rfl := Option.some.inj stepped
          exact ⟨moved (by simp [here]) rfl rfl rfl, rfl, rfl, rfl, rfl, rfl⟩
      · cases stepped
  | loop thread =>
      simp only [ClientState.step] at stepped
      split at stepped
      · rename_i chunks here
        split at stepped <;>
        · obtain rfl := Option.some.inj stepped
          exact ⟨moved (by simp [here]) rfl rfl rfl, rfl, rfl, rfl, rfl, rfl⟩
      · cases stepped
  | attempt thread outcome =>
      simp only [ClientState.step] at stepped
      split at stepped
      · rename_i chunks here
        split at stepped <;>
        · obtain rfl := Option.some.inj stepped
          exact ⟨moved (by simp [here]) rfl rfl rfl, rfl, rfl, rfl, rfl, rfl⟩
      · cases stepped
  | finish thread =>
      simp only [ClientState.step] at stepped
      split at stepped
      · rename_i done
        obtain rfl := Option.some.inj stepped
        exact ⟨moved (by simp [done.2.1]) rfl rfl rfl, rfl, rfl, rfl, rfl, rfl⟩
      · cases stepped

theorem Owes.stop (owes : Owes code state) (stepped : state.step code .stop = some next) :
    Owes code next := by
  simp only [ClientState.step] at stepped
  split at stepped
  · rename_i away
    obtain rfl := Option.some.inj stepped
    refine ⟨⟨owes.handles.socket, owes.handles.address, ?_, ?_⟩, ?_, ?_, owes.joined⟩
    · rintro _ ⟨⟩
    · rintro _ ⟨⟩
    rotate_left
    · rintro ⟨⟩
    intro _ part listed there
    cases called : state.stopped with
    | false =>
        have started := owes.running called
        show part ∈ code.stopParts state.started
        rw [started]
        exact listed
    | true =>
        have owed := owes.owed called part listed (by cases part <;> exact there)
        rw [away] at owed
        cases owed
  · cases stepped

theorem Owes.step (owes : Owes code state) (quiet : Quiet state)
    (stepped : state.step code event = some next) : Owes code next := by
  by_cases stops : event = .stop
  · exact owes.stop (stops ▸ stepped)
  by_cases goesOn : event = .stopStep
  · subst goesOn
    have begun := (stopStep_frame stepped).1
    exact owes.stopStep (quiet.flagged begun) stepped
  · exact owes.ofSame (step_senders ⟨stops, goesOn⟩ stepped)

end Done

section Runs

theorem Reaches.owes {events : List ThreadEvent} (reaches : Reaches code events state) :
    Owes code state :=
  Run.invariant reaches (Owes code) (.fresh code) fun earlier stepped owes =>
    owes.step (Reaches.quiet earlier) stepped

/-- The threads can always go on, without another call, until `stop` returns: neither the
lock nor the joins keep it for ever. -/
theorem stop_canReturn (code : ClientCode) (events : List ThreadEvent) (state : ClientState)
    (reaches : Reaches code events state) (begun : state.stopper ≠ .away) :
    ∃ more next, (∀ event ∈ more, event.isInternal = true) ∧
      Reaches code (events ++ more) next ∧ next.stopper = .away := by
  have stopping : Stopping state := ⟨reaches.sound, reaches.quiet.flagged begun⟩
  obtain ⟨next, ⟨more, internal, taken⟩, away⟩ := exists_away code stopping
  exact ⟨more, next, internal, Run.extend reaches taken, away⟩

/-- When `stop` has returned, all that it gives back is gone, and the threads it has joined
are done. -/
theorem stop_done (code : ClientCode) (events : List ThreadEvent) (state : ClientState)
    (reaches : Reaches code events state) (called : state.stopped = true)
    (returned : state.stopper = .away) :
    ∀ part ∈ code.stopParts true, ¬ state.has part ∧
      (part = .joinThreads → ∀ thread ∈ code.own, state.senders thread = .ended) := by
  have owes := reaches.owes
  intro part listed
  have gone : ¬ state.has part := by
    intro there
    have owed := owes.owed called part listed there
    rw [returned] at owed
    cases owed
  refine ⟨gone, ?_⟩
  rintro rfl
  exact owes.joined (eq_false_of_ne_true gone)

theorem stop_done_both :
    (¬ udpShutdown.has .closeSocket ∧ ¬ udpShutdown.has .freeAddresses ∧
      ∀ thread ∈ udpCode.own, udpShutdown.senders thread = .ended) ∧
    ¬ unixShutdown.has .closeSocket ∧
      ∀ thread ∈ unixCode.own, unixShutdown.senders thread = .ended := by
  have udp := stop_done udpCode shutdownEvents _ (reaches_shutdown (by decide +kernel))
    (by decide +kernel) (by decide +kernel)
  have unix := stop_done unixCode unixShutdownEvents _ (reaches_shutdown (by decide +kernel))
    (by decide +kernel) (by decide +kernel)
  refine ⟨⟨(udp .closeSocket ?_).1, (udp .freeAddresses ?_).1, (udp .joinThreads ?_).2 rfl⟩,
    (unix .closeSocket ?_).1, (unix .joinThreads ?_).2 rfl⟩
  all_goals decide

theorem stop_canReturn_both :
    (∃ more next, (∀ event ∈ more, ThreadEvent.isInternal event = true) ∧
      Reaches udpCode (shutdownEvents.take 7 ++ more) next ∧ next.stopper = .away) ∧
    ∃ more next, (∀ event ∈ more, ThreadEvent.isInternal event = true) ∧
      Reaches unixCode (unixShutdownEvents.take 7 ++ more) next ∧ next.stopper = .away :=
  ⟨stop_canReturn udpCode (shutdownEvents.take 7) _ (reaches_shutdown (by decide +kernel))
      (by decide +kernel),
    stop_canReturn unixCode (unixShutdownEvents.take 7) _ (reaches_shutdown (by decide +kernel))
      (by decide +kernel)⟩

end Runs

end ClientState

end DroneEngage.ClientLifecycle
