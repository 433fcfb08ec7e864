import DroneEngage.ClientLifecycle
import Mathlib.Algebra.Order.Group.Nat

/-!
# What the lock of a client protects

No chunk goes to a socket that is closed or to an address that is freed, both are given
back at most once, and at most one chunk goes out once `stop` has been called.
-/

namespace DroneEngage.ClientLifecycle

open EventRuns Mutexes

namespace ClientState

/-- A thread is in a section that needs the lock. -/
def inside (state : ClientState) : Party → Prop
  | .sender thread => (state.senders thread).holds = true
  | .stopper => state.stopper.holds = true

/-- A thread is about to send, or may come to it without another check of the socket. -/
def isChecked : SendPc → Bool
  | .looping _ | .sending _ => true
  | _ => false

def isSending : SendPc → Bool
  | .sending _ => true
  | _ => false

def closes (effects : List Effect) : Nat :=
  effects.countP fun effect => match effect with | .close _ => true | _ => false

def frees (effects : List Effect) : Nat :=
  effects.countP fun effect => match effect with | .free _ => true | _ => false

def lateSends (effects : List Effect) : Nat :=
  effects.countP Effect.isLate

/-- The socket and the addresses are there for the threads that use them. -/
structure Sound (state : ClientState) : Prop where
  exclusive : Exclusive state.lock state.inside
  socket : state.socketFd → state.socketOpen ∨ ∃ parts, state.stopper = .closed parts
  address : state.address → state.addressLive ∨ ∃ parts, state.stopper = .freed parts
  checked : ∀ thread, isChecked (state.senders thread) → state.socketFd ∧ state.address
  valid : ∀ effect ∈ state.effects, effect.valid = true
  closed : closes state.effects + state.socketOpen.toNat = 1
  freed : frees state.effects + state.addressLive.toNat = 1

/-- Once `stop` has been called, at most one chunk is sent. -/
structure Quiet (state : ClientState) : Prop where
  flagged : state.stopper ≠ .away → state.stopped = true
  before : state.stopped = false → lateSends state.effects = 0
  after : lateSends state.effects ≤ 1
  last : lateSends state.effects = 1 → ∀ thread, isSending (state.senders thread) = false

section Effects

@[simp]
theorem closes_append (effects more : List Effect) :
    closes (effects ++ more) = closes effects + closes more :=
  List.countP_append

@[simp]
theorem frees_append (effects more : List Effect) :
    frees (effects ++ more) = frees effects + frees more :=
  List.countP_append

@[simp]
theorem lateSends_append (effects more : List Effect) :
    lateSends (effects ++ more) = lateSends effects + lateSends more :=
  List.countP_append

end Effects

section Senders

variable {state : ClientState} {thread : Nat} {pc : SendPc}

theorem inside_moveSender (party : Party) :
    (state.moveSender thread pc).inside party ↔
      if party = .sender thread then pc.holds = true else state.inside party := by
  cases party with
  | stopper => simp [inside, moveSender]
  | sender other =>
      by_cases same : other = thread
      · subst same
        simp [inside, moveSender]
      · simp [inside, moveSender, same]

theorem Sound.fresh : Sound ClientState.fresh where
  exclusive := by
    rintro (thread | _)
    · simp [inside, ClientState.fresh, SendPc.holds]
    · simp [inside, ClientState.fresh, StopPc.holds]
  socket := fun _ => .inl rfl
  address := fun _ => .inl rfl
  checked := nofun
  valid := nofun
  closed := rfl
  freed := rfl

theorem Sound.checked_update (sound : Sound state)
    (checked : isChecked pc → state.socketFd ∧ state.address) (other : Nat)
    (passed : isChecked (Function.update state.senders thread pc other)) :
    state.socketFd ∧ state.address := by
  by_cases moved : other = thread
  · rw [moved, Function.update_self] at passed
    exact checked passed
  · rw [Function.update_of_ne moved] at passed
    exact sound.checked other passed

/-- A thread goes on without taking or returning the lock. -/
theorem Sound.moveSender (sound : Sound state)
    (same : pc.holds = (state.senders thread).holds)
    (checked : isChecked pc → state.socketFd ∧ state.address) :
    Sound (state.moveSender thread pc) where
  exclusive := by
    refine sound.exclusive.stay fun party => ?_
    rw [inside_moveSender]
    split
    · rename_i moved
      rw [moved, same]
      rfl
    · exact Iff.rfl
  socket := sound.socket
  address := sound.address
  checked := sound.checked_update checked
  valid := sound.valid
  closed := sound.closed
  freed := sound.freed

theorem Sound.enterSend (sound : Sound state) (free : state.lock = none) (chunks : Nat) :
    Sound
      { state.moveSender thread (.entered chunks) with lock := some (.sender thread) } where
  exclusive := by
    have exclusive := sound.exclusive
    rw [free] at exclusive
    refine exclusive.enter fun party => ?_
    show (state.moveSender thread (.entered chunks)).inside party ↔ _
    rw [inside_moveSender]
    split
    · rename_i moved
      simp [moved, SendPc.holds]
    · rename_i apart
      simp [apart]
  socket := sound.socket
  address := sound.address
  checked := sound.checked_update nofun
  valid := sound.valid
  closed := sound.closed
  freed := sound.freed

theorem Sound.leaveSend (sound : Sound state) (within : (state.senders thread).holds = true) :
    Sound (state.leaveSend thread) where
  exclusive := by
    have sending : state.inside (.sender thread) := within
    refine sound.exclusive.leave sending fun party => ?_
    show (state.moveSender thread .away).inside party ↔ _
    rw [inside_moveSender]
    split
    · rename_i moved
      simp [moved, SendPc.holds]
    · rename_i apart
      simp [apart]
  socket := sound.socket
  address := sound.address
  checked := sound.checked_update nofun
  valid := sound.valid
  closed := sound.closed
  freed := sound.freed

/-- While a thread has the lock, `stop` is not in a part that needs it. -/
theorem Sound.stopper_out (sound : Sound state)
    (within : (state.senders thread).holds = true) : state.stopper.holds = false := by
  apply eq_false_of_ne_true
  intro stopping
  have sending : state.inside (.sender thread) := within
  have stopping : state.inside .stopper := stopping
  cases sound.exclusive.unique sending stopping

theorem Sound.resources (sound : Sound state) {chunks : Nat}
    (sending : state.senders thread = .sending chunks) :
    state.socketOpen = true ∧ state.addressLive = true := by
  have within : (state.senders thread).holds = true := by
    rw [sending]
    rfl
  have out := sound.stopper_out within
  obtain ⟨fd, address⟩ := sound.checked thread (by rw [sending]; rfl)
  constructor
  · rcases sound.socket fd with isOpen | ⟨parts, closed⟩
    · exact isOpen
    · rw [closed] at out
      cases out
  · rcases sound.address address with live | ⟨parts, freed⟩
    · exact live
    · rw [freed] at out
      cases out

/-- A chunk goes to an open socket and to an address that is there. -/
theorem Sound.sendto (sound : Sound state) {chunks : Nat}
    (sending : state.senders thread = .sending chunks) :
    Sound
      { state with
        effects := state.effects ++
          [Effect.sendto (state.socketOpen && state.addressLive) state.stopped] } where
  exclusive := sound.exclusive
  socket := sound.socket
  address := sound.address
  checked := sound.checked
  valid := by
    obtain ⟨isOpen, live⟩ := sound.resources sending
    rw [List.forall_mem_append, List.forall_mem_singleton, isOpen, live]
    exact ⟨sound.valid, rfl⟩
  closed := by
    rw [closes_append]
    exact sound.closed
  freed := by
    rw [frees_append]
    exact sound.freed

end Senders

section Stopper

variable {state : ClientState} {code : ClientCode} {pc : StopPc} {parts : List StopPart}

/-- What the main thread changes beside the resources, where the lock stays with it. -/
theorem exclusive_stopper {lock : Option Party} (sound : Sound state)
    (same : pc.holds = state.stopper.holds) (sameLock : lock = state.lock) :
    Exclusive lock { state with stopper := pc, lock := lock }.inside := by
  rw [sameLock]
  refine sound.exclusive.stay fun party => ?_
  cases party with
  | sender thread => exact Iff.rfl
  | stopper => simp [inside, same]

theorem exclusive_takeStop (sound : Sound state) (free : state.lock = none)
    (holds : pc.holds = true) :
    Exclusive (some .stopper) { state with stopper := pc, lock := some .stopper }.inside := by
  have exclusive := sound.exclusive
  rw [free] at exclusive
  refine exclusive.enter fun party => ?_
  cases party with
  | sender thread => simp [inside]
  | stopper => simp [inside, holds]

theorem exclusive_leaveStop (sound : Sound state) (within : state.stopper.holds = true) :
    Exclusive none (state.leaveStop parts).inside := by
  have stopping : state.inside .stopper := within
  refine sound.exclusive.leave stopping fun party => ?_
  cases party with
  | sender thread => simp [inside, leaveStop]
  | stopper => simp [inside, leaveStop, StopPc.holds]

/-- While `stop` has the lock, no thread is past its check of the resources. -/
theorem Sound.not_checked (sound : Sound state) (within : state.stopper.holds = true)
    (thread : Nat) : isChecked (state.senders thread) = false := by
  apply eq_false_of_ne_true
  intro passed
  have holds : (state.senders thread).holds = true := by
    cases pc : state.senders thread with
    | looping chunks => rfl
    | sending chunks => rfl
    | _ =>
        rw [pc] at passed
        cases passed
  rw [sound.stopper_out holds] at within
  cases within

/-- What is there outside the steps that give it back. -/
theorem Sound.resourcesThere (sound : Sound state)
    (notClosed : ∀ parts, state.stopper ≠ .closed parts)
    (notFreed : ∀ parts, state.stopper ≠ .freed parts) :
    (state.socketFd → state.socketOpen) ∧ (state.address → state.addressLive) := by
  constructor
  · intro fd
    rcases sound.socket fd with isOpen | ⟨parts, closed⟩
    · exact isOpen
    · exact absurd closed (notClosed parts)
  · intro address
    rcases sound.address address with live | ⟨parts, freed⟩
    · exact live
    · exact absurd freed (notFreed parts)

theorem Sound.resourcesThere_of_out (sound : Sound state) (out : state.stopper.holds = false) :
    (state.socketFd → state.socketOpen) ∧ (state.address → state.addressLive) := by
  apply sound.resourcesThere
  · rintro parts here
    rw [here] at out
    cases out
  · rintro parts here
    rw [here] at out
    cases out

/-- Outside its critical sections `stop` changes nothing that the threads use. -/
theorem Sound.moveStopper (sound : Sound state) (out : state.stopper.holds = false)
    (outside : pc.holds = false) : Sound { state with stopper := pc } where
  exclusive := exclusive_stopper sound (outside.trans out.symm) rfl
  socket := fun fd => .inl ((sound.resourcesThere_of_out out).1 fd)
  address := fun address => .inl ((sound.resourcesThere_of_out out).2 address)
  checked := sound.checked
  valid := sound.valid
  closed := sound.closed
  freed := sound.freed

theorem Sound.takeStop (sound : Sound state) (out : state.stopper.holds = false)
    (free : state.lock = none) (holds : pc.holds = true) :
    Sound { state with lock := some .stopper, stopper := pc } where
  exclusive := exclusive_takeStop sound free holds
  socket := fun fd => .inl ((sound.resourcesThere_of_out out).1 fd)
  address := fun address => .inl ((sound.resourcesThere_of_out out).2 address)
  checked := sound.checked
  valid := sound.valid
  closed := sound.closed
  freed := sound.freed

/-- `stop` returns the lock, with what is still there. -/
theorem Sound.leaveStop (sound : Sound state) (within : state.stopper.holds = true)
    {fd address : Bool} (socket : fd → state.socketOpen) (live : address → state.addressLive) :
    Sound { state.leaveStop parts with socketFd := fd, address := address } where
  exclusive := by
    have left : Exclusive none (state.leaveStop parts).inside :=
      exclusive_leaveStop sound within
    exact left
  socket := fun given => .inl (socket given)
  address := fun given => .inl (live given)
  checked := by
    intro thread passed
    have unchecked : isChecked (state.senders thread) = false := sound.not_checked within thread
    cases unchecked.symm.trans passed
  valid := sound.valid
  closed := sound.closed
  freed := sound.freed

/-- The socket is closed while the lock is held. -/
theorem Sound.close (sound : Sound state) (here : state.stopper = .closing parts)
    (fd : state.socketFd) :
    Sound
      { state with
        socketOpen := false
        effects := state.effects ++ [.close state.socketOpen]
        stopper := .closed parts } := by
  obtain ⟨whole, alive⟩ := sound.resourcesThere (by simp [here]) (by simp [here])
  have isOpen : state.socketOpen = true := whole fd
  have closed := sound.closed
  rw [isOpen] at closed
  constructor
  · exact exclusive_stopper sound (by rw [here]; rfl) rfl
  · exact fun _ => .inr ⟨parts, rfl⟩
  · exact fun given => .inl (alive given)
  · exact sound.checked
  · rw [List.forall_mem_append, List.forall_mem_singleton]
    exact ⟨sound.valid, isOpen⟩
  · rw [closes_append]
    exact closed
  · rw [frees_append]
    exact sound.freed

theorem Sound.free (sound : Sound state) (here : state.stopper = .freeing parts)
    (address : state.address) :
    Sound
      { state with
        addressLive := false
        effects := state.effects ++ [.free state.addressLive]
        stopper := .freed parts } := by
  obtain ⟨whole, alive⟩ := sound.resourcesThere (by simp [here]) (by simp [here])
  have live : state.addressLive = true := alive address
  have freed := sound.freed
  rw [live] at freed
  constructor
  · exact exclusive_stopper sound (by rw [here]; rfl) rfl
  · exact fun given => .inl (whole given)
  · exact fun _ => .inr ⟨parts, rfl⟩
  · exact sound.checked
  · rw [List.forall_mem_append, List.forall_mem_singleton]
    exact ⟨sound.valid, live⟩
  · rw [closes_append]
    exact sound.closed
  · rw [frees_append]
    exact freed

theorem Sound.stopStep {next : ClientState} (sound : Sound state)
    (stepped : state.stopStep code = some next) : Sound next := by
  unfold ClientState.stopStep at stepped
  split at stepped
  · cases stepped
  · rename_i here
    obtain rfl := Option.some.inj stepped
    exact sound.moveStopper (by rw [here]; rfl) rfl
  · rename_i parts here
    split at stepped
    · rename_i free
      obtain rfl := Option.some.inj stepped
      exact sound.takeStop (by rw [here]; rfl) free rfl
    · cases stepped
  · rename_i parts here
    split at stepped
    · cases stepped
    · obtain rfl := Option.some.inj stepped
      have moved : Sound { state with stopper := .next parts } :=
        sound.moveStopper (by rw [here]; rfl) rfl
      exact { moved with }
  · rename_i parts here
    split at stepped
    · rename_i free
      obtain rfl := Option.some.inj stepped
      exact sound.takeStop (by rw [here]; rfl) free rfl
    · cases stepped
  · rename_i parts here
    have within : state.stopper.holds = true := by
      rw [here]
      rfl
    obtain ⟨whole, alive⟩ := sound.resourcesThere (by simp [here]) (by simp [here])
    split at stepped
    · rename_i fd
      obtain rfl := Option.some.inj stepped
      exact sound.close here fd
    · obtain rfl := Option.some.inj stepped
      exact sound.leaveStop within whole alive
  · rename_i parts here
    have within : state.stopper.holds = true := by
      rw [here]
      rfl
    obtain rfl := Option.some.inj stepped
    refine sound.leaveStop within nofun fun address => ?_
    rcases sound.address address with live | ⟨parts, freed⟩
    · exact live
    · rw [here] at freed
      cases freed
  · rename_i parts here
    have within : state.stopper.holds = true := by
      rw [here]
      rfl
    obtain ⟨whole, alive⟩ := sound.resourcesThere (by simp [here]) (by simp [here])
    split at stepped
    · rename_i address
      obtain rfl := Option.some.inj stepped
      exact sound.free here address
    · obtain rfl := Option.some.inj stepped
      exact sound.leaveStop within whole alive
  · rename_i parts here
    have within : state.stopper.holds = true := by
      rw [here]
      rfl
    obtain rfl := Option.some.inj stepped
    refine sound.leaveStop within (fun fd => ?_) nofun
    rcases sound.socket fd with isOpen | ⟨parts, closed⟩
    · exact isOpen
    · rw [here] at closed
      cases closed

end Stopper

section Runs

variable {code : ClientCode} {state next : ClientState} {event : ThreadEvent}

theorem Sound.step (sound : Sound state) (stepped : state.step code event = some next) :
    Sound next := by
  cases event with
  | call thread chunks =>
      simp only [ClientState.step] at stepped
      split at stepped
      · rename_i away
        split at stepped
        · obtain rfl := Option.some.inj stepped
          exact sound
        · obtain rfl := Option.some.inj stepped
          exact sound.moveSender (by rw [away]; rfl) nofun
      · cases stepped
  | lock thread =>
      simp only [ClientState.step] at stepped
      split at stepped
      · rename_i chunks here
        split at stepped
        · rename_i free
          obtain rfl := Option.some.inj stepped
          exact sound.enterSend free chunks
        · cases stepped
      · cases stepped
  | recheck thread =>
      simp only [ClientState.step] at stepped
      split at stepped
      · rename_i chunks here
        split at stepped
        · obtain rfl := Option.some.inj stepped
          exact sound.leaveSend (by rw [here]; rfl)
        · rename_i passed
          obtain rfl := Option.some.inj stepped
          simp only [Bool.or_eq_true, Bool.not_eq_true', not_or, Bool.not_eq_false] at passed
          exact sound.moveSender (by rw [here]; rfl) fun _ => ⟨passed.1.2, passed.2⟩
      · cases stepped
  | loop thread =>
      simp only [ClientState.step] at stepped
      split at stepped
      · rename_i chunks here
        split at stepped
        · obtain rfl := Option.some.inj stepped
          refine sound.moveSender (by rw [here]; rfl) fun _ => ?_
          exact sound.checked thread (by rw [here]; rfl)
        · obtain rfl := Option.some.inj stepped
          exact sound.leaveSend (by rw [here]; rfl)
      · cases stepped
  | attempt thread outcome =>
      simp only [ClientState.step] at stepped
      split at stepped
      · rename_i chunks here
        have sent := sound.sendto here
        have checked : state.socketFd ∧ state.address :=
          sound.checked thread (by rw [here]; rfl)
        split at stepped
        · obtain rfl := Option.some.inj stepped
          exact sent.moveSender (by simp [here, SendPc.holds]) fun _ => checked
        · obtain rfl := Option.some.inj stepped
          exact sent.moveSender (by simp [here, SendPc.holds]) fun _ => checked
        · obtain rfl := Option.some.inj stepped
          exact sent.leaveSend (by simp [here, SendPc.holds])
      · cases stepped
  | finish thread =>
      simp only [ClientState.step] at stepped
      split at stepped
      · rename_i done
        obtain rfl := Option.some.inj stepped
        exact sound.moveSender (by rw [done.2.1]; rfl) nofun
      · cases stepped
  | stop =>
      simp only [ClientState.step] at stepped
      split at stepped
      · rename_i away
        obtain rfl := Option.some.inj stepped
        have moved : Sound { state with stopper := .next (code.stopParts state.started) } :=
          sound.moveStopper (by rw [away]; rfl) rfl
        exact { moved with }
      · cases stepped
  | stopStep => exact sound.stopStep stepped

/-- A run of a started client with any threads. -/
abbrev Reaches (code : ClientCode) (events : List ThreadEvent) (state : ClientState) : Prop :=
  Run (fun state event => state.step code event) ClientState.fresh events state

theorem Reaches.sound {events : List ThreadEvent} (reaches : Reaches code events state) :
    Sound state :=
  Run.invariant reaches Sound Sound.fresh fun _ stepped sound => sound.step stepped

theorem Quiet.fresh : Quiet ClientState.fresh :=
  ⟨fun moved => absurd rfl moved, fun _ => rfl, Nat.zero_le _, nofun⟩

/-- A thread starts to send only if `stop` has not been called. -/
theorem Quiet.moveSender {thread : Nat} {pc : SendPc} (quiet : Quiet state)
    (allowed : isSending pc = false ∨ state.stopped = false) :
    Quiet (state.moveSender thread pc) := by
  refine ⟨quiet.flagged, quiet.before, quiet.after, fun late other => ?_⟩
  by_cases moved : other = thread
  · rw [moved, ClientState.moveSender]
    dsimp only
    rw [Function.update_self]
    rcases allowed with idle | running
    · exact idle
    · have late : lateSends state.effects = 1 := late
      rw [quiet.before running] at late
      cases late
  · rw [ClientState.moveSender]
    dsimp only
    rw [Function.update_of_ne moved]
    exact quiet.last late other

theorem Quiet.leaveSend {thread : Nat} (quiet : Quiet state) : Quiet (state.leaveSend thread) := by
  have moved : Quiet (state.moveSender thread .away) := quiet.moveSender (.inl rfl)
  exact { moved with }

/-- What `stop` leaves alone once it has begun. -/
theorem stopStep_frame (stepped : state.stopStep code = some next) :
    state.stopper ≠ .away ∧ next.stopped = state.stopped ∧ next.senders = state.senders ∧
      lateSends next.effects = lateSends state.effects := by
  unfold ClientState.stopStep at stepped
  split at stepped
  · cases stepped
  all_goals
    rename_i here
    rw [here]
    refine ⟨by simp, ?_⟩
  · obtain rfl := Option.some.inj stepped
    exact ⟨rfl, rfl, rfl⟩
  · split at stepped
    · obtain rfl := Option.some.inj stepped
      exact ⟨rfl, rfl, rfl⟩
    · cases stepped
  · split at stepped
    · cases stepped
    · obtain rfl := Option.some.inj stepped
      exact ⟨rfl, rfl, rfl⟩
  · split at stepped
    · obtain rfl := Option.some.inj stepped
      exact ⟨rfl, rfl, rfl⟩
    · cases stepped
  · split at stepped
    · obtain rfl := Option.some.inj stepped
      exact ⟨rfl, rfl, lateSends_append _ _⟩
    · obtain rfl := Option.some.inj stepped
      exact ⟨rfl, rfl, rfl⟩
  · obtain rfl := Option.some.inj stepped
    exact ⟨rfl, rfl, rfl⟩
  · split at stepped
    · obtain rfl := Option.some.inj stepped
      exact ⟨rfl, rfl, lateSends_append _ _⟩
    · obtain rfl := Option.some.inj stepped
      exact ⟨rfl, rfl, rfl⟩
  · obtain rfl := Option.some.inj stepped
    exact ⟨rfl, rfl, rfl⟩

theorem Quiet.stopStep (quiet : Quiet state) (stepped : state.stopStep code = some next) :
    Quiet next := by
  obtain ⟨begun, sameStopped, sameSenders, sameLate⟩ := stopStep_frame stepped
  constructor
  · exact fun _ => sameStopped.trans (quiet.flagged begun)
  · rw [sameStopped, sameLate]
    exact quiet.before
  · rw [sameLate]
    exact quiet.after
  · rw [sameLate, sameSenders]
    exact quiet.last

/-- The chunk that a thread was about to send when `stop` was called may be the one. -/
theorem Quiet.sendto (quiet : Quiet state) (sound : Sound state) {thread chunks : Nat}
    (here : state.senders thread = .sending chunks) {pc : SendPc} (idle : isSending pc = false)
    (valid : Bool) :
    Quiet
      ({ state with
          effects := state.effects ++ [Effect.sendto valid state.stopped] }.moveSender thread
        pc) := by
  have sending : isSending (state.senders thread) = true := by
    rw [here]
    rfl
  have noneBefore : lateSends state.effects = 0 := by
    have notOnce : lateSends state.effects ≠ 1 := fun once => by
      rw [quiet.last once thread] at sending
      cases sending
    have atMost := quiet.after
    omega
  have late : lateSends (state.effects ++ [Effect.sendto valid state.stopped]) =
      state.stopped.toNat := by
    rw [lateSends_append, noneBefore]
    cases state.stopped <;> rfl
  have alone (other : Nat) (apart : other ≠ thread) :
      isSending (state.senders other) = false := by
    apply eq_false_of_ne_true
    intro sendingToo
    have holds : state.inside (.sender other) := by
      show (state.senders other).holds = true
      cases pc : state.senders other with
      | sending _ => rfl
      | _ =>
          rw [pc] at sendingToo
          cases sendingToo
    have holdsHere : state.inside (.sender thread) := by
      simp [inside, here, SendPc.holds]
    have same := sound.exclusive.unique holds holdsHere
    exact apart (Party.sender.inj same)
  constructor
  · exact quiet.flagged
  · intro running
    have running : state.stopped = false := running
    show lateSends (state.effects ++ [Effect.sendto valid state.stopped]) = 0
    rw [late, running]
    rfl
  · show lateSends (state.effects ++ [Effect.sendto valid state.stopped]) ≤ 1
    rw [late]
    exact Bool.toNat_le _
  · intro _ other
    by_cases moved : other = thread
    · simp [ClientState.moveSender, moved, idle]
    · simp [ClientState.moveSender, moved, alone other moved]

theorem Quiet.step (quiet : Quiet state) (sound : Sound state)
    (stepped : state.step code event = some next) : Quiet next := by
  cases event with
  | call thread chunks =>
      simp only [ClientState.step] at stepped
      split at stepped
      · split at stepped
        · obtain rfl := Option.some.inj stepped
          exact quiet
        · obtain rfl := Option.some.inj stepped
          exact quiet.moveSender (.inl rfl)
      · cases stepped
  | lock thread =>
      simp only [ClientState.step] at stepped
      split at stepped
      · rename_i chunks here
        split at stepped
        · obtain rfl := Option.some.inj stepped
          have moved : Quiet (state.moveSender thread (.entered chunks)) :=
            quiet.moveSender (.inl rfl)
          exact { moved with }
        · cases stepped
      · cases stepped
  | recheck thread =>
      simp only [ClientState.step] at stepped
      split at stepped
      · split at stepped
        · obtain rfl := Option.some.inj stepped
          exact quiet.leaveSend
        · obtain rfl := Option.some.inj stepped
          exact quiet.moveSender (.inl rfl)
      · cases stepped
  | loop thread =>
      simp only [ClientState.step] at stepped
      split at stepped
      · split at stepped
        · rename_i running
          obtain rfl := Option.some.inj stepped
          exact quiet.moveSender (.inr running.2)
        · obtain rfl := Option.some.inj stepped
          exact quiet.leaveSend
      · cases stepped
  | attempt thread outcome =>
      simp only [ClientState.step] at stepped
      split at stepped
      · rename_i chunks here
        split at stepped
        · obtain rfl := Option.some.inj stepped
          exact quiet.sendto sound here rfl _
        · obtain rfl := Option.some.inj stepped
          exact quiet.sendto sound here rfl _
        · obtain rfl := Option.some.inj stepped
          have moved := quiet.sendto sound here (show isSending .away = false from rfl)
            (state.socketOpen && state.addressLive)
          exact { moved with }
      · cases stepped
  | finish thread =>
      simp only [ClientState.step] at stepped
      split at stepped
      · obtain rfl := Option.some.inj stepped
        exact quiet.moveSender (.inl rfl)
      · cases stepped
  | stop =>
      simp only [ClientState.step] at stepped
      split at stepped
      · obtain rfl := Option.some.inj stepped
        exact ⟨fun _ => rfl, nofun, quiet.after, quiet.last⟩
      · cases stepped
  | stopStep => exact quiet.stopStep stepped

theorem Reaches.quiet {events : List ThreadEvent} (reaches : Reaches code events state) :
    Quiet state :=
  Run.invariant reaches Quiet Quiet.fresh fun earlier stepped quiet =>
    quiet.step (Reaches.sound earlier) stepped

/-- However the threads are scheduled, nothing is sent to a socket that is closed or to
addresses that are freed, both are given back at most once, and at most one chunk is sent
after `stop` has been called. -/
theorem client_safe (code : ClientCode) (events : List ThreadEvent) (state : ClientState)
    (reaches : Reaches code events state) :
    (∀ effect ∈ state.effects, effect.valid = true) ∧ closes state.effects ≤ 1 ∧
      frees state.effects ≤ 1 ∧ lateSends state.effects ≤ 1 := by
  have sound := reaches.sound
  have closed := sound.closed
  have freed := sound.freed
  exact ⟨sound.valid, by omega, by omega, reaches.quiet.after⟩

/-- A thread sends two chunks while `stop` is called; then another one comes too late. -/
def shutdownEvents : List ThreadEvent :=
  [ .call 5 2, .lock 5, .recheck 5, .loop 5, .call 6 1, .stop, .attempt 5 .sent, .loop 5,
    .stopStep, .stopStep, .stopStep, .lock 6, .recheck 6, .finish 0, .finish 1, .stopStep,
    .stopStep, .stopStep, .stopStep, .stopStep ]

/-- The same of the Unix client, which joins its threads before it closes the socket. -/
def unixShutdownEvents : List ThreadEvent :=
  [ .call 5 2, .lock 5, .recheck 5, .loop 5, .call 6 1, .stop, .attempt 5 .sent, .loop 5,
    .finish 0, .finish 1, .stopStep, .stopStep, .stopStep, .stopStep, .lock 6, .recheck 6,
    .stopStep ]

def shutdownState (code : ClientCode) (events : List ThreadEvent) : ClientState :=
  (events.foldlM (fun (state : ClientState) event => state.step code event) .fresh).getD .fresh

theorem reaches_shutdown {code : ClientCode} {events : List ThreadEvent}
    (taken : (events.foldlM (fun (state : ClientState) event => state.step code event)
      .fresh).isSome = true) : Reaches code events (shutdownState code events) := by
  apply Run.of_foldlM
  unfold shutdownState
  obtain ⟨state, found⟩ := Option.isSome_iff_exists.mp taken
  rw [found]
  rfl

def udpShutdown : ClientState :=
  shutdownState udpCode shutdownEvents

def unixShutdown : ClientState :=
  shutdownState unixCode unixShutdownEvents

theorem client_safe_both :
    ((∀ effect ∈ udpShutdown.effects, effect.valid = true) ∧ closes udpShutdown.effects ≤ 1 ∧
      frees udpShutdown.effects ≤ 1 ∧ lateSends udpShutdown.effects ≤ 1) ∧
    (∀ effect ∈ unixShutdown.effects, effect.valid = true) ∧ closes unixShutdown.effects ≤ 1 ∧
      frees unixShutdown.effects ≤ 1 ∧ lateSends unixShutdown.effects ≤ 1 :=
  ⟨client_safe udpCode shutdownEvents _ (reaches_shutdown (by decide +kernel)),
    client_safe unixCode unixShutdownEvents _ (reaches_shutdown (by decide +kernel))⟩

end Runs

end ClientState

end DroneEngage.ClientLifecycle
