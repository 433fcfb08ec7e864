import Mathlib.Data.List.Basic
import Mathlib.Logic.Function.Basic

/-!
# Links that deliver in order

A sender puts messages on a link, which delivers them in order and may lose the
oldest one under way.  The listener keeps the last message delivered.  A sender who
announces every change of its state is known to the listener as soon as the link is
empty, unless its last message was lost.
-/

namespace DroneEngage.FifoLinks

/-- A link, with the last message put on it, whether that one was lost, and the last
message delivered. -/
structure Link (Message : Type*) where
  inTransit : List Message
  latest : Option Message
  lost : Bool
  heard : Option Message

namespace Link

variable {Message : Type*} (link : Link Message)

def fresh : Link Message where
  inTransit := []
  latest := none
  lost := false
  heard := none

def send (message : Message) : Link Message :=
  { link with
    inTransit := link.inTransit ++ [message]
    latest := some message
    lost := false }

def sendAll (messages : List Message) : Link Message :=
  messages.foldl send link

/-- The oldest message under way arrives. -/
def deliver : Option (Message × Link Message) :=
  match link.inTransit with
  | [] => none
  | message :: rest => some (message, { link with inTransit := rest, heard := some message })

/-- The oldest message under way is lost. -/
def lose : Option (Link Message) :=
  match link.inTransit with
  | [] => none
  | _ :: rest => some { link with inTransit := rest, lost := link.lost || rest.isEmpty }

/-- Nothing is under way, and the last message was not lost. -/
def Quiet : Prop :=
  link.inTransit = [] ∧ link.lost = false

/-- The last message is the youngest under way, or it was lost, or it was heard. -/
structure Ordered : Prop where
  underWay : ∀ message, link.inTransit.getLast? = some message → link.latest = some message
  arrived : link.inTransit = [] → link.lost = false → link.heard = link.latest
  notLost : link.inTransit ≠ [] → link.lost = false

variable {link}

theorem Ordered.fresh : (fresh : Link Message).Ordered :=
  ⟨nofun, fun _ _ => rfl, fun underWay => absurd rfl underWay⟩

theorem Ordered.send (message : Message) : (link.send message).Ordered where
  underWay := by
    intro other last
    rw [Link.send, List.getLast?_concat] at last
    exact last
  arrived := by
    intro empty
    cases List.append_ne_nil_of_right_ne_nil _ (List.cons_ne_nil _ _) empty
  notLost := fun _ => rfl

theorem sendAll_heard (messages : List Message) : (link.sendAll messages).heard = link.heard := by
  induction messages generalizing link with
  | nil => rfl
  | cons message messages ih => exact ih

theorem deliver_eq_some_iff {message : Message} {next : Link Message} :
    link.deliver = some (message, next) ↔ ∃ rest, link.inTransit = message :: rest ∧
      next = { link with inTransit := rest, heard := some message } := by
  unfold deliver
  split
  · rename_i empty
    simp [empty]
  · rename_i first rest underWay
    rw [underWay]
    constructor
    · intro same
      cases same
      exact ⟨rest, rfl, rfl⟩
    · rintro ⟨_, same, rfl⟩
      cases same
      rfl

theorem lose_eq_some_iff {next : Link Message} :
    link.lose = some next ↔ ∃ message rest, link.inTransit = message :: rest ∧
      next = { link with inTransit := rest, lost := link.lost || rest.isEmpty } := by
  unfold lose
  split
  · rename_i empty
    simp [empty]
  · rename_i first rest underWay
    rw [underWay]
    constructor
    · intro same
      cases same
      exact ⟨first, rest, rfl, rfl⟩
    · rintro ⟨_, _, same, rfl⟩
      cases same
      rfl

theorem getLast?_tail {message last : Message} {rest : List Message}
    (isLast : rest.getLast? = some last) : (message :: rest).getLast? = some last := by
  rw [List.getLast?_cons, isLast]
  rfl

theorem Ordered.deliver (ordered : link.Ordered) {message : Message} {next : Link Message}
    (delivered : link.deliver = some (message, next)) : next.Ordered := by
  obtain ⟨rest, underWay, rfl⟩ := deliver_eq_some_iff.mp delivered
  have kept := ordered.notLost (underWay ▸ List.cons_ne_nil _ _)
  constructor
  · intro last isLast
    exact ordered.underWay last (underWay ▸ getLast?_tail isLast)
  · rintro (rfl : rest = []) -
    exact (ordered.underWay message (underWay ▸ rfl)).symm
  · exact fun _ => kept

theorem Ordered.lose (ordered : link.Ordered) {next : Link Message}
    (gone : link.lose = some next) : next.Ordered := by
  obtain ⟨message, rest, underWay, rfl⟩ := lose_eq_some_iff.mp gone
  have kept := ordered.notLost (underWay ▸ List.cons_ne_nil _ _)
  constructor
  · intro last isLast
    exact ordered.underWay last (underWay ▸ getLast?_tail isLast)
  · rintro (rfl : rest = []) found
    simp at found
  · intro more
    simpa [kept] using more

/-- What the listener has heard last is the last message. -/
theorem Ordered.heard_eq_latest (ordered : link.Ordered) (quiet : link.Quiet) :
    link.heard = link.latest :=
  ordered.arrived quiet.1 quiet.2

end Link

end DroneEngage.FifoLinks
