import DroneEngage.OrderedMaps

/-!
# Remembering the latest event of each target

Events are listed with the latest first.  A memory keeps an entry of the latest
event of each target under a key of the target, and may give up some of them.
It serves every target as long as no two targets share a key.
-/

namespace DroneEngage.LatestEvents

variable {Event Target Key Entry : Type*} [DecidableEq Target] [LinearOrder Key]
  (targetOf : Event → Target) (key : Target → Key) (entryOf : Event → Entry)

def latest (events : List Event) (target : Target) : Option Event :=
  events.find? fun event => targetOf event = target

/-- The memory has the entry of the latest event of each target, unless it has
given the event up. -/
def Remembers (givenUp : Event → Prop) (memory : OrderedMap Key Entry)
    (events : List Event) : Prop :=
  ∀ target event, latest targetOf events target = some event →
    memory.find? (key target) = some (entryOf event) ∨
      memory.find? (key target) = none ∧ givenUp event

/-- Each event is related to the latest one of its target before it. -/
def FollowsLatest (related : Event → Event → Prop) : List Event → Prop
  | [] => True
  | later :: older =>
      (∀ earlier, latest targetOf older (targetOf later) = some earlier →
        related earlier later) ∧ FollowsLatest related older

variable {targetOf key entryOf} {givenUp : Event → Prop} {memory : OrderedMap Key Entry}
  {events : List Event} {event earlier : Event} {target : Target}

theorem targetOf_latest (found : latest targetOf events target = some event) :
    targetOf event = target := by
  simpa using List.find?_some found

theorem latest_cons :
    latest targetOf (event :: events) target =
      if targetOf event = target then some event else latest targetOf events target := by
  unfold latest
  by_cases same : targetOf event = target <;> simp [same]

theorem Remembers.nil : Remembers targetOf key entryOf givenUp memory [] := by
  intro target event found
  cases found

theorem Remembers.mono {givenUp' : Event → Prop}
    (remembers : Remembers targetOf key entryOf givenUp memory events)
    (weaker : ∀ event, givenUp event → givenUp' event) :
    Remembers targetOf key entryOf givenUp' memory events := by
  intro target event found
  exact (remembers target event found).imp_right fun lost => ⟨lost.1, weaker event lost.2⟩

theorem Remembers.filter {keeps : Entry → Bool}
    (remembers : Remembers targetOf key entryOf givenUp memory events)
    (spares : ∀ event ∈ events,
      memory.find? (key (targetOf event)) = some (entryOf event) →
        keeps (entryOf event) = false → givenUp event) :
    Remembers targetOf key entryOf givenUp (memory.filter keeps) events := by
  intro target event found
  rw [OrderedMap.find?_filter]
  rcases remembers target event found with held | ⟨absent, lost⟩
  · rw [held]
    cases kept : keeps (entryOf event) with
    | true => exact .inl (by simp [Option.filter, kept])
    | false =>
        rw [← targetOf_latest found] at held
        exact .inr ⟨by simp [Option.filter, kept],
          spares event (List.mem_of_find?_eq_some found) held kept⟩
  · rw [absent]
    exact .inr ⟨rfl, lost⟩

theorem Remembers.insert_self {found : Key} {entry : Entry}
    (remembers : Remembers targetOf key entryOf givenUp memory events)
    (held : memory.find? found = some entry) :
    Remembers targetOf key entryOf givenUp (memory.insert found entry) events := by
  intro target event latestEvent
  rw [OrderedMap.find?_insert]
  split
  · rename_i same
    rw [← held, ← same]
    exact remembers target event latestEvent
  · exact remembers target event latestEvent

/-- An event is recorded under its key, which no other target with an event has. -/
theorem Remembers.record (remembers : Remembers targetOf key entryOf givenUp memory events)
    (apart : ∀ other ∈ events, key (targetOf other) = key (targetOf event) →
      targetOf other = targetOf event) :
    Remembers targetOf key entryOf givenUp
      (memory.insert (key (targetOf event)) (entryOf event)) (event :: events) := by
  intro target found latestEvent
  rw [latest_cons] at latestEvent
  rw [OrderedMap.find?_insert]
  split at latestEvent
  · rename_i same
    obtain rfl := Option.some.inj latestEvent
    rw [if_pos (congrArg key same.symm)]
    exact .inl rfl
  · rename_i different
    have ofTarget := targetOf_latest latestEvent
    have keyApart : key target ≠ key (targetOf event) := by
      intro sameKey
      apply different
      rw [← ofTarget] at sameKey ⊢
      exact (apart found (List.mem_of_find?_eq_some latestEvent) sameKey).symm
    rw [if_neg keyApart]
    exact remembers target found latestEvent

/-- Where the events are in order, an earlier event of a target is its latest one or
comes before that. -/
theorem eq_or_of_latest {order : Event → Event → Prop} (ordered : events.Pairwise order)
    (member : earlier ∈ events) (found : latest targetOf events (targetOf earlier) = some event) :
    event = earlier ∨ order event earlier := by
  induction ordered with
  | nil => cases member
  | @cons head rest before ordered ih =>
      rw [latest_cons] at found
      split at found
      · obtain rfl := Option.some.inj found
        exact (List.mem_cons.mp member).imp Eq.symm (before earlier)
      · rename_i different
        rcases List.mem_cons.mp member with rfl | member
        · exact absurd rfl different
        · exact ih member found

/-- A relation to the latest event of the same target that reaches back over the order
holds between any two events of a target. -/
theorem FollowsLatest.pairwise {related order : Event → Event → Prop}
    (follows : FollowsLatest targetOf related events) (ordered : events.Pairwise order)
    (reaches : ∀ {middle earlier later}, related middle later → order middle earlier →
      related earlier later) :
    events.Pairwise fun later earlier =>
      targetOf later = targetOf earlier → related earlier later := by
  induction ordered with
  | nil => exact .nil
  | @cons later older before ordered ih =>
      obtain ⟨first, rest⟩ := follows
      refine .cons (fun earlier member same => ?_) (ih rest)
      have known : (latest targetOf older (targetOf later)).isSome := by
        rw [latest, List.find?_isSome]
        exact ⟨earlier, member, by simpa using same.symm⟩
      obtain ⟨middle, found⟩ := Option.isSome_iff_exists.mp known
      have related := first middle found
      rw [same] at found
      rcases eq_or_of_latest ordered member found with rfl | between
      · exact related
      · exact reaches related between

theorem FollowsLatest.mono {related related' : Event → Event → Prop}
    (follows : FollowsLatest targetOf related events)
    (weaker : ∀ earlier later, related earlier later → related' earlier later) :
    FollowsLatest targetOf related' events := by
  induction events with
  | nil => trivial
  | cons later older ih =>
      exact ⟨fun earlier found => weaker _ _ (follows.1 earlier found), ih follows.2⟩

end DroneEngage.LatestEvents
