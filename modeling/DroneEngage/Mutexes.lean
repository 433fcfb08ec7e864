import Mathlib.Logic.Basic

/-!
# A lock and the threads inside

A lock has at most one holder, and a thread is inside a section that needs it exactly while
it is the holder.  A step that takes or returns the lock moves one thread in or out.
-/

namespace DroneEngage.Mutexes

variable {Thread : Type*} {holder : Option Thread} {inside inside' : Thread → Prop}
  {thread other : Thread}

/-- The threads inside are those that hold the lock. -/
def Exclusive (holder : Option Thread) (inside : Thread → Prop) : Prop :=
  ∀ thread, inside thread ↔ holder = some thread

theorem Exclusive.unique (exclusive : Exclusive holder inside) (first : inside thread)
    (second : inside other) : thread = other :=
  Option.some.inj (((exclusive thread).mp first).symm.trans ((exclusive other).mp second))

theorem Exclusive.not_inside (exclusive : Exclusive (none : Option Thread) inside) :
    ¬ inside thread := by
  intro within
  cases (exclusive thread).mp within

/-- Nobody goes in or comes out. -/
theorem Exclusive.stay (exclusive : Exclusive holder inside)
    (same : ∀ thread, inside' thread ↔ inside thread) : Exclusive holder inside' :=
  fun thread => (same thread).trans (exclusive thread)

theorem Exclusive.enter (exclusive : Exclusive (none : Option Thread) inside)
    (entered : ∀ other, inside' other ↔ other = thread ∨ inside other) :
    Exclusive (some thread) inside' := by
  intro other
  rw [entered]
  constructor
  · rintro (rfl | within)
    · rfl
    · exact absurd within exclusive.not_inside
  · intro same
    exact .inl (Option.some.inj same).symm

theorem Exclusive.leave (exclusive : Exclusive holder inside) (within : inside thread)
    (left : ∀ other, inside' other ↔ inside other ∧ other ≠ thread) :
    Exclusive (none : Option Thread) inside' := by
  intro other
  rw [left]
  constructor
  · rintro ⟨inside, apart⟩
    exact absurd (exclusive.unique inside within) apart
  · intro impossible
    cases impossible

end DroneEngage.Mutexes
