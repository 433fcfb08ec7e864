import Mathlib.Data.Finset.Card
import Mathlib.Data.List.Dedup

/-!
# Queues of bounded length

A key that comes to a queue joins at the back, unless it is already waiting, and
the keys at the front leave while there are too many.  A key that has joined stays
until so many further keys have joined that there is no place left for it.
-/

namespace DroneEngage.BoundedQueues

variable {Key : Type*} [DecidableEq Key]

def enqueue (capacity : Nat) (queue : List Key) (key : Key) : List Key :=
  if key ∈ queue then queue else (queue ++ [key]).drop ((queue ++ [key]).length - capacity)

def enqueueAll (capacity : Nat) (queue keys : List Key) : List Key :=
  keys.foldl (enqueue capacity) queue

/-- The keys that were not in the queue when they came. -/
def joined (capacity : Nat) : List Key → List Key → List Key
  | _, [] => []
  | queue, key :: keys =>
      (if key ∈ queue then [] else [key]) ++ joined capacity (enqueue capacity queue key) keys

/-- A queue without repetitions that does not exceed its capacity. -/
structure Proper (capacity : Nat) (queue : List Key) : Prop where
  distinct : queue.Nodup
  bounded : queue.length ≤ capacity

variable {capacity : Nat} {queue older behind keys : List Key} {key next : Key}

theorem Proper.enqueue (proper : Proper capacity queue) (key : Key) :
    Proper capacity (enqueue capacity queue key) := by
  unfold BoundedQueues.enqueue
  by_cases waiting : key ∈ queue
  · rw [if_pos waiting]
    exact proper
  · rw [if_neg waiting]
    have distinct : (queue ++ [key]).Nodup := by simpa using proper.distinct.concat waiting
    refine ⟨distinct.sublist (List.drop_sublist _ _), ?_⟩
    rw [List.length_drop]
    omega

theorem joined_append (capacity : Nat) (queue before after : List Key) :
    joined capacity queue (before ++ after) =
      joined capacity queue before ++ joined capacity (enqueueAll capacity queue before) after := by
  induction before generalizing queue with
  | nil => rfl
  | cons key before ih =>
      rw [List.cons_append, joined, joined, ih, List.append_assoc]
      rfl

theorem mem_of_mem_enqueue (waiting : next ∈ enqueue capacity queue key) :
    next ∈ queue ∨ next = key := by
  unfold enqueue at waiting
  by_cases known : key ∈ queue
  · rw [if_pos known] at waiting
    exact .inl waiting
  · rw [if_neg known] at waiting
    simpa using List.mem_of_mem_drop waiting

/-- While there is room, a key that joins does not push out those at the back. -/
theorem enqueue_split (fresh : next ∉ older ++ key :: behind)
    (room : behind.length + 1 < capacity) :
    ∃ kept, enqueue capacity (older ++ key :: behind) next = kept ++ key :: (behind ++ [next]) := by
  have leaving : (older ++ key :: behind ++ [next]).length - capacity ≤ older.length := by
    simp only [List.length_append, List.length_cons, List.length_nil]
    omega
  refine ⟨older.drop ((older ++ key :: behind ++ [next]).length - capacity), ?_⟩
  rw [enqueue, if_neg fresh, List.append_assoc,
    List.drop_append_of_le_length (by simpa using leaving)]
  rfl

/-- A key stays in the queue until as many different keys have joined behind it as the
queue has places. -/
theorem mem_enqueueAll_of_joined (proper : Proper capacity (older ++ key :: behind))
    (few : (behind ++ joined capacity (older ++ key :: behind) keys).toFinset.card < capacity) :
    key ∈ enqueueAll capacity (older ++ key :: behind) keys := by
  induction keys generalizing older behind with
  | nil => simp [enqueueAll]
  | cons next keys ih =>
      rw [enqueueAll, List.foldl_cons]
      rw [joined] at few
      by_cases waiting : next ∈ older ++ key :: behind
      · rw [enqueue, if_pos waiting] at few ⊢
        rw [if_pos waiting, List.nil_append] at few
        exact ih proper few
      · rw [if_neg waiting] at few
        have apart : (behind ++ [next]).Nodup := by
          have unlisted : next ∉ behind := fun listed => waiting (by simp [listed])
          have distinct : behind.Nodup :=
            proper.distinct.sublist ((List.sublist_cons_self key behind).trans
              (List.sublist_append_right older _))
          simpa using distinct.concat unlisted
        have counted : behind.length + 1 ≤ (behind ++
            ([next] ++ joined capacity (enqueue capacity (older ++ key :: behind) next)
              keys)).toFinset.card := by
          have listed : (behind ++ [next]).toFinset ⊆ (behind ++
              ([next] ++ joined capacity (enqueue capacity (older ++ key :: behind) next)
                keys)).toFinset := by
            intro other
            simp only [List.mem_toFinset, List.mem_append]
            tauto
          calc behind.length + 1 = (behind ++ [next]).length := by simp
            _ = (behind ++ [next]).toFinset.card := (List.toFinset_card_of_nodup apart).symm
            _ ≤ _ := Finset.card_le_card listed
        obtain ⟨kept, same⟩ :=
          enqueue_split waiting (Nat.lt_of_le_of_lt counted few)
        have later : Proper capacity (kept ++ key :: (behind ++ [next])) :=
          same ▸ proper.enqueue next
        rw [same] at few ⊢
        exact ih later (by simpa only [List.append_assoc] using few)

/-- A key that has just joined is at the back. -/
theorem enqueue_back (fresh : key ∉ queue) (positive : 0 < capacity) :
    ∃ older, enqueue capacity queue key = older ++ [key] := by
  refine ⟨queue.drop ((queue ++ [key]).length - capacity), ?_⟩
  rw [enqueue, if_neg fresh, List.drop_append_of_le_length]
  simp only [List.length_append, List.length_cons, List.length_nil]
  omega

end DroneEngage.BoundedQueues
