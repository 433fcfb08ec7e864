import Mathlib.Data.List.Basic
import Mathlib.Tactic.Ring

/-!
# Splitting a message into chunks

A message is cut into pieces of a fixed positive size, the last one possibly
shorter.  This file defines the split, proves that it loses nothing, and counts
the pieces.  It also defines what is left of a stream when some of its elements
are lost in transit.
-/

namespace DroneEngage.MessageChunks

variable {Element : Type*}

/-- Cut a message into pieces of `size` elements, the last one possibly
shorter.  Nothing is cut at size zero. -/
def splitChunks (size : Nat) (message : List Element) : List (List Element) :=
  if size = 0 ∨ message = [] then []
  else message.take size :: splitChunks size (message.drop size)
termination_by message.length
decreasing_by
  have nonempty : 0 < message.length :=
    List.length_pos_iff.mpr (by tauto)
  rw [List.length_drop]
  omega

@[simp]
theorem splitChunks_nil (size : Nat) :
    splitChunks size ([] : List Element) = [] := by
  rw [splitChunks, if_pos (Or.inr rfl)]

theorem splitChunks_of_ne_nil {size : Nat} (positive : 0 < size)
    {message : List Element} (nonempty : message ≠ []) :
    splitChunks size message =
      message.take size :: splitChunks size (message.drop size) := by
  rw [splitChunks, if_neg (by simp [nonempty]; omega)]

theorem splitChunks_of_length_le {size : Nat} {message : List Element}
    (nonempty : message ≠ []) (short : message.length ≤ size) :
    splitChunks size message = [message] := by
  have positive : 0 < size :=
    lt_of_lt_of_le (List.length_pos_iff.mpr nonempty) short
  rw [splitChunks_of_ne_nil positive nonempty, List.take_of_length_le short,
    List.drop_of_length_le short, splitChunks_nil]

/-- Induction over the pieces of a message, from the first one on. -/
theorem splitChunks_induction {size : Nat} (positive : 0 < size)
    {motive : List Element → Prop} (nil : motive [])
    (cut : ∀ message, message ≠ [] → motive (message.drop size) → motive message)
    (message : List Element) : motive message := by
  induction lengthEq : message.length using Nat.strong_induction_on
    generalizing message with
  | _ length ih =>
      by_cases empty : message = []
      · exact empty ▸ nil
      · apply cut message empty
        have nonempty := List.length_pos_iff.mpr empty
        exact ih (message.drop size).length (by rw [List.length_drop]; omega) _ rfl

/-- The pieces put together again are the message. -/
@[simp]
theorem flatten_splitChunks {size : Nat} (positive : 0 < size)
    (message : List Element) :
    (splitChunks size message).flatten = message := by
  induction message using splitChunks_induction positive with
  | nil => simp
  | cut message nonempty ih =>
      rw [splitChunks_of_ne_nil positive nonempty, List.flatten_cons, ih,
        List.take_append_drop]

theorem splitChunks_eq_nil_iff {size : Nat} (positive : 0 < size)
    {message : List Element} :
    splitChunks size message = [] ↔ message = [] := by
  constructor
  · intro none
    rw [← flatten_splitChunks positive message, none, List.flatten_nil]
  · rintro rfl
    exact splitChunks_nil size

theorem ne_nil_of_mem_splitChunks {size : Nat} (positive : 0 < size)
    {message chunk : List Element} (member : chunk ∈ splitChunks size message) :
    chunk ≠ [] := by
  induction message using splitChunks_induction positive with
  | nil => simp at member
  | cut message nonempty ih =>
      rw [splitChunks_of_ne_nil positive nonempty] at member
      rcases List.mem_cons.mp member with rfl | later
      · simp [nonempty]
        omega
      · exact ih later

theorem length_le_of_mem_splitChunks {size : Nat} (positive : 0 < size)
    {message chunk : List Element} (member : chunk ∈ splitChunks size message) :
    chunk.length ≤ min size message.length := by
  induction message using splitChunks_induction positive with
  | nil => simp at member
  | cut message nonempty ih =>
      rw [splitChunks_of_ne_nil positive nonempty] at member
      rcases List.mem_cons.mp member with rfl | later
      · simp
      · have shorter := ih later
        rw [List.length_drop] at shorter
        omega

/-- How many pieces a message of the given length is cut into. -/
def chunkCount (size length : Nat) : Nat :=
  (length + size - 1) / size

@[simp]
theorem chunkCount_zero {size : Nat} (positive : 0 < size) : chunkCount size 0 = 0 :=
  Nat.div_eq_of_lt (by omega)

theorem length_splitChunks {size : Nat} (positive : 0 < size)
    (message : List Element) :
    (splitChunks size message).length = chunkCount size message.length := by
  induction message using splitChunks_induction positive with
  | nil => simp [positive]
  | cut message nonempty ih =>
      have lengthPos := List.length_pos_iff.mpr nonempty
      rw [splitChunks_of_ne_nil positive nonempty, List.length_cons, ih,
        List.length_drop]
      unfold chunkCount
      by_cases short : message.length ≤ size
      · have noRest : message.length - size + size - 1 = size - 1 := by omega
        have one : message.length + size - 1 = (message.length - 1) + size := by
          omega
        rw [noRest, one, Nat.add_div_right _ positive,
          Nat.div_eq_of_lt (by omega), Nat.div_eq_of_lt (by omega)]
      · have rest : message.length + size - 1 =
            (message.length - size + size - 1) + size := by omega
        rw [rest, Nat.add_div_right _ positive]

theorem chunkCount_pos {size length : Nat} (positive : 0 < size)
    (nonempty : 0 < length) : 0 < chunkCount size length :=
  Nat.div_pos (by omega) positive

/-- What is left of a stream of which only the elements with an arriving
index come through. -/
def surviving (arrives : Nat → Bool) : List Element → List Element
  | [] => []
  | element :: elements =>
      if arrives 0 then
        element :: surviving (fun index => arrives (index + 1)) elements
      else surviving (fun index => arrives (index + 1)) elements

theorem surviving_sublist (arrives : Nat → Bool) (elements : List Element) :
    (surviving arrives elements).Sublist elements := by
  induction elements generalizing arrives with
  | nil => exact List.Sublist.slnil
  | cons element elements ih =>
      unfold surviving
      split
      · exact (ih _).cons_cons element
      · exact (ih _).cons element

theorem surviving_of_forall {arrives : Nat → Bool} {elements : List Element}
    (all : ∀ index < elements.length, arrives index = true) :
    surviving arrives elements = elements := by
  induction elements generalizing arrives with
  | nil => rfl
  | cons element elements ih =>
      rw [surviving, if_pos (all 0 (by simp)),
        ih (fun index bound => all (index + 1) (by simpa using bound))]

theorem surviving_eq_nil_iff {arrives : Nat → Bool} {elements : List Element} :
    surviving arrives elements = [] ↔
      ∀ index < elements.length, arrives index = false := by
  induction elements generalizing arrives with
  | nil => simp [surviving]
  | cons element elements ih =>
      unfold surviving
      constructor
      · intro lost index bound
        split at lost
        · simp at lost
        · rename_i first
          cases index with
          | zero => simpa using first
          | succ index => exact (ih.mp lost) index (by simpa using bound)
      · intro lost
        rw [if_neg (by simp [lost 0 (by simp)])]
        exact ih.mpr (fun index bound => lost (index + 1) (by simpa using bound))

end DroneEngage.MessageChunks
