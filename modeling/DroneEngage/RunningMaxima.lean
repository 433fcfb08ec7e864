import Mathlib.Data.List.Induction
import Mathlib.Order.Lattice

/-!
# Running maxima

A loop that replaces the best item so far by one of a larger value ends with the first
of the largest items.  A loop that takes up every item which is no smaller than the
best so far takes up the items that lead those before them.
-/

namespace DroneEngage.RunningMaxima

variable {Item Value : Type*} [LinearOrder Value] (value : Item → Value)

section Largest

variable (floor : Value)

/-- Replace the best item by a larger one, or any item above the floor. -/
def keepLarger (best : Option Item) (item : Item) : Option Item :=
  if best.elim floor value < value item then some item else best

/-- The first item above the floor that no item exceeds. -/
def firstLargest (items : List Item) : Option Item :=
  items.find? fun item => floor < value item && items.all fun other => value other ≤ value item

variable {value floor} {items : List Item}

theorem foldl_keepLarger_cases (items : List Item) :
    (items.foldl (keepLarger value floor) none = none ∧ ∀ item ∈ items, value item ≤ floor) ∨
      ∃ item before after, items.foldl (keepLarger value floor) none = some item ∧
        floor < value item ∧ items = before ++ item :: after ∧
        (∀ other ∈ before, value other < value item) ∧
        ∀ other ∈ after, value other ≤ value item := by
  induction items using List.reverseRecOn with
  | nil => exact .inl ⟨rfl, nofun⟩
  | append_singleton items last ih =>
      rw [List.foldl_append, List.foldl_cons, List.foldl_nil]
      rcases ih with ⟨none, low⟩ | ⟨item, before, after, found, above, rfl, smaller, bound⟩
      · rw [none, keepLarger, Option.elim_none]
        by_cases larger : floor < value last
        · rw [if_pos larger]
          exact .inr ⟨last, items, [], rfl, larger, rfl,
            fun other member => (low other member).trans_lt larger, nofun⟩
        · rw [if_neg larger]
          refine .inl ⟨rfl, fun item member => ?_⟩
          rcases List.mem_append.mp member with member | member
          · exact low item member
          · rw [List.mem_singleton.mp member]
            exact not_lt.mp larger
      · rw [found, keepLarger, Option.elim_some]
        refine .inr ?_
        by_cases larger : value item < value last
        · rw [if_pos larger]
          refine ⟨last, before ++ item :: after, [], rfl, above.trans larger, rfl,
            fun other member => ?_, nofun⟩
          rcases List.mem_append.mp member with member | member
          · exact (smaller other member).trans larger
          · rcases List.mem_cons.mp member with rfl | member
            · exact larger
            · exact (bound other member).trans_lt larger
        · rw [if_neg larger]
          refine ⟨item, before, after ++ [last], rfl, above, by simp, smaller,
            fun other member => ?_⟩
          rcases List.mem_append.mp member with member | member
          · exact bound other member
          · rw [List.mem_singleton.mp member]
            exact not_lt.mp larger

/-- The loop ends with the first of the largest items. -/
theorem foldl_keepLarger (items : List Item) :
    items.foldl (keepLarger value floor) none = firstLargest value floor items := by
  rcases @foldl_keepLarger_cases Item Value _ value floor items with
    ⟨none, low⟩ | ⟨item, before, after, found, above, split, smaller, bound⟩
  · rw [none, firstLargest, eq_comm, List.find?_eq_none]
    intro item member
    simp [not_lt.mpr (low item member)]
  · rw [found, firstLargest, eq_comm, List.find?_eq_some_iff_append]
    have all (other : Item) (member : other ∈ items) : value other ≤ value item := by
      rw [split] at member
      rcases List.mem_append.mp member with member | member
      · exact (smaller other member).le
      · rcases List.mem_cons.mp member with rfl | member
        · exact le_rfl
        · exact bound other member
    refine ⟨by simpa [above] using all, before, after, split, fun other member => ?_⟩
    have listed : item ∈ items := by simp [split]
    simp only [Bool.not_eq_true', Bool.and_eq_false_iff, List.all_eq_false]
    exact .inr ⟨item, listed, by simpa using smaller other member⟩

theorem of_firstLargest {item : Item} (found : firstLargest value floor items = some item) :
    item ∈ items ∧ floor < value item ∧ ∀ other ∈ items, value other ≤ value item := by
  have holds := List.find?_some found
  rw [Bool.and_eq_true, decide_eq_true_eq, List.all_eq_true] at holds
  exact ⟨List.mem_of_find?_eq_some found, holds.1, fun other member =>
    of_decide_eq_true (holds.2 other member)⟩

end Largest

section Leaders

variable (passes : Item → Bool)

/-- An item that passes, and is no smaller than those before it that pass. -/
def leads (earlier : List Item) (item : Item) : Bool :=
  passes item && earlier.all fun other => !passes other || value other ≤ value item

def leadersAfter : List Item → List Item → List Item
  | _, [] => []
  | earlier, item :: rest =>
      (if leads value passes earlier item then [item] else []) ++
        leadersAfter (earlier ++ [item]) rest

/-- The items that lead those before them. -/
def leaders (items : List Item) : List Item :=
  leadersAfter value passes [] items

variable {value passes}

theorem leadersAfter_concat (earlier items : List Item) (item : Item) :
    leadersAfter value passes earlier (items ++ [item]) =
      leadersAfter value passes earlier items ++
        if leads value passes (earlier ++ items) item then [item] else [] := by
  induction items generalizing earlier with
  | nil => simp [leadersAfter]
  | cons first items ih =>
      rw [List.cons_append, leadersAfter, leadersAfter, ih, List.append_assoc, List.append_assoc]
      rfl

theorem leaders_concat (items : List Item) (item : Item) :
    leaders value passes (items ++ [item]) =
      leaders value passes items ++ if leads value passes items item then [item] else [] :=
  leadersAfter_concat [] items item

theorem leads_iff {earlier : List Item} {item : Item} :
    leads value passes earlier item ↔
      passes item ∧ ∀ other ∈ earlier, passes other → value other ≤ value item := by
  rw [leads, Bool.and_eq_true, List.all_eq_true]
  refine and_congr_right fun _ => forall₂_congr fun other _ => ?_
  cases passes other <;> simp

/-- The last leader is the last of the largest items that pass. -/
theorem getLast?_leaders (items : List Item) :
    ((leaders value passes items).getLast? = none ∧ ∀ item ∈ items, ¬ passes item) ∨
      ∃ last, (leaders value passes items).getLast? = some last ∧ last ∈ items ∧ passes last ∧
        ∀ item ∈ items, passes item → value item ≤ value last := by
  induction items using List.reverseRecOn with
  | nil => exact .inl ⟨rfl, nofun⟩
  | append_singleton items item ih =>
      rw [leaders_concat]
      by_cases leading : leads value passes items item = true
      · obtain ⟨passed, larger⟩ := leads_iff.mp leading
        rw [if_pos leading, List.getLast?_concat]
        refine .inr ⟨item, rfl, by simp, passed, fun other member passedOther => ?_⟩
        rcases List.mem_append.mp member with member | member
        · exact larger other member passedOther
        · rw [List.mem_singleton.mp member]
      · rw [if_neg leading, List.append_nil]
        rcases ih with ⟨none, failed⟩ | ⟨last, isLast, listed, passed, bound⟩
        · refine .inl ⟨none, fun other member passedOther => ?_⟩
          rcases List.mem_append.mp member with member | member
          · exact failed other member passedOther
          · rw [List.mem_singleton.mp member] at passedOther
            exact leading (leads_iff.mpr
              ⟨passedOther, fun other member passes => absurd passes (failed other member)⟩)
        · refine .inr ⟨last, isLast, by simp [listed], passed, fun other member passedOther => ?_⟩
          rcases List.mem_append.mp member with member | member
          · exact bound other member passedOther
          · rw [List.mem_singleton.mp member] at passedOther ⊢
            by_contra larger
            exact leading (leads_iff.mpr ⟨passedOther, fun other member passedThird =>
              (bound other member passedThird).trans (not_le.mp larger).le⟩)

variable {State : Type*} {bound : State → Value} {step : State → Item → State}

/-- A loop that passes over the items below its bound takes up the leaders. -/
theorem foldl_leaders (start : State)
    (low : ∀ item, passes item → bound start ≤ value item)
    (raises : ∀ state item, bound (step state item) = value item) (items : List Item) :
    items.foldl (fun state item =>
        if passes item = false ∨ value item < bound state then state else step state item) start =
      (leaders value passes items).foldl step start := by
  induction items using List.reverseRecOn with
  | nil => rfl
  | append_singleton items item ih =>
      rw [List.foldl_append, ih, leaders_concat, List.foldl_append, List.foldl_cons,
        List.foldl_nil]
      have leading : leads value passes items item ↔
          passes item ∧ bound ((leaders value passes items).foldl step start) ≤ value item := by
        rw [leads_iff]
        refine and_congr_right fun passed => ?_
        rcases @getLast?_leaders Item Value _ value passes items with
          ⟨none, failed⟩ | ⟨last, isLast, listed, passedLast, largest⟩
        · rw [List.getLast?_eq_none_iff.mp none, List.foldl_nil]
          exact iff_of_true
            (fun other member passedOther => absurd passedOther (failed other member))
            (low item passed)
        · obtain ⟨front, split⟩ := List.getLast?_eq_some_iff.mp isLast
          rw [split, List.foldl_append, List.foldl_cons, List.foldl_nil, raises]
          exact ⟨fun all => all last listed passedLast,
            fun larger other member passedOther => (largest other member passedOther).trans larger⟩
      by_cases leader : leads value passes items item = true
      · obtain ⟨passed, larger⟩ := leading.mp leader
        rw [if_pos leader, if_neg (by simp [passed, larger])]
        rfl
      · rw [if_neg leader, if_pos]
        · rfl
        · rw [leading, not_and, not_le] at leader
          cases passed : passes item with
          | false => exact .inl rfl
          | true => exact .inr (leader passed)

end Leaders

end DroneEngage.RunningMaxima
