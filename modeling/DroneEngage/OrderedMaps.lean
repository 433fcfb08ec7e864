import Mathlib.Order.Lattice
import Mathlib.Data.List.Basic

/-!
# Maps in the order of their keys

A map is the list of its entries, in strictly increasing order of their keys.
What it holds under each key determines the rest: lookups after an assignment,
and after dropping the entries that fail a test, are those expected.
-/

namespace DroneEngage

/-- A list of entries with strictly increasing keys. -/
structure OrderedMap (Key Value : Type*) [LinearOrder Key] where
  entries : List (Key × Value)
  sorted : entries.Pairwise fun left right => left.1 < right.1

namespace OrderedMap

variable {Key Value : Type*} [LinearOrder Key]

/-- Put an entry where its key belongs, replacing the one that is there. -/
def insertEntry (key : Key) (value : Value) : List (Key × Value) → List (Key × Value)
  | [] => [(key, value)]
  | (found, old) :: rest =>
      if key < found then (key, value) :: (found, old) :: rest
      else if key = found then (key, value) :: rest
      else (found, old) :: insertEntry key value rest

theorem mem_insertEntry {key : Key} {value : Value} {entries : List (Key × Value)}
    {entry : Key × Value} (member : entry ∈ insertEntry key value entries) :
    entry = (key, value) ∨ entry ∈ entries := by
  induction entries with
  | nil => exact .inl (List.mem_singleton.mp member)
  | cons head rest ih =>
      rw [insertEntry] at member
      split at member
      · exact List.mem_cons.mp member
      · split at member
        · exact (List.mem_cons.mp member).imp_right (List.mem_cons_of_mem _)
        · rcases List.mem_cons.mp member with rfl | member
          · exact .inr List.mem_cons_self
          · exact (ih member).imp_right (List.mem_cons_of_mem _)

theorem sorted_insertEntry (key : Key) (value : Value) {entries : List (Key × Value)}
    (sorted : entries.Pairwise fun left right => left.1 < right.1) :
    (insertEntry key value entries).Pairwise fun left right => left.1 < right.1 := by
  induction sorted with
  | nil => exact List.pairwise_singleton _ _
  | @cons head rest above sorted ih =>
      rw [insertEntry]
      split
      · rename_i before
        refine .cons (fun entry member => ?_) (.cons above sorted)
        rcases List.mem_cons.mp member with rfl | member
        · exact before
        · exact before.trans (above _ member)
      · rename_i notBefore
        split
        · rename_i same
          exact .cons (same ▸ above) sorted
        · rename_i apart
          refine .cons (fun entry member => ?_) ih
          rcases mem_insertEntry member with rfl | member
          · exact lt_of_le_of_ne (not_lt.mp notBefore) (Ne.symm apart)
          · exact above _ member

theorem lookup_cons_ite (found : Key) (old : Value) (rest : List (Key × Value)) (key : Key) :
    ((found, old) :: rest).lookup key = if key = found then some old else rest.lookup key := by
  by_cases here : key = found
  · rw [here, List.lookup_cons_self, if_pos rfl]
  · rw [List.lookup_cons, beq_false_of_ne here, if_neg here]

theorem lookup_insertEntry (key : Key) (value : Value) (entries : List (Key × Value))
    (other : Key) :
    (insertEntry key value entries).lookup other =
      if other = key then some value else entries.lookup other := by
  induction entries with
  | nil => exact lookup_cons_ite key value [] other
  | cons head rest ih =>
      obtain ⟨found, old⟩ := head
      rw [insertEntry]
      split
      · exact lookup_cons_ite key value _ other
      · split
        · rename_i same
          subst same
          rw [lookup_cons_ite, lookup_cons_ite]
          split <;> rfl
        · rename_i apart
          rw [lookup_cons_ite, lookup_cons_ite, ih]
          by_cases here : other = found
          · have elsewhere : other ≠ key := fun same => apart (same ▸ here)
            rw [if_pos here, if_neg elsewhere, if_pos here]
          · rw [if_neg here, if_neg here]

variable (map : OrderedMap Key Value)

def empty : OrderedMap Key Value where
  entries := []
  sorted := .nil

def find? (key : Key) : Option Value :=
  map.entries.lookup key

def insert (key : Key) (value : Value) : OrderedMap Key Value where
  entries := insertEntry key value map.entries
  sorted := sorted_insertEntry key value map.sorted

def filter (keeps : Value → Bool) : OrderedMap Key Value where
  entries := map.entries.filter fun entry => keeps entry.2
  sorted := map.sorted.filter _

/-- The same keys with the image of each value. -/
def mapValues {Image : Type*} (image : Value → Image) : OrderedMap Key Image where
  entries := map.entries.map fun entry => (entry.1, image entry.2)
  sorted := List.pairwise_map.mpr map.sorted

def keys : List Key :=
  map.entries.map Prod.fst

def values : List Value :=
  map.entries.map Prod.snd

@[simp]
theorem find?_empty (key : Key) : (empty : OrderedMap Key Value).find? key = none :=
  rfl

@[simp]
theorem find?_insert (key : Key) (value : Value) (other : Key) :
    (map.insert key value).find? other =
      if other = key then some value else map.find? other :=
  lookup_insertEntry key value map.entries other

theorem find?_eq_some_iff {key : Key} {value : Value} :
    map.find? key = some value ↔ (key, value) ∈ map.entries := by
  obtain ⟨entries, sorted⟩ := map
  unfold find?
  induction sorted with
  | nil => simp
  | @cons head rest above sorted ih =>
      obtain ⟨found, old⟩ := head
      rw [lookup_cons_ite, List.mem_cons, Prod.mk.injEq]
      by_cases here : key = found
      · have absent : (key, value) ∉ rest := fun member => (above _ member).ne here.symm
        rw [if_pos here, Option.some.injEq, or_iff_left absent]
        exact ⟨fun same => ⟨here, same.symm⟩, fun same => same.2.symm⟩
      · rw [if_neg here, ih, or_iff_right (fun same => here same.1)]

theorem mem_keys {key : Key} : key ∈ map.keys ↔ ∃ value, map.find? key = some value := by
  simp [keys, find?_eq_some_iff]

theorem nodup_keys : map.keys.Nodup :=
  List.pairwise_map.mpr (map.sorted.imp ne_of_lt)

theorem mem_values {value : Value} :
    value ∈ map.values ↔ ∃ key, map.find? key = some value := by
  simp [values, find?_eq_some_iff]

@[simp]
theorem find?_filter (keeps : Value → Bool) (key : Key) :
    (map.filter keeps).find? key = (map.find? key).filter keeps := by
  ext value
  rw [Option.filter_eq_some_iff, find?_eq_some_iff, find?_eq_some_iff]
  exact List.mem_filter

theorem lookup_map_values {Image : Type*} (image : Value → Image) (key : Key)
    (entries : List (Key × Value)) :
    (entries.map fun entry => (entry.1, image entry.2)).lookup key =
      (entries.lookup key).map image := by
  induction entries with
  | nil => rfl
  | cons entry rest ih =>
      rw [List.map_cons, lookup_cons_ite, lookup_cons_ite, ih]
      split <;> rfl

@[simp]
theorem find?_mapValues {Image : Type*} (image : Value → Image) (key : Key) :
    (map.mapValues image).find? key = (map.find? key).map image :=
  lookup_map_values image key map.entries

end OrderedMap

end DroneEngage
