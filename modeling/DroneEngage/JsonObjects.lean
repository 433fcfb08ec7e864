import DroneEngage.JsonValues
import Mathlib.Data.List.Sort

/-!
# Objects as maps

The members of an object come in the order of their keys, so an object is
determined by what it holds under each key.  Assigning a member keeps the order.
-/

namespace DroneEngage.Json

theorem charsBefore_trans {first second third : List Char}
    (before : charsBefore first second) (after : charsBefore second third) :
    charsBefore first third := by
  induction first generalizing second third with
  | nil =>
      cases third with
      | nil => cases second <;> simp [charsBefore] at after
      | cons _ _ => rfl
  | cons c first ih =>
      cases second with
      | nil => simp [charsBefore] at before
      | cons d second =>
          cases third with
          | nil => simp [charsBefore] at after
          | cons e third =>
              simp only [charsBefore] at before after ⊢
              by_cases sameFirst : c = d
              · subst sameFirst
                rw [if_pos rfl] at before
                by_cases sameSecond : c = e
                · rw [if_pos sameSecond] at after ⊢
                  exact ih before after
                · rw [if_neg sameSecond] at after ⊢
                  exact after
              · rw [if_neg sameFirst, decide_eq_true_eq] at before
                by_cases sameSecond : d = e
                · subst sameSecond
                  rw [if_neg sameFirst, decide_eq_true_eq]
                  exact before
                · rw [if_neg sameSecond, decide_eq_true_eq] at after
                  have apart : c ≠ e := by
                    rintro rfl
                    omega
                  rw [if_neg apart, decide_eq_true_eq]
                  omega

theorem keyBefore_trans {first second third : String} (before : keyBefore first second)
    (after : keyBefore second third) : keyBefore first third :=
  charsBefore_trans before after

theorem charsBefore_total {left right : List Char} (apart : left ≠ right)
    (notBefore : charsBefore left right = false) : charsBefore right left := by
  induction left generalizing right with
  | nil => cases right <;> simp [charsBefore] at apart notBefore
  | cons c left ih =>
      cases right with
      | nil => rfl
      | cons d right =>
          simp only [charsBefore] at notBefore ⊢
          by_cases same : c = d
          · subst same
            rw [if_pos rfl] at notBefore ⊢
            exact ih (fun equal => apart (equal ▸ rfl)) notBefore
          · rw [if_neg same, decide_eq_false_iff_not] at notBefore
            have codes : c.toNat ≠ d.toNat := fun equal => same (Char.toNat_inj.mp equal)
            rw [if_neg (Ne.symm same), decide_eq_true_eq]
            omega

theorem keyBefore_total {left right : String} (apart : left ≠ right)
    (notBefore : keyBefore left right = false) : keyBefore right left :=
  charsBefore_total (fun equal => apart (String.toList_inj.mp equal)) notBefore

/-- The members of an object are in the order of their keys. -/
def Sorted (entries : List (String × Json)) : Prop :=
  entries.Pairwise fun left right => keyBefore left.1 right.1

theorem mem_insertMember {key : String} {value : Json} {entries : List (String × Json)}
    {entry : String × Json} (member : entry ∈ insertMember key value entries) :
    entry = (key, value) ∨ entry ∈ entries := by
  induction entries with
  | nil => exact .inl (List.mem_singleton.mp member)
  | cons first rest ih =>
      obtain ⟨found, old⟩ := first
      rw [insertMember] at member
      split at member
      · rename_i replaced
        rcases List.mem_cons.mp member with rfl | later
        · exact .inl (by rw [replaced])
        · exact .inr (List.mem_cons_of_mem _ later)
      · split at member
        · exact List.mem_cons.mp member
        · rcases List.mem_cons.mp member with rfl | later
          · exact .inr List.mem_cons_self
          · exact (ih later).imp_right (List.mem_cons_of_mem _)

theorem Sorted.insertMember {entries : List (String × Json)} (sorted : Sorted entries)
    (key : String) (value : Json) : Sorted (insertMember key value entries) := by
  induction entries with
  | nil => exact List.pairwise_singleton _ _
  | cons first rest ih =>
      obtain ⟨found, old⟩ := first
      obtain ⟨below, sortedRest⟩ := List.pairwise_cons.mp sorted
      rw [Json.insertMember]
      split
      · exact List.pairwise_cons.mpr ⟨below, sortedRest⟩
      · rename_i apart
        split
        · rename_i before
          refine List.pairwise_cons.mpr ⟨fun entry member => ?_, sorted⟩
          rcases List.mem_cons.mp member with rfl | later
          · exact before
          · exact keyBefore_trans before (below entry later)
        · rename_i notBefore
          refine List.pairwise_cons.mpr ⟨fun entry member => ?_, ih sortedRest⟩
          rcases mem_insertMember member with rfl | later
          · exact keyBefore_total apart (Bool.eq_false_of_not_eq_true notBefore)
          · exact below entry later

theorem mem_of_lookup_eq_some {entries : List (String × Json)} {key : String}
    {value : Json} (found : entries.lookup key = some value) : (key, value) ∈ entries := by
  obtain ⟨before, after, rfl, -⟩ := List.lookup_eq_some_iff.mp found
  simp

theorem Sorted.mem_iff {entries : List (String × Json)} (sorted : Sorted entries)
    (entry : String × Json) : entry ∈ entries ↔ entries.lookup entry.1 = some entry.2 :=
  ⟨lookup_of_mem sorted, mem_of_lookup_eq_some⟩

/-- Sorted members that hold the same under every key are the same. -/
theorem Sorted.ext {left right : List (String × Json)} (sortedLeft : Sorted left)
    (sortedRight : Sorted right)
    (same : ∀ key, left.lookup key = right.lookup key) : left = right := by
  have irreflexive : Std.Irrefl fun left right : String × Json => keyBefore left.1 right.1 :=
    ⟨fun entry => not_keyBefore_self entry.1⟩
  have transitive : IsTrans (String × Json) fun left right => keyBefore left.1 right.1 :=
    ⟨fun _ _ _ => keyBefore_trans⟩
  apply List.Pairwise.eq_of_mem_iff sortedLeft sortedRight
  intro entry
  rw [sortedLeft.mem_iff, sortedRight.mem_iff, same entry.1]

/-- The members of an object; nothing for what is not one. -/
def entries : Json → List (String × Json)
  | object members => members
  | _ => []

@[simp]
theorem entries_object (members : List (String × Json)) :
    (object members).entries = members :=
  rfl

theorem member?_eq_lookup (document : Json) (key : String) :
    document.member? key = document.entries.lookup key := by
  cases document <;> rfl

theorem WellFormed.sortedEntries {document : Json} (wellFormed : document.WellFormed) :
    Sorted document.entries := by
  cases wellFormed with
  | object _ sorted _ => exact sorted
  | _ => exact List.Pairwise.nil

theorem WellFormed.entry {document : Json} (wellFormed : document.WellFormed)
    {entry : String × Json} (member : entry ∈ document.entries) : entry.2.WellFormed := by
  cases wellFormed with
  | object _ _ each => exact each entry member
  | _ => simp [entries] at member

theorem WellFormed.getD_member? {document : Json} (wellFormed : document.WellFormed)
    (key : String) : ((document.member? key).getD (.object [])).WellFormed := by
  cases present : document.member? key with
  | none => exact .object [] List.Pairwise.nil nofun
  | some found => exact wellFormed.member present

theorem WellFormed.items {document : Json} (wellFormed : document.WellFormed)
    {entry : String × Json} (member : entry ∈ document.items) : entry.2.WellFormed := by
  cases wellFormed with
  | null => cases member
  | array elements each =>
      obtain ⟨⟨element, index⟩, listed, rfl⟩ := List.mem_map.mp member
      exact each element (List.fst_mem_of_mem_zipIdx listed)
  | object members sorted each => exact each entry member
  | _ =>
      rw [List.mem_singleton.mp member]
      constructor

/-- Assigning a member to the members of an object. -/
theorem WellFormed.insertMember {document value : Json} (wellFormed : document.WellFormed)
    (key : String) (wellFormedValue : value.WellFormed) :
    (Json.object (Json.insertMember key value document.entries)).WellFormed := by
  refine .object _ (wellFormed.sortedEntries.insertMember key value) fun entry member => ?_
  rcases mem_insertMember member with rfl | old
  · exact wellFormedValue
  · exact wellFormed.entry old

/-- `target[key] = value` succeeds on an object and on null. -/
theorem assignMember_eq_ok {target assigned : Json} {key : String} {value : Json} :
    target.assignMember key value = .ok assigned ↔
      (target = null ∨ target.isObject) ∧
        assigned = object (insertMember key value target.entries) := by
  cases target <;> simp [assignMember, isObject, entries, insertMember, eq_comm]

/-- A value that the library can hold. -/
abbrev Document : Type := { json : Json // json.WellFormed }

end DroneEngage.Json
