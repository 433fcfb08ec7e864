import DroneEngage.ConfigFile
import DroneEngage.JsonObjects

/-!
# Merging local overrides

`deepMerge` lays the overrides over a document, object by object.  A dotted
update of the document and the merge can be done in either order as long as the
path of the update does not run into a value that the overrides set.
-/

namespace DroneEngage

namespace Json

mutual

/-- `deepMerge`; what is not an object replaces the target outright. -/
def deepMerge : Json → Json → Json
  | target, object overrides => object (mergeMembers target.entries overrides)
  | _, overrides => overrides

/-- The loop of `deepMerge` over the members of the overrides. -/
def mergeMembers : List (String × Json) → List (String × Json) → List (String × Json)
  | target, [] => target
  | target, (key, value) :: overrides =>
      let merged :=
        match target.lookup key with
        | some found =>
            if found.isObject && value.isObject then deepMerge found value else value
        | none => value
      mergeMembers (insertMember key merged target) overrides

end

/-- What a merge holds under a key that the overrides set. -/
def mergeMember (found : Option Json) (value : Json) : Json :=
  match found with
  | some found => if found.isObject && value.isObject then deepMerge found value else value
  | none => value

theorem mergeMembers_cons (target : List (String × Json)) (key : String) (value : Json)
    (overrides : List (String × Json)) :
    mergeMembers target ((key, value) :: overrides) =
      mergeMembers (insertMember key (mergeMember (target.lookup key) value) target)
        overrides := by
  rw [mergeMembers]
  rfl

theorem lookup_mergeMembers {overrides : List (String × Json)} (sorted : Sorted overrides)
    (target : List (String × Json)) (key : String) :
    (mergeMembers target overrides).lookup key =
      ((overrides.lookup key).map (mergeMember (target.lookup key))).or
        (target.lookup key) := by
  induction overrides generalizing target with
  | nil => simp [mergeMembers]
  | cons entry rest ih =>
      have later := lookup_tail sorted
      obtain ⟨changed, value⟩ := entry
      rw [mergeMembers_cons, ih (List.pairwise_cons.mp sorted).2, lookup_insertMember,
        lookup_cons_eq_ite]
      by_cases here : key = changed
      · subst here
        simp [later]
      · simp only [if_neg here]

theorem member?_deepMerge {overrides : List (String × Json)} (sorted : Sorted overrides)
    (target : Json) (key : String) :
    (deepMerge target (object overrides)).member? key =
      ((overrides.lookup key).map (mergeMember (target.member? key))).or
        (target.member? key) := by
  rw [deepMerge, member?_eq_lookup target]
  exact lookup_mergeMembers sorted target.entries key

theorem Sorted.mergeMembers {target : List (String × Json)} (sorted : Sorted target)
    (overrides : List (String × Json)) : Sorted (mergeMembers target overrides) := by
  induction overrides generalizing target with
  | nil => simpa [Json.mergeMembers] using sorted
  | cons entry rest ih =>
      obtain ⟨key, value⟩ := entry
      rw [mergeMembers_cons]
      exact ih (sorted.insertMember key _)

theorem WellFormed.deepMerge {target overrides : Json} (wellFormed : target.WellFormed)
    (wellFormedOverrides : overrides.WellFormed) :
    (Json.deepMerge target overrides).WellFormed := by
  induction wellFormedOverrides generalizing target with
  | object members sorted each ih =>
      rw [Json.deepMerge]
      have merged : ∀ (rest : List (String × Json)) (into : Json), rest ⊆ members →
          into.WellFormed → (Json.object (Json.mergeMembers into.entries rest)).WellFormed := by
        intro rest
        induction rest with
        | nil =>
            intro into _ wellFormedInto
            rw [Json.mergeMembers]
            exact .object _ wellFormedInto.sortedEntries fun _ => wellFormedInto.entry
        | cons entry rest ihRest =>
            intro into included wellFormedInto
            obtain ⟨key, value⟩ := entry
            obtain ⟨listed, includedRest⟩ := List.cons_subset.mp included
            rw [mergeMembers_cons]
            have wellFormedMerged :
                (mergeMember (into.entries.lookup key) value).WellFormed := by
              unfold mergeMember
              split
              · rename_i found present
                rw [← member?_eq_lookup] at present
                split
                · exact ih (key, value) listed (wellFormedInto.member present)
                · exact each (key, value) listed
              · exact each (key, value) listed
            exact ihRest (.object (Json.insertMember key _ into.entries)) includedRest
              (wellFormedInto.insertMember key wellFormedMerged)
      exact merged members target (List.Subset.refl _) wellFormed
  | array elements each => exact .array elements each
  | _ => constructor

/-- Merging an object onto a document without members gives the object. -/
theorem deepMerge_of_no_entries {target : Json} (empty : target.entries = [])
    {overrides : List (String × Json)} (sorted : Sorted overrides) :
    deepMerge target (object overrides) = object overrides := by
  rw [deepMerge, empty]
  congr 1
  have sortedMerged : Sorted (mergeMembers [] overrides) :=
    Sorted.mergeMembers List.Pairwise.nil overrides
  apply sortedMerged.ext sorted
  intro key
  have unmerged : mergeMember none = id := rfl
  rw [lookup_mergeMembers sorted, List.lookup_nil, Option.or_none, unmerged, Option.map_id,
    id]

end Json

namespace CConfigFile

open Json

/-- The path that an entry of an update writes to. -/
def entryPath (key : String) : List String :=
  if '.' ∈ key.toList then pathParts key else [key]

theorem applyEntry_eq_assignPath (key : String) (value target : Json) :
    applyEntry key value target = assignPath (entryPath key) value target := by
  unfold applyEntry entryPath
  split
  · rfl
  · rfl

/-- No value that the overrides set stands in the way of an update: the path
leaves the overrides, or it ends where merging them changes nothing. -/
def Unshadowed : List String → Json → Json → Prop
  | [], _, _ => True
  | [last], value, overrides =>
      ∀ override, overrides.member? last = some override →
        mergeMember (some value) override = value
  | part :: next :: rest, value, overrides =>
      ∀ override, overrides.member? part = some override →
        override.isObject ∧ Unshadowed (next :: rest) value override

theorem assignPath_cons_eq_ok {part next : String} {rest : List String}
    {value target updated : Json} :
    assignPath (part :: next :: rest) value target = .ok updated ↔
      ∃ assigned,
        assignPath (next :: rest) value ((target.member? part).getD (.object [])) =
          .ok assigned ∧ target.assignMember part assigned = .ok updated := by
  rw [assignPath]
  cases assignPath (next :: rest) value ((target.member? part).getD (.object [])) with
  | error exception => simp [bind, Except.bind]
  | ok assigned => simp [bind, Except.bind]

/-- A write under a path leads to an object, and there was one or null. -/
theorem assignPath_isObject {part : String} {rest : List String}
    {value target updated : Json}
    (assigned : assignPath (part :: rest) value target = .ok updated) :
    (target = .null ∨ target.isObject) ∧ updated.isObject := by
  cases rest with
  | nil =>
      obtain ⟨kind, rfl⟩ := assignMember_eq_ok.mp assigned
      exact ⟨kind, rfl⟩
  | cons next rest =>
      obtain ⟨child, -, written⟩ := assignPath_cons_eq_ok.mp assigned
      obtain ⟨kind, rfl⟩ := assignMember_eq_ok.mp written
      exact ⟨kind, rfl⟩

/-- Writing a member before the merge shows after it as the merge has it. -/
theorem insertMember_mergeMembers_iff {target overrides : List (String × Json)}
    (sorted : Sorted target) (sortedOverrides : Sorted overrides) (key : String)
    (shown value : Json) :
    insertMember key shown (mergeMembers target overrides) =
        mergeMembers (insertMember key value target) overrides ↔
      shown = (overrides.lookup key).elim value (mergeMember (some value)) := by
  have lookupBefore (other : String) :
      (mergeMembers (insertMember key value target) overrides).lookup other =
        if other = key then
          some ((overrides.lookup key).elim value (mergeMember (some value)))
        else (mergeMembers target overrides).lookup other := by
    rw [lookup_mergeMembers sortedOverrides, lookup_mergeMembers sortedOverrides,
      lookup_insertMember]
    by_cases here : other = key
    · rw [if_pos here, if_pos here, here]
      cases overrides.lookup key with
      | none => rfl
      | some override => rfl
    · rw [if_neg here, if_neg here]
  constructor
  · intro same
    have found := congrArg (List.lookup key) same
    rw [lookupBefore, lookup_insertMember, if_pos rfl, if_pos rfl] at found
    exact Option.some.inj found
  · rintro rfl
    apply ((sorted.mergeMembers overrides).insertMember key _).ext
      ((sorted.insertMember key value).mergeMembers overrides)
    intro other
    rw [lookupBefore, lookup_insertMember]

theorem mergeMember_of_isObject {found value : Json} (isObject : found.isObject)
    (valueIsObject : value.isObject) :
    mergeMember (some found) value = deepMerge found value := by
  simp [mergeMember, isObject, valueIsObject]

theorem mergeMember_of_not_isObject {found : Option Json} {value : Json}
    (notObject : value.isObject = false) : mergeMember found value = value := by
  cases found with
  | none => rfl
  | some found => simp [mergeMember, notObject]

/-- The object that an update goes on into below a member the overrides set. -/
theorem mergeMember_eq_deepMerge {document override : Json} {key : String}
    (wellFormed : override.WellFormed) (isObject : override.isObject)
    (kind : (document.member? key).getD (.object []) = .null ∨
      ((document.member? key).getD (.object [])).isObject) :
    mergeMember (document.member? key) override =
      deepMerge ((document.member? key).getD (.object [])) override := by
  cases override with
  | object overrides =>
      cases found : document.member? key with
      | none =>
          exact (deepMerge_of_no_entries rfl wellFormed.sorted).symm
      | some child =>
          rw [found] at kind
          rcases kind with null | childObject
          · rw [Option.getD_some] at null
            subst null
            exact (deepMerge_of_no_entries rfl wellFormed.sorted).symm
          · exact mergeMember_of_isObject childObject rfl
  | _ => cases isObject

/-- Updating below a member of the merged object is updating what the merge makes of
the member. -/
theorem assignPath_deepMerge_cons_iff {part next : String} {rest : List String}
    {value target child : Json} {members : List (String × Json)}
    (wellFormed : target.WellFormed) (sorted : Sorted members) :
    assignPath (part :: next :: rest) value (deepMerge target (.object members)) =
        .ok (deepMerge (.object (insertMember part child target.entries)) (.object members)) ↔
      assignPath (next :: rest) value
          (((deepMerge target (.object members)).member? part).getD (.object [])) =
        .ok ((members.lookup part).elim child (mergeMember (some child))) := by
  rw [assignPath_cons_eq_ok]
  simp only [assignMember_eq_ok, deepMerge, Json.isObject, or_true, true_and,
    Json.object.injEq, entries_object]
  constructor
  · rintro ⟨shown, assignedShown, same⟩
    rw [(insertMember_mergeMembers_iff wellFormed.sortedEntries sorted _ _ _).mp
      same.symm] at assignedShown
    exact assignedShown
  · intro assignedShown
    refine ⟨_, assignedShown, Eq.symm ?_⟩
    exact (insertMember_mergeMembers_iff wellFormed.sortedEntries sorted _ _ _).mpr rfl

/-- Updating the document and updating what the merge makes of it come to the
same exactly where no override stands in the way. -/
theorem assignPath_deepMerge_iff {path : List String} {value target updated : Json}
    (wellFormed : target.WellFormed) {overrides : Json}
    (wellFormedOverrides : overrides.WellFormed) (isObject : overrides.isObject)
    (assigned : assignPath path value target = .ok updated) (nonempty : path ≠ []) :
    assignPath path value (deepMerge target overrides) =
        .ok (deepMerge updated overrides) ↔
      Unshadowed path value overrides := by
  induction path generalizing target updated overrides with
  | nil => exact absurd rfl nonempty
  | cons part rest ih =>
      cases overrides with
      | object members =>
          have sorted := wellFormedOverrides.sorted
          cases rest with
          | nil =>
              obtain ⟨-, rfl⟩ := assignMember_eq_ok.mp assigned
              rw [assignPath, assignMember_eq_ok, deepMerge, deepMerge, Unshadowed]
              simp only [Json.isObject, or_true, true_and, Json.object.injEq, entries_object]
              rw [eq_comm, insertMember_mergeMembers_iff wellFormed.sortedEntries sorted,
                member?]
              cases members.lookup part with
              | none => simp
              | some override => simp [eq_comm]
          | cons next rest =>
              obtain ⟨child, below, written⟩ := assignPath_cons_eq_ok.mp assigned
              obtain ⟨-, rfl⟩ := assignMember_eq_ok.mp written
              obtain ⟨childKind, childObject⟩ := assignPath_isObject below
              rw [assignPath_deepMerge_cons_iff wellFormed sorted, member?_deepMerge sorted,
                Unshadowed, member?]
              cases found : members.lookup part with
              | none => simpa using below
              | some override =>
                  have wellFormedOverride : override.WellFormed :=
                    wellFormedOverrides.member found
                  simp only [Option.map_some, Option.some_or, Option.getD_some,
                    Option.elim_some, Option.some.injEq, forall_eq']
                  by_cases overrideObject : override.isObject
                  · rw [mergeMember_eq_deepMerge wellFormedOverride overrideObject childKind,
                      mergeMember_of_isObject childObject overrideObject]
                    rw [ih (wellFormed.getD_member? part) wellFormedOverride overrideObject
                      below (List.cons_ne_nil _ _)]
                    exact (and_iff_right overrideObject).symm
                  · have scalar := Bool.eq_false_of_not_eq_true overrideObject
                    rw [mergeMember_of_not_isObject scalar, mergeMember_of_not_isObject scalar]
                    constructor
                    · intro through
                      exact absurd (assignPath_isObject through).2 overrideObject
                    · exact fun unshadowed => absurd unshadowed.1 overrideObject
      | _ => cases isObject

theorem assignPath_wellFormed {path : List String} {value target updated : Json}
    (wellFormed : target.WellFormed) (wellFormedValue : value.WellFormed)
    (assigned : assignPath path value target = .ok updated) : updated.WellFormed := by
  induction path generalizing target updated with
  | nil =>
      obtain rfl := Except.ok.inj assigned
      exact wellFormed
  | cons part rest ih =>
      cases rest with
      | nil =>
          obtain ⟨-, rfl⟩ := assignMember_eq_ok.mp assigned
          exact wellFormed.insertMember part wellFormedValue
      | cons next rest =>
          obtain ⟨child, below, written⟩ := assignPath_cons_eq_ok.mp assigned
          obtain ⟨-, rfl⟩ := assignMember_eq_ok.mp written
          refine wellFormed.insertMember part (ih (wellFormed.getD_member? part) below)

end CConfigFile

end DroneEngage
