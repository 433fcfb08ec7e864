import DroneEngage.DeepMerge

/-!
# What a merge holds

A merge is described path by path: what the overrides set is there, what they leave
alone is as it was, and merging them once more changes nothing.
-/

namespace DroneEngage.Json

/-- What is found along a path of keys. -/
def valueAt : List String → Json → Option Json
  | [], document => some document
  | key :: path, document => (document.member? key).bind (valueAt path)

/-- The overrides are objects along a path until one of them lacks the next key. -/
def Leaves : List String → Json → Prop
  | [], _ => False
  | key :: path, overrides =>
      overrides.isObject ∧
        ∀ override, overrides.member? key = some override → Leaves path override

theorem valueAt_cons_eq_some {key : String} {path : List String} {document value : Json} :
    valueAt (key :: path) document = some value ↔
      ∃ found, document.member? key = some found ∧ valueAt path found = some value :=
  Option.bind_eq_some_iff

theorem member?_deepMerge_of_some {target overrides value : Json} {key : String}
    (wellFormed : overrides.WellFormed) (set : overrides.member? key = some value) :
    (deepMerge target overrides).member? key =
      some (mergeMember (target.member? key) value) := by
  cases overrides with
  | object members =>
      rw [member?_eq_lookup, entries_object] at set
      rw [member?_deepMerge wellFormed.sorted, set]
      rfl
  | _ => cases set

theorem member?_deepMerge_of_none {target overrides : Json} {key : String}
    (wellFormed : overrides.WellFormed) (isObject : overrides.isObject)
    (unset : overrides.member? key = none) :
    (deepMerge target overrides).member? key = target.member? key := by
  cases overrides with
  | object members =>
      rw [member?_eq_lookup, entries_object] at unset
      rw [member?_deepMerge wellFormed.sorted, unset]
      rfl
  | _ => cases isObject

theorem isObject_of_leaves {path : List String} {overrides : Json}
    (leaves : Leaves path overrides) : overrides.isObject := by
  cases path with
  | nil => exact leaves.elim
  | cons key path => exact leaves.1

/-- Under a key two objects are merged, and anything else is replaced. -/
theorem mergeMember_cases (found : Option Json) (value : Json) :
    (∃ child, found = some child ∧ child.isObject ∧ value.isObject ∧
      mergeMember found value = deepMerge child value) ∨
    mergeMember found value = value := by
  cases found with
  | none => exact .inr rfl
  | some child =>
      by_cases both : child.isObject ∧ value.isObject
      · exact .inl ⟨child, rfl, both.1, both.2,
          CConfigFile.mergeMember_of_isObject both.1 both.2⟩
      · refine .inr (if_neg ?_)
        rwa [Bool.and_eq_true]

/-- What is no object in the overrides is there after the merge. -/
theorem valueAt_deepMerge_of_leaf {path : List String} {target overrides value : Json}
    (wellFormed : overrides.WellFormed) (leaf : valueAt path overrides = some value)
    (scalar : value.isObject = false) : valueAt path (deepMerge target overrides) = some value := by
  induction path generalizing target overrides with
  | nil =>
      obtain rfl := Option.some.inj leaf
      rw [valueAt]
      cases overrides <;> first | rfl | cases scalar
  | cons key path ih =>
      obtain ⟨override, set, below⟩ := valueAt_cons_eq_some.mp leaf
      refine valueAt_cons_eq_some.mpr ⟨_, member?_deepMerge_of_some wellFormed set, ?_⟩
      rcases mergeMember_cases (target.member? key) override with ⟨child, -, -, -, merged⟩ | same
      · rw [merged]
        exact ih (wellFormed.member set) below
      · rw [same]
        exact below

/-- What lies where the overrides do not go is as it was. -/
theorem valueAt_deepMerge_of_leaves {path : List String} {target overrides value : Json}
    (wellFormed : overrides.WellFormed) (leaves : Leaves path overrides)
    (old : valueAt path target = some value) :
    valueAt path (deepMerge target overrides) = some value := by
  induction path generalizing target overrides with
  | nil => exact leaves.elim
  | cons key path ih =>
      obtain ⟨isObject, further⟩ := leaves
      obtain ⟨child, held, below⟩ := valueAt_cons_eq_some.mp old
      rw [valueAt_cons_eq_some]
      cases set : overrides.member? key with
      | none => exact ⟨child, (member?_deepMerge_of_none wellFormed isObject set).trans held, below⟩
      | some override =>
          have leavesBelow := further override set
          refine ⟨_, member?_deepMerge_of_some wellFormed set, ?_⟩
          -- a path goes on below the child, so the child is an object too
          have childObject : child.isObject := by
            cases path with
            | nil => exact leavesBelow.elim
            | cons next path =>
                obtain ⟨inner, inside, -⟩ := valueAt_cons_eq_some.mp below
                cases child <;> first | rfl | cases inside
          rw [held, CConfigFile.mergeMember_of_isObject childObject
            (isObject_of_leaves leavesBelow)]
          exact ih (wellFormed.member set) leavesBelow below

theorem isObject_deepMerge {target overrides : Json} (isObject : overrides.isObject) :
    (deepMerge target overrides).isObject := by
  cases overrides with
  | object members => rfl
  | _ => cases isObject

theorem deepMerge_null {overrides : Json} (wellFormed : overrides.WellFormed) :
    deepMerge null overrides = overrides := by
  cases overrides with
  | object members => exact deepMerge_of_no_entries rfl wellFormed.sorted
  | _ => rfl

/-- A member that was merged is merged again as a whole. -/
theorem mergeMember_mergeMember {found : Option Json} {value : Json}
    (wellFormed : ∀ child, found = some child → child.WellFormed)
    (wellFormedValue : value.WellFormed)
    (twice : ∀ child : Json, child.WellFormed →
      deepMerge (deepMerge child value) value = deepMerge child value) :
    mergeMember (some (mergeMember found value)) value = mergeMember found value := by
  cases isObject : value.isObject with
  | false =>
      rw [CConfigFile.mergeMember_of_not_isObject isObject,
        CConfigFile.mergeMember_of_not_isObject isObject]
  | true =>
      rcases mergeMember_cases found value with ⟨child, held, -, -, merged⟩ | merged
      · rw [merged, CConfigFile.mergeMember_of_isObject (isObject_deepMerge isObject) isObject]
        exact twice child (wellFormed child held)
      · have self := twice null .null
        rw [deepMerge_null wellFormedValue] at self
        rw [merged, CConfigFile.mergeMember_of_isObject isObject isObject, self]

/-- Merging the overrides once more changes nothing. -/
theorem deepMerge_deepMerge {target overrides : Json} (wellFormed : target.WellFormed)
    (wellFormedOverrides : overrides.WellFormed) :
    deepMerge (deepMerge target overrides) overrides = deepMerge target overrides := by
  induction wellFormedOverrides generalizing target with
  | object members sorted each ih =>
      simp only [deepMerge, entries_object, Json.object.injEq]
      have sortedOnce := wellFormed.sortedEntries.mergeMembers members
      apply (sortedOnce.mergeMembers members).ext sortedOnce
      intro key
      rw [lookup_mergeMembers sorted]
      cases set : members.lookup key with
      | none => rfl
      | some value =>
          have listed := mem_of_lookup_eq_some set
          rw [lookup_mergeMembers sorted, set, Option.map_some, Option.some_or, Option.map_some,
            Option.some_or, mergeMember_mergeMember _ (each _ listed)]
          · exact fun child wellFormedChild => ih _ listed wellFormedChild
          · intro child held
            rw [← member?_eq_lookup] at held
            exact wellFormed.member held
  | array elements each => rfl
  | _ => rfl

/-- What a merge of overrides onto a target comes to. -/
structure IsMerge (target overrides merged : Json) : Prop where
  wellFormed : merged.WellFormed
  isObject : merged.isObject
  joined : ∀ key found value, target.member? key = some found →
    overrides.member? key = some value → found.isObject → value.isObject →
    merged.member? key = some (deepMerge found value)
  replaced : ∀ key value, overrides.member? key = some value →
    ¬ (value.isObject ∧ ∃ found, target.member? key = some found ∧ found.isObject) →
    merged.member? key = some value
  kept : ∀ key, overrides.member? key = none → merged.member? key = target.member? key
  leaf : ∀ path value, valueAt path overrides = some value → value.isObject = false →
    valueAt path merged = some value
  frame : ∀ path value, Leaves path overrides → valueAt path target = some value →
    valueAt path merged = some value
  again : deepMerge merged overrides = merged

theorem isMerge_deepMerge {target overrides : Json} (wellFormed : target.WellFormed)
    (wellFormedOverrides : overrides.WellFormed) (isObject : overrides.isObject) :
    IsMerge target overrides (deepMerge target overrides) where
  wellFormed := wellFormed.deepMerge wellFormedOverrides
  isObject := isObject_deepMerge isObject
  joined := by
    intro key found value held set foundObject valueObject
    rw [member?_deepMerge_of_some wellFormedOverrides set, held,
      CConfigFile.mergeMember_of_isObject foundObject valueObject]
  replaced := by
    intro key value set apart
    rw [member?_deepMerge_of_some wellFormedOverrides set]
    rcases mergeMember_cases (target.member? key) value with
      ⟨child, held, childObject, valueObject, -⟩ | same
    · exact absurd ⟨valueObject, child, held, childObject⟩ apart
    · rw [same]
  kept := fun key unset => member?_deepMerge_of_none wellFormedOverrides isObject unset
  leaf := fun path value leaf scalar =>
    valueAt_deepMerge_of_leaf wellFormedOverrides leaf scalar
  frame := fun path value leaves old =>
    valueAt_deepMerge_of_leaves wellFormedOverrides leaves old
  again := deepMerge_deepMerge wellFormed wellFormedOverrides

/-- A nested object and a string over a document with another member in the object. -/
theorem isMerge_deepMerge_nested :
    let target : Json := .object [("a", .object [("b", .boolean true)])]
    let overrides : Json := .object [("a", .object [("c", .string "d")])]
    IsMerge target overrides (deepMerge target overrides) :=
  isMerge_deepMerge (((WellFormed.boolean true).singleton _).singleton _)
    (((WellFormed.string "d").singleton _).singleton _) rfl

end DroneEngage.Json
