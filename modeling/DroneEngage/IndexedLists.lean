import Mathlib.Data.List.Basic
import Mathlib.Logic.Function.Basic

/-!
# Members of a list with their places

Some members of a list, each with its place in the list: which members these are,
that the places are distinct, and how they are read back.  What is made of these
members is told from their places among each other as well.  Updates at places that
are all distinct act on each member alone.  Pairs of places that form a matching are
read back from either side.  Members of two lists that are related place by place have
partners.
-/

namespace DroneEngage.IndexedLists

variable {Item Other Key : Type*}

/-- The members that pass a test, with their places. -/
def indexed (keeps : Item → Bool) (items : List Item) : List (Item × Nat) :=
  items.zipIdx.filter fun item => keeps item.1

variable {keeps : Item → Bool} {items : List Item}

theorem indexed_map_fst (keeps : Item → Bool) (items : List Item) :
    (indexed keeps items).map Prod.fst = items.filter keeps := by
  change (items.zipIdx.filter (keeps ∘ Prod.fst)).map Prod.fst = items.filter keeps
  rw [← List.filter_map, List.zipIdx_map_fst]

theorem indexed_of_all (all : ∀ item ∈ items, keeps item) :
    indexed keeps items = items.zipIdx :=
  List.filter_eq_self.mpr fun _ member => all _ (List.fst_mem_of_mem_zipIdx member)

theorem mem_indexed {item : Item} {place : Nat} :
    (item, place) ∈ indexed keeps items ↔ items[place]? = some item ∧ keeps item := by
  rw [indexed, List.mem_filter, List.mem_zipIdx_iff_getElem?]

theorem mem_indexed_of_getElem? {k place : Nat} {item : Item}
    (found : (indexed keeps items)[k]? = some (item, place)) :
    items[place]? = some item ∧ keeps item :=
  mem_indexed.mp (List.mem_of_getElem? found)

theorem exists_indexed (keeps : Item → Bool) {place : Nat} {item : Item}
    (found : items[place]? = some item) (kept : keeps item) :
    ∃ k : Nat, (indexed keeps items)[k]? = some (item, place) :=
  List.mem_iff_getElem?.mp (mem_indexed.mpr ⟨found, kept⟩)

theorem indexed_sorted (keeps : Item → Bool) (items : List Item) :
    (indexed keeps items).Pairwise fun left right => left.2 < right.2 := by
  have places : (items.zipIdx.map Prod.snd).Pairwise (· < ·) := by
    rw [List.zipIdx_map_snd]
    exact List.pairwise_lt_range'
  exact (List.pairwise_map.mp places).filter _

/-- Two members at one place of the list are one member. -/
theorem indexed_injective {k k' place : Nat} {item item' : Item}
    (first : (indexed keeps items)[k]? = some (item, place))
    (second : (indexed keeps items)[k']? = some (item', place)) : k = k' := by
  obtain ⟨bound, same⟩ := List.getElem?_eq_some_iff.mp first
  obtain ⟨bound', same'⟩ := List.getElem?_eq_some_iff.mp second
  rcases Nat.lt_trichotomy k k' with before | equal | after
  · have ordered := List.pairwise_iff_getElem.mp (indexed_sorted keeps items) k k' bound bound'
      before
    rw [same, same'] at ordered
    exact absurd ordered (Nat.lt_irrefl _)
  · exact equal
  · have ordered := List.pairwise_iff_getElem.mp (indexed_sorted keeps items) k' k bound' bound
      after
    rw [same, same'] at ordered
    exact absurd ordered (Nat.lt_irrefl _)

theorem getElem?_filter_of_indexed {k place : Nat} {item : Item}
    (found : (indexed keeps items)[k]? = some (item, place)) :
    (items.filter keeps)[k]? = some item := by
  rw [← indexed_map_fst, List.getElem?_map, found]
  rfl

/-- A place among the members that pass is a place in the list. -/
theorem exists_indexed_of_getElem?_filter {k : Nat} {item : Item}
    (found : (items.filter keeps)[k]? = some item) :
    ∃ place, (indexed keeps items)[k]? = some (item, place) := by
  rw [← indexed_map_fst, List.getElem?_map, Option.map_eq_some_iff] at found
  obtain ⟨⟨other, place⟩, found, rfl⟩ := found
  exact ⟨place, found⟩

theorem indexed_map (change : Other → Item) (others : List Other) :
    indexed keeps (others.map change) =
      (indexed (keeps ∘ change) others).map (Prod.map change id) := by
  rw [indexed, List.zipIdx_map, List.filter_map]
  rfl

/-- What is made of the members that pass, by their places in the list, is what is
made of them by their places among each other, if the two agree. -/
theorem indexed_map_eq_mapIdx {make : Item × Nat → Other} {makeIdx : Nat → Item → Other}
    (same : ∀ (k place : Nat) (item : Item), (indexed keeps items)[k]? = some (item, place) →
      make (item, place) = makeIdx k item) :
    (indexed keeps items).map make = (items.filter keeps).mapIdx makeIdx := by
  apply List.ext_getElem?
  intro k
  rw [List.getElem?_map, List.getElem?_mapIdx, ← indexed_map_fst, List.getElem?_map]
  cases found : (indexed keeps items)[k]? with
  | none => rfl
  | some item => exact congrArg some (same k item.2 item.1 found)

theorem filter_mapIdx {passes : Other → Bool} {make makeIdx : Nat → Item → Other}
    (kept : ∀ place item, passes (make place item) = keeps item)
    (same : ∀ (k place : Nat) (item : Item), (indexed keeps items)[k]? = some (item, place) →
      make place item = makeIdx k item) :
    (items.mapIdx make).filter passes = (items.filter keeps).mapIdx makeIdx := by
  rw [← @indexed_map_eq_mapIdx _ _ keeps items (fun item => make item.2 item.1) makeIdx same,
    List.mapIdx_eq_zipIdx_map, List.filter_map, indexed]
  congr 2
  funext item
  exact kept item.2 item.1

theorem filter_filterMap_zipIdx {passes : Other → Bool} {make makeIdx : Item × Nat → Option Other}
    (kept : ∀ item other, make item = some other → passes other = keeps item.1)
    (same : ∀ (k place : Nat) (item : Item), (indexed keeps items)[k]? = some (item, place) →
      make (item, place) = makeIdx (item, k)) :
    (items.zipIdx.filterMap make).filter passes =
      (items.filter keeps).zipIdx.filterMap makeIdx := by
  have byPlaces : (items.filter keeps).zipIdx.map makeIdx = (indexed keeps items).map make := by
    rw [indexed_map_eq_mapIdx same, List.mapIdx_eq_zipIdx_map]
  have only : (items.zipIdx.filterMap make).filter passes =
      (indexed keeps items).filterMap make := by
    rw [List.filter_filterMap, indexed, List.filterMap_filter]
    congr 1
    funext item
    cases made : make item with
    | none => exact (ite_self none).symm
    | some other => rw [Option.filter_some, kept item other made]
  calc (items.zipIdx.filterMap make).filter passes
      = ((indexed keeps items).map make).filterMap id := by rw [only, List.filterMap_map]; rfl
    _ = (items.filter keeps).zipIdx.filterMap makeIdx := by
        rw [← byPlaces, List.filterMap_map]
        rfl

/-- A change at one place keeps what holds of every member. -/
theorem forall_mem_modify {holds : Item → Prop} {items : List Item}
    (all : ∀ item ∈ items, holds item) {change : Item → Item} {place : Nat}
    (kept : ∀ item, holds item → holds (change item)) :
    ∀ item ∈ items.modify place change, holds item := by
  intro item member
  obtain ⟨other, found⟩ := List.mem_iff_getElem?.mp member
  rw [List.getElem?_modify, Option.map_eq_map, Option.map_eq_some_iff] at found
  obtain ⟨before, listed, rfl⟩ := found
  have member := List.mem_of_getElem? listed
  split
  · exact kept before (all before member)
  · exact all before member

/-- Changes at places act, at each place, as the changes there one after the other. -/
theorem getElem?_foldl_modify (key : Other → Option Nat) (change : Other → Item → Item)
    (updates : List Other) (items : List Item) (place : Nat) :
    (updates.foldl (fun items update =>
      match key update with
      | some other => items.modify other (change update)
      | none => items) items)[place]? =
    items[place]?.map fun item =>
      (updates.filter fun update => key update = some place).foldl
        (fun item update => change update item) item := by
  induction updates generalizing items with
  | nil => simp
  | cons update updates ih =>
      rw [List.foldl_cons, ih]
      cases found : key update with
      | none => simp [found]
      | some other =>
          rw [List.getElem?_modify]
          by_cases same : other = place
          · subst same
            simp [found, Option.map_map, Function.comp_def]
          · simp [found, same]

/-- Where one member alone passes a test, a list splits at it in one way. -/
theorem split_unique (passes : Item → Prop) {front front' back back' : List Item}
    {item item' : Item} (same : front ++ item :: back = front' ++ item' :: back')
    (frontFails : ∀ other ∈ front, ¬ passes other) (backFails : ∀ other ∈ back, ¬ passes other)
    (itemPasses : passes item') : front = front' := by
  induction front generalizing front' with
  | nil =>
      cases front' with
      | nil => rfl
      | cons first front' =>
          have rest := (List.cons_eq_cons.mp same).2
          exact absurd itemPasses (backFails item' (by rw [rest]; simp))
  | cons first front ih =>
      cases front' with
      | nil =>
          have head := (List.cons_eq_cons.mp same).1
          exact absurd (head ▸ itemPasses) (frontFails first List.mem_cons_self)
      | cons first' front' =>
          obtain ⟨rfl, rest⟩ := List.cons_eq_cons.mp same
          rw [ih rest fun other member => frontFails other (List.mem_cons_of_mem _ member)]

/-- Where one member at most passes a test, it is the one that is found. -/
theorem filter_eq_toList_find? {test : Item → Bool} {items : List Item}
    (unique : items.Pairwise fun left right => test left → ¬ test right) :
    items.filter test = (items.find? test).toList := by
  induction unique with
  | nil => rfl
  | @cons item items others unique ih =>
      by_cases passes : test item
      · have none : items.filter test = [] :=
          List.filter_eq_nil_iff.mpr fun other member => others other member passes
        rw [List.filter_cons_of_pos passes, List.find?_cons_of_pos passes, none]
        rfl
      · rw [List.filter_cons_of_neg passes, List.find?_cons_of_neg passes, ih]

/-- Neither a first nor a second component is in two pairs. -/
def IsMatching (pairs : List (Nat × Nat)) : Prop :=
  ∀ first second first' second', (first, second) ∈ pairs → (first', second') ∈ pairs →
    (first = first' ↔ second = second')

/-- Marking the first components, pair after pair. -/
theorem foldl_update_true_iff (pairs : List (Nat × Nat)) {first : Nat} :
    pairs.foldl (fun marks pair => Function.update marks pair.1 true) (fun _ => false) first ↔
      ∃ second, (first, second) ∈ pairs := by
  have marked (marks : Nat → Bool) :
      pairs.foldl (fun marks pair => Function.update marks pair.1 true) marks first ↔
        marks first ∨ ∃ second, (first, second) ∈ pairs := by
    induction pairs generalizing marks with
    | nil => simp
    | cons pair pairs ih =>
        rw [List.foldl_cons, ih]
        by_cases same : first = pair.1
        · subst same
          simp only [Function.update_self, true_or, true_iff]
          exact .inr ⟨pair.2, List.mem_cons_self⟩
        · rw [Function.update_of_ne same]
          refine or_congr_right (exists_congr fun second => ?_)
          rw [List.mem_cons, or_iff_right (fun equal => same (congrArg Prod.fst equal))]
  rw [marked, or_iff_right Bool.false_ne_true]

theorem IsMatching.tail {pair : Nat × Nat} {pairs : List (Nat × Nat)}
    (matching : IsMatching (pair :: pairs)) : IsMatching pairs :=
  fun first second first' second' member member' =>
    matching first second first' second' (List.mem_cons_of_mem _ member)
      (List.mem_cons_of_mem _ member')

/-- Write the first components at the second ones, pair after pair. -/
def written (pairs : List (Nat × Nat)) (before : Nat → Option Nat) : Nat → Option Nat :=
  pairs.foldl (fun written pair => Function.update written pair.2 (some pair.1)) before

theorem written_eq_some_iff {pairs : List (Nat × Nat)} (matching : IsMatching pairs)
    (before : Nat → Option Nat) {first second : Nat} :
    written pairs before second = some first ↔
      (first, second) ∈ pairs ∨
        (∀ other, (other, second) ∉ pairs) ∧ before second = some first := by
  induction pairs generalizing before with
  | nil => simp [written]
  | cons pair pairs ih =>
      obtain ⟨head, place⟩ := pair
      have step : written ((head, place) :: pairs) before =
        written pairs (Function.update before place (some head)) := rfl
      rw [step, ih matching.tail]
      by_cases here : second = place
      · subst here
        rw [Function.update_self, Option.some.injEq, List.mem_cons, Prod.mk.injEq]
        constructor
        · rintro (member | ⟨-, same⟩)
          · exact .inl (.inr member)
          · exact .inl (.inl ⟨same.symm, rfl⟩)
        · rintro ((⟨same, -⟩ | member) | ⟨absent, -⟩)
          · by_cases again : ∃ other, (other, second) ∈ pairs
            · obtain ⟨other, member⟩ := again
              have equal := (matching other second head second (List.mem_cons_of_mem _ member)
                List.mem_cons_self).mpr rfl
              exact .inl (by rw [same, ← equal]; exact member)
            · exact .inr ⟨fun other member => again ⟨other, member⟩, same.symm⟩
          · exact .inl member
          · exact absurd List.mem_cons_self (absent head)
      · have elsewhere (other : Nat) :
            (other, second) ∈ (head, place) :: pairs ↔ (other, second) ∈ pairs := by
          rw [List.mem_cons, or_iff_right fun same => here (congrArg Prod.snd same)]
        rw [Function.update_of_ne here]
        simp only [elsewhere]

/-- A member on the left has a partner on the right. -/
theorem exists_of_mem_forall₂ {Left Right : Type*} {related : Left → Right → Prop}
    {lefts : List Left} {rights : List Right} (both : List.Forall₂ related lefts rights)
    {left : Left} (listed : left ∈ lefts) : ∃ right ∈ rights, related left right := by
  induction both with
  | nil => cases listed
  | cons first _ ih =>
      rcases List.mem_cons.mp listed with rfl | later
      · exact ⟨_, List.mem_cons_self, first⟩
      · obtain ⟨right, rightListed, pair⟩ := ih later
        exact ⟨right, List.mem_cons_of_mem _ rightListed, pair⟩

end DroneEngage.IndexedLists
