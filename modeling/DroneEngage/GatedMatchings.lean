import DroneEngage.AssignmentDuality
import Mathlib.Algebra.Order.BigOperators.Ring.Finset
import Mathlib.Data.Finset.Preimage
import Mathlib.Data.Fintype.Sum
import Mathlib.Tactic.Linarith
import Mathlib.Tactic.Ring

/-!
# Cheapest assignments and best matchings

Where only some pairs are allowed, an assignment in which the others are very expensive
has as many allowed pairs as possible.  If an allowed pair costs less the better it is,
no other matching with so many pairs is better.
-/

namespace DroneEngage.GatedMatchings

open AssignmentDuality

section Matchings

variable {Left Right Left' Right' Value : Type*}

/-- Pairs that are allowed, no two of them with a member in common. -/
structure Matching (allowed : Left → Right → Prop) (pairs : Finset (Left × Right)) : Prop where
  allowed : ∀ pair ∈ pairs, allowed pair.1 pair.2
  apart : ∀ pair ∈ pairs, ∀ other ∈ pairs, pair.1 = other.1 ∨ pair.2 = other.2 → pair = other

/-- A matching with the most pairs, and of the greatest quality among those. -/
structure IsBest [AddCommMonoid Value] [LE Value] (allowed : Left → Right → Prop)
    (quality : Left → Right → Value) (pairs : Finset (Left × Right)) : Prop where
  matching : Matching allowed pairs
  most : ∀ other, Matching allowed other → other.card ≤ pairs.card
  greatest : ∀ other, Matching allowed other → other.card = pairs.card →
    ∑ pair ∈ other, quality pair.1 pair.2 ≤ ∑ pair ∈ pairs, quality pair.1 pair.2

variable [AddCommMonoid Value] [LE Value] {allowed : Left → Right → Prop}
  {quality : Left → Right → Value} {pairs : Finset (Left × Right)}

omit [AddCommMonoid Value] [LE Value] in
theorem Matching.injOn_fst (matching : Matching allowed pairs) :
    Set.InjOn Prod.fst (pairs : Set (Left × Right)) :=
  fun pair member other memberOther same =>
    matching.apart pair member other memberOther (.inl same)

/-- A best matching leaves no allowed pair with both members unmatched. -/
theorem IsBest.meets (best : IsBest allowed quality pairs) {left : Left} {right : Right}
    (fit : allowed left right) : ∃ pair ∈ pairs, pair.1 = left ∨ pair.2 = right := by
  by_contra unmet
  push Not at unmet
  have outside : (left, right) ∉ pairs := fun member => (unmet _ member).1 rfl
  have larger : Matching allowed (Finset.cons (left, right) pairs outside) := by
    refine ⟨fun pair member => ?_, fun pair member other memberOther meets => ?_⟩
    · rcases Finset.mem_cons.mp member with rfl | member
      · exact fit
      · exact best.matching.allowed pair member
    · rcases Finset.mem_cons.mp member with rfl | member <;>
        rcases Finset.mem_cons.mp memberOther with rfl | memberOther
      · rfl
      · exact absurd meets (by simpa [eq_comm] using unmet other memberOther)
      · exact absurd meets (by simpa using unmet pair member)
      · exact best.matching.apart pair member other memberOther meets
  have bound := best.most _ larger
  rw [Finset.card_cons] at bound
  omega

/-- The best matching of one set of pairs is the best one of another under other names. -/
theorem IsBest.rename {allowed' : Left' → Right' → Prop} {quality' : Left' → Right' → Value}
    (best : IsBest allowed quality pairs) (name : Left × Right ↪ Left' × Right')
    (sameAllowed : ∀ pair, allowed' (name pair).1 (name pair).2 ↔ allowed pair.1 pair.2)
    (sameQuality : ∀ pair, quality' (name pair).1 (name pair).2 = quality pair.1 pair.2)
    (meets : ∀ pair other, ((name pair).1 = (name other).1 ∨ (name pair).2 = (name other).2) ↔
      (pair.1 = other.1 ∨ pair.2 = other.2))
    (named : ∀ left right, allowed' left right → ∃ pair, name pair = (left, right)) :
    IsBest allowed' quality' (pairs.map name) := by
  have pull (other : Finset (Left' × Right')) (matching : Matching allowed' other) :
      ∃ pulled, Matching allowed pulled ∧ other = pulled.map name := by
    refine ⟨other.preimage name name.injective.injOn, ⟨fun pair member => ?_,
      fun pair member third memberThird meet => ?_⟩, ?_⟩
    · exact (sameAllowed pair).mp (matching.allowed _ (Finset.mem_preimage.mp member))
    · exact name.injective (matching.apart _ (Finset.mem_preimage.mp member) _
        (Finset.mem_preimage.mp memberThird) ((meets pair third).mpr meet))
    · ext pair
      rw [Finset.mem_map]
      constructor
      · intro member
        obtain ⟨source, isSource⟩ := named pair.1 pair.2 (matching.allowed pair member)
        exact ⟨source, Finset.mem_preimage.mpr (isSource ▸ member), isSource⟩
      · rintro ⟨source, member, rfl⟩
        exact Finset.mem_preimage.mp member
  have sums (some : Finset (Left × Right)) :
      ∑ pair ∈ some.map name, quality' pair.1 pair.2 = ∑ pair ∈ some, quality pair.1 pair.2 := by
    rw [Finset.sum_map]
    exact Finset.sum_congr rfl fun pair _ => sameQuality pair
  refine ⟨⟨fun pair member => ?_, fun pair member other memberOther meet => ?_⟩,
    fun other matching => ?_, fun other matching sameCard => ?_⟩
  · obtain ⟨source, inPairs, rfl⟩ := Finset.mem_map.mp member
    exact (sameAllowed source).mpr (best.matching.allowed source inPairs)
  · obtain ⟨source, inPairs, rfl⟩ := Finset.mem_map.mp member
    obtain ⟨source', inPairs', rfl⟩ := Finset.mem_map.mp memberOther
    exact congrArg name (best.matching.apart source inPairs source' inPairs'
      ((meets source source').mp meet))
  · obtain ⟨pulled, pulledMatching, rfl⟩ := pull other matching
    rw [Finset.card_map, Finset.card_map]
    exact best.most pulled pulledMatching
  · obtain ⟨pulled, pulledMatching, rfl⟩ := pull other matching
    rw [Finset.card_map, Finset.card_map] at sameCard
    rw [sums, sums]
    exact best.greatest pulled pulledMatching sameCard

end Matchings

section Gates

variable {Row Column Value : Type*} [Fintype Row] [Fintype Column] [DecidableEq Row]
  [DecidableEq Column] [Field Value] [LinearOrder Value] [IsStrictOrderedRing Value]
  (allowed : Row → Column → Prop) [∀ row column, Decidable (allowed row column)]
  (quality : Row → Column → Value) (big : Value)

/-- Allowed pairs cost less the better they are, and the others cost a lot. -/
def gated (row : Row) (column : Column) : Value :=
  if allowed row column then 1 - quality row column else big

/-- The allowed pairs of an assignment. -/
def chosenPairs (chosen : Row → Column) : Finset (Row × Column) :=
  (Finset.univ.filter fun row => allowed row (chosen row)).map
    ⟨fun row => (row, chosen row), fun _ _ same => congrArg Prod.fst same⟩

variable {allowed quality big} {chosen : Row → Column}

omit [Fintype Column] [DecidableEq Row] [DecidableEq Column] in
@[simp]
theorem mem_chosenPairs {row : Row} {column : Column} :
    (row, column) ∈ chosenPairs allowed chosen ↔ chosen row = column ∧ allowed row column := by
  rw [chosenPairs, Finset.mem_map]
  simp only [Finset.mem_filter, Finset.mem_univ, true_and]
  constructor
  · rintro ⟨row, fit, same⟩
    cases same
    exact ⟨rfl, fit⟩
  · rintro ⟨rfl, fit⟩
    exact ⟨row, fit, rfl⟩

omit [Fintype Column] [DecidableEq Row] [DecidableEq Column] in
theorem matching_chosenPairs (injective : Function.Injective chosen) :
    Matching allowed (chosenPairs allowed chosen) := by
  refine ⟨fun pair member => (mem_chosenPairs.mp member).2,
    fun pair member other memberOther meet => ?_⟩
  have first := (mem_chosenPairs.mp member).1
  have second := (mem_chosenPairs.mp memberOther).1
  have sameRow : pair.1 = other.1 := by
    rcases meet with same | same
    · exact same
    · exact injective (first.trans (same.trans second.symm))
  exact Prod.ext sameRow (by rw [← first, ← second, sameRow])

omit [Fintype Column] [DecidableEq Column] in
/-- What an assignment costs, if it joins the pairs of a matching. -/
theorem total_le_of_matching
    (cheap : ∀ row column, allowed row column → 1 - quality row column ≤ big)
    {pairs : Finset (Row × Column)} (matching : Matching allowed pairs)
    (joins : ∀ pair ∈ pairs, chosen pair.1 = pair.2) :
    total (gated allowed quality big) chosen ≤
      (pairs.card - ∑ pair ∈ pairs, quality pair.1 pair.2) +
        (Fintype.card Row - pairs.card : Value) * big := by
  have distinct := matching.injOn_fst
  have joined : ∑ row ∈ pairs.image Prod.fst, gated allowed quality big row (chosen row) =
      pairs.card - ∑ pair ∈ pairs, quality pair.1 pair.2 := by
    rw [Finset.sum_image distinct]
    calc ∑ pair ∈ pairs, gated allowed quality big pair.1 (chosen pair.1)
        = ∑ pair ∈ pairs, (1 - quality pair.1 pair.2) := by
          refine Finset.sum_congr rfl fun pair member => ?_
          rw [joins pair member, gated, if_pos (matching.allowed pair member)]
      _ = pairs.card - ∑ pair ∈ pairs, quality pair.1 pair.2 := by
          rw [Finset.sum_sub_distrib, Finset.sum_const, nsmul_one]
  have others : ∑ row ∈ Finset.univ \ pairs.image Prod.fst,
      gated allowed quality big row (chosen row) ≤
        (Fintype.card Row - pairs.card : Value) * big := by
    have count : (Finset.univ \ pairs.image Prod.fst).card + pairs.card = Fintype.card Row := by
      rw [← Finset.card_image_of_injOn distinct,
        Finset.card_sdiff_add_card_eq_card (Finset.subset_univ _), Finset.card_univ]
    calc ∑ row ∈ Finset.univ \ pairs.image Prod.fst, gated allowed quality big row (chosen row)
        ≤ (Finset.univ \ pairs.image Prod.fst).card • big := by
          refine Finset.sum_le_card_nsmul _ _ _ fun row _ => ?_
          rw [gated]
          split
          · rename_i fit
            exact cheap _ _ fit
          · exact le_rfl
      _ = (Fintype.card Row - pairs.card : Value) * big := by
          rw [nsmul_eq_mul, ← count, Nat.cast_add, add_sub_cancel_right]
  calc total (gated allowed quality big) chosen
      = ∑ row ∈ Finset.univ \ pairs.image Prod.fst, gated allowed quality big row (chosen row) +
          ∑ row ∈ pairs.image Prod.fst, gated allowed quality big row (chosen row) :=
        (Finset.sum_sdiff (Finset.subset_univ _)).symm
    _ ≤ _ := by
        rw [joined]
        linarith

omit [Fintype Column] [DecidableEq Row] [DecidableEq Column] [LinearOrder Value]
  [IsStrictOrderedRing Value] in
/-- What an assignment costs, by its allowed pairs. -/
theorem total_eq_chosenPairs :
    total (gated allowed quality big) chosen =
      ((chosenPairs allowed chosen).card -
          ∑ pair ∈ chosenPairs allowed chosen, quality pair.1 pair.2) +
        (Fintype.card Row - (chosenPairs allowed chosen).card : Value) * big := by
  have count : (Finset.univ.filter fun row => allowed row (chosen row)).card +
      (Finset.univ.filter fun row => ¬ allowed row (chosen row)).card = Fintype.card Row := by
    rw [Finset.card_filter_add_card_filter_not, Finset.card_univ]
  rw [chosenPairs, Finset.card_map, Finset.sum_map, ← count, Nat.cast_add,
    add_sub_cancel_left]
  unfold total gated
  rw [Finset.sum_ite, Finset.sum_const, Finset.sum_sub_distrib, Finset.sum_const, nsmul_one,
    nsmul_eq_mul]
  rfl

omit [DecidableEq Row] [∀ row column, Decidable (allowed row column)] in
/-- A matching is part of an assignment, if there are no fewer columns than rows. -/
theorem exists_injective_of_matching (fits : Fintype.card Row ≤ Fintype.card Column)
    {pairs : Finset (Row × Column)} (matching : Matching allowed pairs) :
    ∃ other : Row → Column, Function.Injective other ∧
      ∀ pair ∈ pairs, other pair.1 = pair.2 := by
  classical
  cases isEmpty_or_nonempty Row with
  | inl none => exact ⟨isEmptyElim, fun row => isEmptyElim row, fun pair => isEmptyElim pair.1⟩
  | inr some =>
      obtain ⟨spare⟩ : Nonempty Column :=
        Fintype.card_pos_iff.mp (Fintype.card_pos.trans_le fits)
      have partner (row : Row) : ∃ column, ∀ pair ∈ pairs, pair.1 = row → pair.2 = column := by
        by_cases joined : ∃ pair ∈ pairs, pair.1 = row
        · obtain ⟨found, member, rfl⟩ := joined
          refine ⟨found.2, fun pair memberPair same => ?_⟩
          rw [matching.apart pair memberPair found member (.inl same)]
        · exact ⟨spare, fun pair member same => absurd ⟨pair, member, same⟩ joined⟩
      choose joined isPartner using partner
      have joins (pair : Row × Column) (member : pair ∈ pairs) : joined pair.1 = pair.2 :=
        (isPartner pair.1 pair member rfl).symm
      obtain ⟨range, within, sameCard⟩ := Finset.exists_superset_card_eq
        (Finset.card_image_le.trans (Finset.card_le_univ (pairs.image Prod.fst))) fits
      have distinct : Set.InjOn joined (pairs.image Prod.fst : Finset Row) := by
        intro row member row' member' same
        obtain ⟨pair, inPairs, rfl⟩ := Finset.mem_image.mp member
        obtain ⟨pair', inPairs', rfl⟩ := Finset.mem_image.mp member'
        rw [joins pair inPairs, joins pair' inPairs'] at same
        rw [matching.apart pair inPairs pair' inPairs' (.inr same)]
      obtain ⟨extended, extends_⟩ :=
        Finset.exists_equiv_extend_of_card_eq sameCard.symm within distinct
      refine ⟨fun row => extended row, Subtype.val_injective.comp extended.injective,
        fun pair member => ?_⟩
      exact (extends_ pair.1 (Finset.mem_image_of_mem _ member)).trans (joins pair member)

/-- The allowed pairs of a cheapest assignment are a best matching. -/
theorem isBest_chosenPairs (fits : Fintype.card Row ≤ Fintype.card Column)
    (few : (Fintype.card Row : Value) < big)
    (bounded : ∀ row column, allowed row column →
      0 ≤ quality row column ∧ quality row column ≤ 1)
    (injective : Function.Injective chosen)
    (cheapest : IsCheapest (gated allowed quality big) chosen) :
    IsBest allowed quality (chosenPairs allowed chosen) := by
  have cheap (row : Row) (column : Column) (fit : allowed row column) :
      1 - quality row column ≤ big := by
    have one : (1 : Value) ≤ Fintype.card Row := by
      exact_mod_cast Fintype.card_pos_iff.mpr ⟨row⟩
    linarith [(bounded row column fit).1]
  have compare (other : Finset (Row × Column)) (matching : Matching allowed other) :
      ((chosenPairs allowed chosen).card -
          ∑ pair ∈ chosenPairs allowed chosen, quality pair.1 pair.2) +
        (Fintype.card Row - (chosenPairs allowed chosen).card : Value) * big ≤
      (other.card - ∑ pair ∈ other, quality pair.1 pair.2) +
        (Fintype.card Row - other.card : Value) * big := by
    obtain ⟨extended, extendedInjective, joins⟩ := exists_injective_of_matching fits matching
    calc _ = total (gated allowed quality big) chosen := total_eq_chosenPairs.symm
      _ ≤ total (gated allowed quality big) extended := cheapest extended extendedInjective
      _ ≤ _ := total_le_of_matching cheap matching joins
  refine ⟨matching_chosenPairs injective, fun other matching => ?_,
    fun other matching same => ?_⟩
  · by_contra more
    have bound := compare other matching
    have lower : 0 ≤ ∑ pair ∈ other, quality pair.1 pair.2 :=
      Finset.sum_nonneg fun pair member => (bounded _ _ (matching.allowed pair member)).1
    have upper : ∑ pair ∈ chosenPairs allowed chosen, quality pair.1 pair.2 ≤
        (chosenPairs allowed chosen).card := by
      rw [← nsmul_one]
      exact Finset.sum_le_card_nsmul _ _ _ fun pair member =>
        (bounded _ _ ((matching_chosenPairs injective).allowed pair member)).2
    have rows : (other.card : Value) ≤ Fintype.card Row := by
      rw [← Finset.card_image_of_injOn matching.injOn_fst]
      exact_mod_cast Finset.card_le_univ _
    have gain : ((chosenPairs allowed chosen).card : Value) + 1 ≤ other.card := by
      exact_mod_cast not_le.mp more
    -- one pair more costs `big` less, and that is more than all the others can save
    have saved : big ≤ (other.card - (chosenPairs allowed chosen).card : Value) * big :=
      le_mul_of_one_le_left ((Nat.cast_nonneg _).trans few.le) (by linarith)
    linarith
  · have bound := compare other matching
    rw [same] at bound
    linarith

end Gates

end DroneEngage.GatedMatchings
