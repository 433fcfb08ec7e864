import Mathlib.Algebra.BigOperators.Fin
import DroneEngage.AssignmentDuality
import DroneEngage.AssignmentPotentials

/-!
# The assignment is a cheapest one

After each row, the rows so far have different columns and the potentials certify that
no other choice of columns is cheaper.
-/

namespace DroneEngage

namespace TrackDetail

open Function (update)
open AssignmentDuality

/-- The first rows have one column each, and the potentials fit their costs. -/
structure Matched (cost : Nat → Nat → ℚ) (m rows : Nat) (tables : Tables ℚ) : Prop where
  distinct : ∀ j, 1 ≤ j → j ≤ m → ∀ k, 1 ≤ k → k ≤ m → tables.p j ≠ 0 →
    tables.p j = tables.p k → j = k
  within : ∀ j, 1 ≤ j → j ≤ m → tables.p j ≤ rows
  column : ∀ r, 1 ≤ r → r ≤ rows → ∃ j, 1 ≤ j ∧ j ≤ m ∧ tables.p j = r
  feasible : ∀ k, 1 ≤ k → k ≤ m → tables.p k ≠ 0 → ∀ c, 1 ≤ c → c ≤ m → 0 ≤ gap cost tables k c
  tight : ∀ k, 1 ≤ k → k ≤ m → tables.p k ≠ 0 → gap cost tables k k = 0
  nonpos : ∀ c, 1 ≤ c → c ≤ m → tables.v c ≤ 0
  free : ∀ c, 1 ≤ c → c ≤ m → tables.p c = 0 → tables.v c = 0

variable {cost : Nat → Nat → ℚ} {m rows : Nat} {tables : Tables ℚ}

/-- While there are fewer rows than columns, a column is free. -/
theorem Matched.exists_free (matched : Matched cost m rows tables) (room : rows < m) :
    ∃ j, 1 ≤ j ∧ j ≤ m ∧ tables.p j = 0 := by
  apply TrackDetail.exists_free
  have bound : (occupied tables.p m).card ≤ (Finset.Icc 1 rows).card := by
    apply Finset.card_le_card_of_injOn tables.p
    · intro j member
      obtain ⟨⟨lower, upper⟩, hasRow⟩ := mem_occupied.mp member
      exact Finset.mem_Icc.mpr ⟨Nat.pos_of_ne_zero hasRow, matched.within j lower upper⟩
    · intro j memberJ k memberK same
      obtain ⟨⟨lowerJ, upperJ⟩, hasRow⟩ := mem_occupied.mp memberJ
      obtain ⟨⟨lowerK, upperK⟩, -⟩ := mem_occupied.mp memberK
      exact matched.distinct j lowerJ upperJ k lowerK upperK hasRow same
  rw [Nat.card_Icc] at bound
  omega

theorem Matched.priced (matched : Matched cost m rows tables) :
    Priced cost m (searchStart tables (rows + 1)) [] := by
  have atZero : (searchStart tables (rows + 1)).p 0 = rows + 1 := by
    change update tables.p 0 (rows + 1) 0 = rows + 1
    rw [Function.update_self]
  have others (j : Nat) (notZero : j ≠ 0) : (searchStart tables (rows + 1)).p j = tables.p j :=
    Function.update_of_ne notZero _ _
  have gaps (k c : Nat) (notZero : k ≠ 0) :
      gap cost (searchStart tables (rows + 1)).toTables k c = gap cost tables k c := by
    rw [gap, others k notZero]
    rfl
  refine ⟨fun j lastJ k lastK hasRow same => ?_, fun k last hasRow started c first lastC => ?_,
    fun k first last hasRow => ?_, fun j member notZero => ?_, fun c _ _ _ => ?_,
    matched.nonpos, fun c first last isFree => ?_, fun _ => rfl, fun some => absurd rfl some⟩
  · by_cases zeroJ : j = 0
    · by_cases zeroK : k = 0
      · rw [zeroJ, zeroK]
      · rw [zeroJ, atZero, others k zeroK] at same
        have within := matched.within k (Nat.pos_of_ne_zero zeroK) lastK
        omega
    · rw [others j zeroJ] at same hasRow
      by_cases zeroK : k = 0
      · rw [zeroK, atZero] at same
        have within := matched.within j (Nat.pos_of_ne_zero zeroJ) lastJ
        omega
      · rw [others k zeroK] at same
        exact matched.distinct j (Nat.pos_of_ne_zero zeroJ) lastJ k (Nat.pos_of_ne_zero zeroK)
          lastK hasRow same
  · have notZero : k ≠ 0 := fun zero => absurd (started zero) List.not_mem_nil
    rw [others k notZero] at hasRow
    rw [gaps k c notZero]
    exact matched.feasible k (Nat.pos_of_ne_zero notZero) last hasRow c first lastC
  · have notZero : k ≠ 0 := by omega
    rw [others k notZero] at hasRow
    rw [gaps k k notZero]
    exact matched.tight k first last hasRow
  · exact absurd (List.mem_singleton.mp member) notZero
  · exact ⟨fun _ => nofun, fun _ => rfl⟩
  · rw [others c (by omega)] at isFree
    exact matched.free c first last isFree

/-- One more row gets a column. -/
theorem Matched.assignRow (matched : Matched cost m rows tables) (room : rows < m) :
    ∃ next, assignRow cost m tables (rows + 1) = some next ∧ Matched cost m (rows + 1) next := by
  obtain ⟨found, visited, moved, source, assigned, searching, priced, notZero, isFree, sameP,
      atZero, moves⟩ :=
    assignRow_path cost (fun _ _ _ searching taken priced => priced.round searching taken)
      (Nat.succ_ne_zero rows) (matched.exists_free room) matched.priced
  have foundZero : found.p 0 = rows + 1 := by
    rw [sameP, Function.update_self]
  have others (j : Nat) (apart : j ≠ 0) : found.p j = tables.p j := by
    rw [sameP, Function.update_of_ne apart]
  have started : 0 ∈ visited := priced.root.2 fun none => notZero (priced.root.1 none)
  have onPath (j : Nat) (member : j ∈ found.j0 :: visited) : j ≤ m := by
    rcases List.mem_cons.mp member with rfl | member
    · exact searching.inRange
    · exact (searching.taken j member).1
  have through (j : Nat) (member : j ∈ found.j0 :: visited) (apart : j ≠ 0) :
      found.way j ∈ visited := by
    rcases List.mem_cons.mp member with rfl | member
    · exact searching.through apart
    · exact searching.chained.mem member apart
  have inRange (j : Nat) (first : 1 ≤ j) (last : j ≤ m) : source j ≤ m := by
    rcases (moves j (by omega)).2 with same | ⟨member, same⟩
    · rw [same]
      exact last
    · rw [same]
      exact (searching.taken _ (through j member (by omega))).1
  have gaps (k c : Nat) (first : 1 ≤ k) :
      gap cost { found.toTables with p := moved } k c = gap cost found.toTables (source k) c := by
    simp only [gap, (moves k (by omega)).1]
  refine ⟨_, assigned, fun j firstJ lastJ k firstK lastK hasRow same => ?_,
    fun j first last => ?_, fun r first last => ?_, fun k first last hasRow c firstC lastC => ?_,
    fun k first last hasRow => ?_, priced.nonpos, fun c first last isFree' => ?_⟩
  · dsimp only at hasRow same
    rw [(moves j (by omega)).1] at hasRow same
    rw [(moves k (by omega)).1] at same
    exact source.injective (priced.distinct _ (inRange j firstJ lastJ) _
      (inRange k firstK lastK) hasRow same)
  · dsimp only
    rw [(moves j (by omega)).1]
    by_cases zero : source j = 0
    · rw [zero, foundZero]
    · rw [others _ zero]
      exact (matched.within _ (Nat.pos_of_ne_zero zero) (inRange j first last)).trans
        (Nat.le_succ rows)
  · obtain ⟨l, lastL, apart, isRow⟩ : ∃ l, l ≤ m ∧ l ≠ found.j0 ∧ found.p l = r := by
      by_cases new : r = rows + 1
      · exact ⟨0, Nat.zero_le m, notZero.symm, foundZero.trans new.symm⟩
      · obtain ⟨l, firstL, lastL, isRow⟩ := matched.column r first (by omega)
        have same : found.p l = r := (others l (by omega)).trans isRow
        exact ⟨l, lastL, fun hole => by rw [hole, isFree] at same; omega, same⟩
    obtain ⟨j, rfl⟩ := source.surjective l
    have apartZero : j ≠ 0 := fun zero => apart (zero ▸ atZero)
    refine ⟨j, Nat.pos_of_ne_zero apartZero, ?_, (moves j apartZero).1.trans isRow⟩
    rcases (moves j apartZero).2 with same | ⟨member, -⟩
    · rw [← same]
      exact lastL
    · exact onPath j member
  · dsimp only at hasRow
    rw [(moves k (by omega)).1] at hasRow
    rw [gaps k c first]
    exact priced.feasible _ (inRange k first last) hasRow (fun _ => started) c firstC lastC
  · dsimp only at hasRow
    rw [(moves k (by omega)).1] at hasRow
    rw [gaps k k first]
    rcases (moves k (by omega)).2 with same | ⟨member, same⟩
    · rw [same] at hasRow ⊢
      exact priced.tight k first last hasRow
    · rw [same]
      exact priced.edges k member (by omega)
  · dsimp only at isFree'
    rw [(moves c (by omega)).1] at isFree'
    rcases (moves c (by omega)).2 with same | ⟨member, same⟩
    · rw [same] at isFree'
      exact priced.free c first last isFree'
    · rw [same] at isFree'
      exact absurd isFree' (searching.taken _ (through c member (by omega))).2

theorem Matched.assignRows (count : Nat) (matched : Matched cost m rows tables)
    (room : rows + count ≤ m) :
    ∃ last, (List.range' (rows + 1) count).foldlM (TrackDetail.assignRow cost m) tables =
        some last ∧
      Matched cost m (rows + count) last := by
  induction count generalizing rows tables with
  | zero => exact ⟨tables, rfl, matched⟩
  | succ count ih =>
      obtain ⟨next, assigned, after⟩ := matched.assignRow (by omega)
      obtain ⟨last, rest, afterAll⟩ := ih after (by omega)
      refine ⟨last, ?_, ?_⟩
      · rw [List.range'_succ, List.foldlM_cons, assigned]
        exact rest
      · rw [← Nat.add_assoc, Nat.add_right_comm]
        exact afterAll

theorem matched_start : Matched cost m 0
    { u := fun _ => 0.0, v := fun _ => 0.0, p := fun _ => 0, way := fun _ => 0 } where
  distinct _ _ _ _ _ _ hasRow _ := absurd rfl hasRow
  within _ _ _ := Nat.le_refl 0
  column r first last := by omega
  feasible _ _ _ hasRow := absurd rfl hasRow
  tight _ _ _ hasRow := absurd rfl hasRow
  nonpos _ _ _ := by norm_num
  free _ _ _ _ := by norm_num

/-- A row has the column that has the row. -/
theorem Matched.rowToCol_eq (matched : Matched cost m rows tables) {j : Nat} (first : 1 ≤ j)
    (last : j ≤ m) (hasRow : tables.p j ≠ 0) :
    rowToCol m tables.p (tables.p j - 1) = some (j - 1) := by
  have columns (js : List Nat) (inRange : ∀ k ∈ js, 1 ≤ k ∧ k ≤ m)
      (before : Nat → Option Nat)
      (reason : j ∈ js ∨ before (tables.p j - 1) = some (j - 1)) :
      js.foldl (fun columns k =>
        if tables.p k ≠ 0 then update columns (tables.p k - 1) (some (k - 1)) else columns)
          before (tables.p j - 1) = some (j - 1) := by
    induction js generalizing before with
    | nil => exact reason.resolve_left List.not_mem_nil
    | cons k js ih =>
        rw [List.foldl_cons]
        apply ih fun l member => inRange l (List.mem_cons_of_mem _ member)
        obtain ⟨firstK, lastK⟩ := inRange k List.mem_cons_self
        by_cases here : k = j
        · rw [here, if_pos hasRow, Function.update_self]
          exact .inr rfl
        · refine reason.imp (fun member => ?_) fun known => ?_
          · exact (List.mem_cons.mp member).resolve_left fun same => here same.symm
          · by_cases rowK : tables.p k ≠ 0
            · have apart : tables.p j - 1 ≠ tables.p k - 1 := fun same =>
                here (matched.distinct k firstK lastK j first last rowK (by omega))
              rw [if_pos rowK, Function.update_of_ne apart]
              exact known
            · rw [if_neg rowK]
              exact known
  refine columns _ (fun k member => ?_) _ (.inl ?_)
  · rw [List.mem_range'_1] at member
    omega
  · rw [List.mem_range'_1]
    omega

/-- What the rows have at the end is a cheapest choice of columns. -/
theorem Matched.exists_cheapest {n : Nat} (matched : Matched cost m n tables) :
    ∃ chosen : Fin n → Fin m,
      (∀ row : Fin n, rowToCol m tables.p row = some (chosen row).val) ∧
        Function.Injective chosen ∧
        IsCheapest (fun (row : Fin n) (column : Fin m) => cost row column) chosen := by
  have column (row : Fin n) : ∃ column : Fin m, tables.p (column + 1) = row + 1 ∧
      rowToCol m tables.p row = some column.val := by
    obtain ⟨j, first, last, isRow⟩ := matched.column (row + 1) (by omega) (by omega)
    have found := matched.rowToCol_eq first last (by omega)
    rw [isRow, Nat.add_sub_cancel] at found
    exact ⟨⟨j - 1, by omega⟩, by rw [Nat.sub_add_cancel first, isRow], found⟩
  choose chosen isRow found using column
  have injective : Function.Injective chosen := by
    intro row other same
    have rows := isRow other
    rw [← same, isRow row] at rows
    exact Fin.ext (by omega)
  have certifies : Certifies (fun (row : Fin n) (column : Fin m) => cost row column)
      (fun row => tables.u (row + 1)) (fun column => tables.v (column + 1)) chosen := by
    have gaps (row : Fin n) (column : Fin m) :
        gap cost tables (chosen row + 1) (column + 1) =
          cost row column - tables.u (row + 1) - tables.v (column + 1) := by
      rw [gap, isRow, Nat.add_sub_cancel, Nat.add_sub_cancel]
    have hasRow (row : Fin n) : tables.p (chosen row + 1) ≠ 0 := by
      rw [isRow]
      exact Nat.succ_ne_zero _
    refine ⟨fun row column => ?_, fun row => ?_, fun column => ?_, fun column unchosen => ?_⟩
    · have fit := matched.feasible (chosen row + 1) (by omega) (by omega) (hasRow row)
        (column + 1) (by omega) (by omega)
      rw [gaps] at fit
      linarith
    · have fit := matched.tight (chosen row + 1) (by omega) (by omega) (hasRow row)
      rw [gaps] at fit
      linarith
    · exact matched.nonpos (column + 1) (by omega) (by omega)
    · apply matched.free (column + 1) (by omega) (by omega)
      by_contra taken
      have within := matched.within (column + 1) (by omega) (by omega)
      apply unchosen ⟨tables.p (column + 1) - 1, by omega⟩
      have same := matched.distinct (column + 1) (by omega) (by omega)
        (chosen ⟨tables.p (column + 1) - 1, by omega⟩ + 1) (by omega) (by omega) taken (by
          rw [isRow]
          exact (Nat.sub_add_cancel (Nat.pos_of_ne_zero taken)).symm)
      exact Fin.ext (by omega)
  exact ⟨chosen, found, injective, certifies.isCheapest injective⟩

theorem exists_matched (cost : Nat → Nat → ℚ) {n : Nat} (fits : n ≤ m) :
    ∃ tables, hungarian cost m n = some (rowToCol m tables.p) ∧ Matched cost m n tables := by
  obtain ⟨tables, returned, matched⟩ := (@matched_start cost m).assignRows n
    ((Nat.zero_add n).trans_le fits)
  rw [Nat.zero_add] at returned matched
  refine ⟨tables, ?_, matched⟩
  rw [hungarian, returned]
  rfl

/-- The search returns a column for each row, no column twice, and no other choice of
columns is cheaper. -/
theorem hungarian_isCheapest (cost : Nat → Nat → ℚ) {n m : Nat} (fits : n ≤ m) :
    ∃ columns, hungarian cost m n = some columns ∧ ∃ chosen : Fin n → Fin m,
      (∀ row : Fin n, columns row = some (chosen row).val) ∧ Function.Injective chosen ∧
        IsCheapest (fun (row : Fin n) (column : Fin m) => cost row column) chosen := by
  obtain ⟨tables, returned, matched⟩ := exists_matched cost fits
  exact ⟨_, returned, matched.exists_cheapest⟩

/-- Two rows that both find the first of three columns cheapest: the one that pays
more for another keeps it. -/
theorem hungarian_isCheapest_cheaper :
    let cost : Nat → Nat → ℚ := fun row column => (row + 1) * (column + 1) ^ 2
    (hungarian cost 3 2).map (fun columns => (columns 0, columns 1)) =
      some (some 1, some 0) := by
  intro cost
  obtain ⟨columns, returned, chosen, assigned, injective, cheapest⟩ :=
    hungarian_isCheapest cost (show 2 ≤ 3 by decide)
  have bound := cheapest ![1, 0] (by decide)
  simp only [AssignmentDuality.total, Fin.sum_univ_two] at bound
  have apart : chosen 0 ≠ chosen 1 := injective.ne (by decide)
  have only : ∀ first second : Fin 3, first ≠ second →
      cost 0 first + cost 1 second ≤ 6 → first = 1 ∧ second = 0 := by
    decide +kernel
  have places := only _ _ apart (bound.trans (by norm_num [cost]))
  have first := assigned 0
  have second := assigned 1
  rw [places.1] at first
  rw [places.2] at second
  rw [returned]
  exact congrArg some (Prod.ext first second)

end TrackDetail

end DroneEngage
