import Mathlib.Logic.Equiv.Basic
import Mathlib.Logic.Function.Basic
import Mathlib.Algebra.Order.Field.Rat
import Mathlib.Data.Finset.Card
import Mathlib.Order.Interval.Finset.Nat

/-!
# Assigning rows to columns

The search for a cheapest assignment, row after row, along shortest augmenting
paths.  Numbers are anything with the operations that the source uses, and
nothing is assumed about these operations; infinity stands above all numbers.
The search returns for all tables of costs with no more rows than columns, and
no column is given to two rows.
-/

namespace DroneEngage

/-- The operations on numbers that the tracker uses. -/
class Arithmetic (α : Type) extends Add α, Sub α, Mul α, Div α, LT α, LE α, Zero α,
    IntCast α, OfScientific α where
  decidableLT : DecidableLT α
  decidableLE : DecidableLE α

attribute [reducible, instance] Arithmetic.decidableLT Arithmetic.decidableLE

instance : Arithmetic ℚ where
  decidableLT := inferInstance
  decidableLE := inferInstance

namespace TrackDetail

open Function (update)

variable {α : Type} [Arithmetic α]

/-- The variables of `hungarian`: the potentials of rows and columns, the row of
each column (0 for none), and the column that each column was reached from. -/
structure Tables (α : Type) where
  u : Nat → α
  v : Nat → α
  p : Nat → Nat
  way : Nat → Nat

/-- The variables of the search for one row; none stands for infinity. -/
structure Search (α : Type) extends Tables α where
  minv : Nat → Option α
  used : Nat → Bool
  j0 : Nat

/-- The variables of the loop over the columns in one round of the search. -/
structure Scan (α : Type) where
  minv : Nat → Option α
  way : Nat → Nat
  delta : Option α
  j1 : Nat

/-- `<`, where none stands for infinity. -/
def below : Option α → Option α → Bool
  | some left, some right => left < right
  | some _, none => true
  | none, _ => false

section Algorithm

variable (cost : Nat → Nat → α) (m : Nat)

/-- Look at column `j` from the column `j0`. -/
def scanColumn (search : Search α) (scan : Scan α) (j : Nat) : Scan α :=
  if search.used j then scan
  else
    let i0 := search.p search.j0
    let cur := cost (i0 - 1) (j - 1) - search.u i0 - search.v j
    let closer := below (some cur) (scan.minv j)
    let minv := if closer then update scan.minv j (some cur) else scan.minv
    let way := if closer then update scan.way j search.j0 else scan.way
    if below (minv j) scan.delta then { minv := minv, way := way, delta := minv j, j1 := j }
    else { scan with minv := minv, way := way }

/-- Move the potentials of column `j`, or its distance, by `delta`. -/
def shiftColumn (delta : α) (search : Search α) (j : Nat) : Search α :=
  if search.used j then
    { search with
      u := update search.u (search.p j) (search.u (search.p j) + delta)
      v := update search.v j (search.v j - delta) }
  else { search with minv := update search.minv j ((search.minv j).map (· - delta)) }

/-- The scan of all columns in a round that starts with `used[j0] = 1`. -/
def scanColumns (search : Search α) : Scan α :=
  (List.range' 1 m).foldl (scanColumn cost search)
    { minv := search.minv, way := search.way, delta := none, j1 := 0 }

/-- One round of the search.  It does not lead on where no column is left. -/
def searchRound (search : Search α) : Option (Search α) :=
  let marked := { search with used := update search.used search.j0 true }
  let scan := scanColumns cost m marked
  scan.delta.map fun delta =>
    let shifted := (List.range (m + 1)).foldl (shiftColumn delta)
      { marked with minv := scan.minv, way := scan.way }
    { shifted with j0 := scan.j1 }

/-- Rounds until a column with no row is reached. -/
def searchLoop : Nat → Search α → Option (Search α)
  | 0, _ => none
  | fuel + 1, search =>
      (searchRound cost m search).bind fun next =>
        if next.p next.j0 = 0 then some next else searchLoop fuel next

/-- Move the rows along the path back to column 0. -/
def augmentLoop (way : Nat → Nat) : Nat → (Nat → Nat) → Nat → Option (Nat → Nat)
  | 0, _, _ => none
  | fuel + 1, p, j0 =>
      let j1 := way j0
      let moved := update p j0 (p j1)
      if j1 = 0 then some moved else augmentLoop way fuel moved j1

def assignRow (tables : Tables α) (i : Nat) : Option (Tables α) :=
  let start : Search α :=
    { tables with
      p := update tables.p 0 i, minv := fun _ => none, used := fun _ => false, j0 := 0 }
  (searchLoop cost m (m + 1) start).bind fun found =>
    (augmentLoop found.way (m + 1) found.p found.j0).map fun p =>
      { found.toTables with p := p }

/-- `row_to_col`, from the row of each column. -/
def rowToCol (p : Nat → Nat) : Nat → Option Nat :=
  (List.range' 1 m).foldl
    (fun columns j => if p j ≠ 0 then update columns (p j - 1) (some (j - 1)) else columns)
    fun _ => none

/-- `hungarian`, for `n` rows and `m` columns. -/
def hungarian (n : Nat) : Option (Nat → Option Nat) :=
  let start : Tables α :=
    { u := fun _ => 0.0, v := fun _ => 0.0, p := fun _ => 0, way := fun _ => 0 }
  ((List.range' 1 n).foldlM (assignRow cost m) start).map fun tables => rowToCol m tables.p

end Algorithm

section Rounds

variable (cost : Nat → Nat → α) {m : Nat}

theorem isSome_of_not_below {value : α} {bound : Option α}
    (notBelow : ¬ below (some value) bound) : bound.isSome := by
  cases bound with
  | none => exact absurd rfl notBelow
  | some _ => rfl

/-- Where the loop over the columns stands: the columns in use keep where they were
reached from, the others were reached from columns in use, and the best column so
far is one of them. -/
structure Scanned (m : Nat) (search : Search α) (scan : Scan α) : Prop where
  kept : ∀ j, search.used j → scan.way j = search.way j
  reached : ∀ j, ¬ search.used j → (scan.minv j).isSome → search.used (scan.way j)
  best : scan.delta.isSome →
    ¬ search.used scan.j1 ∧ (scan.minv scan.j1).isSome ∧ 1 ≤ scan.j1 ∧ scan.j1 ≤ m

omit [Arithmetic α] in
/-- The scan goes on after column `j` was reached from a column in use. -/
theorem Scanned.reach {search : Search α} {scan : Scan α} {j : Nat}
    (scanned : Scanned m search scan) (unused : ¬ search.used j)
    {minv : Nat → Option α} {way : Nat → Nat}
    (others : ∀ k, k ≠ j → minv k = scan.minv k ∧ way k = scan.way k)
    (found : (minv j).isSome) (through : search.used (way j)) :
    Scanned m search { scan with minv := minv, way := way } where
  kept k inUse := by
    have apart : k ≠ j := fun same => unused (same ▸ inUse)
    exact (others k apart).2.trans (scanned.kept k inUse)
  reached k free reachedK := by
    by_cases same : k = j
    · exact same ▸ through
    · obtain ⟨sameMinv, sameWay⟩ := others k same
      dsimp only at reachedK ⊢
      rw [sameMinv] at reachedK
      rw [sameWay]
      exact scanned.reached k free reachedK
  best hasBest := by
    obtain ⟨free, reachedBest, lower, upper⟩ := scanned.best hasBest
    refine ⟨free, ?_, lower, upper⟩
    dsimp only
    by_cases same : scan.j1 = j
    · exact same ▸ found
    · rw [(others _ same).1]
      exact reachedBest

theorem Scanned.column {search : Search α} {scan : Scan α} {j : Nat}
    (scanned : Scanned m search scan) (current : search.used search.j0)
    (lower : 1 ≤ j) (upper : j ≤ m) :
    Scanned m search (scanColumn cost search scan j) ∧
      (¬ search.used j → (scanColumn cost search scan j).delta.isSome) ∧
      (scan.delta.isSome → (scanColumn cost search scan j).delta.isSome) := by
  unfold scanColumn
  split
  · rename_i inUse
    exact ⟨scanned, fun unused => absurd inUse unused, id⟩
  · rename_i unused
    dsimp only
    generalize cost (search.p search.j0 - 1) (j - 1) - search.u (search.p search.j0) -
      search.v j = cur
    -- the column is reached from here, or it had been reached before
    have relaxed : ∃ minv way,
        (if below (some cur) (scan.minv j) then update scan.minv j (some cur)
          else scan.minv) = minv ∧
        (if below (some cur) (scan.minv j) then update scan.way j search.j0
          else scan.way) = way ∧
        (minv j).isSome ∧ Scanned m search { scan with minv := minv, way := way } := by
      refine ⟨_, _, rfl, rfl, ?_⟩
      split
      · have found : (update scan.minv j (some cur) j).isSome := by
          rw [Function.update_self]
          rfl
        refine ⟨found, scanned.reach unused (fun k apart => ?_) found ?_⟩
        · exact ⟨Function.update_of_ne apart _ _, Function.update_of_ne apart _ _⟩
        · rw [Function.update_self]
          exact current
      · rename_i farther
        exact ⟨isSome_of_not_below farther, scanned⟩
    obtain ⟨minv, way, sameMinv, sameWay, found, after⟩ := relaxed
    rw [sameMinv, sameWay]
    split
    · exact ⟨⟨after.kept, after.reached, fun _ => ⟨unused, found, lower, upper⟩⟩,
        fun _ => found, fun _ => found⟩
    · rename_i notBetter
      obtain ⟨value, sameValue⟩ := Option.isSome_iff_exists.mp found
      rw [sameValue] at notBetter
      exact ⟨after, fun _ => isSome_of_not_below notBetter, id⟩

/-- The scan finds a column, if one is left. -/
theorem scanColumns_spec {search : Search α} (current : search.used search.j0)
    (reached : ∀ j, ¬ search.used j → (search.minv j).isSome → search.used (search.way j)) :
    Scanned m search (scanColumns cost m search) ∧
      ((∃ j, ¬ search.used j ∧ 1 ≤ j ∧ j ≤ m) → (scanColumns cost m search).delta.isSome) := by
  have columns (js : List Nat) (inRange : ∀ j ∈ js, 1 ≤ j ∧ j ≤ m) (scan : Scan α)
      (scanned : Scanned m search scan) :
      Scanned m search (js.foldl (scanColumn cost search) scan) ∧
        ((scan.delta.isSome ∨ ∃ j ∈ js, ¬ search.used j) →
          (js.foldl (scanColumn cost search) scan).delta.isSome) := by
    induction js generalizing scan with
    | nil => exact ⟨scanned, fun found => found.elim id (fun ⟨_, absent, _⟩ => nomatch absent)⟩
    | cons j js ih =>
        obtain ⟨lower, upper⟩ := inRange j List.mem_cons_self
        obtain ⟨after, finds, keeps⟩ := scanned.column cost current lower upper
        obtain ⟨afterAll, found⟩ := ih (fun k member => inRange k (List.mem_cons_of_mem _ member))
          _ after
        refine ⟨afterAll, fun reason => found ?_⟩
        rcases reason with before | ⟨k, member, unused⟩
        · exact .inl (keeps before)
        · rcases List.mem_cons.mp member with rfl | member
          · exact .inl (finds unused)
          · exact .inr ⟨k, member, unused⟩
  obtain ⟨scanned, found⟩ := columns (List.range' 1 m) (fun j member => by
    rw [List.mem_range'_1] at member
    omega) ⟨search.minv, search.way, none, 0⟩ ⟨fun _ _ => rfl, reached, nofun⟩
  refine ⟨scanned, fun ⟨j, unused, lower, upper⟩ => found (.inr ⟨j, ?_, unused⟩)⟩
  rw [List.mem_range'_1]
  omega

theorem shiftColumns_spec (delta : α) (js : List Nat) (search : Search α) :
    (js.foldl (shiftColumn delta) search).p = search.p ∧
      (js.foldl (shiftColumn delta) search).way = search.way ∧
      (js.foldl (shiftColumn delta) search).used = search.used ∧
      ∀ j, ((js.foldl (shiftColumn delta) search).minv j).isSome = (search.minv j).isSome := by
  induction js generalizing search with
  | nil => exact ⟨rfl, rfl, rfl, fun _ => rfl⟩
  | cons j js ih =>
      obtain ⟨sameP, sameWay, sameUsed, sameMinv⟩ := ih (shiftColumn delta search j)
      rw [List.foldl_cons, sameP, sameWay, sameUsed]
      simp only [sameMinv]
      unfold shiftColumn
      split
      · exact ⟨rfl, rfl, rfl, fun _ => rfl⟩
      · refine ⟨rfl, rfl, rfl, fun k => ?_⟩
        dsimp only
        by_cases same : k = j
        · rw [same, Function.update_self, Option.isSome_map]
        · rw [Function.update_of_ne same]

/-- Every column but column 0 was reached from one that was visited before it. -/
def Chained (way : Nat → Nat) : List Nat → Prop
  | [] => True
  | j :: visited => (j ≠ 0 → way j ∈ visited) ∧ Chained way visited

theorem Chained.congr {first second : Nat → Nat} {visited : List Nat}
    (same : ∀ j ∈ visited, second j = first j) (chained : Chained first visited) :
    Chained second visited := by
  induction visited with
  | nil => trivial
  | cons j visited ih =>
      refine ⟨fun notZero => ?_, ih (fun k member => ?_) chained.2⟩
      · rw [same j List.mem_cons_self]
        exact chained.1 notZero
      · exact same k (List.mem_cons_of_mem _ member)

theorem Chained.suffix {way : Nat → Nat} {before visited : List Nat}
    (chained : Chained way (before ++ visited)) : Chained way visited := by
  induction before with
  | nil => exact chained
  | cons j before ih => exact ih chained.2

theorem Chained.mem {way : Nat → Nat} {visited : List Nat} (chained : Chained way visited)
    {j : Nat} (member : j ∈ visited) (notZero : j ≠ 0) : way j ∈ visited := by
  obtain ⟨before, rest, rfl⟩ := List.append_of_mem member
  exact List.mem_append_right _ (List.mem_cons_of_mem _ (chained.suffix.1 notZero))

/-- Where the search stands before a round, with the columns that were visited. -/
structure Searching (m : Nat) (search : Search α) (visited : List Nat) : Prop where
  used : ∀ j, search.used j ↔ j ∈ visited
  nodup : visited.Nodup
  taken : ∀ j ∈ visited, j ≤ m ∧ search.p j ≠ 0
  chained : Chained search.way visited
  through : search.j0 ≠ 0 → search.way search.j0 ∈ visited
  unvisited : search.j0 ∉ visited
  inRange : search.j0 ≤ m
  reached : ∀ j, j ∉ visited → (search.minv j).isSome → search.way j ∈ visited

/-- The search with its column in use. -/
def marked (search : Search α) : Search α :=
  { search with used := update search.used search.j0 true }

omit [Arithmetic α] in
theorem Searching.used_marked {search : Search α} {visited : List Nat}
    (searching : Searching m search visited) (j : Nat) :
    (marked search).used j ↔ j ∈ search.j0 :: visited := by
  rw [marked, List.mem_cons]
  by_cases same : j = search.j0
  · simp [same]
  · simp [same, searching.used]

/-- A round scans the columns, and finds one that is left. -/
theorem Searching.scanned {search : Search α} {visited : List Nat}
    (searching : Searching m search visited) :
    Scanned m (marked search) (scanColumns cost m (marked search)) ∧
      ((∃ j, ¬ (marked search).used j ∧ 1 ≤ j ∧ j ≤ m) →
        (scanColumns cost m (marked search)).delta.isSome) := by
  apply scanColumns_spec
  · rw [searching.used_marked]
    exact List.mem_cons_self
  · intro j unused found
    rw [searching.used_marked, List.mem_cons, not_or] at unused
    rw [searching.used_marked]
    exact List.mem_cons_of_mem _ (searching.reached j unused.2 found)

/-- What a round makes of the search, with the scan and the smallest distance. -/
theorem searchRound_eq_some {search next : Search α} :
    searchRound cost m search = some next ↔
      ∃ delta, (scanColumns cost m (marked search)).delta = some delta ∧
        { (List.range (m + 1)).foldl (shiftColumn delta)
            { marked search with
              minv := (scanColumns cost m (marked search)).minv
              way := (scanColumns cost m (marked search)).way } with
          j0 := (scanColumns cost m (marked search)).j1 } = next :=
  Option.map_eq_some_iff

/-- A round leads to another column, if one is free. -/
theorem Searching.round {search : Search α} {visited : List Nat}
    (searching : Searching m search visited) (taken : search.p search.j0 ≠ 0)
    (free : ∃ j, 1 ≤ j ∧ j ≤ m ∧ search.p j = 0) :
    ∃ next, searchRound cost m search = some next ∧
      Searching m next (search.j0 :: visited) ∧ next.j0 ≠ 0 ∧ next.p = search.p := by
  have used := searching.used_marked
  obtain ⟨scanned, finds⟩ := searching.scanned cost
  have found : (scanColumns cost m (marked search)).delta.isSome := by
    obtain ⟨j, lower, upper, isFree⟩ := free
    refine finds ⟨j, fun inUse => ?_, lower, upper⟩
    rcases List.mem_cons.mp ((used j).mp inUse) with rfl | member
    · exact taken isFree
    · exact (searching.taken j member).2 isFree
  obtain ⟨unused, reachedBest, lower, upper⟩ := scanned.best found
  obtain ⟨delta, sameDelta⟩ := Option.isSome_iff_exists.mp found
  obtain ⟨sameP, sameWay, sameUsed, sameMinv⟩ := shiftColumns_spec delta (List.range (m + 1))
    { marked search with
      minv := (scanColumns cost m (marked search)).minv
      way := (scanColumns cost m (marked search)).way }
  have round := (searchRound_eq_some cost).mpr ⟨delta, sameDelta, rfl⟩
  refine ⟨_, round, ⟨fun j => ?_, ?_, fun j member => ?_, ?_, fun _ => ?_, ?_, upper,
    fun j unvisited foundJ => ?_⟩, ?_, ?_⟩
  · dsimp only
    rw [sameUsed]
    exact used j
  · exact List.nodup_cons.mpr ⟨searching.unvisited, searching.nodup⟩
  · dsimp only
    rw [sameP]
    rcases List.mem_cons.mp member with rfl | member
    · exact ⟨searching.inRange, taken⟩
    · exact searching.taken j member
  · dsimp only
    rw [sameWay]
    have before : Chained search.way (search.j0 :: visited) :=
      ⟨searching.through, searching.chained⟩
    exact before.congr fun j member => scanned.kept j ((used j).mpr member)
  · dsimp only
    rw [sameWay, ← used]
    exact scanned.reached _ unused reachedBest
  · dsimp only
    rw [← used]
    exact unused
  · dsimp only at foundJ ⊢
    rw [sameMinv] at foundJ
    rw [sameWay, ← used]
    exact scanned.reached j (fun inUse => unvisited ((used j).mp inUse)) foundJ
  · exact Nat.one_le_iff_ne_zero.mp lower
  · dsimp only
    rw [sameP]
    rfl

omit [Arithmetic α] in
theorem Searching.length_le {search : Search α} {visited : List Nat}
    (searching : Searching m search visited) : visited.length ≤ m := by
  have all : (search.j0 :: visited).Nodup :=
    List.nodup_cons.mpr ⟨searching.unvisited, searching.nodup⟩
  have within : search.j0 :: visited ⊆ List.range (m + 1) := by
    intro j member
    rw [List.mem_range, Nat.lt_succ_iff]
    rcases List.mem_cons.mp member with rfl | member
    · exact searching.inRange
    · exact (searching.taken j member).1
  have bound := (all.subperm within).length_le
  rw [List.length_range, List.length_cons] at bound
  omega

/-- The rounds end at a free column, if there is one, and what every round keeps
still holds there. -/
theorem Searching.loop {Holds : Search α → List Nat → Prop}
    (keeps : ∀ search visited next, Searching m search visited → search.p search.j0 ≠ 0 →
      Holds search visited → searchRound cost m search = some next →
        Holds next (search.j0 :: visited))
    (fuel : Nat) {search : Search α} {visited : List Nat}
    (searching : Searching m search visited) (enough : m < visited.length + fuel)
    (taken : search.p search.j0 ≠ 0) (free : ∃ j, 1 ≤ j ∧ j ≤ m ∧ search.p j = 0)
    (holds : Holds search visited) :
    ∃ found visited, searchLoop cost m fuel search = some found ∧
      Searching m found visited ∧ Holds found visited ∧ found.j0 ≠ 0 ∧
      found.p found.j0 = 0 ∧ found.p = search.p := by
  induction fuel generalizing search visited with
  | zero =>
      have bound := searching.length_le
      omega
  | succ fuel ih =>
      obtain ⟨next, round, after, notZero, sameP⟩ := searching.round cost taken free
      have held := keeps search visited next searching taken holds round
      rw [searchLoop, round, Option.bind_some]
      by_cases isFree : next.p next.j0 = 0
      · rw [if_pos isFree]
        exact ⟨next, _, rfl, after, held, notZero, isFree, sameP⟩
      · rw [if_neg isFree]
        obtain ⟨found, all, loop, last, heldLast, foundNotZero, foundFree, sameAll⟩ :=
          ih after (by rw [List.length_cons]; omega) isFree (sameP ▸ free) held
        exact ⟨found, all, loop, last, heldLast, foundNotZero, foundFree, sameAll.trans sameP⟩

end Rounds

section Rows

variable (cost : Nat → Nat → α) {m : Nat}

/-- Each column has the row of its source.  Column `j0` is the source of column 0, and
the source of any other column is the column itself, or the one it was reached from. -/
structure MovedBack (way : Nat → Nat) (path : List Nat) (p moved : Nat → Nat)
    (source : Equiv.Perm Nat) (j0 : Nat) : Prop where
  atZero : source 0 = j0
  moves : ∀ j, j ≠ 0 → moved j = p (source j) ∧
    (source j = j ∨ j ∈ path ∧ source j = way j)

/-- Moving the rows ends at column 0. -/
theorem augmentLoop_spec {way : Nat → Nat} (fuel : Nat) {visited : List Nat}
    (chained : Chained way visited) (enough : visited.length ≤ fuel) (p : Nat → Nat) {j0 : Nat}
    (distinct : (j0 :: visited).Nodup) (through : way j0 ∈ visited) (notZero : j0 ≠ 0) :
    ∃ moved source, augmentLoop way fuel p j0 = some moved ∧
      MovedBack way (j0 :: visited) p moved source j0 := by
  induction fuel generalizing visited p j0 with
  | zero =>
      rw [List.length_eq_zero_iff.mp (Nat.le_zero.mp enough)] at through
      exact absurd through List.not_mem_nil
  | succ fuel ih =>
      rw [augmentLoop]
      by_cases last : way j0 = 0
      · rw [if_pos last]
        refine ⟨_, Equiv.swap 0 j0, rfl, Equiv.swap_apply_left 0 j0, fun j apart => ?_⟩
        by_cases same : j = j0
        · rw [same, Equiv.swap_apply_right, Function.update_self, last]
          exact ⟨rfl, .inr ⟨List.mem_cons_self, rfl⟩⟩
        · rw [Equiv.swap_apply_of_ne_of_ne apart same, Function.update_of_ne same]
          exact ⟨rfl, .inl rfl⟩
      · rw [if_neg last]
        obtain ⟨before, rest, rfl⟩ := List.append_of_mem through
        have restChained := chained.suffix
        have restDistinct : (way j0 :: rest).Nodup :=
          (List.nodup_cons.mp distinct).2.sublist (List.sublist_append_right _ _)
        rw [List.length_append, List.length_cons] at enough
        obtain ⟨moved, source, augmented, atZero, moves⟩ :=
          ih restChained.2 (by omega) (update p j0 (p (way j0))) restDistinct
            (restChained.1 last) last
        have outside : j0 ∉ way j0 :: rest := fun member =>
          (List.nodup_cons.mp distinct).1 (List.mem_append_right _ member)
        have fixed : source j0 = j0 :=
          (moves j0 notZero).2.resolve_right fun onPath => outside onPath.1
        refine ⟨moved, source.trans (Equiv.swap j0 (way j0)), augmented, ?_, fun j apart => ?_⟩
        · rw [Equiv.trans_apply, atZero, Equiv.swap_apply_right]
        · rw [Equiv.trans_apply]
          by_cases same : j = j0
          · rw [same, fixed, Equiv.swap_apply_left, (moves j0 notZero).1, fixed,
              Function.update_self]
            exact ⟨rfl, .inr ⟨List.mem_cons_self, rfl⟩⟩
          · have apartHole : source j ≠ way j0 := fun hole =>
              apart (source.injective (hole.trans atZero.symm))
            have apartNow : source j ≠ j0 := fun now =>
              same (source.injective (now.trans fixed.symm))
            rw [Equiv.swap_apply_of_ne_of_ne apartNow apartHole, (moves j apart).1,
              Function.update_of_ne apartNow]
            refine ⟨rfl, (moves j apart).2.imp_right fun onPath => ⟨?_, onPath.2⟩⟩
            exact List.mem_cons_of_mem _ (List.mem_append_right _ onPath.1)

def occupied (p : Nat → Nat) (m : Nat) : Finset Nat :=
  (Finset.Icc 1 m).filter fun j => p j ≠ 0

theorem mem_occupied {p : Nat → Nat} {j : Nat} :
    j ∈ occupied p m ↔ (1 ≤ j ∧ j ≤ m) ∧ p j ≠ 0 := by
  rw [occupied, Finset.mem_filter, Finset.mem_Icc]

theorem exists_free {p : Nat → Nat} (room : (occupied p m).card < m) :
    ∃ j, 1 ≤ j ∧ j ≤ m ∧ p j = 0 := by
  by_contra full
  have all : Finset.Icc 1 m ⊆ occupied p m := by
    intro j member
    rw [mem_occupied]
    obtain ⟨lower, upper⟩ := Finset.mem_Icc.mp member
    exact ⟨⟨lower, upper⟩, fun isFree => full ⟨j, lower, upper, isFree⟩⟩
  have size := Finset.card_le_card all
  rw [Nat.card_Icc] at size
  omega

/-- The search for row `i` as it starts. -/
def searchStart (tables : Tables α) (i : Nat) : Search α :=
  { tables with
    p := update tables.p 0 i, minv := fun _ => none, used := fun _ => false, j0 := 0 }

omit [Arithmetic α] in
theorem searching_searchStart (tables : Tables α) (i : Nat) :
    Searching m (searchStart tables i) [] where
  used _ := iff_of_false Bool.false_ne_true List.not_mem_nil
  nodup := .nil
  taken := nofun
  chained := trivial
  through notZero := absurd rfl notZero
  unvisited := List.not_mem_nil
  inRange := Nat.zero_le _
  reached _ _ := nofun

/-- While a column is free, the search ends at one, and the rows are moved along the
path that led to it. -/
theorem assignRow_path {Holds : Search α → List Nat → Prop}
    (keeps : ∀ search visited next, Searching m search visited → search.p search.j0 ≠ 0 →
      Holds search visited → searchRound cost m search = some next →
        Holds next (search.j0 :: visited))
    {tables : Tables α} {i : Nat} (row : i ≠ 0) (free : ∃ j, 1 ≤ j ∧ j ≤ m ∧ tables.p j = 0)
    (holds : Holds (searchStart tables i) []) :
    ∃ found visited moved source,
      assignRow cost m tables i = some { found.toTables with p := moved } ∧
      Searching m found visited ∧ Holds found visited ∧ found.j0 ≠ 0 ∧
      found.p found.j0 = 0 ∧ found.p = update tables.p 0 i ∧
      MovedBack found.way (found.j0 :: visited) found.p moved source found.j0 := by
  have taken : (searchStart tables i).p (searchStart tables i).j0 ≠ 0 := by
    change update tables.p 0 i 0 ≠ 0
    rw [Function.update_self]
    exact row
  have startFree : ∃ j, 1 ≤ j ∧ j ≤ m ∧ (searchStart tables i).p j = 0 := by
    obtain ⟨j, lower, upper, isFree⟩ := free
    exact ⟨j, lower, upper, (Function.update_of_ne (by omega) _ _).trans isFree⟩
  obtain ⟨found, visited, loop, after, held, notZero, isFree, sameP⟩ :=
    (searching_searchStart tables i).loop cost keeps (m + 1) (by simp) taken startFree holds
  obtain ⟨moved, source, augmented, back⟩ := augmentLoop_spec (m + 1) after.chained
    (after.length_le.trans (Nat.le_succ m)) found.p
    (List.nodup_cons.mpr ⟨after.unvisited, after.nodup⟩) (after.through notZero) notZero
  refine ⟨found, visited, moved, source, ?_, after, held, notZero, isFree, sameP, back⟩
  rw [assignRow]
  dsimp only
  rw [← searchStart, loop, Option.bind_some, augmented]
  rfl

/-- A row gets a column while one is free, and takes one column at most. -/
theorem assignRow_spec {tables : Tables α} {i : Nat} (row : i ≠ 0)
    (room : (occupied tables.p m).card < m) :
    ∃ next, assignRow cost m tables i = some next ∧
      (occupied next.p m).card ≤ (occupied tables.p m).card + 1 := by
  obtain ⟨found, visited, moved, source, assigned, after, -, -, -, sameP, back⟩ :=
    @assignRow_path α _ cost m (fun _ _ => True) (fun _ _ _ _ _ _ _ => trivial) tables i row
      (exists_free room) trivial
  refine ⟨_, assigned, ?_⟩
  have within : occupied moved m ⊆ insert found.j0 (occupied tables.p m) := by
    intro j member
    obtain ⟨range, hasRow⟩ := mem_occupied.mp member
    have notZero : j ≠ 0 := by omega
    obtain ⟨fromSource, place⟩ := back.moves j notZero
    rw [Finset.mem_insert, mem_occupied]
    by_cases last : j = found.j0
    · exact .inl last
    · refine .inr ⟨range, ?_⟩
      rw [← Function.update_of_ne notZero i tables.p, ← sameP]
      rcases place with unmoved | ⟨onPath, -⟩
      · rw [← unmoved, ← fromSource]
        exact hasRow
      · exact (after.taken j ((List.mem_cons.mp onPath).resolve_left last)).2
  exact (Finset.card_le_card within).trans (Finset.card_insert_le _ _)

theorem assignRows_isSome (rows : List Nat) (areRows : ∀ i ∈ rows, i ≠ 0) (tables : Tables α)
    (room : (occupied tables.p m).card + rows.length ≤ m) :
    (rows.foldlM (assignRow cost m) tables).isSome := by
  induction rows generalizing tables with
  | nil => rfl
  | cons i rows ih =>
      rw [List.length_cons] at room
      have isRow := areRows i List.mem_cons_self
      have hasRoom : (occupied tables.p m).card < m := by omega
      obtain ⟨next, assigned, size⟩ := assignRow_spec cost isRow hasRoom
      rw [List.foldlM_cons, assigned]
      exact ih (fun k member => areRows k (List.mem_cons_of_mem _ member)) next (by omega)

/-- The assignment returns for all costs, with no more rows than columns. -/
theorem hungarian_isSome {n : Nat} (fits : n ≤ m) :
    (hungarian cost m n).isSome := by
  rw [hungarian, Option.isSome_map]
  refine assignRows_isSome cost _ (fun i member => ?_) _ ?_
  · rw [List.mem_range'_1] at member
    omega
  · have empty : occupied (fun _ => 0) m = ∅ :=
      Finset.filter_false_of_mem fun _ _ => not_not.mpr rfl
    rw [empty, Finset.card_empty, List.length_range', Nat.zero_add]
    exact fits

/-- A row has a column only if the column has that row. -/
theorem rowToCol_spec {p : Nat → Nat} {a b : Nat} (assigned : rowToCol m p a = some b) :
    b < m ∧ p (b + 1) = a + 1 := by
  have columns (js : List Nat) (inRange : ∀ j ∈ js, 1 ≤ j ∧ j ≤ m)
      (before : Nat → Option Nat) (sound : ∀ a b, before a = some b → b < m ∧ p (b + 1) = a + 1) :
      ∀ a b, js.foldl (fun columns j =>
        if p j ≠ 0 then update columns (p j - 1) (some (j - 1)) else columns) before a = some b →
          b < m ∧ p (b + 1) = a + 1 := by
    induction js generalizing before with
    | nil => exact sound
    | cons j js ih =>
        refine ih (fun k member => inRange k (List.mem_cons_of_mem _ member)) _ fun a b => ?_
        obtain ⟨lower, upper⟩ := inRange j List.mem_cons_self
        dsimp only
        split
        · rename_i hasRow
          by_cases same : a = p j - 1
          · rw [same, Function.update_self]
            rintro ⟨⟩
            rw [Nat.sub_add_cancel lower]
            omega
          · rw [Function.update_of_ne same]
            exact sound a b
        · exact sound a b
  refine columns _ (fun j member => ?_) _
    (fun _ _ given => absurd given (Option.some_ne_none _).symm) a b assigned
  rw [List.mem_range'_1] at member
  omega

/-- What `hungarian` returns, with no more rows than columns. -/
def assignment {n : Nat} (fits : n ≤ m) : Nat → Option Nat :=
  (hungarian cost m n).get (hungarian_isSome cost fits)

theorem assignment_spec {n : Nat} (fits : n ≤ m) :
    ∃ p, ∀ a, assignment cost fits a = rowToCol m p a := by
  obtain ⟨columns, returned⟩ := Option.isSome_iff_exists.mp (hungarian_isSome cost fits)
  obtain ⟨tables, -, same⟩ := Option.map_eq_some_iff.mp returned
  refine ⟨tables.p, fun a => ?_⟩
  rw [assignment, Option.get_of_eq_some _ returned, same]

/-- No column is given to two rows. -/
theorem assignment_injective {n : Nat} (fits : n ≤ m) {a a' b : Nat}
    (first : assignment cost fits a = some b) (second : assignment cost fits a' = some b) :
    a = a' := by
  obtain ⟨p, same⟩ := assignment_spec cost fits
  have rowOfFirst := (rowToCol_spec (same a ▸ first)).2
  have rowOfSecond := (rowToCol_spec (same a' ▸ second)).2
  omega

end Rows

end TrackDetail

end DroneEngage
