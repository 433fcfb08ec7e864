import DroneEngage.TrackAssignment
import Mathlib.Tactic.Linarith
import Mathlib.Tactic.Ring

/-!
# The potentials of the search

Over the rationals, the potentials of the search for a row never exceed the cost of a
row and a column, and meet it where a column has a row or was reached from another
column.  Each round moves the potentials by the smallest distance that is left.
-/

namespace DroneEngage

namespace TrackDetail

open Function (update)

variable (cost : Nat → Nat → ℚ) {m : Nat}

/-- What the potentials leave of the cost of column `c` for the row of column `k`. -/
def gap (tables : Tables ℚ) (k c : Nat) : ℚ :=
  cost (tables.p k - 1) (c - 1) - tables.u (tables.p k) - tables.v c

/-- The smallest gap between visited columns and column `c`, and where it is. -/
structure Nearest (tables : Tables ℚ) (visited : List Nat) (c : Nat) (distance : ℚ)
    (k : Nat) : Prop where
  known : k ∈ visited
  here : distance = gap cost tables k c
  least : ∀ j ∈ visited, distance ≤ gap cost tables j c

/-- Column `c` is as far as the nearest of the visited columns. -/
def Measured (tables : Tables ℚ) (visited : List Nat) (c : Nat) (minv : Option ℚ)
    (k : Nat) : Prop :=
  (∀ distance, minv = some distance → Nearest cost tables visited c distance k) ∧
    (minv = none → visited = [])

/-- Before a round, the rows of visited columns have potentials that fit all columns.
A column has the row or the source that it has at a gap of zero. -/
structure Priced (m : Nat) (search : Search ℚ) (visited : List Nat) : Prop where
  distinct : ∀ j ≤ m, ∀ k ≤ m, search.p j ≠ 0 → search.p j = search.p k → j = k
  feasible : ∀ k ≤ m, search.p k ≠ 0 → (k = 0 → 0 ∈ visited) →
    ∀ c, 1 ≤ c → c ≤ m → 0 ≤ gap cost search.toTables k c
  tight : ∀ k, 1 ≤ k → k ≤ m → search.p k ≠ 0 → gap cost search.toTables k k = 0
  edges : ∀ j ∈ search.j0 :: visited, j ≠ 0 →
    gap cost search.toTables (search.way j) j = 0
  nearest : ∀ c, 1 ≤ c → c ≤ m → c ∉ visited →
    Measured cost search.toTables visited c (search.minv c) (search.way c)
  nonpos : ∀ c, 1 ≤ c → c ≤ m → search.v c ≤ 0
  free : ∀ c, 1 ≤ c → c ≤ m → search.p c = 0 → search.v c = 0
  root : (visited = [] → search.j0 = 0) ∧ (visited ≠ [] → 0 ∈ visited)

theorem below_some_iff {value : ℚ} {bound : Option ℚ} :
    below (some value) bound = true ↔ ∀ other, bound = some other → value < other := by
  cases bound with
  | none => simp [below]
  | some other => simp [below]

variable {cost}

/-- A column is measured from one more visited column. -/
theorem Measured.relax {tables : Tables ℚ} {visited : List Nat} {c k : Nat}
    {minv : Option ℚ} (measured : Measured cost tables visited c minv k) (j0 : Nat) :
    ∃ distance,
      (if below (some (gap cost tables j0 c)) minv then some (gap cost tables j0 c) else minv) =
        some distance ∧
      Nearest cost tables (j0 :: visited) c distance
        (if below (some (gap cost tables j0 c)) minv then j0 else k) := by
  by_cases closer : below (some (gap cost tables j0 c)) minv = true
  · simp only [if_pos closer]
    refine ⟨_, rfl, List.mem_cons_self, rfl, fun j member => ?_⟩
    rcases List.mem_cons.mp member with rfl | member
    · exact le_rfl
    · cases minv with
      | none => exact absurd member (by simp [measured.2 rfl])
      | some distance =>
          have nearer := below_some_iff.mp closer distance rfl
          exact nearer.le.trans ((measured.1 distance rfl).least j member)
  · simp only [if_neg closer]
    cases minv with
    | none => exact absurd rfl closer
    | some distance =>
        obtain ⟨known, here, least⟩ := measured.1 distance rfl
        refine ⟨distance, rfl, List.mem_cons_of_mem _ known, here, fun j member => ?_⟩
        rcases List.mem_cons.mp member with rfl | member
        · simpa [below] using closer
        · exact least j member

/-- Where the loop over the columns stands after some columns. -/
structure Measuring (cost : Nat → Nat → ℚ) (m : Nat) (search : Search ℚ) (visited : List Nat)
    (scan : Scan ℚ) (seen : List Nat) : Prop where
  old : ∀ c, 1 ≤ c → c ≤ m → c ∉ search.j0 :: visited → c ∉ seen →
    Measured cost search.toTables visited c (scan.minv c) (scan.way c)
  new : ∀ c ∈ seen, c ∉ search.j0 :: visited → ∃ distance delta,
    scan.minv c = some distance ∧
    Nearest cost search.toTables (search.j0 :: visited) c distance (scan.way c) ∧
    scan.delta = some delta ∧ delta ≤ distance
  best : ∀ delta, scan.delta = some delta → scan.minv scan.j1 = some delta ∧ scan.j1 ∈ seen

/-- A column that is not in use is measured, and becomes the best if it is nearer. -/
theorem scanColumn_eq {search : Search ℚ} (scan : Scan ℚ) {j : Nat}
    (unused : ¬ search.used j) :
    ∃ minv way,
      minv j = (if below (some (gap cost search.toTables search.j0 j)) (scan.minv j) then
        some (gap cost search.toTables search.j0 j) else scan.minv j) ∧
      way j = (if below (some (gap cost search.toTables search.j0 j)) (scan.minv j) then
        search.j0 else scan.way j) ∧
      (∀ c, c ≠ j → minv c = scan.minv c ∧ way c = scan.way c) ∧
      scanColumn cost search scan j =
        if below (minv j) scan.delta then ⟨minv, way, minv j, j⟩
        else { scan with minv := minv, way := way } := by
  rw [scanColumn, if_neg unused]
  refine ⟨_, _, ?_, ?_, fun c apart => ⟨?_, ?_⟩, rfl⟩
  · rw [ite_apply, Function.update_self]
    rfl
  · rw [ite_apply, Function.update_self]
    rfl
  · rw [ite_apply, Function.update_of_ne apart, ite_self]
  · rw [ite_apply, Function.update_of_ne apart, ite_self]

theorem Measuring.column {search : Search ℚ} {visited seen : List Nat} {scan : Scan ℚ} {j : Nat}
    (used : ∀ c, search.used c ↔ c ∈ search.j0 :: visited)
    (measuring : Measuring cost m search visited scan seen)
    (lower : 1 ≤ j) (upper : j ≤ m) (unseen : j ∉ seen) :
    Measuring cost m search visited (scanColumn cost search scan j) (j :: seen) := by
  by_cases inUse : search.used j
  · rw [scanColumn, if_pos inUse]
    have outside := (used j).mp inUse
    refine ⟨fun c first last unvisited unseenC => ?_, fun c member unvisited => ?_,
      fun delta found => ?_⟩
    · exact measuring.old c first last unvisited fun member =>
        unseenC (List.mem_cons_of_mem _ member)
    · rcases List.mem_cons.mp member with rfl | member
      · exact absurd outside unvisited
      · exact measuring.new c member unvisited
    · exact (measuring.best delta found).imp_right (List.mem_cons_of_mem _)
  · have unvisited : j ∉ search.j0 :: visited := fun member => inUse ((used j).mpr member)
    obtain ⟨distance, sameMinv, nearest⟩ :=
      (measuring.old j lower upper unvisited unseen).relax search.j0
    obtain ⟨minv, way, minvHere, wayHere, others, after⟩ := scanColumn_eq scan inUse
    rw [sameMinv] at minvHere
    rw [← wayHere] at nearest
    have old (c : Nat) (first : 1 ≤ c) (last : c ≤ m) (free : c ∉ search.j0 :: visited)
        (unseenC : c ∉ j :: seen) :
        Measured cost search.toTables visited c (minv c) (way c) := by
      rw [List.mem_cons, not_or] at unseenC
      obtain ⟨keptMinv, keptWay⟩ := others c unseenC.1
      rw [keptMinv, keptWay]
      exact measuring.old c first last free unseenC.2
    have new (bound : ℚ) (better : ∀ delta, scan.delta = some delta → bound ≤ delta)
        (within : bound ≤ distance) (c : Nat) (member : c ∈ j :: seen)
        (free : c ∉ search.j0 :: visited) :
        ∃ distance, minv c = some distance ∧
          Nearest cost search.toTables (search.j0 :: visited) c distance (way c) ∧
          bound ≤ distance := by
      rcases List.mem_cons.mp member with rfl | member
      · exact ⟨distance, minvHere, nearest, within⟩
      · have apart : c ≠ j := fun same => unseen (same ▸ member)
        obtain ⟨known, delta, found, nearestC, isBest, smaller⟩ := measuring.new c member free
        rw [(others c apart).1, (others c apart).2]
        exact ⟨known, found, nearestC, (better delta isBest).trans smaller⟩
    rw [after, minvHere]
    by_cases nearer : below (some distance) scan.delta = true
    · rw [if_pos nearer]
      refine ⟨old, fun c member free => ?_, fun delta found => ?_⟩
      · obtain ⟨known, found, nearestC, smaller⟩ := new distance
          (fun delta isBest => (below_some_iff.mp nearer delta isBest).le) le_rfl c member free
        exact ⟨known, distance, found, nearestC, rfl, smaller⟩
      · cases found
        exact ⟨minvHere, List.mem_cons_self⟩
    · rw [if_neg nearer]
      obtain ⟨delta, isBest⟩ := Option.isSome_iff_exists.mp (isSome_of_not_below nearer)
      rw [isBest, below, decide_eq_true_eq, not_lt] at nearer
      refine ⟨old, fun c member free => ?_, fun other found => ?_⟩
      · obtain ⟨known, found, nearestC, smaller⟩ := new delta
          (fun other same => by rw [isBest] at same; cases same; exact le_rfl) nearer c member free
        exact ⟨known, delta, found, nearestC, isBest, smaller⟩
      · obtain ⟨found, member⟩ := measuring.best other found
        have apart : scan.j1 ≠ j := fun same => unseen (same ▸ member)
        exact ⟨(others _ apart).1.trans found, List.mem_cons_of_mem _ member⟩

theorem Measuring.columns {search : Search ℚ} {visited : List Nat}
    (used : ∀ c, search.used c ↔ c ∈ search.j0 :: visited) (js : List Nat) {seen : List Nat}
    {scan : Scan ℚ} (measuring : Measuring cost m search visited scan seen)
    (inRange : ∀ j ∈ js, 1 ≤ j ∧ j ≤ m) (apart : (js ++ seen).Nodup) :
    Measuring cost m search visited (js.foldl (scanColumn cost search) scan)
      (js.reverse ++ seen) := by
  induction js generalizing scan seen with
  | nil => exact measuring
  | cons j js ih =>
      obtain ⟨lower, upper⟩ := inRange j List.mem_cons_self
      obtain ⟨unseen, distinct⟩ := List.nodup_cons.mp apart
      have after := measuring.column used lower upper fun member =>
        unseen (List.mem_append_right _ member)
      rw [List.foldl_cons, List.reverse_cons, List.append_assoc, List.singleton_append]
      apply ih after fun k member => inRange k (List.mem_cons_of_mem _ member)
      exact List.nodup_middle.mpr apart

theorem shiftColumn_v (delta : ℚ) (search : Search ℚ) (j c : Nat) :
    (shiftColumn delta search j).v c =
      if c = j ∧ search.used j then search.v c - delta else search.v c := by
  unfold shiftColumn
  by_cases inUse : search.used j
  · rw [if_pos inUse]
    by_cases same : c = j
    · simp [same, inUse]
    · simp [same, Function.update_of_ne]
  · simp [inUse]

theorem shiftColumn_minv (delta : ℚ) (search : Search ℚ) (j c : Nat) :
    (shiftColumn delta search j).minv c =
      if c = j ∧ ¬ search.used j then (search.minv c).map (· - delta) else search.minv c := by
  unfold shiftColumn
  by_cases inUse : search.used j
  · simp [inUse]
  · by_cases same : c = j
    · simp [same, inUse]
    · simp [same, inUse, Function.update_of_ne]

theorem shiftColumn_u (delta : ℚ) (search : Search ℚ) (j r : Nat) :
    (shiftColumn delta search j).u r =
      if r = search.p j ∧ search.used j then search.u r + delta else search.u r := by
  unfold shiftColumn
  by_cases inUse : search.used j
  · rw [if_pos inUse]
    by_cases same : r = search.p j
    · simp [same, inUse]
    · simp [same, Function.update_of_ne]
  · simp [inUse]

theorem shiftColumn_kept (delta : ℚ) (search : Search ℚ) (j : Nat) :
    (shiftColumn delta search j).p = search.p ∧
      (shiftColumn delta search j).used = search.used := by
  obtain ⟨sameP, -, sameUsed, -⟩ := shiftColumns_spec delta [j] search
  exact ⟨sameP, sameUsed⟩

theorem shiftColumns_v (delta : ℚ) {js : List Nat} (distinct : js.Nodup) (search : Search ℚ)
    (c : Nat) :
    (js.foldl (shiftColumn delta) search).v c =
      if c ∈ js ∧ search.used c then search.v c - delta else search.v c := by
  induction js generalizing search with
  | nil => simp
  | cons j js ih =>
      obtain ⟨fresh, distinctRest⟩ := List.nodup_cons.mp distinct
      rw [List.foldl_cons, ih distinctRest, (shiftColumn_kept delta search j).2, shiftColumn_v]
      by_cases same : c = j
      · subst same
        simp [fresh]
      · simp [same]

theorem shiftColumns_minv (delta : ℚ) {js : List Nat} (distinct : js.Nodup)
    (search : Search ℚ) (c : Nat) :
    (js.foldl (shiftColumn delta) search).minv c =
      if c ∈ js ∧ ¬ search.used c then (search.minv c).map (· - delta) else search.minv c := by
  induction js generalizing search with
  | nil => simp
  | cons j js ih =>
      obtain ⟨fresh, distinctRest⟩ := List.nodup_cons.mp distinct
      rw [List.foldl_cons, ih distinctRest, (shiftColumn_kept delta search j).2,
        shiftColumn_minv]
      by_cases same : c = j
      · subst same
        simp [fresh]
      · simp [same]

/-- The potential of a row moves once, as the row has one column in use at most. -/
theorem shiftColumns_u (delta : ℚ) {js : List Nat} (distinct : js.Nodup) (search : Search ℚ)
    (one : ∀ j ∈ js, ∀ k ∈ js, search.used j → search.used k → search.p j = search.p k → j = k)
    (r : Nat) [Decidable (∃ j ∈ js, search.used j ∧ search.p j = r)] :
    (js.foldl (shiftColumn delta) search).u r =
      if ∃ j ∈ js, search.used j ∧ search.p j = r then search.u r + delta else search.u r := by
  classical
  induction js generalizing search with
  | nil => simp
  | cons j js ih =>
      obtain ⟨fresh, distinctRest⟩ := List.nodup_cons.mp distinct
      obtain ⟨sameP, sameUsed⟩ := shiftColumn_kept delta search j
      rw [List.foldl_cons, ih distinctRest, shiftColumn_u]
      · simp only [sameP, sameUsed, List.exists_mem_cons_iff]
        by_cases here : search.used j ∧ search.p j = r
        · obtain ⟨inUse, rfl⟩ := here
          have none : ¬ ∃ k ∈ js, search.used k ∧ search.p k = search.p j := by
            rintro ⟨k, member, usedK, same⟩
            exact fresh (one k (List.mem_cons_of_mem _ member) j List.mem_cons_self usedK inUse
              same ▸ member)
          simp [none, inUse]
        · have apart : ¬ (r = search.p j ∧ search.used j) := fun both =>
            here ⟨both.2, both.1.symm⟩
          simp only [here, apart, false_or, if_false]
      · rw [sameP, sameUsed]
        exact fun k member l memberL =>
          one k (List.mem_cons_of_mem _ member) l (List.mem_cons_of_mem _ memberL)

/-- What a round does to the tables: the columns on the path and their rows move by
the smallest distance of a column that is left. -/
structure RoundMoves (cost : Nat → Nat → ℚ) (m : Nat) (search next : Search ℚ)
    (path : List Nat) (delta : ℚ) : Prop where
  sameP : next.p = search.p
  v : ∀ c ≤ m, next.v c = if c ∈ path then search.v c - delta else search.v c
  u : ∀ k ≤ m, search.p k ≠ 0 → next.u (search.p k) =
    if k ∈ path then search.u (search.p k) + delta else search.u (search.p k)
  way : ∀ j ∈ path, next.way j = search.way j
  distances : ∀ c, 1 ≤ c → c ≤ m → c ∉ path → ∃ distance,
    Nearest cost search.toTables path c distance (next.way c) ∧ delta ≤ distance ∧
      next.minv c = some (distance - delta)
  arrives : 1 ≤ next.j0 ∧ next.j0 ≤ m ∧ next.j0 ∉ path ∧ next.minv next.j0 = some 0

theorem Priced.roundMoves {search next : Search ℚ} {visited : List Nat}
    (priced : Priced cost m search visited) (searching : Searching m search visited)
    (taken : search.p search.j0 ≠ 0) (round : searchRound cost m search = some next) :
    ∃ delta, RoundMoves cost m search next (search.j0 :: visited) delta := by
  have used := searching.used_marked
  obtain ⟨scanned, -⟩ := searching.scanned cost
  obtain ⟨delta, isDelta, rfl⟩ := (searchRound_eq_some cost).mp round
  obtain ⟨sameP, sameWay, -, -⟩ := shiftColumns_spec delta (List.range (m + 1))
    { marked search with
      minv := (scanColumns cost m (marked search)).minv
      way := (scanColumns cost m (marked search)).way }
  obtain ⟨unused, -, lower, upper⟩ := scanned.best (by rw [isDelta]; rfl)
  have measuring : Measuring cost m (marked search) visited
      (scanColumns cost m (marked search)) ((List.range' 1 m).reverse ++ []) := by
    apply Measuring.columns used
    · refine ⟨fun c first last outside _ => ?_, nofun, nofun⟩
      exact priced.nearest c first last fun member => outside (List.mem_cons_of_mem _ member)
    · intro j member
      rw [List.mem_range'_1] at member
      omega
    · rw [List.append_nil]
      exact List.nodup_range'
  have seen (c : Nat) (first : 1 ≤ c) (last : c ≤ m) :
      c ∈ (List.range' 1 m).reverse ++ [] := by
    rw [List.append_nil, List.mem_reverse, List.mem_range'_1]
    omega
  have onPath (k : Nat) (member : k ∈ search.j0 :: visited) : k ≤ m ∧ search.p k ≠ 0 := by
    rcases List.mem_cons.mp member with rfl | member
    · exact ⟨searching.inRange, taken⟩
    · exact searching.taken k member
  have inRange (c : Nat) : c ∈ List.range (m + 1) ↔ c ≤ m := by
    rw [List.mem_range, Nat.lt_succ_iff]
  refine ⟨delta, ⟨?_, fun c last => ?_, fun k last hasRow => ?_, fun j member => ?_,
    fun c first last outside => ?_, lower, upper, fun member => ?_, ?_⟩⟩
  · exact sameP
  · dsimp only
    rw [shiftColumns_v delta List.nodup_range]
    dsimp only
    simp only [inRange, last, true_and, used]
    rfl
  · classical
    dsimp only
    rw [shiftColumns_u delta List.nodup_range]
    · have moved : (∃ j ∈ List.range (m + 1), (marked search).used j ∧
          (marked search).p j = search.p k) ↔ k ∈ search.j0 :: visited := by
        constructor
        · rintro ⟨j, member, inUse, same⟩
          rw [← priced.distinct j ((inRange j).mp member) k last
            (fun none => hasRow (same ▸ none)) same]
          exact (used j).mp inUse
        · exact fun member => ⟨k, (inRange k).mpr last, (used k).mpr member, rfl⟩
      dsimp only
      rw [if_congr moved rfl rfl]
      rfl
    · intro j memberJ k memberK usedJ _
      exact priced.distinct j ((inRange j).mp memberJ) k ((inRange k).mp memberK)
        (onPath j ((used j).mp usedJ)).2
  · dsimp only
    rw [sameWay]
    exact scanned.kept j ((used j).mpr member)
  · obtain ⟨distance, best, found, nearest, isBest, smaller⟩ :=
      measuring.new c (seen c first last) outside
    rw [isDelta] at isBest
    cases isBest
    refine ⟨distance, ?_, smaller, ?_⟩
    · dsimp only
      rw [sameWay]
      exact nearest
    · dsimp only
      rw [shiftColumns_minv delta List.nodup_range,
        if_pos ⟨(inRange c).mpr last, fun inUse => outside ((used c).mp inUse)⟩]
      dsimp only
      rw [found]
      rfl
  · exact unused ((used _).mpr member)
  · dsimp only
    rw [shiftColumns_minv delta List.nodup_range, if_pos ⟨(inRange _).mpr upper, unused⟩]
    dsimp only
    rw [(measuring.best delta isDelta).1, Option.map_some, sub_self]

/-- A gap moves with the column and against the row. -/
theorem RoundMoves.gap_eq {search next : Search ℚ} {path : List Nat} {delta : ℚ}
    (moves : RoundMoves cost m search next path delta) {k c : Nat} (row : k ≤ m)
    (hasRow : search.p k ≠ 0) (column : c ≤ m) :
    gap cost next.toTables k c = gap cost search.toTables k c +
      (if c ∈ path then delta else 0) - (if k ∈ path then delta else 0) := by
  unfold gap
  rw [moves.sameP, moves.u k row hasRow, moves.v c column]
  split_ifs <;> ring

/-- A round keeps the potentials below the costs. -/
theorem Priced.round {search next : Search ℚ} {visited : List Nat}
    (priced : Priced cost m search visited) (searching : Searching m search visited)
    (taken : search.p search.j0 ≠ 0) (round : searchRound cost m search = some next) :
    Priced cost m next (search.j0 :: visited) := by
  obtain ⟨delta, moves⟩ := priced.roundMoves searching taken round
  obtain ⟨path, isPath⟩ : ∃ path, path = search.j0 :: visited := ⟨_, rfl⟩
  rw [← isPath] at moves ⊢
  have onPath (k : Nat) (member : k ∈ path) : k ≤ m ∧ search.p k ≠ 0 := by
    rw [isPath] at member
    rcases List.mem_cons.mp member with rfl | member
    · exact ⟨searching.inRange, taken⟩
    · exact searching.taken k member
  have start : 0 ∈ path := by
    rw [isPath]
    cases visited with
    | nil => exact List.mem_cons.mpr (.inl (priced.root.1 rfl).symm)
    | cons k visited => exact List.mem_cons_of_mem _ (priced.root.2 (List.cons_ne_nil _ _))
  have rooted (c : Nat) (member : c ∈ path) (notZero : c ≠ 0) : 0 ∈ visited := by
    apply priced.root.2
    rintro rfl
    rw [isPath, List.mem_singleton] at member
    exact notZero (member.trans (priced.root.1 rfl))
  have through (j : Nat) (member : j ∈ path) (notZero : j ≠ 0) : search.way j ∈ path := by
    have chained : Chained search.way (search.j0 :: visited) :=
      ⟨searching.through, searching.chained⟩
    rw [isPath] at member ⊢
    exact chained.mem member notZero
  obtain ⟨lower, upper, arrives, atZero⟩ := moves.arrives
  obtain ⟨distance, nearest, -, found⟩ := moves.distances next.j0 lower upper arrives
  have reached : gap cost search.toTables (next.way next.j0) next.j0 = delta := by
    rw [found, Option.some.injEq, sub_eq_zero] at atZero
    rw [← nearest.here, atZero]
  -- before a column other than column 0 is on the path, potentials may move either way
  have forward (c : Nat) (member : c ∈ path) (notZero : c ≠ 0) : 0 ≤ delta := by
    obtain ⟨row, hasRow⟩ := onPath _ nearest.known
    rw [← reached]
    exact priced.feasible _ row hasRow (fun _ => rooted c member notZero) _ lower upper
  refine ⟨?_, fun k row hasRow _ c first last => ?_, fun k first last hasRow => ?_,
    fun j member notZero => ?_, fun c first last outside => ?_, fun c first last => ?_,
    fun c first last isFree => ?_, fun none => ?_, fun _ => start⟩
  · rw [moves.sameP]
    exact priced.distinct
  · rw [moves.sameP] at hasRow
    rw [moves.gap_eq row hasRow last]
    by_cases ofPath : k ∈ path
    · by_cases onto : c ∈ path
      · have before := priced.feasible k row hasRow (fun _ => rooted c onto (by omega)) c first last
        rw [if_pos ofPath, if_pos onto]
        linarith
      · obtain ⟨distance, nearestC, smaller, -⟩ := moves.distances c first last onto
        have least := nearestC.least k ofPath
        rw [if_pos ofPath, if_neg onto]
        linarith
    · have before := priced.feasible k row hasRow
        (fun zero => absurd (zero ▸ start) ofPath) c first last
      rw [if_neg ofPath]
      by_cases onto : c ∈ path
      · have positive := forward c onto (by omega)
        rw [if_pos onto]
        linarith
      · rw [if_neg onto]
        linarith
  · rw [moves.sameP] at hasRow
    rw [moves.gap_eq last hasRow last, priced.tight k first last hasRow]
    split_ifs <;> ring
  · rcases List.mem_cons.mp member with rfl | member
    · obtain ⟨row, hasRow⟩ := onPath _ nearest.known
      rw [moves.gap_eq row hasRow upper, reached, if_pos nearest.known, if_neg arrives]
      ring
    · have onto := through j member notZero
      obtain ⟨row, hasRow⟩ := onPath _ onto
      rw [moves.way j member, moves.gap_eq row hasRow (onPath j member).1,
        priced.edges j (isPath ▸ member) notZero, if_pos onto, if_pos member]
      ring
  · obtain ⟨distance, nearestC, -, found⟩ := moves.distances c first last outside
    have shifted (j : Nat) (member : j ∈ path) :
        gap cost next.toTables j c = gap cost search.toTables j c - delta := by
      obtain ⟨row, hasRow⟩ := onPath j member
      rw [moves.gap_eq row hasRow last, if_neg outside, if_pos member]
      ring
    refine ⟨fun other isOther => ?_, fun none => absurd (found.symm.trans none) nofun⟩
    rw [found, Option.some.injEq] at isOther
    refine ⟨nearestC.known, ?_, fun j member => ?_⟩
    · rw [shifted _ nearestC.known, ← nearestC.here, isOther]
    · rw [shifted j member, ← isOther]
      exact sub_le_sub_right (nearestC.least j member) delta
  · rw [moves.v c last]
    have before := priced.nonpos c first last
    by_cases onto : c ∈ path
    · have positive := forward c onto (by omega)
      rw [if_pos onto]
      linarith
    · rw [if_neg onto]
      exact before
  · rw [moves.sameP] at isFree
    have outside : c ∉ path := fun member => (onPath c member).2 isFree
    rw [moves.v c last, if_neg outside]
    exact priced.free c first last isFree
  · rw [none] at start
    exact absurd start List.not_mem_nil

end TrackDetail

end DroneEngage
