import DroneEngage.ReportingBoards
import Mathlib.Order.Bounds.Basic

/-!
# The CP object

The object that goes out for a unit is made from the figures that the last tick
stored and from a second pass over the boards.  Built right after a tick, at the
same time, the two passes agree.
-/

namespace DroneEngage

open EventRuns CCpuAggregator

namespace CCpuAggregator

def ofInt32 (number : Int32) : Json :=
  .numberInteger number.toInt64

variable (aggregator : CCpuAggregator) (nowMs : Nat)

/-- The modules of a board that report their own usage. -/
def usageEntries (modules : BoardModules) : List Json :=
  modules.entries.filterMap fun entry =>
    if entry.2.pu < 0 then none
    else some (.array [.string entry.1, ofInt32 entry.2.pu])

def boardDetail (boardId : String) (modules : BoardModules) : Json :=
  let stats := aggregator.computeBoardStats nowMs modules
  let usage := usageEntries modules
  .object
    ([("id", .string boardId)] ++
      (if usage.isEmpty then [] else [("m", .array usage)]) ++
      [("s", ofInt32 stats.s)] ++
      (if aggregator.boardIsFresh nowMs modules then [] else [("st", .boolean true)]) ++
      [("u", ofInt32 stats.u)])

def buildCpuDetailJson : Json :=
  .object
    [ ("b", .array (aggregator.boards.entries.map fun entry =>
        aggregator.boardDetail nowMs entry.1 entry.2)),
      ("s", ofInt32 (if aggregator.unitState = .superBusy then cpuBoardStateSuperBusy
        else cpuBoardStateFree)),
      ("u", ofInt32 aggregator.unitUsage) ]

section Passes

variable {aggregator nowMs} {modules : BoardModules}

theorem scanReport_s (scan : BoardScan) (report : ModuleReport)
    (known : scan.stats.s = cpuBoardStateFree ∨ scan.stats.s = cpuBoardStateSuperBusy) :
    (aggregator.scanReport nowMs scan report).stats.s = cpuBoardStateFree ∨
      (aggregator.scanReport nowMs scan report).stats.s = cpuBoardStateSuperBusy := by
  rw [scanReport]
  split
  · dsimp only
    split
    · exact .inr rfl
    · exact known
  · exact known

theorem scan_s (reports : List ModuleReport) (scan : BoardScan)
    (known : scan.stats.s = cpuBoardStateFree ∨ scan.stats.s = cpuBoardStateSuperBusy) :
    (reports.foldl (aggregator.scanReport nowMs) scan).stats.s = cpuBoardStateFree ∨
      (reports.foldl (aggregator.scanReport nowMs) scan).stats.s =
        cpuBoardStateSuperBusy := by
  induction reports generalizing scan with
  | nil => exact known
  | cons report reports ih => exact ih _ (scanReport_s scan report known)

/-- A board without a fresh report is never busy. -/
theorem computeBoardStats_s_of_stale (stale : aggregator.boardIsFresh nowMs modules = false) :
    (aggregator.computeBoardStats nowMs modules).s = cpuBoardStateFree := by
  have known : (aggregator.computeBoardStats nowMs modules).s = cpuBoardStateFree ∨
      (aggregator.computeBoardStats nowMs modules).s = cpuBoardStateSuperBusy := by
    have scanned := @scan_s aggregator nowMs modules.values
      ⟨⟨0, cpuBoardStateFree, 0⟩, false, 0⟩ (.inl rfl)
    rw [computeBoardStats]
    dsimp only
    split <;> exact scanned
  rcases known with free | busy
  · exact free
  · obtain ⟨report, listed, fresh, -⟩ := computeBoardStats_s_iff.mp busy
    rw [boardIsFresh, List.any_eq_false] at stale
    exact absurd fresh (stale report listed)

/-- The two passes over a board use the same configuration. -/
theorem computeBoardStats_tick (modules : BoardModules) :
    (aggregator.tick nowMs).1.computeBoardStats nowMs modules =
      aggregator.computeBoardStats nowMs modules :=
  rfl

theorem tick_unitState_of_kept :
    (aggregator.tick nowMs).1.unitState = .superBusy ↔
      ∃ modules ∈ (aggregator.tick nowMs).1.boards.values,
        (aggregator.computeBoardStats nowMs modules).s = cpuBoardStateSuperBusy := by
  change aggregator.wantedState nowMs = .superBusy ↔
    ∃ modules ∈ (aggregator.keptBoards nowMs).values, _
  simp [wantedState]

/-- The largest of some numbers, or the one to start from. -/
theorem foldl_isGreatest {α : Type} (number : α → Int32) (entries : List α)
    (start : Int32) :
    IsGreatest {value | value = start.toInt ∨ ∃ entry ∈ entries, value = (number entry).toInt}
      (entries.foldl (fun largest entry =>
        if number entry > largest then number entry else largest) start).toInt := by
  induction entries generalizing start with
  | nil =>
      refine ⟨.inl rfl, fun value listed => ?_⟩
      rcases listed with rfl | ⟨entry, listed, -⟩
      · exact le_refl _
      · cases listed
  | cons entry rest ih =>
      rw [List.foldl_cons]
      obtain ⟨attained, bound⟩ := ih (if number entry > start then number entry else start)
      have larger : start.toInt ≤ (if number entry > start then number entry else start).toInt ∧
          (number entry).toInt ≤
            (if number entry > start then number entry else start).toInt := by
        split
        · rename_i above
          exact ⟨(Int32.lt_iff_toInt_lt.mp above).le, le_refl _⟩
        · rename_i below
          exact ⟨le_refl _, not_lt.mp fun above => below (Int32.lt_iff_toInt_lt.mpr above)⟩
      constructor
      · rcases attained with same | ⟨other, listed, same⟩
        · rw [same]
          split
          · exact .inr ⟨entry, List.mem_cons_self, rfl⟩
          · exact .inl rfl
        · exact .inr ⟨other, List.mem_cons_of_mem _ listed, same⟩
      · intro value listed
        have above := bound (Or.inl rfl)
        rcases listed with rfl | ⟨other, listed, rfl⟩
        · exact larger.1.trans above
        · rcases List.mem_cons.mp listed with rfl | listed
          · exact larger.2.trans above
          · exact bound (.inr ⟨other, listed, rfl⟩)

end Passes

def boardEntries (detail : Json) : List Json :=
  ((detail.member? "b").getD .null).elements

def numberAt (entry : Json) (key : String) : Option Int :=
  match entry.member? key with
  | some (.numberInteger value) => some value.toInt
  | _ => none

section Members

variable {aggregator : CCpuAggregator} {nowMs : Nat} {boardId : String}
  {modules : BoardModules}

theorem member?_id_boardDetail :
    (aggregator.boardDetail nowMs boardId modules).member? "id" = some (.string boardId) := by
  unfold boardDetail
  dsimp only
  split <;> split <;> rfl

theorem member?_st_boardDetail :
    (aggregator.boardDetail nowMs boardId modules).member? "st" =
      if aggregator.boardIsFresh nowMs modules then none else some (.boolean true) := by
  unfold boardDetail
  dsimp only
  split <;> split <;> rfl

theorem numberAt_s_boardDetail :
    numberAt (aggregator.boardDetail nowMs boardId modules) "s" =
      some (aggregator.computeBoardStats nowMs modules).s.toInt := by
  rw [← Int32.toInt_toInt64]
  unfold boardDetail
  dsimp only
  split <;> split <;> rfl

theorem numberAt_u_boardDetail :
    numberAt (aggregator.boardDetail nowMs boardId modules) "u" =
      some (aggregator.computeBoardStats nowMs modules).u.toInt := by
  rw [← Int32.toInt_toInt64]
  unfold boardDetail
  dsimp only
  split <;> split <;> rfl

theorem boardEntries_buildCpuDetailJson :
    boardEntries (aggregator.buildCpuDetailJson nowMs) =
      aggregator.boards.entries.map fun entry =>
        aggregator.boardDetail nowMs entry.1 entry.2 :=
  rfl

theorem exists_boardEntries {holds : Json → Prop} :
    (∃ board ∈ boardEntries (aggregator.buildCpuDetailJson nowMs), holds board) ↔
      ∃ boardId modules, aggregator.boards.find? boardId = some modules ∧
        holds (aggregator.boardDetail nowMs boardId modules) := by
  simp only [boardEntries_buildCpuDetailJson, List.mem_map, OrderedMap.find?_eq_some_iff]
  constructor
  · rintro ⟨board, ⟨⟨boardId, modules⟩, listed, rfl⟩, held⟩
    exact ⟨boardId, modules, listed, held⟩
  · rintro ⟨boardId, modules, listed, held⟩
    exact ⟨_, ⟨(boardId, modules), listed, rfl⟩, held⟩

/-- The unit usage that a tick stores is the largest usage of the entries. -/
theorem isGreatest_usage_tick :
    IsGreatest {value | value = 0 ∨
        ∃ board ∈ boardEntries ((aggregator.tick nowMs).1.buildCpuDetailJson nowMs),
          numberAt board "u" = some value}
      (aggregator.tick nowMs).1.unitUsage.toInt64.toInt := by
  have greatest := foldl_isGreatest
    (fun modules => (aggregator.computeBoardStats nowMs modules).u)
    (aggregator.keptBoards nowMs).values 0
  have listed (value : Int) :
      (∃ board ∈ boardEntries ((aggregator.tick nowMs).1.buildCpuDetailJson nowMs),
          numberAt board "u" = some value) ↔
        ∃ modules ∈ (aggregator.keptBoards nowMs).values,
          value = (aggregator.computeBoardStats nowMs modules).u.toInt := by
    rw [exists_boardEntries]
    simp only [numberAt_u_boardDetail, computeBoardStats_tick, Option.some.injEq,
      OrderedMap.mem_values, ← exists_and_right]
    rw [exists_comm]
    simp only [eq_comm]
    rfl
  simp only [listed, Int32.toInt_toInt64]
  exact greatest

theorem numberAt_s_buildCpuDetailJson :
    numberAt (aggregator.buildCpuDetailJson nowMs) "s" =
      some (if aggregator.unitState = .superBusy then cpuBoardStateSuperBusy
        else cpuBoardStateFree).toInt := by
  rw [← Int32.toInt_toInt64]
  rfl

/-- The unit state that a tick stores is busy if some entry is. -/
theorem busy_tick_iff :
    numberAt ((aggregator.tick nowMs).1.buildCpuDetailJson nowMs) "s" =
        some cpuBoardStateSuperBusy.toInt ↔
      ∃ board ∈ boardEntries ((aggregator.tick nowMs).1.buildCpuDetailJson nowMs),
        numberAt board "s" = some cpuBoardStateSuperBusy.toInt := by
  have state : numberAt ((aggregator.tick nowMs).1.buildCpuDetailJson nowMs) "s" =
      some cpuBoardStateSuperBusy.toInt ↔
        (aggregator.tick nowMs).1.unitState = .superBusy := by
    rw [numberAt_s_buildCpuDetailJson, Option.some.injEq, Int32.toInt_inj, ite_eq_left_iff]
    constructor
    · intro same
      by_contra other
      exact absurd (same other) (by decide)
    · intro busy other
      exact absurd busy other
  rw [state, tick_unitState_of_kept, exists_boardEntries]
  simp only [numberAt_s_boardDetail, computeBoardStats_tick, Option.some.injEq,
    Int32.toInt_inj, OrderedMap.mem_values, ← exists_and_right]
  rw [exists_comm]

theorem stale_board_free (board : Json)
    (listed : board ∈ boardEntries (aggregator.buildCpuDetailJson nowMs))
    (flagged : board.member? "st" = some (.boolean true)) :
    numberAt board "s" = some cpuBoardStateFree.toInt := by
  rw [boardEntries_buildCpuDetailJson] at listed
  obtain ⟨⟨boardId, modules⟩, -, rfl⟩ := List.mem_map.mp listed
  rw [member?_st_boardDetail] at flagged
  split at flagged
  · cases flagged
  · rename_i stale
    rw [numberAt_s_boardDetail, computeBoardStats_s_of_stale (eq_false_of_ne_true stale)]

theorem nodup_ids :
    ((boardEntries (aggregator.buildCpuDetailJson nowMs)).map fun board =>
      board.member? "id").Nodup := by
  rw [boardEntries_buildCpuDetailJson, List.map_map]
  apply List.pairwise_map.mpr
  refine aggregator.boards.sorted.imp fun {left right} before same => ?_
  simp only [Function.comp_apply, member?_id_boardDetail, Option.some.injEq,
    Json.string.injEq] at same
  exact before.ne same

end Members

end CCpuAggregator

/-- A CP object at some time whose parts agree with each other and with the
reports that were taken. -/
structure SelfConsistent (history : List UnitCpuMoment) (nowMs : Nat) (detail : Json) :
    Prop where
  usage : ∃ u, numberAt detail "u" = some u ∧
    IsGreatest {value | value = 0 ∨
      ∃ board ∈ boardEntries detail, numberAt board "u" = some value} u
  state : numberAt detail "s" = some cpuBoardStateFree.toInt ∨
    numberAt detail "s" = some cpuBoardStateSuperBusy.toInt
  busy : numberAt detail "s" = some cpuBoardStateSuperBusy.toInt ↔
    ∃ board ∈ boardEntries detail, numberAt board "s" = some cpuBoardStateSuperBusy.toInt
  stale : ∀ board ∈ boardEntries detail, board.member? "st" = some (.boolean true) →
    numberAt board "s" = some cpuBoardStateFree.toInt
  once : ((boardEntries detail).map fun board => board.member? "id").Nodup
  listed : ∀ boardId,
    (∃ board ∈ boardEntries detail, board.member? "id" = some (.string boardId)) ↔
      ∃ moduleId report, .reported boardId moduleId report ∈ history ∧
        nowMs ≤ report.seenAtMs + boardRemoveAfterMs

theorem SelfConsistent.ticked {history : List UnitCpuMoment} {nowMs : Nat} {detail : Json}
    (consistent : SelfConsistent history nowMs detail) (tickMs events : Nat)
    (state : CpuBusyState) (boards : List String) :
    SelfConsistent (.ticked tickMs events state boards :: history) nowMs detail :=
  { consistent with
    listed := by simpa using consistent.listed }

theorem BoardExpired.mono {history : List UnitCpuMoment} {boardId : String}
    {earlierMs nowMs : Nat} (expired : BoardExpired history boardId earlierMs)
    (ordered : earlierMs ≤ nowMs) : BoardExpired history boardId nowMs :=
  fun moduleId report reported => (expired moduleId report reported).trans_le ordered

namespace UnitCpuWatch

/-- A call on an aggregator that may also be configured anew. -/
inductive CpuDetailCall
  | call (call : UnitCpuCall)
  | configure (config : CpuMonitorConfig)

variable (beyondInt : Double → Int32)

def detailStep (watch : UnitCpuWatch) : CpuDetailCall → Option UnitCpuWatch
  | .call call => watch.step beyondInt call
  | .configure config =>
      some { watch with aggregator := watch.aggregator.configure config }

/-- The boards of the aggregator are those with a report of the last minute. -/
structure HoldsRecent (watch : UnitCpuWatch) : Prop where
  follows : Follows watch.aggregator.config watch
  forgotten : ∀ boardId, watch.aggregator.boards.find? boardId = none →
    BoardExpired watch.history boardId watch.clockMs

variable {beyondInt} {watch next : UnitCpuWatch}

theorem Follows.configure (follows : Follows watch.aggregator.config watch)
    (config : CpuMonitorConfig) :
    Follows config { watch with aggregator := watch.aggregator.configure config } where
  sameConfig := rfl
  seen := follows.seen
  found := follows.found
  inhabited := follows.inhabited
  newest := follows.newest
  state := follows.state

theorem HoldsRecent.fresh (config : CpuMonitorConfig) : HoldsRecent (fresh config) := by
  refine ⟨.fresh config, ?_⟩
  intro boardId absent moduleId report reported
  cases reported

theorem HoldsRecent.tick (recent : HoldsRecent watch) {nowMs : Nat}
    (ordered : watch.clockMs ≤ nowMs) :
    HoldsRecent
      { aggregator := (watch.aggregator.tick nowMs).1
        clockMs := nowMs
        history := .ticked nowMs (watch.aggregator.tick nowMs).2
          (watch.aggregator.tick nowMs).1.unitState
          (watch.aggregator.tick nowMs).1.boards.keys :: watch.history } := by
  refine ⟨recent.follows.tick ordered, ?_⟩
  intro boardId absent moduleId report reported
  have reported : .reported boardId moduleId report ∈ watch.history := by
    rcases List.mem_cons.mp reported with same | reported
    · cases same
    · exact reported
  -- the board was already gone, or its newest report is too old
  rw [find?_tick, Option.filter_eq_none_iff] at absent
  cases found : watch.aggregator.boards.find? boardId with
  | none => exact (recent.forgotten boardId found).mono ordered _ _ reported
  | some modules =>
      have silent : watch.aggregator.isSilent nowMs modules = true := by
        simpa using absent modules found
      exact (recent.follows.isSilent_iff found).mp silent _ _ reported

theorem HoldsRecent.report (recent : HoldsRecent watch) {boardId moduleId : String}
    {entry : ModuleReport} {nowMs : Nat} (ordered : watch.clockMs ≤ nowMs)
    (seenAt : entry.seenAtMs = nowMs) :
    HoldsRecent
      { aggregator := watch.aggregator.storeReport boardId moduleId entry
        clockMs := nowMs
        history := .reported boardId moduleId entry :: watch.history } := by
  refine ⟨recent.follows.report ordered seenAt, ?_⟩
  intro board absent module report reported
  rw [storeReport, OrderedMap.find?_insert] at absent
  split at absent
  · cases absent
  · rename_i apart
    rcases List.mem_cons.mp reported with same | reported
    · cases same
      exact absurd rfl apart
    · exact (recent.forgotten board absent).mono ordered _ _ reported

theorem HoldsRecent.step (recent : HoldsRecent watch) {call : CpuDetailCall}
    (stepped : watch.detailStep beyondInt call = some next) : HoldsRecent next := by
  cases call with
  | configure config =>
      cases stepped
      exact ⟨recent.follows.configure config, recent.forgotten⟩
  | call call =>
      cases call with
      | tick nowMs =>
          obtain ⟨ordered, same⟩ := Option.ite_none_right_eq_some.mp stepped
          cases same
          exact recent.tick ordered
      | onReport moduleId report nowMs =>
          obtain ⟨ordered, same⟩ := Option.ite_none_right_eq_some.mp stepped
          cases same
          cases read : readReport beyondInt report nowMs with
          | none =>
              rw [onReport, read]
              refine ⟨{ recent.follows with
                seen := fun _ _ _ reported =>
                  (recent.follows.seen _ _ _ reported).trans ordered }, ?_⟩
              exact fun boardId absent => (recent.forgotten boardId absent).mono ordered
          | some taken =>
              rw [onReport, read]
              exact recent.report ordered (readReport_seenAtMs beyondInt read)

theorem HoldsRecent.listed_iff (recent : HoldsRecent watch) {nowMs : Nat}
    (ordered : watch.clockMs ≤ nowMs) (boardId : String) :
    (∃ modules, (watch.aggregator.tick nowMs).1.boards.find? boardId = some modules) ↔
      ∃ moduleId report, .reported boardId moduleId report ∈ watch.history ∧
        nowMs ≤ report.seenAtMs + boardRemoveAfterMs := by
  have alive : (∃ moduleId report, .reported boardId moduleId report ∈ watch.history ∧
      nowMs ≤ report.seenAtMs + boardRemoveAfterMs) ↔
        ¬ BoardExpired watch.history boardId nowMs := by
    simp [BoardExpired]
  rw [alive]
  cases found : watch.aggregator.boards.find? boardId with
  | none =>
      have expired := (recent.forgotten boardId found).mono ordered
      simp [find?_tick, found, expired]
  | some modules =>
      rw [← recent.follows.isSilent_iff found]
      simp [find?_tick, found, Option.filter_some]

theorem HoldsRecent.selfConsistent_tick (recent : HoldsRecent watch) {nowMs : Nat}
    (ordered : watch.clockMs ≤ nowMs) :
    SelfConsistent watch.history nowMs
      ((watch.aggregator.tick nowMs).1.buildCpuDetailJson nowMs) where
  usage := ⟨_, rfl, isGreatest_usage_tick⟩
  state := by
    rw [numberAt_s_buildCpuDetailJson]
    split
    · exact .inr rfl
    · exact .inl rfl
  busy := busy_tick_iff
  stale := stale_board_free
  once := nodup_ids
  listed := by
    intro boardId
    rw [← recent.listed_iff ordered, exists_boardEntries]
    simp only [member?_id_boardDetail, Option.some.injEq, Json.string.injEq]
    constructor
    · rintro ⟨board, modules, found, rfl⟩
      exact ⟨modules, found⟩
    · rintro ⟨modules, found⟩
      exact ⟨boardId, modules, found, rfl⟩

/-- The CP object built right after a tick, at its time, is self-consistent. -/
theorem selfConsistent_of_run {config : CpuMonitorConfig} {calls : List CpuDetailCall}
    {nowMs : Nat}
    (run : Run (detailStep beyondInt) (fresh config) (calls ++ [.call (.tick nowMs)]) watch) :
    SelfConsistent watch.history nowMs (watch.aggregator.buildCpuDetailJson nowMs) := by
  obtain ⟨before, earlier, stepped⟩ := run.last
  have recent : HoldsRecent before :=
    earlier.invariant HoldsRecent (.fresh config) fun _ stepped recent => recent.step stepped
  obtain ⟨ordered, same⟩ := Option.ite_none_right_eq_some.mp stepped
  cases same
  exact (recent.selfConsistent_tick ordered).ticked nowMs _ _ _

/-- A board that reported and fell silent for longer than the stale window is
still listed. -/
theorem selfConsistent_stale_board :
    ∃ watch,
      Run (detailStep (fun _ => 0)) (fresh .default)
        ([.configure .default] ++ [.call (.onReport "camera" busyReport 1000)] ++
          [.call (.tick 50000)]) watch ∧
      SelfConsistent watch.history 50000 (watch.aggregator.buildCpuDetailJson 50000) := by
  have run :=
    ((Run.nil.snoc (show detailStep (fun _ => 0) (fresh .default)
        (.configure .default) = some _ from rfl)).snoc
      (show detailStep (fun _ => 0) _ (.call (.onReport "camera" busyReport 1000)) =
        some _ from rfl)).snoc
      (show detailStep (fun _ => 0) _ (.call (.tick 50000)) = some _ from rfl)
  exact ⟨_, run, selfConsistent_of_run run⟩

end UnitCpuWatch

end DroneEngage
