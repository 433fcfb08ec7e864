import DroneEngage.CpuMonitor
import DroneEngage.OrderedMaps
import Mathlib.Data.String.Basic

/-!
# The CPU aggregator of a unit

The reports of all modules are merged into one unit state.  The latest report is
kept for each board and module; a tick drops the boards that fell silent and
folds the others into the figure of the unit.
-/

namespace DroneEngage

/-- The fields `s` of a report. -/
def cpuBoardStateFree : Int32 := 0

def cpuBoardStateSuperBusy : Int32 := 1

/-- The bits that `tick` returns. -/
def unitCpuEventNone : Nat := 0

def unitCpuEventBecameSuperBusy : Nat := 1

def unitCpuEventBecameFree : Nat := 2

def unitCpuEventSummaryDue : Nat := 4

def raises (events event : Nat) : Bool :=
  events &&& event != 0

def boardRemoveAfterMs : Nat := 60000

structure ModuleReport where
  u : Int32
  pu : Int32
  s : Int32
  seenAtMs : Nat
  deriving DecidableEq, Repr

/-- The latest report of each module of a board. -/
abbrev BoardModules :=
  OrderedMap String ModuleReport

/-- What `computeBoardStats` gives out. -/
structure BoardStats where
  u : Int32
  s : Int32
  newestMs : Nat
  deriving DecidableEq, Repr

/-- The variables of the loop in `computeBoardStats`. -/
structure BoardScan where
  stats : BoardStats
  sawFresh : Bool
  staleMaxU : Int32

structure CCpuAggregator where
  config : CpuMonitorConfig
  boards : OrderedMap String BoardModules
  unitState : CpuBusyState
  unitUsage : Int32
  clockStarted : Bool
  lastSummaryMs : Nat

namespace CCpuAggregator

def fresh (config : CpuMonitorConfig) : CCpuAggregator where
  config := config
  boards := .empty
  unitState := .free
  unitUsage := 0
  clockStarted := false
  lastSummaryMs := 0

def configure (aggregator : CCpuAggregator) (config : CpuMonitorConfig) : CCpuAggregator :=
  { aggregator with config := config, clockStarted := false, lastSummaryMs := 0 }

section Reports

variable (beyondInt : Double → Int32)

/-- A field of a report that is a number. -/
def reportNumber (report : Json) (key : String) : Option Int32 :=
  (report.member? key).bind fun found =>
    if found.isNumber then (found.getInt beyondInt).toOption else none

/-- The board and the entry of a report, unless a field it must have is missing
or of another type, or the board has no name. -/
def readReport (report : Json) (nowMs : Nat) : Option (String × ModuleReport) :=
  match report.member? "bd", reportNumber beyondInt report "u",
      reportNumber beyondInt report "s" with
  | some (.string boardId), some u, some s =>
      if boardId.isEmpty then none
      else
        some (boardId,
          { u := u
            pu := (reportNumber beyondInt report "pu").getD (-1)
            s := s
            seenAtMs := nowMs })
  | _, _, _ => none

/-- `m_boards[board_id][module_id] = entry` -/
def storeReport (aggregator : CCpuAggregator) (boardId moduleId : String)
    (entry : ModuleReport) : CCpuAggregator :=
  let modules := (aggregator.boards.find? boardId).getD .empty
  { aggregator with
      boards := aggregator.boards.insert boardId (modules.insert moduleId entry) }

def onReport (aggregator : CCpuAggregator) (moduleId : String) (report : Json)
    (nowMs : Nat) : CCpuAggregator × Bool :=
  match readReport beyondInt report nowMs with
  | some (boardId, entry) => (aggregator.storeReport boardId moduleId entry, true)
  | none => (aggregator, false)

theorem readReport_seenAtMs {report : Json} {nowMs : Nat} {boardId : String}
    {entry : ModuleReport} (read : readReport beyondInt report nowMs = some (boardId, entry)) :
    entry.seenAtMs = nowMs := by
  unfold readReport at read
  split at read
  · split at read
    · cases read
    · cases read
      rfl
  · cases read

end Reports

variable (aggregator : CCpuAggregator) (nowMs : Nat)

def staleWindowMs : Nat :=
  3 * unsigned64 aggregator.config.reportS * 1000 % 2 ^ 64

def isFresh (report : ModuleReport) : Bool :=
  nowMs ≥ report.seenAtMs && nowMs - report.seenAtMs ≤ aggregator.staleWindowMs

def boardIsFresh (modules : BoardModules) : Bool :=
  modules.values.any (aggregator.isFresh nowMs)

/-- One round of the loop in `computeBoardStats`. -/
def scanReport (scan : BoardScan) (report : ModuleReport) : BoardScan :=
  let newestMs :=
    if report.seenAtMs > scan.stats.newestMs then report.seenAtMs else scan.stats.newestMs
  let staleMaxU := if report.u > scan.staleMaxU then report.u else scan.staleMaxU
  if aggregator.isFresh nowMs report then
    { stats :=
        { u := if report.u > scan.stats.u then report.u else scan.stats.u
          s :=
            if report.s = cpuBoardStateSuperBusy then cpuBoardStateSuperBusy
            else scan.stats.s
          newestMs := newestMs }
      sawFresh := true
      staleMaxU := staleMaxU }
  else
    { stats := { scan.stats with newestMs := newestMs }
      sawFresh := scan.sawFresh
      staleMaxU := staleMaxU }

def computeBoardStats (modules : BoardModules) : BoardStats :=
  let scan := modules.values.foldl (aggregator.scanReport nowMs)
    { stats := { u := 0, s := cpuBoardStateFree, newestMs := 0 }
      sawFresh := false
      staleMaxU := 0 }
  if scan.sawFresh then scan.stats else { scan.stats with u := scan.staleMaxU }

/-- The newest report of the board is older than a minute. -/
def isSilent (modules : BoardModules) : Bool :=
  let newestMs := (aggregator.computeBoardStats nowMs modules).newestMs
  nowMs ≥ newestMs && nowMs - newestMs > boardRemoveAfterMs

def keptBoards : OrderedMap String BoardModules :=
  aggregator.boards.filter fun modules => !aggregator.isSilent nowMs modules

def wantedState : CpuBusyState :=
  if (aggregator.keptBoards nowMs).values.any fun modules =>
      (aggregator.computeBoardStats nowMs modules).s = cpuBoardStateSuperBusy
  then .superBusy
  else .free

/-- The time that the summary timer counts from, at a tick. -/
def summaryBaseMs : Nat :=
  if aggregator.clockStarted then aggregator.lastSummaryMs else nowMs

def summaryDue : Bool :=
  aggregator.config.summaryS > 0 && nowMs ≥ aggregator.summaryBaseMs nowMs &&
    nowMs - aggregator.summaryBaseMs nowMs ≥
      unsigned64 aggregator.config.summaryS * 1000 % 2 ^ 64

def tick : CCpuAggregator × Nat :=
  let boards := aggregator.keptBoards nowMs
  let want := aggregator.wantedState nowMs
  let due := aggregator.summaryDue nowMs
  let edge :=
    if want = aggregator.unitState then unitCpuEventNone
    else if want = .superBusy then unitCpuEventBecameSuperBusy
    else unitCpuEventBecameFree
  ({ aggregator with
      boards := boards
      unitState := want
      unitUsage := boards.values.foldl
        (fun usage modules =>
          let boardU := (aggregator.computeBoardStats nowMs modules).u
          if boardU > usage then boardU else usage) 0
      clockStarted := true
      lastSummaryMs := if due then nowMs else aggregator.summaryBaseMs nowMs },
    edge ||| if due then unitCpuEventSummaryDue else unitCpuEventNone)

section Stats

variable {aggregator nowMs} {modules : BoardModules}

theorem scanReport_newestMs (scan : BoardScan) (report : ModuleReport) :
    (aggregator.scanReport nowMs scan report).stats.newestMs =
      max scan.stats.newestMs report.seenAtMs := by
  have newer : (if report.seenAtMs > scan.stats.newestMs then report.seenAtMs
      else scan.stats.newestMs) = max scan.stats.newestMs report.seenAtMs := by
    split <;> omega
  rw [scanReport, newer]
  cases aggregator.isFresh nowMs report <;> rfl

theorem scanReport_s_iff (scan : BoardScan) (report : ModuleReport) :
    (aggregator.scanReport nowMs scan report).stats.s = cpuBoardStateSuperBusy ↔
      scan.stats.s = cpuBoardStateSuperBusy ∨
        aggregator.isFresh nowMs report ∧ report.s = cpuBoardStateSuperBusy := by
  rw [scanReport]
  cases aggregator.isFresh nowMs report with
  | false => simp
  | true => by_cases busy : report.s = cpuBoardStateSuperBusy <;> simp [busy]

theorem scan_newestMs_le_iff (reports : List ModuleReport) (scan : BoardScan) (bound : Nat) :
    (reports.foldl (aggregator.scanReport nowMs) scan).stats.newestMs ≤ bound ↔
      scan.stats.newestMs ≤ bound ∧ ∀ report ∈ reports, report.seenAtMs ≤ bound := by
  induction reports generalizing scan with
  | nil => simp
  | cons report reports ih =>
      rw [List.foldl_cons, ih, scanReport_newestMs, List.forall_mem_cons, Nat.max_le, and_assoc]

theorem scan_s_iff (reports : List ModuleReport) (scan : BoardScan) :
    (reports.foldl (aggregator.scanReport nowMs) scan).stats.s = cpuBoardStateSuperBusy ↔
      scan.stats.s = cpuBoardStateSuperBusy ∨ ∃ report ∈ reports,
        aggregator.isFresh nowMs report ∧ report.s = cpuBoardStateSuperBusy := by
  induction reports generalizing scan with
  | nil => simp
  | cons report reports ih =>
      rw [List.foldl_cons, ih, scanReport_s_iff, List.exists_mem_cons_iff, or_assoc]

/-- The newest time bounds the times of all reports, and nothing below it does. -/
theorem newestMs_le_iff (bound : Nat) :
    (aggregator.computeBoardStats nowMs modules).newestMs ≤ bound ↔
      ∀ report ∈ modules.values, report.seenAtMs ≤ bound := by
  have scanned := @scan_newestMs_le_iff aggregator nowMs modules.values
    ⟨⟨0, cpuBoardStateFree, 0⟩, false, 0⟩ bound
  rw [and_iff_right (Nat.zero_le _)] at scanned
  rw [← scanned, computeBoardStats]
  dsimp only
  split <;> rfl

/-- A board is busy if a fresh report says so. -/
theorem computeBoardStats_s_iff :
    (aggregator.computeBoardStats nowMs modules).s = cpuBoardStateSuperBusy ↔
      ∃ report ∈ modules.values,
        aggregator.isFresh nowMs report ∧ report.s = cpuBoardStateSuperBusy := by
  have scanned := @scan_s_iff aggregator nowMs modules.values
    ⟨⟨0, cpuBoardStateFree, 0⟩, false, 0⟩
  rw [or_iff_right (by decide)] at scanned
  rw [← scanned, computeBoardStats]
  dsimp only
  split <;> rfl

/-- A board that has reports is silent if all of them are older than a minute. -/
theorem isSilent_iff {report : ModuleReport} (listed : report ∈ modules.values) :
    aggregator.isSilent nowMs modules ↔
      ∀ report ∈ modules.values, report.seenAtMs + boardRemoveAfterMs < nowMs := by
  have bound := @newestMs_le_iff aggregator nowMs modules (nowMs - boardRemoveAfterMs - 1)
  rw [isSilent, Bool.and_eq_true, decide_eq_true_eq, decide_eq_true_eq]
  constructor
  · intro silent other otherListed
    have early := bound.mp (by omega) other otherListed
    omega
  · intro early
    have reported := early report listed
    have newest := bound.mpr fun other otherListed => by
      have := early other otherListed
      omega
    omega

end Stats

section Ticks

variable {aggregator nowMs}

theorem find?_tick (boardId : String) :
    (aggregator.tick nowMs).1.boards.find? boardId =
      (aggregator.boards.find? boardId).filter fun modules =>
        !aggregator.isSilent nowMs modules :=
  OrderedMap.find?_filter _ _ _

/-- A tick makes the unit busy if some board that it keeps has a fresh report
that says so. -/
theorem tick_unitState_iff :
    (aggregator.tick nowMs).1.unitState = .superBusy ↔
      ∃ boardId modules, (aggregator.tick nowMs).1.boards.find? boardId = some modules ∧
        ∃ moduleId report, modules.find? moduleId = some report ∧
          aggregator.isFresh nowMs report ∧ report.s = cpuBoardStateSuperBusy := by
  have busy (modules : BoardModules) :
      (aggregator.computeBoardStats nowMs modules).s = cpuBoardStateSuperBusy ↔
        ∃ moduleId report, modules.find? moduleId = some report ∧
          aggregator.isFresh nowMs report ∧ report.s = cpuBoardStateSuperBusy := by
    simp only [computeBoardStats_s_iff, OrderedMap.mem_values, ← exists_and_right]
    exact exists_comm
  change aggregator.wantedState nowMs = .superBusy ↔ ∃ boardId modules,
    (aggregator.keptBoards nowMs).find? boardId = some modules ∧ _
  simp only [← busy, wantedState, ite_eq_left_iff, reduceCtorEq, imp_false, not_not,
    List.any_eq_true, decide_eq_true_eq, OrderedMap.mem_values, ← exists_and_right]
  exact exists_comm

/-- A tick reports an edge into a state exactly when it changes the state to it. -/
theorem raises_tick_becameSuperBusy_iff :
    raises (aggregator.tick nowMs).2 unitCpuEventBecameSuperBusy ↔
      aggregator.unitState = .free ∧ (aggregator.tick nowMs).1.unitState = .superBusy := by
  unfold tick
  dsimp only
  cases aggregator.wantedState nowMs <;> cases aggregator.unitState <;>
    cases aggregator.summaryDue nowMs <;> decide

theorem raises_tick_becameFree_iff :
    raises (aggregator.tick nowMs).2 unitCpuEventBecameFree ↔
      aggregator.unitState = .superBusy ∧ (aggregator.tick nowMs).1.unitState = .free := by
  unfold tick
  dsimp only
  cases aggregator.wantedState nowMs <;> cases aggregator.unitState <;>
    cases aggregator.summaryDue nowMs <;> decide

theorem raises_tick_summaryDue :
    raises (aggregator.tick nowMs).2 unitCpuEventSummaryDue = aggregator.summaryDue nowMs := by
  unfold tick
  dsimp only
  cases aggregator.wantedState nowMs <;> cases aggregator.unitState <;>
    cases aggregator.summaryDue nowMs <;> decide

end Ticks

end CCpuAggregator

end DroneEngage
