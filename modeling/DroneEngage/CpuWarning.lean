import DroneEngage.CpuDetail
import DroneEngage.RunningMaxima

/-!
# The warning of an overloaded unit

The warning names the busiest board and a module.  The board is found by a loop over the
busy boards, and the module by a loop over the modules of every board that was the
busiest for a while.  So the module is one of the board that is named only where none of
the boards before it had a heavier one.
-/

namespace DroneEngage

open RunningMaxima

def errorSystemLoad : Int32 := 30

def notificationTypeTelemetry : Int32 := 33

def notificationTypeWarning : Int32 := 4

def notificationTypeNotice : Int32 := 5

def messageIdCpuSuperBusy : Int32 := 1

def messageIdCpuFree : Int32 := 2

namespace CCpuAggregator

/-- The variables of the loop in `deBuildUnitCpuWarning`. -/
structure BusiestScan where
  busiestBoard : String
  busiestBoardU : Int32
  busiestModule : String
  busiestModulePu : Int32

/-- One round of the loop over the modules of a board. -/
def scanModule (scan : BusiestScan) (entry : String × ModuleReport) : BusiestScan :=
  if entry.2.pu > scan.busiestModulePu then
    { scan with busiestModulePu := entry.2.pu, busiestModule := entry.1 }
  else scan

variable (aggregator : CCpuAggregator) (nowMs : Nat)

def takeBoard (scan : BusiestScan) (entry : String × BoardModules) : BusiestScan :=
  entry.2.entries.foldl scanModule
    { scan with
      busiestBoard := entry.1
      busiestBoardU := (aggregator.computeBoardStats nowMs entry.2).u }

/-- One round of the loop over the boards. -/
def scanBoard (scan : BusiestScan) (entry : String × BoardModules) : BusiestScan :=
  let stats := aggregator.computeBoardStats nowMs entry.2
  if stats.s ≠ cpuBoardStateSuperBusy ∨ stats.u < scan.busiestBoardU then scan
  else aggregator.takeBoard nowMs scan entry

def busiest : BusiestScan :=
  aggregator.boards.entries.foldl (aggregator.scanBoard nowMs) ⟨"", -1, "", -1⟩

def percent (usage : Int32) : String :=
  toString usage.toInt ++ "%"

def warningDescription (becameSuperBusy : Bool) : String :=
  let scan := aggregator.busiest nowMs
  if becameSuperBusy then
    "Unit CPU super busy " ++ percent aggregator.unitUsage ++
      if !scan.busiestBoard.isEmpty then
        " - busiest board '" ++ scan.busiestBoard ++ "' " ++ percent scan.busiestBoardU ++
          if !scan.busiestModule.isEmpty then
            " (module '" ++ scan.busiestModule ++ "' " ++ percent scan.busiestModulePu ++ ")"
          else ""
      else ""
  else "Unit CPU free " ++ percent aggregator.unitUsage

def deBuildUnitCpuWarning (becameSuperBusy : Bool) : Json :=
  .object
    [ ("CP", aggregator.buildCpuDetailJson nowMs),
      ("DS", .string (aggregator.warningDescription nowMs becameSuperBusy)),
      ("EN", ofInt32 errorSystemLoad),
      ("IT", ofInt32 notificationTypeTelemetry),
      ("MI", ofInt32 (if becameSuperBusy then messageIdCpuSuperBusy else messageIdCpuFree)),
      ("NT", ofInt32
        (if becameSuperBusy then notificationTypeWarning else notificationTypeNotice)) ]

/-- What the warning names: a board with its usage, and a module with its own. -/
def named : Option (String × Int32 × Option (String × Int32)) :=
  let scan := aggregator.busiest nowMs
  if scan.busiestBoard.isEmpty then none
  else
    some (scan.busiestBoard, scan.busiestBoardU,
      if scan.busiestModule.isEmpty then none
      else some (scan.busiestModule, scan.busiestModulePu))

/-- The text of a warning that names some board and some module. -/
def overloadText (usage : Int32)
    (names : Option (String × Int32 × Option (String × Int32))) : String :=
  "Unit CPU super busy " ++ percent usage ++
    names.elim "" fun board =>
      " - busiest board '" ++ board.1 ++ "' " ++ percent board.2.1 ++
        board.2.2.elim "" fun blamed =>
          " (module '" ++ blamed.1 ++ "' " ++ percent blamed.2 ++ ")"

/-- The board is the busiest one of the busy boards, and the module has the usage that is
named on that board, where no module has a larger one. -/
def RightlyNamed : Option (String × Int32 × Option (String × Int32)) → Prop
  | none => True
  | some (boardId, u, blamed) =>
      ∃ modules, aggregator.boards.find? boardId = some modules ∧
        (aggregator.computeBoardStats nowMs modules).s = cpuBoardStateSuperBusy ∧
        (aggregator.computeBoardStats nowMs modules).u = u ∧
        (∀ other modules, aggregator.boards.find? other = some modules →
          (aggregator.computeBoardStats nowMs modules).s = cpuBoardStateSuperBusy →
            (aggregator.computeBoardStats nowMs modules).u ≤ u) ∧
        ∀ moduleId pu, blamed = some (moduleId, pu) →
          (∃ report, modules.find? moduleId = some report ∧ report.pu = pu) ∧
            ∀ other report, modules.find? other = some report → report.pu ≤ pu

def isBusy (entry : String × BoardModules) : Bool :=
  (aggregator.computeBoardStats nowMs entry.2).s = cpuBoardStateSuperBusy

def usageOf (entry : String × BoardModules) : Int :=
  (aggregator.computeBoardStats nowMs entry.2).u.toInt

/-- The busy boards that no busy board before them exceeds. -/
def busyLeaders : List (String × BoardModules) :=
  leaders (aggregator.usageOf nowMs) (aggregator.isBusy nowMs) aggregator.boards.entries

/-- The first of the heaviest modules of these boards. -/
def heaviest : Option (String × ModuleReport) :=
  firstLargest (fun entry => entry.2.pu.toInt) (-1)
    ((aggregator.busyLeaders nowMs).flatMap fun entry => entry.2.entries)

/-- The module found has the same usage on the board that is named. -/
def BlamedThere : Prop :=
  ∀ boardId modules, (aggregator.busyLeaders nowMs).getLast? = some (boardId, modules) →
    boardId ≠ "" → ∀ moduleId report, aggregator.heaviest nowMs = some (moduleId, report) →
      moduleId ≠ "" → ∃ own, modules.find? moduleId = some own ∧ own.pu = report.pu

section Loops

variable {aggregator nowMs}

theorem foldl_scanModule (entries : List (String × ModuleReport)) (scan : BusiestScan) :
    (entries.foldl scanModule scan).busiestBoard = scan.busiestBoard ∧
      (entries.foldl scanModule scan).busiestBoardU = scan.busiestBoardU := by
  induction entries generalizing scan with
  | nil => exact ⟨rfl, rfl⟩
  | cons entry entries ih =>
      rw [List.foldl_cons, (ih _).1, (ih _).2, scanModule]
      split <;> exact ⟨rfl, rfl⟩

/-- The module of a scan is the best of the modules so far. -/
def Scans (scan : BusiestScan) (best : Option (String × ModuleReport)) : Prop :=
  scan.busiestModule = best.elim "" Prod.fst ∧
    scan.busiestModulePu = best.elim (-1) fun entry => entry.2.pu

theorem Scans.foldl_scanModule (entries : List (String × ModuleReport)) {scan : BusiestScan}
    {best : Option (String × ModuleReport)} (scans : Scans scan best) :
    Scans (entries.foldl scanModule scan)
      (entries.foldl (keepLarger (fun entry => entry.2.pu.toInt) (-1)) best) := by
  induction entries generalizing scan best with
  | nil => exact scans
  | cons entry entries ih =>
      apply ih
      have bound : best.elim (-1) (fun entry => entry.2.pu.toInt) =
          scan.busiestModulePu.toInt := by
        rw [scans.2]
        cases best <;> rfl
      rw [scanModule, keepLarger, bound]
      by_cases larger : entry.2.pu > scan.busiestModulePu
      · rw [if_pos larger, if_pos (Int32.lt_iff_toInt_lt.mp larger)]
        exact ⟨rfl, rfl⟩
      · rw [if_neg larger, if_neg fun above => larger (Int32.lt_iff_toInt_lt.mpr above)]
        exact scans

theorem Scans.foldl_takeBoard (boards : List (String × BoardModules)) {scan : BusiestScan}
    {best : Option (String × ModuleReport)} (scans : Scans scan best) :
    Scans (boards.foldl (aggregator.takeBoard nowMs) scan)
      ((boards.flatMap fun entry => entry.2.entries).foldl
        (keepLarger (fun entry => entry.2.pu.toInt) (-1)) best) := by
  induction boards generalizing scan best with
  | nil => exact scans
  | cons entry boards ih =>
      rw [List.foldl_cons, List.flatMap_cons, List.foldl_append]
      exact ih (Scans.foldl_scanModule entry.2.entries scans)

theorem takeBoard_board (scan : BusiestScan) (entry : String × BoardModules) :
    (aggregator.takeBoard nowMs scan entry).busiestBoard = entry.1 ∧
      (aggregator.takeBoard nowMs scan entry).busiestBoardU =
        (aggregator.computeBoardStats nowMs entry.2).u :=
  foldl_scanModule entry.2.entries _

theorem scan_u_nonneg (reports : List ModuleReport) {scan : BoardScan}
    (nonneg : 0 ≤ scan.stats.u.toInt ∧ 0 ≤ scan.staleMaxU.toInt) :
    0 ≤ (reports.foldl (aggregator.scanReport nowMs) scan).stats.u.toInt ∧
      0 ≤ (reports.foldl (aggregator.scanReport nowMs) scan).staleMaxU.toInt := by
  induction reports generalizing scan with
  | nil => exact nonneg
  | cons report reports ih =>
      apply ih
      have keeps (u : Int32) (least : 0 ≤ u.toInt) :
          0 ≤ (if report.u > u then report.u else u).toInt := by
        split
        · rename_i above
          exact least.trans (Int32.lt_iff_toInt_lt.mp above).le
        · exact least
      rw [scanReport]
      split
      · exact ⟨keeps _ nonneg.1, keeps _ nonneg.2⟩
      · exact ⟨nonneg.1, keeps _ nonneg.2⟩

theorem usageOf_nonneg (entry : String × BoardModules) : 0 ≤ aggregator.usageOf nowMs entry := by
  have scanned := @scan_u_nonneg aggregator nowMs entry.2.values
    ⟨⟨0, cpuBoardStateFree, 0⟩, false, 0⟩ ⟨le_rfl, le_rfl⟩
  rw [usageOf, computeBoardStats]
  dsimp only
  split
  · exact scanned.1
  · exact scanned.2

/-- The loop takes the busy boards that lead those before them. -/
theorem busiest_eq : aggregator.busiest nowMs =
    (aggregator.busyLeaders nowMs).foldl (aggregator.takeBoard nowMs) ⟨"", -1, "", -1⟩ := by
  have round : aggregator.scanBoard nowMs = fun scan entry =>
      if aggregator.isBusy nowMs entry = false ∨
        aggregator.usageOf nowMs entry < scan.busiestBoardU.toInt then scan
      else aggregator.takeBoard nowMs scan entry := by
    funext scan entry
    rw [scanBoard]
    refine if_congr (or_congr ?_ Int32.lt_iff_toInt_lt) rfl rfl
    rw [isBusy, decide_eq_false_iff_not]
  rw [busiest, round]
  apply @foldl_leaders _ _ _ (aggregator.usageOf nowMs) (aggregator.isBusy nowMs) _
    (fun scan : BusiestScan => scan.busiestBoardU.toInt)
  · exact fun entry _ => le_trans (by decide) (usageOf_nonneg entry)
  · intro scan entry
    rw [(takeBoard_board scan entry).2, usageOf]

theorem scans_busiest : Scans (aggregator.busiest nowMs) (aggregator.heaviest nowMs) := by
  rw [busiest_eq, heaviest, ← foldl_keepLarger]
  exact Scans.foldl_takeBoard _ ⟨rfl, rfl⟩

theorem busiest_of_getLast? {last : String × BoardModules}
    (isLast : (aggregator.busyLeaders nowMs).getLast? = some last) :
    (aggregator.busiest nowMs).busiestBoard = last.1 ∧
      (aggregator.busiest nowMs).busiestBoardU =
        (aggregator.computeBoardStats nowMs last.2).u := by
  obtain ⟨front, split⟩ := List.getLast?_eq_some_iff.mp isLast
  rw [busiest_eq, split, List.foldl_append, List.foldl_cons, List.foldl_nil]
  exact takeBoard_board _ last

/-- Where a board is named, it is the last of the leaders, and so the busiest board. -/
theorem busiest_board {boardId : String} {modules : BoardModules}
    (isLast : (aggregator.busyLeaders nowMs).getLast? = some (boardId, modules)) :
    aggregator.boards.find? boardId = some modules ∧
      (aggregator.computeBoardStats nowMs modules).s = cpuBoardStateSuperBusy ∧
      ∀ other otherModules, aggregator.boards.find? other = some otherModules →
        (aggregator.computeBoardStats nowMs otherModules).s = cpuBoardStateSuperBusy →
          (aggregator.computeBoardStats nowMs otherModules).u ≤
            (aggregator.computeBoardStats nowMs modules).u := by
  rcases @getLast?_leaders _ _ _ (aggregator.usageOf nowMs) (aggregator.isBusy nowMs)
      aggregator.boards.entries with
    ⟨none, -⟩ | ⟨last, found, listed, busy, largest⟩
  · exact absurd (isLast.symm.trans none) nofun
  · cases isLast.symm.trans found
    refine ⟨aggregator.boards.find?_eq_some_iff.mpr listed, of_decide_eq_true busy,
      fun other otherModules place busyOther => ?_⟩
    exact Int32.le_iff_toInt_le.mpr (largest (other, otherModules)
      (aggregator.boards.find?_eq_some_iff.mp place) (decide_eq_true busyOther))

end Loops

theorem warningDescription_eq : aggregator.warningDescription nowMs true =
    overloadText aggregator.unitUsage (aggregator.named nowMs) := by
  unfold warningDescription named overloadText
  dsimp only
  cases (aggregator.busiest nowMs).busiestBoard.isEmpty <;>
    cases (aggregator.busiest nowMs).busiestModule.isEmpty <;> rfl

/-- The warning names the right board and module exactly where the first of the heaviest
modules of the leading boards is as heavy on the last of these. -/
theorem deBuildUnitCpuWarning_rightlyNamed_iff :
    (aggregator.deBuildUnitCpuWarning nowMs true).member? "DS" =
        some (.string (overloadText aggregator.unitUsage (aggregator.named nowMs))) ∧
      (aggregator.RightlyNamed nowMs (aggregator.named nowMs) ↔
        aggregator.BlamedThere nowMs) := by
  refine ⟨by rw [← warningDescription_eq]; rfl, ?_⟩
  unfold BlamedThere
  cases isLast : (aggregator.busyLeaders nowMs).getLast? with
  | none =>
      have start : aggregator.busiest nowMs = ⟨"", -1, "", -1⟩ := by
        rw [busiest_eq, List.getLast?_eq_none_iff.mp isLast]
        rfl
      rw [named, start]
      exact iff_of_true trivial nofun
  | some last =>
      obtain ⟨boardId, modules⟩ := last
      obtain ⟨sameBoard, sameU⟩ := busiest_of_getLast? isLast
      obtain ⟨place, busy, largest⟩ := busiest_board isLast
      obtain ⟨sameModule, samePu⟩ := @scans_busiest aggregator nowMs
      by_cases noBoard : boardId = ""
      · have unnamed : aggregator.named nowMs = none := by
          rw [named, sameBoard, noBoard]
          rfl
        rw [unnamed]
        refine iff_of_true trivial fun other otherModules same isNamed => ?_
        cases same
        exact absurd noBoard isNamed
      · have isNamed : aggregator.named nowMs = some (boardId,
            (aggregator.computeBoardStats nowMs modules).u,
            if (aggregator.busiest nowMs).busiestModule.isEmpty then none
            else some ((aggregator.busiest nowMs).busiestModule,
              (aggregator.busiest nowMs).busiestModulePu)) := by
          rw [named, sameBoard, sameU, if_neg (by simpa using noBoard)]
        have listed (other : String) (report : ModuleReport)
            (found : modules.find? other = some report) :
            (other, report) ∈ (aggregator.busyLeaders nowMs).flatMap fun entry =>
              entry.2.entries :=
          List.mem_flatMap.mpr ⟨_, List.mem_of_getLast? isLast,
            modules.find?_eq_some_iff.mp found⟩
        rw [isNamed, RightlyNamed]
        constructor
        · rintro ⟨found, place', -, -, -, blamed⟩ boardId' modules' same - moduleId report heavy
            named
          cases same
          cases place.symm.trans place'
          rw [heavy, Option.elim_some] at sameModule samePu
          rw [sameModule, samePu, if_neg (by simpa using named)] at blamed
          exact (blamed moduleId report.pu rfl).1
        · intro there
          refine ⟨modules, place, busy, rfl, largest, fun moduleId pu blamed => ?_⟩
          obtain ⟨named, blamed⟩ := Option.ite_none_left_eq_some.mp blamed
          cases blamed
          cases heavy : aggregator.heaviest nowMs with
          | none =>
              rw [heavy, Option.elim_none] at sameModule
              exact absurd (by rw [sameModule]; rfl) named
          | some entry =>
              obtain ⟨moduleId, report⟩ := entry
              rw [heavy, Option.elim_some] at sameModule samePu
              rw [sameModule] at named ⊢
              rw [samePu]
              obtain ⟨-, -, heaviest⟩ := of_firstLargest heavy
              refine ⟨there boardId modules rfl noBoard moduleId report heavy
                (by simpa using named), fun other report found => ?_⟩
              exact Int32.le_iff_toInt_le.mpr (heaviest _ (listed other report found))

/-- Two boards are busy, the first one with the heavier module. -/
def twoBusyBoards : CCpuAggregator :=
  (((fresh .default).storeReport "b1" "de_ai" ⟨90, 80, cpuBoardStateSuperBusy, 1000⟩).storeReport
    "b2" "de_tracker" ⟨95, 20, cpuBoardStateSuperBusy, 1000⟩ |>.tick 1000).1

/-- The module of the first board is named with the second board. -/
theorem rightlyNamed_fails :
    (twoBusyBoards.deBuildUnitCpuWarning 1000 true).member? "DS" = some (.string
        "Unit CPU super busy 95% - busiest board 'b2' 95% (module 'de_ai' 80%)") ∧
      ¬ twoBusyBoards.RightlyNamed 1000 (twoBusyBoards.named 1000) := by
  have named : twoBusyBoards.named 1000 = some ("b2", 95, some ("de_ai", 80)) := by
    decide
  have text : twoBusyBoards.warningDescription 1000 true =
      "Unit CPU super busy 95% - busiest board 'b2' 95% (module 'de_ai' 80%)" := by
    decide
  refine ⟨congrArg (fun text => some (Json.string text)) text, ?_⟩
  rw [named]
  rintro ⟨modules, place, -, -, -, blamed⟩
  obtain ⟨⟨report, found, -⟩, -⟩ := blamed "de_ai" 80 rfl
  have lookups : (twoBusyBoards.boards.find? "b2").bind (fun modules => modules.find? "de_ai") =
      none := by
    decide
  rw [place, Option.bind_some, found] at lookups
  exact Option.some_ne_none _ lookups

end CCpuAggregator

end DroneEngage
