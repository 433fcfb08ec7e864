import DroneEngage.CpuWarning

/-!
# The summary of a unit

From time to time the unit tells its usage and its busiest board.  The usage is the one
that the last tick stored, and the board is looked for when the summary is made.  Made
right after a tick, at its time, the text says of both what the CP object says.
-/

namespace DroneEngage

open EventRuns RunningMaxima CCpuAggregator

def notificationTypeInfo : Int32 := 6

def messageIdCpuSummary : Int32 := 3

namespace CCpuAggregator

/-- The variables of the loop in `deBuildUnitCpuSummary`. -/
structure SummaryScan where
  busiestBoard : String
  busiestBoardU : Int32

variable (aggregator : CCpuAggregator) (nowMs : Nat)

/-- One round of the loop. -/
def summarizeBoard (scan : SummaryScan) (entry : String × BoardModules) : SummaryScan :=
  let boardU := (aggregator.computeBoardStats nowMs entry.2).u
  if boardU > scan.busiestBoardU then { busiestBoard := entry.1, busiestBoardU := boardU }
  else scan

def summaryScan : SummaryScan :=
  aggregator.boards.entries.foldl (aggregator.summarizeBoard nowMs) ⟨"", -1⟩

def summaryDescription : String :=
  let scan := aggregator.summaryScan nowMs
  "Unit CPU " ++ percent aggregator.unitUsage ++ " across " ++
    toString aggregator.boards.entries.length ++ " board(s)" ++
      if !scan.busiestBoard.isEmpty then
        " - busiest '" ++ scan.busiestBoard ++ "' " ++ percent scan.busiestBoardU
      else ""

def deBuildUnitCpuSummary : Json :=
  .object
    [ ("CP", aggregator.buildCpuDetailJson nowMs),
      ("DS", .string (aggregator.summaryDescription nowMs)),
      ("EN", ofInt32 errorSystemLoad),
      ("IT", ofInt32 notificationTypeTelemetry),
      ("MI", ofInt32 messageIdCpuSummary),
      ("NT", ofInt32 notificationTypeInfo) ]

/-- The variables of the loop when it has found some board. -/
def scanOf (best : Option (String × BoardModules)) : SummaryScan :=
  best.elim ⟨"", -1⟩ fun entry => ⟨entry.1, (aggregator.computeBoardStats nowMs entry.2).u⟩

/-- The text of a summary that may name a board, where this has the usage of the unit. -/
def summaryText (usage : Int32) (boards : Nat) (busiest : Option String) : String :=
  "Unit CPU " ++ percent usage ++ " across " ++ toString boards ++ " board(s)" ++
    busiest.elim "" fun boardId => " - busiest '" ++ boardId ++ "' " ++ percent usage

/-- No board has the empty name. -/
def NamesBoards : Prop :=
  ∀ boardId modules, aggregator.boards.find? boardId = some modules → boardId ≠ ""

variable {aggregator nowMs}

section Loop

theorem foldl_summarizeBoard (entries : List (String × BoardModules))
    (best : Option (String × BoardModules)) :
    entries.foldl (aggregator.summarizeBoard nowMs) (aggregator.scanOf nowMs best) =
      aggregator.scanOf nowMs
        (entries.foldl (keepLarger (aggregator.usageOf nowMs) (-1)) best) := by
  induction entries generalizing best with
  | nil => rfl
  | cons entry entries ih =>
      rw [List.foldl_cons, List.foldl_cons, ← ih]
      congr 1
      have bound : best.elim (-1) (aggregator.usageOf nowMs) =
          (aggregator.scanOf nowMs best).busiestBoardU.toInt := by
        cases best <;> rfl
      rw [summarizeBoard, keepLarger, bound]
      by_cases larger : (aggregator.computeBoardStats nowMs entry.2).u >
          (aggregator.scanOf nowMs best).busiestBoardU
      · have above : (aggregator.scanOf nowMs best).busiestBoardU.toInt <
          aggregator.usageOf nowMs entry := Int32.lt_iff_toInt_lt.mp larger
        rw [if_pos larger, if_pos above]
        rfl
      · have below : ¬ (aggregator.scanOf nowMs best).busiestBoardU.toInt <
          aggregator.usageOf nowMs entry := fun above => larger (Int32.lt_iff_toInt_lt.mpr above)
        rw [if_neg larger, if_neg below]

/-- The loop finds the first of the busiest boards, if there is a board. -/
theorem summaryScan_cases :
    (aggregator.boards.entries = [] ∧ aggregator.summaryScan nowMs = ⟨"", -1⟩) ∨
      ∃ entry before after, aggregator.boards.entries = before ++ entry :: after ∧
        aggregator.summaryScan nowMs =
          ⟨entry.1, (aggregator.computeBoardStats nowMs entry.2).u⟩ ∧
        (∀ other ∈ before, aggregator.usageOf nowMs other < aggregator.usageOf nowMs entry) ∧
        ∀ other ∈ after, aggregator.usageOf nowMs other ≤ aggregator.usageOf nowMs entry := by
  have folded : aggregator.summaryScan nowMs = aggregator.scanOf nowMs
      (aggregator.boards.entries.foldl (keepLarger (aggregator.usageOf nowMs) (-1)) none) :=
    foldl_summarizeBoard aggregator.boards.entries none
  rcases @foldl_keepLarger_cases _ _ _ (aggregator.usageOf nowMs) (-1)
      aggregator.boards.entries with
    ⟨none, low⟩ | ⟨entry, before, after, found, -, split, smaller, bound⟩
  · left
    rw [folded, none]
    refine ⟨List.eq_nil_iff_forall_not_mem.mpr fun entry listed => ?_, rfl⟩
    have nonneg := @usageOf_nonneg aggregator nowMs entry
    have negative := low entry listed
    omega
  · right
    rw [folded, found]
    exact ⟨entry, before, after, split, rfl, smaller, bound⟩

end Loop

section Ticks

/-- After a tick the unit has the usage of its busiest board. -/
theorem unitUsage_tick {entry : String × BoardModules}
    (listed : entry ∈ (aggregator.tick nowMs).1.boards.entries)
    (largest : ∀ other ∈ (aggregator.tick nowMs).1.boards.entries,
      aggregator.usageOf nowMs other ≤ aggregator.usageOf nowMs entry) :
    (aggregator.tick nowMs).1.unitUsage = (aggregator.computeBoardStats nowMs entry.2).u := by
  have greatest := foldl_isGreatest
    (fun modules => (aggregator.computeBoardStats nowMs modules).u)
    (aggregator.keptBoards nowMs).values 0
  apply Int32.toInt_inj.mp
  apply le_antisymm
  · rcases greatest.1 with same | ⟨modules, kept, same⟩
    · exact same.le.trans (usageOf_nonneg entry)
    · obtain ⟨other, otherListed, rfl⟩ := List.mem_map.mp kept
      exact same.le.trans (largest other otherListed)
  · exact greatest.2 (.inr ⟨entry.2, List.mem_map_of_mem listed, rfl⟩)

/-- What is said of the busiest board in a CP object. -/
def FirstBusiest (detail : Json) (usage : Int32) (boardId : String) : Prop :=
  ∃ before entry after, boardEntries detail = before ++ entry :: after ∧
    entry.member? "id" = some (.string boardId) ∧ numberAt entry "u" = some usage.toInt ∧
    (∀ other ∈ before, ∃ u, numberAt other "u" = some u ∧ u < usage.toInt) ∧
    ∀ other ∈ after, ∃ u, numberAt other "u" = some u ∧ u ≤ usage.toInt

/-- A summary says of its CP object what the unit's usage is, how many boards there are, and
which of them is the busiest. -/
structure SummaryRight (summary detail : Json) (usage : Int32) (busiest : Option String) :
    Prop where
  cp : summary.member? "CP" = some detail
  text : summary.member? "DS" =
    some (.string (summaryText usage (boardEntries detail).length busiest))
  unitUsage : numberAt detail "u" = some usage.toInt
  unnamed : busiest = none ↔ boardEntries detail = []
  named : ∀ boardId, busiest = some boardId → FirstBusiest detail usage boardId

theorem firstBusiest_of_split {entry : String × BoardModules}
    {before after : List (String × BoardModules)}
    (split : aggregator.boards.entries = before ++ entry :: after)
    (smaller : ∀ other ∈ before, aggregator.usageOf nowMs other < aggregator.usageOf nowMs entry)
    (bound : ∀ other ∈ after, aggregator.usageOf nowMs other ≤ aggregator.usageOf nowMs entry) :
    FirstBusiest (aggregator.buildCpuDetailJson nowMs)
      (aggregator.computeBoardStats nowMs entry.2).u entry.1 := by
  let made (entry : String × BoardModules) := aggregator.boardDetail nowMs entry.1 entry.2
  refine ⟨before.map made, made entry, after.map made, ?_, member?_id_boardDetail,
    numberAt_u_boardDetail, ?_, ?_⟩
  · rw [boardEntries_buildCpuDetailJson, split, List.map_append, List.map_cons]
  · intro board listed
    obtain ⟨other, member, rfl⟩ := List.mem_map.mp listed
    exact ⟨_, numberAt_u_boardDetail, smaller other member⟩
  · intro board listed
    obtain ⟨other, member, rfl⟩ := List.mem_map.mp listed
    exact ⟨_, numberAt_u_boardDetail, bound other member⟩

/-- A summary made right after a tick is right. -/
theorem NamesBoards.summaryRight_tick (named : aggregator.NamesBoards) :
    ∃ usage busiest, SummaryRight ((aggregator.tick nowMs).1.deBuildUnitCpuSummary nowMs)
      ((aggregator.tick nowMs).1.buildCpuDetailJson nowMs) usage busiest := by
  have usage : numberAt ((aggregator.tick nowMs).1.buildCpuDetailJson nowMs) "u" =
      some (aggregator.tick nowMs).1.unitUsage.toInt := by
    rw [← Int32.toInt_toInt64]
    rfl
  have count : (boardEntries ((aggregator.tick nowMs).1.buildCpuDetailJson nowMs)).length =
      (aggregator.tick nowMs).1.boards.entries.length := List.length_map _
  have text (scan : SummaryScan)
      (scanned : (aggregator.tick nowMs).1.summaryScan nowMs = scan) :
      ((aggregator.tick nowMs).1.deBuildUnitCpuSummary nowMs).member? "DS" =
        some (.string ("Unit CPU " ++ percent (aggregator.tick nowMs).1.unitUsage ++
          " across " ++ toString (aggregator.tick nowMs).1.boards.entries.length ++
          " board(s)" ++
            if !scan.busiestBoard.isEmpty then
              " - busiest '" ++ scan.busiestBoard ++ "' " ++ percent scan.busiestBoardU
            else "")) := by
    rw [← scanned]
    rfl
  refine ⟨(aggregator.tick nowMs).1.unitUsage, ?_⟩
  rcases @summaryScan_cases (aggregator.tick nowMs).1 nowMs with
    ⟨empty, scanned⟩ | ⟨entry, before, after, split, scanned, smaller, bound⟩
  · refine ⟨none, rfl, ?_, usage, ?_, nofun⟩
    · rw [text _ scanned, count]
      rfl
    · rw [boardEntries_buildCpuDetailJson, empty]
      exact iff_of_true rfl rfl
  · have listed : entry ∈ (aggregator.tick nowMs).1.boards.entries := by
      rw [split]
      exact List.mem_append_right _ List.mem_cons_self
    have largest : ∀ other ∈ (aggregator.tick nowMs).1.boards.entries,
        aggregator.usageOf nowMs other ≤ aggregator.usageOf nowMs entry := by
      intro other member
      rw [split] at member
      rcases List.mem_append.mp member with member | member
      · exact (smaller other member).le
      · rcases List.mem_cons.mp member with rfl | member
        · exact le_rfl
        · exact bound other member
    have sameUsage := unitUsage_tick listed largest
    have inTick : (aggregator.tick nowMs).1.boards.find? entry.1 = some entry.2 :=
      (aggregator.tick nowMs).1.boards.find?_eq_some_iff.mpr listed
    rw [find?_tick] at inTick
    obtain ⟨found, -⟩ := Option.filter_eq_some_iff.mp inTick
    have isNamed : entry.1 ≠ "" := named entry.1 entry.2 found
    refine ⟨some entry.1, rfl, ?_, usage, ?_, ?_⟩
    · rw [text _ scanned, count, summaryText, Option.elim_some]
      dsimp only
      rw [if_pos (by simpa using isNamed), computeBoardStats_tick, ← sameUsage]
    · rw [boardEntries_buildCpuDetailJson, split]
      simp
    · rintro boardId ⟨⟩
      rw [sameUsage]
      exact firstBusiest_of_split split smaller bound

theorem readReport_ne_empty {beyondInt : Double → Int32} {report : Json} {boardId : String}
    {entry : ModuleReport} (read : readReport beyondInt report nowMs = some (boardId, entry)) :
    boardId ≠ "" := by
  unfold readReport at read
  split at read
  · split at read
    · cases read
    · rename_i given
      cases read
      simpa using given
  · cases read

theorem NamesBoards.storeReport (named : aggregator.NamesBoards) {boardId : String}
    (given : boardId ≠ "") (moduleId : String) (entry : ModuleReport) :
    (aggregator.storeReport boardId moduleId entry).NamesBoards := by
  intro board modules found
  rw [CCpuAggregator.storeReport, OrderedMap.find?_insert] at found
  split at found
  · rename_i same
    exact same ▸ given
  · exact named board modules found

theorem NamesBoards.tick (named : aggregator.NamesBoards) :
    (aggregator.tick nowMs).1.NamesBoards := by
  intro board modules found
  rw [find?_tick] at found
  exact named board modules (Option.filter_eq_some_iff.mp found).1

end Ticks

end CCpuAggregator

namespace UnitCpuWatch

variable {beyondInt : Double → Int32} {watch next : UnitCpuWatch}

theorem namesBoards_step (named : watch.aggregator.NamesBoards) {call : CpuDetailCall}
    (stepped : watch.detailStep beyondInt call = some next) : next.aggregator.NamesBoards := by
  cases call with
  | configure config =>
      cases stepped
      exact named
  | call call =>
      cases call with
      | tick nowMs =>
          obtain ⟨-, same⟩ := Option.ite_none_right_eq_some.mp stepped
          cases same
          exact named.tick
      | onReport moduleId report nowMs =>
          obtain ⟨-, same⟩ := Option.ite_none_right_eq_some.mp stepped
          cases same
          cases read : readReport beyondInt report nowMs with
          | none =>
              rw [onReport, read]
              exact named
          | some taken =>
              rw [onReport, read]
              exact named.storeReport (readReport_ne_empty read) moduleId taken.2

/-- In every run, a summary made right after a tick, at its time, gives the usage of its CP
object, the number of the boards there, and the first of those with this usage, unless
there is no board. -/
theorem summaryRight_of_run {config : CpuMonitorConfig} {calls : List CpuDetailCall}
    {nowMs : Nat}
    (run : Run (detailStep beyondInt) (fresh config) (calls ++ [.call (.tick nowMs)]) watch) :
    ∃ usage busiest, SummaryRight (watch.aggregator.deBuildUnitCpuSummary nowMs)
      (watch.aggregator.buildCpuDetailJson nowMs) usage busiest := by
  obtain ⟨before, earlier, stepped⟩ := run.last
  have named : before.aggregator.NamesBoards :=
    earlier.invariant (fun watch => watch.aggregator.NamesBoards) nofun
      fun _ stepped named => namesBoards_step named stepped
  obtain ⟨-, same⟩ := Option.ite_none_right_eq_some.mp stepped
  cases same
  exact named.summaryRight_tick

/-- A busy board is named. -/
theorem summaryRight_busy_board :
    ∃ watch, Run (detailStep (fun _ => 0)) (fresh .default)
        ([.call (.onReport "camera" busyReport 1000)] ++ [.call (.tick 2000)]) watch ∧
      ∃ usage busiest, SummaryRight (watch.aggregator.deBuildUnitCpuSummary 2000)
        (watch.aggregator.buildCpuDetailJson 2000) usage busiest := by
  have run :=
    (Run.nil.snoc (show detailStep (fun _ => 0) (fresh .default)
        (.call (.onReport "camera" busyReport 1000)) = some _ from rfl)).snoc
      (show detailStep (fun _ => 0) _ (.call (.tick 2000)) = some _ from rfl)
  exact ⟨_, run, summaryRight_of_run run⟩

end UnitCpuWatch

end DroneEngage
