import DroneEngage.CpuAggregator
import DroneEngage.EventRuns

/-!
# What the aggregator remembers

A watch keeps every report that was taken and every tick, the newest first.  A
report is remembered while it is the latest of its module and no tick since has
found all reports of its board older than a minute.  The map of the aggregator
holds exactly the reports that are remembered.
-/

namespace DroneEngage

open EventRuns CCpuAggregator

inductive UnitCpuCall
  | onReport (moduleId : String) (report : Json) (nowMs : Nat)
  | tick (nowMs : Nat)

/-- A report that was taken, or a tick with what it returned, the state of the unit
after it and the boards listed then. -/
inductive UnitCpuMoment
  | reported (boardId moduleId : String) (report : ModuleReport)
  | ticked (nowMs events : Nat) (state : CpuBusyState) (boards : List String)

/-- An aggregator, the time of the last call, and the moments so far, the newest
first. -/
structure UnitCpuWatch where
  aggregator : CCpuAggregator
  clockMs : Nat
  history : List UnitCpuMoment

def BoardExpired (history : List UnitCpuMoment) (boardId : String) (nowMs : Nat) : Prop :=
  ∀ moduleId report, .reported boardId moduleId report ∈ history →
    report.seenAtMs + boardRemoveAfterMs < nowMs

/-- The report is the latest of its module, and no tick since has forgotten its
board. -/
def Remembers (history : List UnitCpuMoment) (boardId moduleId : String)
    (report : ModuleReport) : Prop :=
  ∃ later earlier, history = later ++ .reported boardId moduleId report :: earlier ∧
    (∀ other, .reported boardId moduleId other ∉ later) ∧
    ∀ after nowMs events state boards before,
      later = after ++ .ticked nowMs events state boards :: before →
      ¬ BoardExpired (before ++ .reported boardId moduleId report :: earlier) boardId nowMs

def stateAfter : List UnitCpuMoment → CpuBusyState
  | [] => .free
  | .reported .. :: earlier => stateAfter earlier
  | .ticked _ _ state _ :: _ => state

/-- The times of the ticks that a summary was due at, the newest first. -/
def dueTimes (history : List UnitCpuMoment) : List Nat :=
  history.filterMap fun
    | .ticked nowMs events _ _ =>
        if raises events unitCpuEventSummaryDue then some nowMs else none
    | .reported .. => none

section Remembering

variable {history : List UnitCpuMoment} {boardId moduleId : String} {report : ModuleReport}

theorem Remembers.mem (remembers : Remembers history boardId moduleId report) :
    .reported boardId moduleId report ∈ history := by
  obtain ⟨later, earlier, split, -, -⟩ := remembers
  exact split ▸ List.mem_append_right _ List.mem_cons_self

theorem not_remembers_nil : ¬ Remembers [] boardId moduleId report :=
  fun remembers => List.not_mem_nil remembers.mem

/-- A tick forgets the boards whose reports are all older than a minute. -/
theorem remembers_ticked_iff (nowMs events : Nat) (state : CpuBusyState)
    (boards : List String) :
    Remembers (.ticked nowMs events state boards :: history) boardId moduleId report ↔
      Remembers history boardId moduleId report ∧ ¬ BoardExpired history boardId nowMs := by
  constructor
  · rintro ⟨later, earlier, split, latest, kept⟩
    rcases List.cons_eq_append_iff.mp split with ⟨-, same⟩ | ⟨rest, rfl, rfl⟩
    · cases same
    · refine ⟨⟨rest, earlier, rfl, fun other member => ?_, ?_⟩, kept [] _ _ _ _ _ rfl⟩
      · exact latest other (List.mem_cons_of_mem _ member)
      · rintro after tickMs tickEvents tickState tickBoards before rfl
        exact kept (_ :: after) tickMs tickEvents tickState tickBoards before rfl
  · rintro ⟨⟨later, earlier, rfl, latest, kept⟩, alive⟩
    refine ⟨.ticked nowMs events state boards :: later, earlier, rfl, fun other member => ?_, ?_⟩
    · rcases List.mem_cons.mp member with same | member
      · cases same
      · exact latest other member
    · intro after tickMs tickEvents tickState tickBoards before split
      rcases List.cons_eq_append_iff.mp split with ⟨rfl, same⟩ | ⟨rest, rfl, rfl⟩
      · cases same
        exact alive
      · exact kept rest tickMs tickEvents tickState tickBoards before rfl

/-- A new report takes the place of the last one of its module. -/
theorem remembers_reported_iff (newBoard newModule : String) (entry : ModuleReport) :
    Remembers (.reported newBoard newModule entry :: history) boardId moduleId report ↔
      if boardId = newBoard ∧ moduleId = newModule then report = entry
      else Remembers history boardId moduleId report := by
  constructor
  · rintro ⟨later, earlier, split, latest, kept⟩
    rcases List.cons_eq_append_iff.mp split with ⟨-, same⟩ | ⟨rest, rfl, rfl⟩
    · cases same
      rw [if_pos ⟨rfl, rfl⟩]
    · have apart : ¬ (boardId = newBoard ∧ moduleId = newModule) := by
        rintro ⟨rfl, rfl⟩
        exact latest entry List.mem_cons_self
      rw [if_neg apart]
      refine ⟨rest, earlier, rfl, fun other member => ?_, ?_⟩
      · exact latest other (List.mem_cons_of_mem _ member)
      · rintro after tickMs tickEvents tickState tickBoards before rfl
        exact kept (_ :: after) tickMs tickEvents tickState tickBoards before rfl
  · intro remembers
    split at remembers
    · rename_i same
      obtain ⟨rfl, rfl⟩ := same
      subst remembers
      refine ⟨[], history, rfl, fun _ => List.not_mem_nil, ?_⟩
      intro after tickMs tickEvents tickState tickBoards before split
      exact absurd split (by simp)
    · rename_i apart
      obtain ⟨later, earlier, rfl, latest, kept⟩ := remembers
      refine ⟨.reported newBoard newModule entry :: later, earlier, rfl,
        fun other member => ?_, ?_⟩
      · rcases List.mem_cons.mp member with same | member
        · cases same
          exact apart ⟨rfl, rfl⟩
        · exact latest other member
      · intro after tickMs tickEvents tickState tickBoards before split
        rcases List.cons_eq_append_iff.mp split with ⟨-, same⟩ | ⟨rest, rfl, rfl⟩
        · cases same
        · exact kept rest tickMs tickEvents tickState tickBoards before rfl

end Remembering

namespace UnitCpuWatch

def fresh (config : CpuMonitorConfig) : UnitCpuWatch where
  aggregator := .fresh config
  clockMs := 0
  history := []

variable (beyondInt : Double → Int32)

/-- A call at a time that is not before the last one. -/
def step (watch : UnitCpuWatch) : UnitCpuCall → Option UnitCpuWatch
  | .onReport moduleId report nowMs =>
      if watch.clockMs ≤ nowMs then
        some
          { aggregator := (watch.aggregator.onReport beyondInt moduleId report nowMs).1
            clockMs := nowMs
            history :=
              match readReport beyondInt report nowMs with
              | some (boardId, entry) => .reported boardId moduleId entry :: watch.history
              | none => watch.history }
      else none
  | .tick nowMs =>
      if watch.clockMs ≤ nowMs then
        let ticked := watch.aggregator.tick nowMs
        some
          { aggregator := ticked.1
            clockMs := nowMs
            history := .ticked nowMs ticked.2 ticked.1.unitState ticked.1.boards.keys ::
              watch.history }
      else none

/-- The map of the aggregator holds what is remembered of the history. -/
structure Follows (config : CpuMonitorConfig) (watch : UnitCpuWatch) : Prop where
  sameConfig : watch.aggregator.config = config
  seen : ∀ boardId moduleId report,
    .reported boardId moduleId report ∈ watch.history → report.seenAtMs ≤ watch.clockMs
  found : ∀ boardId moduleId report,
    (∃ modules, watch.aggregator.boards.find? boardId = some modules ∧
      modules.find? moduleId = some report) ↔
    Remembers watch.history boardId moduleId report
  inhabited : ∀ boardId modules, watch.aggregator.boards.find? boardId = some modules →
    ∃ report, report ∈ modules.values
  newest : ∀ boardId modules, watch.aggregator.boards.find? boardId = some modules →
    ∀ moduleId report, .reported boardId moduleId report ∈ watch.history →
      ∃ newest ∈ modules.values, report.seenAtMs ≤ newest.seenAtMs
  state : watch.aggregator.unitState = stateAfter watch.history

section Steps

variable {config : CpuMonitorConfig} {watch : UnitCpuWatch} {boardId : String}
  {modules : BoardModules} {nowMs : Nat}

theorem Follows.fresh (config : CpuMonitorConfig) : Follows config (fresh config) where
  sameConfig := rfl
  seen := nofun
  found := by
    intro boardId moduleId report
    exact iff_of_false nofun not_remembers_nil
  inhabited := nofun
  newest := nofun
  state := rfl

/-- The board is silent exactly when all that it reported is older than a minute. -/
theorem Follows.isSilent_iff (follows : Follows config watch)
    (found : watch.aggregator.boards.find? boardId = some modules) :
    watch.aggregator.isSilent nowMs modules ↔ BoardExpired watch.history boardId nowMs := by
  obtain ⟨some, listed⟩ := follows.inhabited _ _ found
  rw [CCpuAggregator.isSilent_iff listed]
  constructor
  · intro silent moduleId report reported
    obtain ⟨newest, newestListed, ordered⟩ := follows.newest _ _ found _ _ reported
    have := silent newest newestListed
    omega
  · intro expired report reportListed
    obtain ⟨moduleId, held⟩ := (OrderedMap.mem_values _).mp reportListed
    exact expired moduleId report ((follows.found _ _ _).mp ⟨modules, found, held⟩).mem

theorem Follows.tick (follows : Follows config watch) (ordered : watch.clockMs ≤ nowMs) :
    Follows config
      { aggregator := (watch.aggregator.tick nowMs).1
        clockMs := nowMs
        history := .ticked nowMs (watch.aggregator.tick nowMs).2
          (watch.aggregator.tick nowMs).1.unitState
          (watch.aggregator.tick nowMs).1.boards.keys :: watch.history } := by
  have kept {boardId : String} {modules : BoardModules} :
      (watch.aggregator.tick nowMs).1.boards.find? boardId = some modules ↔
        watch.aggregator.boards.find? boardId = some modules ∧
          ¬ watch.aggregator.isSilent nowMs modules := by
    rw [find?_tick, Option.filter_eq_some_iff, Bool.not_eq_true', Bool.not_eq_true]
  refine ⟨follows.sameConfig, fun boardId moduleId report reported => ?_,
    fun boardId moduleId report => ?_, fun boardId modules found => ?_,
    fun boardId modules found moduleId report reported => ?_, rfl⟩
  · rcases List.mem_cons.mp reported with same | reported
    · cases same
    · exact (follows.seen _ _ _ reported).trans ordered
  · rw [remembers_ticked_iff, ← follows.found]
    constructor
    · rintro ⟨modules, found, held⟩
      obtain ⟨found, spoken⟩ := kept.mp found
      exact ⟨⟨modules, found, held⟩, fun expired =>
        spoken ((follows.isSilent_iff found).mpr expired)⟩
    · rintro ⟨⟨modules, found, held⟩, alive⟩
      refine ⟨modules, kept.mpr ⟨found, fun silent => ?_⟩, held⟩
      exact alive ((follows.isSilent_iff found).mp silent)
  · exact follows.inhabited _ _ (kept.mp found).1
  · rcases List.mem_cons.mp reported with same | reported
    · cases same
    · exact follows.newest _ _ (kept.mp found).1 _ _ reported

theorem find?_storeReport (aggregator : CCpuAggregator) (newBoard newModule : String)
    (entry : ModuleReport) (boardId moduleId : String) (report : ModuleReport) :
    (∃ modules, (aggregator.storeReport newBoard newModule entry).boards.find? boardId =
        some modules ∧ modules.find? moduleId = some report) ↔
      if boardId = newBoard ∧ moduleId = newModule then report = entry
      else ∃ modules, aggregator.boards.find? boardId = some modules ∧
        modules.find? moduleId = some report := by
  unfold storeReport
  dsimp only
  simp only [OrderedMap.find?_insert]
  by_cases sameBoard : boardId = newBoard
  · subst sameBoard
    by_cases sameModule : moduleId = newModule
    · simp [sameModule, eq_comm]
    · cases found : aggregator.boards.find? boardId <;> simp [sameModule]
  · simp [sameBoard]

theorem Follows.report (follows : Follows config watch) (ordered : watch.clockMs ≤ nowMs)
    {moduleId : String} {entry : ModuleReport} (seenAt : entry.seenAtMs = nowMs) :
    Follows config
      { aggregator := watch.aggregator.storeReport boardId moduleId entry
        clockMs := nowMs
        history := .reported boardId moduleId entry :: watch.history } := by
  have seen {board module : String} {report : ModuleReport}
      (reported : .reported board module report ∈
        (.reported boardId moduleId entry :: watch.history : List UnitCpuMoment)) :
      report.seenAtMs ≤ nowMs := by
    rcases List.mem_cons.mp reported with same | reported
    · cases same
      exact seenAt.le
    · exact (follows.seen _ _ _ reported).trans ordered
  have stored {board : String} {modules : BoardModules}
      (found : (watch.aggregator.storeReport boardId moduleId entry).boards.find? board =
        some modules) :
      (board = boardId ∧ entry ∈ modules.values) ∨
        (board ≠ boardId ∧ watch.aggregator.boards.find? board = some modules) := by
    by_cases same : board = boardId
    · refine .inl ⟨same, ?_⟩
      rw [storeReport, OrderedMap.find?_insert, if_pos same] at found
      cases found
      rw [OrderedMap.mem_values]
      exact ⟨moduleId, by simp⟩
    · rw [storeReport, OrderedMap.find?_insert, if_neg same] at found
      exact .inr ⟨same, found⟩
  refine ⟨follows.sameConfig, fun board module report reported => seen reported,
    fun board module report => ?_, fun board modules found => ?_,
    fun board modules found module report reported => ?_, follows.state⟩
  · rw [find?_storeReport, remembers_reported_iff, follows.found]
  · rcases stored found with ⟨-, listed⟩ | ⟨-, found⟩
    · exact ⟨entry, listed⟩
    · exact follows.inhabited _ _ found
  · rcases stored found with ⟨-, listed⟩ | ⟨apart, found⟩
    · exact ⟨entry, listed, (seen reported).trans seenAt.ge⟩
    · rcases List.mem_cons.mp reported with same | reported
      · cases same
        exact absurd rfl apart
      · exact follows.newest _ _ found _ _ reported

theorem Follows.step (follows : Follows config watch) {call : UnitCpuCall}
    {next : UnitCpuWatch} (stepped : watch.step beyondInt call = some next) :
    Follows config next := by
  cases call with
  | tick nowMs =>
      obtain ⟨ordered, same⟩ := Option.ite_none_right_eq_some.mp stepped
      cases same
      exact follows.tick ordered
  | onReport moduleId report nowMs =>
      obtain ⟨ordered, same⟩ := Option.ite_none_right_eq_some.mp stepped
      cases same
      cases read : readReport beyondInt report nowMs with
      | none =>
          rw [onReport, read]
          exact { follows with
            seen := fun _ _ _ reported => (follows.seen _ _ _ reported).trans ordered }
      | some taken =>
          rw [onReport, read]
          exact follows.report ordered (readReport_seenAtMs beyondInt read)

end Steps

end UnitCpuWatch

end DroneEngage
