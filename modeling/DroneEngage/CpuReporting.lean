import DroneEngage.CpuAggregator
import DroneEngage.CpuHysteresis
import DroneEngage.ProcSelfStat

/-!
# The CPU reports of a module

Once a second a module samples its board and itself, feeds the monitor and
decides whether to report.  An edge of the monitor is reported in the tick that
raised it; otherwise a report is due when the last one of any kind is old
enough.
-/

namespace DroneEngage

open EventRuns

/-- The field `ev` of a report. -/
inductive CpuReportEvent
  | periodic
  | becameSuperBusy
  | becameFree
  deriving DecidableEq, Repr

namespace CpuReportEvent

def code : CpuReportEvent → Int64
  | periodic => 0
  | becameSuperBusy => 1
  | becameFree => 2

/-- The event that goes with an answer of the monitor. -/
def ofTransition : CpuTransition → CpuReportEvent
  | .none => periodic
  | .becameSuperBusy => becameSuperBusy
  | .becameFree => becameFree

end CpuReportEvent

/-- The state an edge leads to. -/
def CpuTransition.target : CpuTransition → Option CpuBusyState
  | none => .none
  | becameSuperBusy => some .superBusy
  | becameFree => some .free

/-- The arguments of `sendCpuStatus`. -/
structure CpuStatus where
  boardId : String
  boardUsagePercent : Int32
  processUsagePercent : Int32
  boardState : CpuBusyState
  reportEvent : CpuReportEvent
  deriving DecidableEq

def clampPct (v : Int32) : Int32 :=
  if v < 0 then 0 else if v > 100 then 100 else v

def boardStateCode : CpuBusyState → Int32
  | .free => cpuBoardStateFree
  | .superBusy => cpuBoardStateSuperBusy

/-- The body of the message `MODULE_CPU_STATUS`. -/
def deBuildCpuStatusJson (status : CpuStatus) : Json :=
  .object
    [("bd", .string status.boardId),
     ("ev", .numberInteger status.reportEvent.code),
     ("pu", .numberInteger (clampPct status.processUsagePercent).toInt64),
     ("s", .numberInteger (boardStateCode status.boardState).toInt64),
     ("u", .numberInteger (clampPct status.boardUsagePercent).toInt64)]

/-- This process's percent of a processor, or -1 where nothing is known. -/
def deProcessCpuUsagePercent (prev cur : ProcCpuTimes) (elapsedMs : Nat)
    (ticksPerSecond : Int) : ℚ :=
  if elapsedMs = 0 ∨ ticksPerSecond ≤ 0 then -1
  else if cur.busyJiffies ≤ prev.busyJiffies then -1
  else
    let busyDelta := cur.busyJiffies - prev.busyJiffies
    let busyS := (busyDelta.toNat : ℚ) / (ticksPerSecond : ℚ)
    100 * busyS / ((elapsedMs : ℚ) / 1000)

/-- `static_cast<int>` of a percentage; `beyondInt` is what the machine makes of
a value that an `int` can not hold. -/
def percentToInt32 (beyondInt : ℚ → Int32) (percent : ℚ) : Int32 :=
  let whole := if 0 ≤ percent then percent.floor else percent.ceil
  if -(2 ^ 31 : Int) ≤ whole ∧ whole < 2 ^ 31 then Int32.ofInt whole else beyondInt percent

/-- The new thresholds keep the state and drop a pending timer. -/
def CCpuMonitor.configure (monitor : CCpuMonitor) (config : CpuMonitorConfig) : CCpuMonitor :=
  { monitor with config := config, pendingDir := 0, pendingSinceMs := 0 }

/-- The CPU reporting members of `CModule`. -/
structure CpuReporter where
  config : CpuMonitorConfig
  monitor : CCpuMonitor
  boardId : String
  clockTicksPerS : Int
  prevProcTimes : ProcCpuTimes
  prevProcMs : Nat
  havePrevProc : Bool
  lastCpuReportMs : Nat

/-- What the two files say at a tick; none where one can not be read. -/
structure CpuTickSample where
  cpuTimes : Option CpuTimes
  procTimes : Option ProcCpuTimes
  nowMs : Nat

namespace CpuReporter

/-- The members of a new module. -/
def fresh : CpuReporter where
  config := .default
  monitor := .fresh .default
  boardId := ""
  clockTicksPerS := 100
  prevProcTimes := ⟨0⟩
  prevProcMs := 0
  havePrevProc := false
  lastCpuReportMs := 0

/-- What `init` does for the reports, with a configuration that is parsed already. -/
def configured (reporter : CpuReporter) (config : CpuMonitorConfig) (boardId : String)
    (clockTicksPerS : Int) : CpuReporter :=
  { reporter with
    config := config
    monitor := reporter.monitor.configure config
    boardId := boardId
    clockTicksPerS := if clockTicksPerS ≤ 0 then 100 else clockTicksPerS
    havePrevProc := false
    lastCpuReportMs := 0 }

section Tick

variable (beyondInt : ℚ → Int32) (reporter : CpuReporter)

/-- The process share of a tick, 0 where it is not known. -/
def sampleProcess (procTimes : Option ProcCpuTimes) (nowMs : Nat) : CpuReporter × Int32 :=
  match procTimes with
  | none => (reporter, 0)
  | some cur =>
      let processUsage :=
        if reporter.havePrevProc && nowMs > reporter.prevProcMs then
          let procPct := deProcessCpuUsagePercent reporter.prevProcTimes cur
            (nowMs - reporter.prevProcMs) reporter.clockTicksPerS
          if procPct ≥ 0 then percentToInt32 beyondInt (procPct + 1 / 2) else 0
        else 0
      ({ reporter with prevProcTimes := cur, prevProcMs := nowMs, havePrevProc := true },
        processUsage)

def periodicDue (nowMs : Nat) : Bool :=
  reporter.lastCpuReportMs = 0 ||
    (nowMs ≥ reporter.lastCpuReportMs &&
      nowMs - reporter.lastCpuReportMs ≥ unsigned64 reporter.config.reportS * 1000 % 2 ^ 64)

/-- The `report_event` of a tick; none where it stays -1. -/
def reportEvent (transition : CpuTransition) (nowMs : Nat) : Option CpuReportEvent :=
  match transition with
  | .becameSuperBusy => some .becameSuperBusy
  | .becameFree => some .becameFree
  | .none => if reporter.periodicDue nowMs then some .periodic else none

/-- One tick: the reporter afterwards and the reports it has sent. -/
def cpuReportTick (sample : CpuTickSample) : CpuReporter × List CpuStatus :=
  match sample.cpuTimes with
  | none => (reporter, [])
  | some cpuTimes =>
      let (monitor, transition) := reporter.monitor.updateFromTimes cpuTimes sample.nowMs
      let sampled := { reporter with monitor := monitor }
      -- before the second sample there is no usage to report
      if monitor.lastUsage < 0 then (sampled, [])
      else
        let (sampled, processUsage) :=
          sampled.sampleProcess beyondInt sample.procTimes sample.nowMs
        match sampled.reportEvent transition sample.nowMs with
        | none => (sampled, [])
        | some event =>
            ({ sampled with lastCpuReportMs := sample.nowMs },
              [{ boardId := sampled.boardId
                 boardUsagePercent := percentToInt32 beyondInt (monitor.lastUsage + 1 / 2)
                 processUsagePercent := processUsage
                 boardState := monitor.state
                 reportEvent := event }])

/-- What the monitor answers in a tick. -/
def transitionAt (sample : CpuTickSample) : CpuTransition :=
  match sample.cpuTimes with
  | none => .none
  | some cpuTimes => (reporter.monitor.updateFromTimes cpuTimes sample.nowMs).2

end Tick

end CpuReporter

section Monitor

variable (monitor : CCpuMonitor) (usage : ℚ) (times : CpuTimes) (nowMs : Nat)

/-- One usage leaves the usage alone, and an edge leaves the state it announces. -/
theorem onUsage_edge :
    (monitor.onUsage usage nowMs).1.lastUsage = monitor.lastUsage ∧
      ∀ state, (monitor.onUsage usage nowMs).2.target = some state →
        (monitor.onUsage usage nowMs).1.state = state := by
  unfold CCpuMonitor.onUsage
  dsimp only
  generalize (if nowMs ≥ monitor.pendingSinceMs then nowMs - monitor.pendingSinceMs else 0) =
    heldMs
  split
  · exact ⟨rfl, nofun⟩
  · split
    · exact ⟨rfl, nofun⟩
    · split
      · exact ⟨rfl, nofun⟩
      · split
        · exact ⟨rfl, fun _ => Option.some.inj⟩
        · exact ⟨rfl, fun _ => Option.some.inj⟩

/-- An edge comes with a known usage. -/
theorem updateFromTimes_edge {state : CpuBusyState}
    (target : (monitor.updateFromTimes times nowMs).2.target = some state) :
    0 ≤ (monitor.updateFromTimes times nowMs).1.lastUsage ∧
      (monitor.updateFromTimes times nowMs).1.state = state := by
  unfold CCpuMonitor.updateFromTimes at target ⊢
  dsimp only at target ⊢
  split at target
  · cases target
  · rename_i sampled
    split at target
    · cases target
    · rename_i known
      obtain ⟨sameUsage, leaves⟩ := onUsage_edge
        { monitor with prev := times, lastUsage := deCpuUsagePercent monitor.prev times }
        (deCpuUsagePercent monitor.prev times) nowMs
      rw [if_neg sampled, if_neg known, sameUsage]
      exact ⟨not_lt.mp known, leaves state target⟩

end Monitor

namespace CpuReporter

section Tick

variable {beyondInt : ℚ → Int32} {reporter : CpuReporter} {sample : CpuTickSample}

theorem sampleProcess_keeps (procTimes : Option ProcCpuTimes) (nowMs : Nat) :
    (reporter.sampleProcess beyondInt procTimes nowMs).1.config = reporter.config ∧
      (reporter.sampleProcess beyondInt procTimes nowMs).1.monitor = reporter.monitor ∧
      (reporter.sampleProcess beyondInt procTimes nowMs).1.lastCpuReportMs =
        reporter.lastCpuReportMs := by
  cases procTimes with
  | none => exact ⟨rfl, rfl, rfl⟩
  | some cur => exact ⟨rfl, rfl, rfl⟩

theorem periodicDue_of_reportEvent {transition : CpuTransition} {nowMs : Nat}
    {event : CpuReportEvent} (reported : reporter.reportEvent transition nowMs = some event) :
    event = .ofTransition transition ∧
      (transition = .none → reporter.periodicDue nowMs) := by
  unfold reportEvent at reported
  cases transition with
  | none =>
      obtain ⟨due, same⟩ := Option.ite_none_right_eq_some.mp reported
      exact ⟨(Option.some.inj same).symm, fun _ => due⟩
  | becameSuperBusy => exact ⟨(Option.some.inj reported).symm, nofun⟩
  | becameFree => exact ⟨(Option.some.inj reported).symm, nofun⟩

/-- A tick is silent, which no edge allows, or sends one report of what the
monitor has answered. -/
theorem cpuReportTick_cases :
    ((reporter.cpuReportTick beyondInt sample).2 = [] ∧ reporter.transitionAt sample = .none ∧
      (reporter.cpuReportTick beyondInt sample).1.lastCpuReportMs =
        reporter.lastCpuReportMs) ∨
    ∃ report, (reporter.cpuReportTick beyondInt sample).2 = [report] ∧
      report.reportEvent = .ofTransition (reporter.transitionAt sample) ∧
      report.boardState = (reporter.cpuReportTick beyondInt sample).1.monitor.state ∧
      (∀ state, (reporter.transitionAt sample).target = some state →
        report.boardState = state) ∧
      (reporter.transitionAt sample = .none → reporter.periodicDue sample.nowMs) ∧
      (reporter.cpuReportTick beyondInt sample).1.lastCpuReportMs = sample.nowMs := by
  unfold cpuReportTick transitionAt
  cases sample.cpuTimes with
  | none => exact .inl ⟨rfl, rfl, rfl⟩
  | some cpuTimes =>
      have edge := fun state =>
        @updateFromTimes_edge reporter.monitor cpuTimes sample.nowMs state
      dsimp only
      generalize reporter.monitor.updateFromTimes cpuTimes sample.nowMs = answered at edge ⊢
      obtain ⟨monitor, transition⟩ := answered
      dsimp only at edge ⊢
      by_cases unknown : monitor.lastUsage < 0
      · left
        simp only [if_pos unknown, and_true, true_and]
        cases transition with
        | none => rfl
        | becameSuperBusy => exact absurd unknown (not_lt.mpr (edge _ rfl).1)
        | becameFree => exact absurd unknown (not_lt.mpr (edge _ rfl).1)
      · simp only [if_neg unknown]
        have keeps := @sampleProcess_keeps beyondInt { reporter with monitor := monitor }
          sample.procTimes sample.nowMs
        generalize CpuReporter.sampleProcess beyondInt { reporter with monitor := monitor }
          sample.procTimes sample.nowMs = sampledAgain at keeps ⊢
        obtain ⟨sampled, processUsage⟩ := sampledAgain
        obtain ⟨sameConfig, sameMonitor, sameLast⟩ := keeps
        dsimp only at sameConfig sameMonitor sameLast ⊢
        cases reported : sampled.reportEvent transition sample.nowMs with
        | none =>
            left
            dsimp only
            cases transition with
            | none => exact ⟨rfl, rfl, sameLast⟩
            | becameSuperBusy => cases reported
            | becameFree => cases reported
        | some event =>
            obtain ⟨sameEvent, due⟩ := periodicDue_of_reportEvent reported
            refine .inr ⟨_, rfl, sameEvent, sameMonitor ▸ rfl,
              fun state target => (edge state target).2, fun quiet => ?_, rfl⟩
            have due := due quiet
            unfold periodicDue at due ⊢
            rwa [sameConfig, sameLast] at due

theorem cpuReportTick_config :
    (reporter.cpuReportTick beyondInt sample).1.config = reporter.config := by
  unfold cpuReportTick
  cases sample.cpuTimes with
  | none => rfl
  | some cpuTimes =>
      dsimp only
      split
      · rfl
      · cases sample.procTimes with
        | none => split <;> rfl
        | some cur => split <;> rfl

/-- Where a report is due without an edge, the last one is old enough or there
was none. -/
theorem periodicDue_iff (nonneg : 0 ≤ reporter.config.reportS.toInt) (nowMs : Nat) :
    reporter.periodicDue nowMs ↔ reporter.lastCpuReportMs = 0 ∨
      reporter.lastCpuReportMs ≤ nowMs ∧
        (reporter.lastCpuReportMs : Int) + reporter.config.reportS.toInt * 1000 ≤ nowMs := by
  have millis := unsigned64_millis nonneg
  unfold periodicDue
  generalize unsigned64 reporter.config.reportS * 1000 % 2 ^ 64 = intervalMs at millis ⊢
  simp only [Bool.or_eq_true, Bool.and_eq_true, decide_eq_true_eq]
  omega

end Tick

end CpuReporter

/-- What a tick has come to. -/
structure TickOutcome where
  nowMs : Nat
  transition : CpuTransition
  stateAfter : CpuBusyState
  reports : List CpuStatus

namespace TickOutcome

/-- An edge is reported at once and as what it is, and a tick sends one report at
most. -/
structure Faithful (outcome : TickOutcome) : Prop where
  one : outcome.reports.length ≤ 1
  edge : outcome.transition ≠ .none → outcome.reports.length = 1
  event : ∀ report ∈ outcome.reports, report.reportEvent = .ofTransition outcome.transition
  state : ∀ report ∈ outcome.reports, report.boardState = outcome.stateAfter
  target : ∀ report ∈ outcome.reports, ∀ state,
    outcome.transition.target = some state → report.boardState = state

/-- The distance of a periodic report from a report before it. -/
def Spaced (config : CpuMonitorConfig) (earlier later : TickOutcome) : Prop :=
  earlier.reports ≠ [] → ∀ report ∈ later.reports, report.reportEvent = .periodic →
    (earlier.nowMs : Int) + config.reportS.toInt * 1000 ≤ later.nowMs

end TickOutcome

/-- A reporter, the time of the last tick and the outcomes so far, the newest first. -/
structure CpuReportWatch where
  reporter : CpuReporter
  clockMs : Nat
  outcomes : List TickOutcome

namespace CpuReportWatch

variable (beyondInt : ℚ → Int32)

def outcome (watch : CpuReportWatch) (sample : CpuTickSample) : TickOutcome where
  nowMs := sample.nowMs
  transition := watch.reporter.transitionAt sample
  stateAfter := (watch.reporter.cpuReportTick beyondInt sample).1.monitor.state
  reports := (watch.reporter.cpuReportTick beyondInt sample).2

/-- A tick at a positive time that is not before the last one. -/
def step (watch : CpuReportWatch) (sample : CpuTickSample) : Option CpuReportWatch :=
  if 0 < sample.nowMs ∧ watch.clockMs ≤ sample.nowMs then
    some
      { reporter := (watch.reporter.cpuReportTick beyondInt sample).1
        clockMs := sample.nowMs
        outcomes := watch.outcome beyondInt sample :: watch.outcomes }
  else none

/-- A reporter as `init` leaves it, before the first tick. -/
def fresh (reporter : CpuReporter) (config : CpuMonitorConfig) (boardId : String)
    (clockTicksPerS : Int) : CpuReportWatch where
  reporter := reporter.configured config boardId clockTicksPerS
  clockMs := 0
  outcomes := []

/-- What holds of a watch along a run. -/
structure Reports (config : CpuMonitorConfig) (watch : CpuReportWatch) : Prop where
  sameConfig : watch.reporter.config = config
  faithful : ∀ outcome ∈ watch.outcomes, outcome.Faithful
  spaced : watch.outcomes.Pairwise fun later earlier => earlier.Spaced config later
  last : ∀ outcome ∈ watch.outcomes, outcome.reports ≠ [] →
    0 < outcome.nowMs ∧ outcome.nowMs ≤ watch.reporter.lastCpuReportMs
  past : ∀ outcome ∈ watch.outcomes, outcome.nowMs ≤ watch.clockMs
  lastPast : watch.reporter.lastCpuReportMs ≤ watch.clockMs

section Steps

variable {beyondInt} {config : CpuMonitorConfig} {watch next : CpuReportWatch}
  {sample : CpuTickSample}

theorem outcome_faithful : (watch.outcome beyondInt sample).Faithful := by
  unfold outcome
  rcases @CpuReporter.cpuReportTick_cases beyondInt watch.reporter sample with
    ⟨silent, quiet, -⟩ | ⟨report, sent, event, state, target, -, -⟩
  · rw [silent]
    exact ⟨Nat.zero_le 1, fun edge => absurd quiet edge, nofun, nofun, nofun⟩
  · rw [sent]
    refine ⟨le_rfl, fun _ => rfl, ?_, ?_, ?_⟩
    · rintro _ (_ | ⟨_, ⟨⟩⟩)
      exact event
    · rintro _ (_ | ⟨_, ⟨⟩⟩)
      exact state
    · rintro _ (_ | ⟨_, ⟨⟩⟩)
      exact target

/-- A report of a tick without an edge keeps its distance from all before it. -/
theorem Reports.spaced_outcome (nonneg : 0 ≤ config.reportS.toInt)
    (reports : Reports config watch) {earlier : TickOutcome}
    (listed : earlier ∈ watch.outcomes) :
    earlier.Spaced config (watch.outcome beyondInt sample) := by
  intro reported report sent periodic
  obtain ⟨positive, before⟩ := reports.last earlier listed reported
  have quiet : watch.reporter.transitionAt sample = .none := by
    have same := outcome_faithful.event report sent
    rw [periodic] at same
    unfold outcome at same
    cases answered : watch.reporter.transitionAt sample with
    | none => rfl
    | becameSuperBusy => rw [answered] at same; cases same
    | becameFree => rw [answered] at same; cases same
  rcases @CpuReporter.cpuReportTick_cases beyondInt watch.reporter sample with
    ⟨silent, -, -⟩ | ⟨-, -, -, -, -, due, -⟩
  · unfold outcome at sent
    rw [silent] at sent
    cases sent
  · have same := reports.sameConfig
    obtain none | ⟨-, old⟩ :=
      (CpuReporter.periodicDue_iff (same ▸ nonneg) sample.nowMs).mp (due quiet)
    · omega
    · rw [same] at old
      dsimp only [outcome]
      omega

theorem Reports.step (nonneg : 0 ≤ config.reportS.toInt) (reports : Reports config watch)
    (stepped : step beyondInt watch sample = some next) : Reports config next := by
  obtain ⟨⟨positive, ordered⟩, same⟩ := Option.ite_none_right_eq_some.mp stepped
  cases same
  have kept : ((watch.reporter.cpuReportTick beyondInt sample).2 = [] ∧
      (watch.reporter.cpuReportTick beyondInt sample).1.lastCpuReportMs =
        watch.reporter.lastCpuReportMs) ∨
      (watch.reporter.cpuReportTick beyondInt sample).1.lastCpuReportMs = sample.nowMs := by
    rcases @CpuReporter.cpuReportTick_cases beyondInt watch.reporter sample with
      ⟨silent, -, same⟩ | ⟨-, -, -, -, -, -, same⟩
    · exact .inl ⟨silent, same⟩
    · exact .inr same
  have lastPast := reports.lastPast
  constructor
  · exact CpuReporter.cpuReportTick_config.trans reports.sameConfig
  · exact List.forall_mem_cons.mpr ⟨outcome_faithful, reports.faithful⟩
  · exact reports.spaced.cons fun earlier listed => reports.spaced_outcome nonneg listed
  · refine List.forall_mem_cons.mpr ⟨fun reported => ⟨positive, ?_⟩, fun earlier listed sent => ?_⟩
    · obtain ⟨silent, -⟩ | same := kept
      · exact absurd silent reported
      · exact same.ge
    · have last := reports.last earlier listed sent
      dsimp only
      omega
  · refine List.forall_mem_cons.mpr ⟨le_rfl, fun earlier listed => ?_⟩
    exact (reports.past earlier listed).trans ordered
  · dsimp only
    omega

end Steps

end CpuReportWatch

end DroneEngage
