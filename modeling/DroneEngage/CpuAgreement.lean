import DroneEngage.CpuReporting
import DroneEngage.FifoLinks
import DroneEngage.MessageParser
import DroneEngage.UnitCpuState

/-!
# The modules and the unit agree on the load

Each module samples its board by its own clock and sends its reports over a link that
keeps their order and may lose some.  The aggregator of the unit takes in what arrives.
Since an edge is reported in the tick that raised it, the unit is super busy, once
nothing is under way, exactly if a module that it still hears from is.
-/

namespace DroneEngage

open CCpuAggregator EventRuns FifoLinks UnitCpuWatch

section Reporter

variable {beyondInt : ℚ → Int32} {sample : CpuTickSample}

/-- Without an edge the state of a monitor stays. -/
theorem onUsage_quiet {monitor : CCpuMonitor} {usage : ℚ} {nowMs : Nat}
    (quiet : (monitor.onUsage usage nowMs).2 = .none) :
    (monitor.onUsage usage nowMs).1.state = monitor.state := by
  unfold CCpuMonitor.onUsage at quiet ⊢
  dsimp only at quiet ⊢
  generalize (if nowMs ≥ monitor.pendingSinceMs then nowMs - monitor.pendingSinceMs else 0) =
    heldMs at quiet ⊢
  repeat' split
  all_goals first | rfl | skip
  · rename_i idle held waited upwards
    rw [if_neg idle, if_neg held, if_neg waited, if_pos upwards] at quiet
    cases quiet
  · rename_i idle held waited downwards
    rw [if_neg idle, if_neg held, if_neg waited, if_neg downwards] at quiet
    cases quiet

theorem updateFromTimes_quiet {monitor : CCpuMonitor} {times : CpuTimes} {nowMs : Nat}
    (quiet : (monitor.updateFromTimes times nowMs).2 = .none) :
    (monitor.updateFromTimes times nowMs).1.state = monitor.state := by
  unfold CCpuMonitor.updateFromTimes at quiet ⊢
  dsimp only at quiet ⊢
  by_cases sampled : (!monitor.haveSample) = true
  · rw [if_pos sampled]
  · rw [if_neg sampled] at quiet ⊢
    split
    · rfl
    · rename_i known
      rw [if_neg known] at quiet
      exact onUsage_quiet quiet

namespace CpuReporter

variable {reporter : CpuReporter}

theorem cpuReportTick_monitor :
    (reporter.cpuReportTick beyondInt sample).1.monitor.state =
      match sample.cpuTimes with
      | none => reporter.monitor.state
      | some cpuTimes => (reporter.monitor.updateFromTimes cpuTimes sample.nowMs).1.state := by
  unfold cpuReportTick
  cases sample.cpuTimes with
  | none => rfl
  | some cpuTimes =>
      dsimp only
      split
      · rfl
      · cases sample.procTimes with
        | none => split <;> rfl
        | some cur => split <;> rfl

theorem state_of_quiet (quiet : reporter.transitionAt sample = .none) :
    (reporter.cpuReportTick beyondInt sample).1.monitor.state = reporter.monitor.state := by
  rw [cpuReportTick_monitor]
  unfold transitionAt at quiet
  cases times : sample.cpuTimes with
  | none => rfl
  | some cpuTimes =>
      rw [times] at quiet
      exact updateFromTimes_quiet quiet

theorem cpuReportTick_boardId :
    (reporter.cpuReportTick beyondInt sample).1.boardId = reporter.boardId ∧
      ∀ report ∈ (reporter.cpuReportTick beyondInt sample).2,
        report.boardId = reporter.boardId := by
  unfold cpuReportTick
  cases sample.cpuTimes with
  | none => exact ⟨rfl, nofun⟩
  | some cpuTimes =>
      dsimp only
      split
      · exact ⟨rfl, nofun⟩
      · cases sample.procTimes with
        | none => split <;> simp [sampleProcess]
        | some cur => split <;> simp [sampleProcess]

end CpuReporter

end Reporter

section Reading

variable (beyondInt : Double → Int32)

theorem reportNumber_reread {report : Json} {key : String} {value : Int32}
    (found : report.member? key = some (Json.numberInteger value.toInt64).reread) :
    reportNumber beyondInt report key = some value := by
  have isNumber : (Json.numberInteger value.toInt64).reread.isNumber = true := by
    rw [Json.reread]
    split <;> rfl
  unfold reportNumber
  rw [found, Option.bind_some, if_pos isNumber, getInt_reread]
  rfl

/-- The aggregator takes in what a module has reported and the parser has read back. -/
theorem readReport_reread {status : CpuStatus} (named : status.boardId.isEmpty = false)
    (nowMs : Nat) :
    readReport beyondInt (deBuildCpuStatusJson status).reread nowMs =
      some (status.boardId,
        { u := clampPct status.boardUsagePercent
          pu := clampPct status.processUsagePercent
          s := boardStateCode status.boardState
          seenAtMs := nowMs }) := by
  have member : (deBuildCpuStatusJson status).reread.member? "bd" =
      some (.string status.boardId) :=
    rfl
  unfold readReport
  rw [member, @reportNumber_reread _ _ "u" _ rfl, @reportNumber_reread _ _ "s" _ rfl,
    @reportNumber_reread _ _ "pu" _ rfl]
  simp [named]

end Reading

/-- A module as `init` leaves it, on a board that has a name. -/
structure BoardModule where
  config : CpuMonitorConfig
  boardId : String
  clockTicksPerS : Int
  named : boardId.isEmpty = false

def BoardModule.reporter (boardModule : BoardModule) : CpuReporter :=
  CpuReporter.fresh.configured boardModule.config boardModule.boardId boardModule.clockTicksPerS

/-- The modules of a unit and their links, and the aggregator with its clock.  The last
field says when the last report of each module arrived. -/
structure CpuUnit where
  reporters : String → CpuReporter
  links : String → Link CpuStatus
  aggregator : CCpuAggregator
  clockMs : Nat
  heardAt : String → Option Nat

inductive CpuUnitEvent
  | sample (moduleId : String) (sample : CpuTickSample)
  | deliver (moduleId : String) (nowMs : Nat)
  | lose (moduleId : String)
  | tick (nowMs : Nat)

namespace CpuUnit

/-- The unit before anything is sampled. -/
def start (config : CpuMonitorConfig) (modules : String → BoardModule) : CpuUnit where
  reporters moduleId := (modules moduleId).reporter
  links _ := .fresh
  aggregator := .fresh config
  clockMs := 0
  heardAt _ := none

section Steps

variable (percent : ℚ → Int32) (beyondInt : Double → Int32) (unit : CpuUnit)

def sampleModule (moduleId : String) (sample : CpuTickSample) : CpuUnit :=
  let ticked := (unit.reporters moduleId).cpuReportTick percent sample
  { unit with
    reporters := Function.update unit.reporters moduleId ticked.1
    links := Function.update unit.links moduleId ((unit.links moduleId).sendAll ticked.2) }

def receive (moduleId : String) (nowMs : Nat) (status : CpuStatus) (link : Link CpuStatus) :
    CpuUnit :=
  { unit with
    links := Function.update unit.links moduleId link
    aggregator := (unit.aggregator.onReport beyondInt moduleId
      (deBuildCpuStatusJson status).reread nowMs).1
    clockMs := nowMs
    heardAt := Function.update unit.heardAt moduleId (some nowMs) }

/-- One event; the aggregator's clock does not step back. -/
def step : CpuUnitEvent → Option CpuUnit
  | .sample moduleId sample => some (unit.sampleModule percent moduleId sample)
  | .deliver moduleId nowMs =>
      if unit.clockMs ≤ nowMs then
        (unit.links moduleId).deliver.map fun (status, link) =>
          unit.receive beyondInt moduleId nowMs status link
      else none
  | .lose moduleId =>
      (unit.links moduleId).lose.map fun link =>
        { unit with links := Function.update unit.links moduleId link }
  | .tick nowMs =>
      if unit.clockMs ≤ nowMs then
        some { unit with aggregator := (unit.aggregator.tick nowMs).1, clockMs := nowMs }
      else none

end Steps

/-- The aggregator keeps a report of a module under a board. -/
def Holds (aggregator : CCpuAggregator) (boardId moduleId : String) (report : ModuleReport) :
    Prop :=
  ∃ modules, aggregator.boards.find? boardId = some modules ∧
    modules.find? moduleId = some report

/-- What one module, its link and the reports kept of it have to do with each other. -/
structure Announces (reporter : CpuReporter) (link : Link CpuStatus) : Prop where
  ordered : link.Ordered
  silent : link.latest = none → reporter.monitor.state = .free
  latest : ∀ status, link.latest = some status → status.boardState = reporter.monitor.state
  named : reporter.boardId.isEmpty = false
  board : ∀ status, status ∈ link.inTransit ∨ link.heard = some status →
    status.boardId = reporter.boardId

structure Tracks (config : CpuMonitorConfig) (unit : CpuUnit) : Prop where
  sameConfig : unit.aggregator.config = config
  announces : ∀ moduleId, Announces (unit.reporters moduleId) (unit.links moduleId)
  kept : ∀ boardId moduleId report, Holds unit.aggregator boardId moduleId report →
    unit.heardAt moduleId = some report.seenAtMs ∧
      boardId = (unit.reporters moduleId).boardId ∧
      ∃ status, (unit.links moduleId).heard = some status ∧
        report.s = boardStateCode status.boardState
  listed : ∀ moduleId heardMs, unit.heardAt moduleId = some heardMs →
    unit.clockMs ≤ heardMs + boardRemoveAfterMs →
      ∃ report, Holds unit.aggregator (unit.reporters moduleId).boardId moduleId report
  past : ∀ moduleId heardMs, unit.heardAt moduleId = some heardMs → heardMs ≤ unit.clockMs

section Invariant

variable {percent : ℚ → Int32} {beyondInt : Double → Int32} {unit next : CpuUnit}
  {config : CpuMonitorConfig}

theorem Announces.fresh (boardModule : BoardModule) :
    Announces boardModule.reporter .fresh where
  ordered := .fresh
  silent := fun _ => rfl
  latest := nofun
  named := boardModule.named
  board := by
    rintro status (underWay | heard)
    · cases underWay
    · cases heard

theorem Tracks.start (config : CpuMonitorConfig) (modules : String → BoardModule) :
    Tracks config (start config modules) where
  sameConfig := rfl
  announces := fun moduleId => .fresh (modules moduleId)
  kept := by
    rintro boardId moduleId report ⟨modules, found, -⟩
    cases found
  listed := nofun
  past := nofun

/-- A tick of a module announces the state it leaves. -/
theorem Announces.sample {reporter : CpuReporter} {link : Link CpuStatus}
    (announces : Announces reporter link) (sample : CpuTickSample) :
    Announces (reporter.cpuReportTick percent sample).1
      (link.sendAll (reporter.cpuReportTick percent sample).2) := by
  obtain ⟨sameBoard, ofBoard⟩ := @CpuReporter.cpuReportTick_boardId percent sample reporter
  rcases @CpuReporter.cpuReportTick_cases percent reporter sample with
    ⟨nothing, quiet, -⟩ | ⟨report, sent, -, state, -, -, -⟩
  · have sameState := @CpuReporter.state_of_quiet percent sample reporter quiet
    rw [nothing]
    constructor
    · exact announces.ordered
    · exact fun silent => sameState.trans (announces.silent silent)
    · exact fun status latest => (announces.latest status latest).trans sameState.symm
    · rw [sameBoard]
      exact announces.named
    · rw [sameBoard]
      exact announces.board
  · have reportBoard := ofBoard report (sent ▸ List.mem_singleton_self _)
    rw [sent]
    constructor
    · exact .send report
    · nofun
    · intro status latest
      cases latest
      exact state
    · rw [sameBoard]
      exact announces.named
    · rw [sameBoard]
      rintro status (underWay | heard)
      · rcases List.mem_append.mp underWay with earlier | last
        · exact announces.board status (.inl earlier)
        · rw [List.mem_singleton.mp last]
          exact reportBoard
      · exact announces.board status (.inr heard)

theorem Announces.deliver {reporter : CpuReporter} {link rest : Link CpuStatus}
    (announces : Announces reporter link) {status : CpuStatus}
    (delivered : link.deliver = some (status, rest)) : Announces reporter rest := by
  have ordered := announces.ordered.deliver delivered
  obtain ⟨later, underWay, rfl⟩ := Link.deliver_eq_some_iff.mp delivered
  refine ⟨ordered, announces.silent, announces.latest, announces.named, ?_⟩
  rintro other (stillUnderWay | heard)
  · exact announces.board other (.inl (underWay ▸ List.mem_cons_of_mem _ stillUnderWay))
  · cases heard
    exact announces.board status (.inl (underWay ▸ List.mem_cons_self))

theorem Announces.lose {reporter : CpuReporter} {link rest : Link CpuStatus}
    (announces : Announces reporter link) (gone : link.lose = some rest) :
    Announces reporter rest := by
  have ordered := announces.ordered.lose gone
  obtain ⟨message, later, underWay, rfl⟩ := Link.lose_eq_some_iff.mp gone
  refine ⟨ordered, announces.silent, announces.latest, announces.named, ?_⟩
  rintro other (stillUnderWay | heard)
  · exact announces.board other (.inl (underWay ▸ List.mem_cons_of_mem _ stillUnderWay))
  · exact announces.board other (.inr heard)

theorem Tracks.sample (tracks : Tracks config unit) (moduleId : String)
    (sample : CpuTickSample) : Tracks config (unit.sampleModule percent moduleId sample) := by
  have sameBoard (other : String) :
      ((unit.sampleModule percent moduleId sample).reporters other).boardId =
        (unit.reporters other).boardId := by
    by_cases same : other = moduleId
    · subst same
      simp [sampleModule, CpuReporter.cpuReportTick_boardId.1]
    · simp [sampleModule, same]
  have sameHeard (other : String) :
      ((unit.sampleModule percent moduleId sample).links other).heard =
        (unit.links other).heard := by
    by_cases same : other = moduleId
    · subst same
      simp [sampleModule, Link.sendAll_heard]
    · simp [sampleModule, same]
  constructor
  · exact tracks.sameConfig
  · intro other
    by_cases same : other = moduleId
    · subst same
      simpa [sampleModule] using (tracks.announces other).sample sample
    · simpa [sampleModule, same] using tracks.announces other
  · intro boardId other report holds
    rw [sameBoard, sameHeard]
    exact tracks.kept boardId other report holds
  · intro other heardMs heard recent
    rw [sameBoard]
    exact tracks.listed other heardMs heard recent
  · exact tracks.past

theorem Tracks.lose (tracks : Tracks config unit) {moduleId : String} {link : Link CpuStatus}
    (gone : (unit.links moduleId).lose = some link) :
    Tracks config { unit with links := Function.update unit.links moduleId link } := by
  have sameHeard (other : String) :
      (Function.update unit.links moduleId link other).heard = (unit.links other).heard := by
    by_cases same : other = moduleId
    · subst same
      obtain ⟨-, -, -, rfl⟩ := Link.lose_eq_some_iff.mp gone
      simp
    · simp [same]
  constructor
  · exact tracks.sameConfig
  · intro other
    by_cases same : other = moduleId
    · subst same
      simpa using (tracks.announces other).lose gone
    · simpa [same] using tracks.announces other
  · intro boardId other report holds
    dsimp only
    rw [sameHeard]
    exact tracks.kept boardId other report holds
  · exact tracks.listed
  · exact tracks.past

theorem holds_tick {aggregator : CCpuAggregator} {nowMs : Nat} {boardId moduleId : String}
    {report : ModuleReport} :
    Holds (aggregator.tick nowMs).1 boardId moduleId report ↔
      ∃ modules, aggregator.boards.find? boardId = some modules ∧
        modules.find? moduleId = some report ∧ aggregator.isSilent nowMs modules = false := by
  unfold Holds
  simp only [find?_tick, Option.filter_eq_some_iff, Bool.not_eq_true', and_assoc]
  exact exists_congr fun modules => and_congr_right fun _ => and_comm

/-- A tick keeps what arrived in the last minute. -/
theorem holds_tick_of_recent {aggregator : CCpuAggregator} {nowMs : Nat}
    {boardId moduleId : String} {report : ModuleReport}
    (holds : Holds aggregator boardId moduleId report)
    (recent : nowMs ≤ report.seenAtMs + boardRemoveAfterMs) :
    Holds (aggregator.tick nowMs).1 boardId moduleId report := by
  obtain ⟨modules, found, member⟩ := holds
  refine holds_tick.mpr ⟨modules, found, member, ?_⟩
  have listed : report ∈ modules.values := (OrderedMap.mem_values _).mpr ⟨moduleId, member⟩
  rw [← Bool.not_eq_true, isSilent_iff listed]
  intro silent
  have early := silent report listed
  omega

theorem Tracks.tick (tracks : Tracks config unit) {nowMs : Nat}
    (ordered : unit.clockMs ≤ nowMs) :
    Tracks config
      { unit with aggregator := (unit.aggregator.tick nowMs).1, clockMs := nowMs } where
  sameConfig := tracks.sameConfig
  announces := tracks.announces
  kept := by
    intro boardId moduleId report holds
    obtain ⟨modules, found, member, -⟩ := holds_tick.mp holds
    exact tracks.kept boardId moduleId report ⟨modules, found, member⟩
  listed := by
    intro moduleId heardMs heard recent
    dsimp only at recent
    obtain ⟨report, holds⟩ := tracks.listed moduleId heardMs heard (by omega)
    obtain ⟨seen, -⟩ := tracks.kept _ _ _ holds
    obtain rfl := Option.some.inj (seen.symm.trans heard)
    exact ⟨report, holds_tick_of_recent holds recent⟩
  past := by
    intro moduleId heardMs heard
    have before := tracks.past moduleId heardMs heard
    dsimp only
    omega

theorem Tracks.deliver (tracks : Tracks config unit) {moduleId : String} {nowMs : Nat}
    (ordered : unit.clockMs ≤ nowMs) {status : CpuStatus} {link : Link CpuStatus}
    (delivered : (unit.links moduleId).deliver = some (status, link)) :
    Tracks config (unit.receive beyondInt moduleId nowMs status link) := by
  obtain ⟨rest, underWay, sameLink⟩ := Link.deliver_eq_some_iff.mp delivered
  have board : status.boardId = (unit.reporters moduleId).boardId :=
    (tracks.announces moduleId).board status (.inl (underWay ▸ List.mem_cons_self))
  have named : status.boardId.isEmpty = false := board ▸ (tracks.announces moduleId).named
  have stored : ∃ entry : ModuleReport, entry.seenAtMs = nowMs ∧
      entry.s = boardStateCode status.boardState ∧
      (unit.receive beyondInt moduleId nowMs status link).aggregator =
        unit.aggregator.storeReport status.boardId moduleId entry := by
    refine
      ⟨{ u := clampPct status.boardUsagePercent
         pu := clampPct status.processUsagePercent
         s := boardStateCode status.boardState
         seenAtMs := nowMs }, rfl, rfl, ?_⟩
    unfold receive onReport
    rw [readReport_reread beyondInt named]
  obtain ⟨entry, seenAt, busy, sameAggregator⟩ := stored
  have holds_iff (boardId other : String) (report : ModuleReport) :
      Holds (unit.receive beyondInt moduleId nowMs status link).aggregator boardId other report ↔
        if boardId = status.boardId ∧ other = moduleId then report = entry
        else Holds unit.aggregator boardId other report := by
    rw [sameAggregator]
    exact find?_storeReport _ _ _ _ _ _ _
  constructor
  · rw [sameAggregator]
    exact tracks.sameConfig
  · intro other
    by_cases same : other = moduleId
    · subst same
      simpa [receive] using (tracks.announces other).deliver delivered
    · simpa [receive, same] using tracks.announces other
  · intro boardId other report holds
    rw [holds_iff] at holds
    by_cases same : other = moduleId
    · subst same
      by_cases sameBoard : boardId = status.boardId
      · rw [if_pos ⟨sameBoard, rfl⟩] at holds
        subst holds
        refine ⟨by simp [receive, seenAt], sameBoard.trans board, status, ?_, busy⟩
        simp [receive, sameLink]
      · rw [if_neg fun both => sameBoard both.1] at holds
        obtain ⟨-, ownBoard, -⟩ := tracks.kept boardId other report holds
        exact absurd (ownBoard.trans board.symm) sameBoard
    · rw [if_neg fun both => same both.2] at holds
      simpa [receive, same] using tracks.kept boardId other report holds
  · intro other heardMs heard recent
    by_cases same : other = moduleId
    · subst same
      refine ⟨entry, (holds_iff _ _ _).mpr ?_⟩
      rw [if_pos ⟨board.symm, rfl⟩]
    · have earlier : unit.heardAt other = some heardMs := by
        simpa [receive, same] using heard
      obtain ⟨report, holds⟩ := tracks.listed other heardMs earlier (ordered.trans recent)
      refine ⟨report, (holds_iff _ _ _).mpr ?_⟩
      rwa [if_neg fun both => same both.2]
  · intro other heardMs heard
    change heardMs ≤ nowMs
    by_cases same : other = moduleId
    · subst same
      have now : nowMs = heardMs := by simpa [receive] using heard
      exact now.ge
    · have earlier : unit.heardAt other = some heardMs := by
        simpa [receive, same] using heard
      exact (tracks.past other heardMs earlier).trans ordered

theorem Tracks.step (tracks : Tracks config unit) {event : CpuUnitEvent}
    (stepped : unit.step percent beyondInt event = some next) : Tracks config next := by
  cases event with
  | sample moduleId sample =>
      cases stepped
      exact tracks.sample moduleId sample
  | deliver moduleId nowMs =>
      obtain ⟨ordered, some⟩ := Option.ite_none_right_eq_some.mp stepped
      obtain ⟨⟨status, link⟩, delivered, rfl⟩ := Option.map_eq_some_iff.mp some
      exact tracks.deliver ordered delivered
  | lose moduleId =>
      obtain ⟨link, gone, rfl⟩ := Option.map_eq_some_iff.mp stepped
      exact tracks.lose gone
  | tick nowMs =>
      obtain ⟨ordered, same⟩ := Option.ite_none_right_eq_some.mp stepped
      cases same
      exact tracks.tick ordered

/-- Where nothing is under way, a fresh report says what its module's monitor does. -/
theorem Tracks.superBusy_iff (tracks : Tracks config unit) {boardId moduleId : String}
    {report : ModuleReport} (holds : Holds unit.aggregator boardId moduleId report)
    (quiet : (unit.links moduleId).Quiet) :
    report.s = cpuBoardStateSuperBusy ↔
      (unit.reporters moduleId).monitor.state = .superBusy := by
  obtain ⟨-, -, status, heard, same⟩ := tracks.kept boardId moduleId report holds
  have announces := tracks.announces moduleId
  rw [announces.ordered.heard_eq_latest quiet] at heard
  rw [same, ← announces.latest status heard]
  cases status.boardState <;> decide

end Invariant

section Agreement

variable (percent : ℚ → Int32) (beyondInt : Double → Int32)

/-- The modules that were heard of not long ago, and are super busy. -/
def HearsBusy (unit : CpuUnit) (nowMs : Nat) : Prop :=
  ∃ moduleId heardMs, unit.heardAt moduleId = some heardMs ∧
    (nowMs : Int) ≤ heardMs + 3 * unit.aggregator.config.reportS.toInt * 1000 ∧
    (unit.reporters moduleId).monitor.state = .superBusy

/-- In every run, a tick at which nothing is under way makes the unit super busy exactly if
some module is that was heard of within three report intervals. -/
theorem unitState_agrees {config : CpuMonitorConfig} (valid : config.Valid)
    (short : config.reportS ≤ 20) (modules : String → BoardModule)
    {events : List CpuUnitEvent} {unit : CpuUnit}
    (run : Run (step percent beyondInt) (start config modules) events unit)
    (quiet : ∀ moduleId, (unit.links moduleId).Quiet) {nowMs : Nat}
    (ordered : unit.clockMs ≤ nowMs) :
    (unit.aggregator.tick nowMs).1.unitState = .superBusy ↔ unit.HearsBusy nowMs := by
  have tracks : Tracks config unit :=
    run.invariant (Tracks config) (.start config modules) fun _ stepped tracks =>
      tracks.step stepped
  have inMinute : config.reportS.toInt ≤ 20 := Int32.le_iff_toInt_le.mp short
  have fresh_iff {boardId moduleId : String} {report : ModuleReport}
      (holds : Holds unit.aggregator boardId moduleId report) :
      unit.aggregator.isFresh nowMs report ↔
        (nowMs : Int) ≤ report.seenAtMs + 3 * config.reportS.toInt * 1000 :=
    isFresh_iff valid tracks.sameConfig
      ((tracks.past _ _ (tracks.kept _ _ _ holds).1).trans ordered)
  rw [tick_unitState_iff, HearsBusy, tracks.sameConfig]
  constructor
  · rintro ⟨boardId, kept, found, moduleId, report, member, fresh, busy⟩
    obtain ⟨modules, foundBefore, memberBefore, -⟩ := holds_tick.mp ⟨kept, found, member⟩
    have holds : Holds unit.aggregator boardId moduleId report :=
      ⟨modules, foundBefore, memberBefore⟩
    refine ⟨moduleId, report.seenAtMs, (tracks.kept _ _ _ holds).1, ?_, ?_⟩
    · exact (fresh_iff holds).mp fresh
    · exact (tracks.superBusy_iff holds (quiet moduleId)).mp busy
  · rintro ⟨moduleId, heardMs, heard, recent, busy⟩
    have recentClock : nowMs ≤ heardMs + boardRemoveAfterMs := by
      unfold boardRemoveAfterMs
      omega
    obtain ⟨report, holds⟩ := tracks.listed moduleId heardMs heard (ordered.trans recentClock)
    obtain rfl := Option.some.inj ((tracks.kept _ _ _ holds).1.symm.trans heard)
    obtain ⟨kept, found, member⟩ := holds_tick_of_recent holds recentClock
    refine ⟨_, kept, found, moduleId, report, member, ?_, ?_⟩
    · exact (fresh_iff holds).mpr recent
    · exact (tracks.superBusy_iff holds (quiet moduleId)).mpr busy

/-- A camera that has sampled its board until it was too busy for too long. -/
def sampledUnit : CpuUnit :=
  (((start .default fun _ => ⟨.default, "board", 100, rfl⟩).sampleModule (fun _ => 0) "camera"
    ⟨some ⟨0, 0⟩, none, 1000⟩).sampleModule (fun _ => 0) "camera"
      ⟨some ⟨100, 5⟩, none, 2000⟩).sampleModule (fun _ => 0) "camera"
        ⟨some ⟨700, 35⟩, none, 8000⟩

def sampledReports : List CpuStatus :=
  [⟨"board", 95, 0, .free, .periodic⟩, ⟨"board", 95, 0, .superBusy, .becameSuperBusy⟩]

theorem sampledUnit_underWay : (sampledUnit.links "camera").inTransit = sampledReports := by
  decide +kernel

theorem unitState_agrees_camera :
    ∃ unit, Run (step (fun _ => 0) fun _ => 0)
        (start .default fun _ => ⟨.default, "board", 100, rfl⟩)
        ([.sample "camera" ⟨some ⟨0, 0⟩, none, 1000⟩] ++
          [.sample "camera" ⟨some ⟨100, 5⟩, none, 2000⟩] ++
          [.sample "camera" ⟨some ⟨700, 35⟩, none, 8000⟩] ++ [.deliver "camera" 8500] ++
          [.deliver "camera" 8600]) unit ∧
      unit.HearsBusy 9000 := by
  let first : CpuUnit := sampledUnit.receive (fun _ => 0) "camera" 8500
    ⟨"board", 95, 0, .free, .periodic⟩
    { sampledUnit.links "camera" with
      inTransit := [⟨"board", 95, 0, .superBusy, .becameSuperBusy⟩]
      heard := some ⟨"board", 95, 0, .free, .periodic⟩ }
  have firstDelivered :
      sampledUnit.step (fun _ => 0) (fun _ => 0) (.deliver "camera" 8500) = some first := by
    have early : sampledUnit.clockMs ≤ 8500 := by decide +kernel
    rw [step, if_pos early, Link.deliver_eq_some_iff.mpr ⟨_, sampledUnit_underWay, rfl⟩]
    rfl
  have underWay : (first.links "camera").inTransit =
      [⟨"board", 95, 0, .superBusy, .becameSuperBusy⟩] := by
    simp [first, receive]
  have secondDelivered : first.step (fun _ => 0) (fun _ => 0) (.deliver "camera" 8600) =
      some (first.receive (fun _ => 0) "camera" 8600
        ⟨"board", 95, 0, .superBusy, .becameSuperBusy⟩
        { first.links "camera" with
          inTransit := [], heard := some ⟨"board", 95, 0, .superBusy, .becameSuperBusy⟩ }) := by
    have early : first.clockMs ≤ 8600 := by decide +kernel
    rw [step, if_pos early, Link.deliver_eq_some_iff.mpr ⟨[], underWay, rfl⟩]
    rfl
  have run : Run (step (fun _ => 0) fun _ => 0)
      (start .default fun _ => ⟨.default, "board", 100, rfl⟩)
      ([.sample "camera" ⟨some ⟨0, 0⟩, none, 1000⟩] ++
        [.sample "camera" ⟨some ⟨100, 5⟩, none, 2000⟩] ++
        [.sample "camera" ⟨some ⟨700, 35⟩, none, 8000⟩] ++ [.deliver "camera" 8500] ++
        [.deliver "camera" 8600]) _ :=
    ((((Run.nil.snoc rfl).snoc rfl).snoc rfl).snoc firstDelivered).snoc secondDelivered
  refine ⟨_, run, (unitState_agrees _ _ CpuMonitorConfig.default_valid (by decide) _ run
    ?_ ?_).mp (by decide +kernel)⟩
  · intro moduleId
    by_cases same : moduleId = "camera"
    · subst same
      have notLost : (sampledUnit.links "camera").lost = false := by decide +kernel
      exact ⟨by simp [receive], by simp [first, receive, notLost]⟩
    · simp [first, receive, sampledUnit, sampleModule, start, same, Link.Quiet, Link.fresh]
  · exact Nat.le_of_ble_eq_true rfl

end Agreement

end CpuUnit

end DroneEngage
