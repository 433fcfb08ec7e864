import DroneEngage.UnitCpuHistory

/-!
# The state of the unit and its edges

After a tick the unit is super busy exactly when a remembered report says so that
is not older than the stale window.  The bits that ticks return are the changes
of this state, and summaries are due at ticks that lie far enough apart.
-/

namespace DroneEngage

open EventRuns CCpuAggregator

namespace UnitCpuWatch

/-- What a tick after some moments must make of them. -/
structure TickSound (config : CpuMonitorConfig) (before : List UnitCpuMoment)
    (nowMs events : Nat) (state : CpuBusyState) (boards : List String) : Prop where
  busy : state = .superBusy ↔ ∃ boardId moduleId report,
    Remembers (.ticked nowMs events state boards :: before) boardId moduleId report ∧
      report.s = cpuBoardStateSuperBusy ∧
      (nowMs : Int) ≤ report.seenAtMs + 3 * config.reportS.toInt * 1000
  becameSuperBusy : raises events unitCpuEventBecameSuperBusy ↔
    stateAfter before = .free ∧ state = .superBusy
  becameFree : raises events unitCpuEventBecameFree ↔
    stateAfter before = .superBusy ∧ state = .free
  edge : (raises events unitCpuEventBecameSuperBusy ∨ raises events unitCpuEventBecameFree) ↔
    state ≠ stateAfter before
  notBoth : ¬ (raises events unitCpuEventBecameSuperBusy ∧
    raises events unitCpuEventBecameFree)
  listed : ∀ boardId, boardId ∈ boards ↔ ∃ moduleId report,
    Remembers (.ticked nowMs events state boards :: before) boardId moduleId report

/-- The ticks of a history, each with what came before it, are sound. -/
def TicksSound (config : CpuMonitorConfig) (history : List UnitCpuMoment) : Prop :=
  ∀ after nowMs events state boards before,
    history = after ++ .ticked nowMs events state boards :: before →
      TickSound config before nowMs events state boards

/-- The summary timer stands at the last tick that a summary was due at, or later. -/
structure TimerFollows (config : CpuMonitorConfig) (watch : UnitCpuWatch) : Prop where
  bounded : ∀ due ∈ dueTimes watch.history,
    watch.aggregator.clockStarted ∧ due ≤ watch.aggregator.lastSummaryMs
  apart : (dueTimes watch.history).Pairwise fun (later earlier : Nat) =>
    (earlier : Int) + config.summaryS.toInt * 1000 ≤ later
  silenced : config.summaryS = 0 → dueTimes watch.history = []

section Steps

variable {config : CpuMonitorConfig} {watch next : UnitCpuWatch} {nowMs : Nat}

theorem isFresh_iff (valid : config.Valid) {aggregator : CCpuAggregator}
    (same : aggregator.config = config) {report : ModuleReport}
    (seen : report.seenAtMs ≤ nowMs) :
    aggregator.isFresh nowMs report ↔
      (nowMs : Int) ≤ report.seenAtMs + 3 * config.reportS.toInt * 1000 := by
  have positive := valid.reportS_pos
  have nonneg : 0 ≤ config.reportS.toInt := by omega
  have exact64 := unsigned64_of_nonneg nonneg
  have bound := config.reportS.toInt_lt
  rw [isFresh, staleWindowMs, same, Bool.and_eq_true, decide_eq_true_eq, decide_eq_true_eq]
  omega

theorem Follows.tickSound (follows : Follows config watch) (valid : config.Valid)
    (ordered : watch.clockMs ≤ nowMs) :
    TickSound config watch.history nowMs (watch.aggregator.tick nowMs).2
      (watch.aggregator.tick nowMs).1.unitState
      (watch.aggregator.tick nowMs).1.boards.keys where
  busy := by
    have after := follows.tick ordered
    rw [tick_unitState_iff]
    constructor
    · rintro ⟨boardId, modules, found, moduleId, report, held, fresh, busy⟩
      have remembers := (after.found _ _ _).mp ⟨modules, found, held⟩
      have seen := after.seen _ _ _ remembers.mem
      exact ⟨boardId, moduleId, report, remembers, busy,
        (isFresh_iff valid follows.sameConfig seen).mp fresh⟩
    · rintro ⟨boardId, moduleId, report, remembers, busy, recent⟩
      obtain ⟨modules, found, held⟩ := (after.found _ _ _).mpr remembers
      have seen := after.seen _ _ _ remembers.mem
      exact ⟨boardId, modules, found, moduleId, report, held,
        (isFresh_iff valid follows.sameConfig seen).mpr recent, busy⟩
  becameSuperBusy := by
    rw [raises_tick_becameSuperBusy_iff, follows.state]
  becameFree := by
    rw [raises_tick_becameFree_iff, follows.state]
  edge := by
    rw [raises_tick_becameSuperBusy_iff, raises_tick_becameFree_iff, follows.state]
    cases stateAfter watch.history <;>
      cases (watch.aggregator.tick nowMs).1.unitState <;> simp
  notBoth := by
    rw [raises_tick_becameSuperBusy_iff, raises_tick_becameFree_iff]
    rintro ⟨⟨free, -⟩, busy, -⟩
    exact nomatch free.symm.trans busy
  listed := by
    have after := follows.tick ordered
    intro boardId
    rw [OrderedMap.mem_keys]
    constructor
    · rintro ⟨modules, found⟩
      obtain ⟨report, listed⟩ := after.inhabited _ _ found
      obtain ⟨moduleId, held⟩ := (OrderedMap.mem_values _).mp listed
      exact ⟨moduleId, report, (after.found _ _ _).mp ⟨modules, found, held⟩⟩
    · rintro ⟨moduleId, report, remembers⟩
      obtain ⟨modules, found, -⟩ := (after.found _ _ _).mpr remembers
      exact ⟨modules, found⟩

theorem summaryDue_iff (valid : config.Valid) {aggregator : CCpuAggregator}
    (same : aggregator.config = config) :
    aggregator.summaryDue nowMs ↔ 0 < config.summaryS.toInt ∧
      (aggregator.summaryBaseMs nowMs : Int) + config.summaryS.toInt * 1000 ≤ nowMs := by
  have millis := unsigned64_millis valid.summaryS_nonneg
  have zero : (0 : Int32).toInt = 0 := rfl
  rw [summaryDue, same]
  generalize unsigned64 config.summaryS * 1000 % 2 ^ 64 = intervalMs at millis ⊢
  rw [Bool.and_eq_true, Bool.and_eq_true, decide_eq_true_eq, decide_eq_true_eq,
    decide_eq_true_eq, gt_iff_lt, Int32.lt_iff_toInt_lt]
  omega

theorem dueTimes_ticked (history : List UnitCpuMoment) (nowMs events : Nat)
    (state : CpuBusyState) (boards : List String) :
    dueTimes (.ticked nowMs events state boards :: history) =
      if raises events unitCpuEventSummaryDue then nowMs :: dueTimes history
      else dueTimes history := by
  unfold dueTimes
  rw [List.filterMap_cons]
  by_cases due : raises events unitCpuEventSummaryDue <;> simp [due]

theorem TimerFollows.tick (timer : TimerFollows config watch) (follows : Follows config watch)
    (valid : config.Valid) :
    TimerFollows config
      { aggregator := (watch.aggregator.tick nowMs).1
        clockMs := nowMs
        history := .ticked nowMs (watch.aggregator.tick nowMs).2
          (watch.aggregator.tick nowMs).1.unitState
          (watch.aggregator.tick nowMs).1.boards.keys :: watch.history } := by
  have base {due : Nat} (listed : due ∈ dueTimes watch.history) :
      due ≤ watch.aggregator.summaryBaseMs nowMs := by
    obtain ⟨started, early⟩ := timer.bounded due listed
    rw [summaryBaseMs, if_pos started]
    exact early
  have times := dueTimes_ticked watch.history nowMs (watch.aggregator.tick nowMs).2
    (watch.aggregator.tick nowMs).1.unitState (watch.aggregator.tick nowMs).1.boards.keys
  rw [raises_tick_summaryDue] at times
  cases due : watch.aggregator.summaryDue nowMs with
  | false =>
      rw [due, if_neg Bool.false_ne_true] at times
      refine ⟨fun earlier listed => ⟨rfl, ?_⟩, times ▸ timer.apart, times ▸ timer.silenced⟩
      rw [times] at listed
      rw [CCpuAggregator.tick, due]
      exact base listed
  | true =>
      rw [due, if_pos rfl] at times
      obtain ⟨positive, elapsed⟩ := (summaryDue_iff valid follows.sameConfig).mp due
      refine ⟨fun earlier listed => ⟨rfl, ?_⟩, ?_, fun zero => ?_⟩
      · rw [CCpuAggregator.tick, due]
        rcases List.mem_cons.mp (times ▸ listed) with rfl | listed
        · exact le_rfl
        · have early := base listed
          dsimp only
          rw [if_pos rfl]
          omega
      · rw [times]
        refine .cons (fun earlier listed => ?_) timer.apart
        have early := base listed
        omega
      · rw [zero] at positive
        exact absurd positive (by decide)

theorem TicksSound.ticked {history : List UnitCpuMoment} {events : Nat} {state : CpuBusyState}
    {boards : List String} (sound : TicksSound config history)
    (tickSound : TickSound config history nowMs events state boards) :
    TicksSound config (.ticked nowMs events state boards :: history) := by
  intro after tickMs tickEvents tickState tickBoards before split
  rcases List.cons_eq_append_iff.mp split with ⟨-, same⟩ | ⟨rest, -, same⟩
  · cases same
    exact tickSound
  · exact sound rest tickMs tickEvents tickState tickBoards before same

theorem TicksSound.reported {history : List UnitCpuMoment} {boardId moduleId : String}
    {report : ModuleReport} (sound : TicksSound config history) :
    TicksSound config (.reported boardId moduleId report :: history) := by
  intro after tickMs tickEvents tickState tickBoards before split
  rcases List.cons_eq_append_iff.mp split with ⟨-, same⟩ | ⟨rest, -, same⟩
  · cases same
  · exact sound rest tickMs tickEvents tickState tickBoards before same

theorem sound_of_step (valid : config.Valid) (follows : Follows config watch)
    (timer : TimerFollows config watch) (sound : TicksSound config watch.history)
    {beyondInt : Double → Int32} {call : UnitCpuCall}
    (stepped : watch.step beyondInt call = some next) :
    TimerFollows config next ∧ TicksSound config next.history := by
  cases call with
  | tick nowMs =>
      obtain ⟨ordered, same⟩ := Option.ite_none_right_eq_some.mp stepped
      cases same
      exact ⟨timer.tick follows valid, sound.ticked (follows.tickSound valid ordered)⟩
  | onReport moduleId report nowMs =>
      obtain ⟨ordered, same⟩ := Option.ite_none_right_eq_some.mp stepped
      cases same
      rw [onReport]
      cases readReport beyondInt report nowMs with
      | none => exact ⟨⟨timer.bounded, timer.apart, timer.silenced⟩, sound⟩
      | some taken => exact ⟨⟨timer.bounded, timer.apart, timer.silenced⟩, sound.reported⟩

end Steps

theorem sound_of_run (beyondInt : Double → Int32) {config : CpuMonitorConfig}
    (valid : config.Valid) {calls : List UnitCpuCall} {watch : UnitCpuWatch}
    (run : Run (step beyondInt) (fresh config) calls watch) :
    Follows config watch ∧ TimerFollows config watch ∧ TicksSound config watch.history := by
  refine run.invariant (fun watch => Follows config watch ∧ TimerFollows config watch ∧
    TicksSound config watch.history) ⟨.fresh config, ?_, ?_⟩ ?_
  · exact ⟨nofun, .nil, fun _ => rfl⟩
  · intro after _ _ _ _ before split
    exact absurd split (by simp [fresh])
  · rintro _ watch call next - stepped ⟨follows, timer, sound⟩
    exact ⟨follows.step beyondInt stepped, sound_of_step valid follows timer sound stepped⟩

/-- In every run, the state after a tick is that of the remembered and recent
reports, the edges are the changes of this state, and the ticks that a summary is
due at keep their distance. -/
theorem unit_state_of_run (beyondInt : Double → Int32) (config : CpuMonitorConfig)
    (valid : config.Valid) {calls : List UnitCpuCall} {watch : UnitCpuWatch}
    (run : Run (step beyondInt) (fresh config) calls watch) :
    watch.aggregator.unitState = stateAfter watch.history ∧
      TicksSound config watch.history ∧
      ((dueTimes watch.history).Pairwise fun (later earlier : Nat) =>
        (earlier : Int) + config.summaryS.toInt * 1000 ≤ later) ∧
      (config.summaryS = 0 → dueTimes watch.history = []) := by
  obtain ⟨follows, timer, sound⟩ := sound_of_run beyondInt valid run
  exact ⟨follows.state, sound, timer.apart, timer.silenced⟩

theorem unit_state_of_run_report :
    ∃ watch, Run (step fun _ => 0) (fresh .default)
        ([.onReport "camera"
            (.object [("bd", .string "b1"), ("s", .numberUnsigned 1), ("u", .numberUnsigned 95)])
            1000] ++ [.tick 2000]) watch ∧
      watch.aggregator.unitState = .superBusy ∧ stateAfter watch.history = .superBusy := by
  have run :=
    (Run.nil.snoc (show step (fun _ => 0) (fresh .default)
        (.onReport "camera"
          (.object [("bd", .string "b1"), ("s", .numberUnsigned 1), ("u", .numberUnsigned 95)])
          1000) = some _ from rfl)).snoc
      (show step (fun _ => 0) _ (.tick 2000) = some _ from rfl)
  have busy := (unit_state_of_run (fun _ => 0) .default CpuMonitorConfig.default_valid run).1
  exact ⟨_, run, rfl, busy.symm⟩

end UnitCpuWatch

end DroneEngage
