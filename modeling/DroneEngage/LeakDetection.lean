import DroneEngage.ModuleHealth
import DroneEngage.SecantSlopes
import Mathlib.Data.List.DropRight

/-!
# What a health report says of a leak

A report is made from the window of the last samples.  Memory that grows at a steady rate
above the limit is never reported as healthy once the window is full, memory that never
grows faster than the limit is never warned of, and the peak is that of the window.
-/

namespace DroneEngage

open EventRuns LeastSquares

namespace CModuleHealthMonitor

variable {monitor : CModuleHealthMonitor} {now : UInt64} {read : ProcSelfStatus}

/-- The window that a report is made from. -/
def windowAfter (monitor : CModuleHealthMonitor) (now : UInt64) (rssMb : ℚ) :
    List RawSample :=
  let pushed := monitor.history ++ [⟨now, rssMb⟩]
  pushed.drop (pushed.length - monitor.historySamples)

/-- How the status comes about. -/
theorem status_sample (monitor : CModuleHealthMonitor) (now : UInt64) (read : ProcSelfStatus) :
    (monitor.sample now (some read)).2.status =
      if read.rssMb > monitor.maxRssMb then .critical
      else if (monitor.windowAfter now read.rssMb).length ≥ monitor.historySamples ∧
          calculateSlope (monitor.windowAfter now read.rssMb) > monitor.maxGrowthMbPerHour then
        .warning
      else .ok :=
  rfl

end CModuleHealthMonitor

/-- From each sample to the next the memory grows at least at the rate. -/
def LeaksAtLeast (rate : ℚ) (window : List RawSample) : Prop :=
  window.IsChain fun s next =>
    rate * (hours next.timestampUsec - hours s.timestampUsec) ≤ next.rssMb - s.rssMb

def LeaksAtMost (rate : ℚ) (window : List RawSample) : Prop :=
  window.IsChain fun s next =>
    next.rssMb - s.rssMb ≤ rate * (hours next.timestampUsec - hours s.timestampUsec)

section Slopes

variable {window : List RawSample} {rate : ℚ}

theorem hours_le_hours {timestampUsec other : UInt64} (order : timestampUsec ≤ other) :
    hours timestampUsec ≤ hours other := by
  unfold hours
  apply div_le_div_of_nonneg_right _ (by norm_num)
  exact Nat.cast_le.mpr (UInt64.le_iff_toNat_le.mp order)

theorem points_ordered (inOrder : InOrder window) :
    (points window).Pairwise fun point next => point.1 ≤ next.1 :=
  List.pairwise_map.mpr (inOrder.imp hours_le_hours)

theorem spread_points (apart : ∃ s ∈ window, ∃ other ∈ window,
    s.timestampUsec ≠ other.timestampUsec) : spread (points window) ≠ 0 := by
  obtain ⟨s, listed, other, listedOther, distinct⟩ := apart
  intro zero
  apply distinct
  exact hours_injective (spread_eq_zero_iff.mp zero _ (List.mem_map_of_mem listed) _
    (List.mem_map_of_mem listedOther))

/-- A steady leak shows in the slope. -/
theorem le_calculateSlope (inOrder : InOrder window) (leaks : LeaksAtLeast rate window)
    (apart : ∃ s ∈ window, ∃ other ∈ window, s.timestampUsec ≠ other.timestampUsec) :
    rate ≤ calculateSlope window := by
  rw [calculateSlope_eq inOrder]
  apply le_regressionSlope (points_ordered inOrder) _ (spread_points apart)
  exact (List.isChain_map _).mpr leaks

/-- Without a leak there is none in the slope; a window of one instant has no slope. -/
theorem calculateSlope_le (inOrder : InOrder window) (leaks : LeaksAtMost rate window)
    (nonneg : 0 ≤ rate) : calculateSlope window ≤ rate := by
  by_cases flat : spread (points window) = 0
  · rw [calculateSlope_of_denom_eq_zero inOrder (by rw [slopeDenom_eq inOrder, flat])]
    exact nonneg
  · rw [calculateSlope_eq inOrder]
    apply regressionSlope_le (points_ordered inOrder) _ flat
    exact (List.isChain_map _).mpr leaks

end Slopes

/-- The peak that a report tells. -/
theorem peak_spec (window : List RawSample) (start : ℚ) :
    let peak := window.foldl (fun peak s => if s.rssMb > peak then s.rssMb else peak) start
    start ≤ peak ∧ (∀ s ∈ window, s.rssMb ≤ peak) ∧
      (peak = start ∨ ∃ s ∈ window, s.rssMb = peak) := by
  induction window generalizing start with
  | nil => exact ⟨le_rfl, nofun, .inl rfl⟩
  | cons first rest ih =>
      obtain ⟨least, bound, attained⟩ := ih (if first.rssMb > start then first.rssMb else start)
      rw [List.foldl_cons]
      generalize rest.foldl _ _ = peak at least bound attained ⊢
      split at least
      · rename_i higher
        rw [if_pos higher] at attained
        refine ⟨(le_of_lt higher).trans least, ?_, .inr ?_⟩
        · exact List.forall_mem_cons.mpr ⟨least, bound⟩
        · rcases attained with rfl | ⟨s, listed, same⟩
          · exact ⟨first, List.mem_cons_self, rfl⟩
          · exact ⟨s, List.mem_cons_of_mem _ listed, same⟩
      · rename_i lower
        rw [if_neg lower] at attained
        refine ⟨least, ?_, attained.imp_right ?_⟩
        · exact List.forall_mem_cons.mpr ⟨(not_lt.mp lower).trans least, bound⟩
        · rintro ⟨s, listed, same⟩
          exact ⟨s, List.mem_cons_of_mem _ listed, same⟩

/-- The last elements, with one more at the end. -/
theorem rtake_append_singleton {Element : Type*} (elements : List Element) (last : Element)
    (count : Nat) :
    (elements.rtake count ++ [last]).rtake count = (elements ++ [last]).rtake count := by
  cases count with
  | zero => simp
  | succ count =>
      rw [List.rtake_concat_succ, List.rtake_concat_succ]
      congr 1
      simp [List.rtake_eq_reverse_take_reverse, List.take_take]

namespace HealthWatch

/-- The samples that were read along a run. -/
def taken (calls : List HealthCall) : List RawSample :=
  calls.filterMap fun
    | .sample now (some read) => some ⟨now, read.rssMb⟩
    | _ => none

theorem taken_append_singleton (calls : List HealthCall) (call : HealthCall) :
    taken (calls ++ [call]) = taken calls ++ taken [call] :=
  List.filterMap_append

/-- The size of the window stays as it is. -/
def KeepsWindow (watch : HealthWatch) : HealthCall → Prop
  | .configure _ _ historySamples => historySamples = watch.monitor.historySamples
  | .sample _ _ => True

variable {calls : List HealthCall} {watch : HealthWatch} {maxRssMb maxGrowthMbPerHour : ℚ}
  {historySamples : Nat}

/-- The window holds the last samples of all that were read. -/
theorem history_of_run
    (run : RunWhere step KeepsWindow
      ⟨CModuleHealthMonitor.fresh.configure maxRssMb maxGrowthMbPerHour historySamples, 0⟩
      calls watch) :
    watch.monitor.historySamples = historySamples ∧
      watch.monitor.history = (taken calls).rtake historySamples := by
  induction run with
  | nil => exact ⟨rfl, by simp [taken, CModuleHealthMonitor.fresh,
      CModuleHealthMonitor.configure]⟩
  | @snoc events state next event _ stepped keeps ih =>
      obtain ⟨size, history⟩ := ih
      rw [taken_append_singleton]
      cases event with
      | configure maxRssMb maxGrowthMbPerHour samples =>
          cases stepped
          refine ⟨Eq.trans keeps size, ?_⟩
          rw [show taken [.configure maxRssMb maxGrowthMbPerHour samples] = [] from rfl,
            List.append_nil]
          exact history
      | sample now status =>
          obtain ⟨-, same⟩ := Option.ite_none_right_eq_some.mp stepped
          cases same
          cases status with
          | none =>
              refine ⟨size, ?_⟩
              rw [show taken [.sample now none] = [] from rfl, List.append_nil]
              exact history
          | some read =>
              refine ⟨size, ?_⟩
              change List.rtake (state.monitor.history ++ [(⟨now, read.rssMb⟩ : RawSample)])
                state.monitor.historySamples = _
              rw [size, history]
              exact rtake_append_singleton _ _ _

/-- What a report says of the window. -/
structure Reports (window : List RawSample) (monitor : CModuleHealthMonitor)
    (read : ProcSelfStatus) (report : ModuleHealthSample) : Prop where
  peak_bound : ∀ s ∈ window, s.rssMb ≤ report.peakRssMb
  peak_attained : report.peakRssMb = 0 ∨ ∃ s ∈ window, s.rssMb = report.peakRssMb
  critical : report.status = .critical ↔ monitor.maxRssMb < read.rssMb
  leak : ∀ rate, monitor.maxGrowthMbPerHour < rate →
    monitor.historySamples ≤ window.length → LeaksAtLeast rate window →
    (∃ s ∈ window, ∃ other ∈ window, s.timestampUsec ≠ other.timestampUsec) →
    report.status ≠ .ok
  noLeak : 0 ≤ monitor.maxGrowthMbPerHour → LeaksAtMost monitor.maxGrowthMbPerHour window →
    report.status ≠ .warning
  startUp : window.length < monitor.historySamples → report.status ≠ .warning

theorem reports_sample {monitor : CModuleHealthMonitor} {now : UInt64} {read : ProcSelfStatus}
    (inOrder : InOrder (monitor.windowAfter now read.rssMb)) :
    Reports (monitor.windowAfter now read.rssMb) monitor read
      (monitor.sample now (some read)).2 := by
  obtain ⟨-, bound, attained⟩ := peak_spec (monitor.windowAfter now read.rssMb) 0
  have status := monitor.status_sample now read
  refine ⟨bound, attained, ?_, ?_, ?_, ?_⟩
  · rw [status]
    split
    · exact iff_of_true rfl ‹_›
    · rename_i low
      split
      · exact iff_of_false (by decide) low
      · exact iff_of_false (by decide) low
  · intro rate above full leaks apart
    have steep := le_calculateSlope inOrder leaks apart
    rw [status]
    split
    · decide
    · rw [if_pos ⟨full, above.trans_le steep⟩]
      decide
  · intro nonneg leaks
    have flat := calculateSlope_le inOrder leaks nonneg
    rw [status]
    split
    · decide
    · rw [if_neg fun grows => absurd grows.2 (not_lt.mpr flat)]
      decide
  · intro short
    rw [status]
    split
    · decide
    · rw [if_neg fun grows => absurd grows.1 (not_le.mpr short)]
      decide

/-- The window that the next report is about. -/
theorem windowAfter_of_run
    (run : RunWhere step KeepsWindow
      ⟨CModuleHealthMonitor.fresh.configure maxRssMb maxGrowthMbPerHour historySamples, 0⟩
      calls watch) (now : UInt64) (rssMb : ℚ) :
    watch.monitor.windowAfter now rssMb =
      (taken calls ++ [(⟨now, rssMb⟩ : RawSample)]).rtake historySamples := by
  obtain ⟨size, history⟩ := history_of_run run
  change List.rtake (watch.monitor.history ++ [(⟨now, rssMb⟩ : RawSample)])
    watch.monitor.historySamples = _
  rw [size, history]
  exact rtake_append_singleton _ _ _

theorem inOrder_windowAfter
    (run : RunWhere step KeepsWindow
      ⟨CModuleHealthMonitor.fresh.configure maxRssMb maxGrowthMbPerHour historySamples, 0⟩
      calls watch) {now : UInt64} (later : watch.clockUsec ≤ now) (read : ProcSelfStatus) :
    InOrder (watch.monitor.windowAfter now read.rssMb) := by
  have dated : watch.Dated := by
    apply run.run.invariant Dated ⟨List.Pairwise.nil, nofun⟩
    intro _ _ _ _ _ stepped dated
    exact dated.step stepped
  have next : watch.step (.sample now (some read)) =
      some ⟨(watch.monitor.sample now (some read)).1, now⟩ :=
    if_pos later
  exact (dated.step next).inOrder

/-- In every run, a report is about the last samples that were read, and says of them what
it should. -/
theorem healthReports_of_run
    (run : RunWhere step KeepsWindow
      ⟨CModuleHealthMonitor.fresh.configure maxRssMb maxGrowthMbPerHour historySamples, 0⟩
      calls watch) {now : UInt64} (later : watch.clockUsec ≤ now) (read : ProcSelfStatus) :
    Reports ((taken calls ++ [(⟨now, read.rssMb⟩ : RawSample)]).rtake historySamples)
      watch.monitor read
      (watch.monitor.sample now (some read)).2 := by
  have window := windowAfter_of_run run now read.rssMb
  rw [← window]
  apply reports_sample
  exact inOrder_windowAfter run later read

/-- A module that leaks a megabyte in half a minute, with a window of two samples. -/
theorem healthReports_of_run_leaking :
    ∃ watch : HealthWatch,
      Reports [⟨30000000, 101⟩, ⟨60000000, 102⟩] watch.monitor ⟨102, 0, 1⟩
        (watch.monitor.sample 60000000 (some ⟨102, 0, 1⟩)).2 := by
  let start : HealthWatch := ⟨CModuleHealthMonitor.fresh.configure 500 20 2, 0⟩
  have first : RunWhere step KeepsWindow start [.sample 5 (some ⟨100, 0, 1⟩)] _ :=
    RunWhere.nil.snoc (show step _ (.sample 5 (some ⟨100, 0, 1⟩)) = some _ from rfl) trivial
  have second := first.snoc
    (show step _ (.sample 30000000 (some ⟨101, 0, 1⟩)) = some _ from rfl) trivial
  have later : (30000000 : UInt64) ≤ 60000000 := by decide
  obtain ⟨watch, run, later⟩ : ∃ watch : HealthWatch,
      RunWhere step KeepsWindow start _ watch ∧ watch.clockUsec ≤ 60000000 :=
    ⟨_, second, later⟩
  exact ⟨watch, healthReports_of_run run later ⟨102, 0, 1⟩⟩

end HealthWatch

end DroneEngage
