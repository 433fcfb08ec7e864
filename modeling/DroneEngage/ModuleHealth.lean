import DroneEngage.EventRuns
import DroneEngage.LeastSquares
import Mathlib.Algebra.Order.Field.Rat

/-!
# The memory trend of a module

The monitor keeps the last samples of the resident set, and takes the slope of their
regression line for the growth in megabytes per hour.  Sizes and slopes are exact
rationals here; the source computes them as doubles.
-/

namespace DroneEngage

open EventRuns LeastSquares

structure RawSample where
  timestampUsec : UInt64
  rssMb : ℚ

/-- What `readProcSelfStatus` reads, as far as it is used. -/
structure ProcSelfStatus where
  rssMb : ℚ
  vmswapMb : ℚ
  threads : Int32

/-- `MODULE_HEALTH_TREND_*` -/
inductive HealthTrend
  | stable
  | up
  | down
  deriving DecidableEq

/-- `MODULE_HEALTH_STATUS_*` -/
inductive HealthStatus
  | ok
  | warning
  | critical
  deriving DecidableEq

/-- `MODULE_HEALTH_SAMPLE` -/
structure ModuleHealthSample where
  rssMb : ℚ
  peakRssMb : ℚ
  vmswapMb : ℚ
  threads : Int32
  slopeMbH : ℚ
  trend : HealthTrend
  status : HealthStatus
  uptimeSec : UInt64
  valid : Bool

def ModuleHealthSample.invalid : ModuleHealthSample where
  rssMb := 0
  peakRssMb := 0
  vmswapMb := 0
  threads := 0
  slopeMbH := 0
  trend := .stable
  status := .ok
  uptimeSec := 0
  valid := false

/-- The sums that `calculateSlope` collects. -/
structure SlopeSums where
  sumX : ℚ
  sumY : ℚ
  sumXy : ℚ
  sumXx : ℚ

def hoursSince (t0 timestampUsec : UInt64) : ℚ :=
  ((timestampUsec - t0).toNat : ℚ) / 3600000000

def SlopeSums.add (t0 : UInt64) (sums : SlopeSums) (s : RawSample) : SlopeSums :=
  let x := hoursSince t0 s.timestampUsec
  let y := s.rssMb
  { sumX := sums.sumX + x
    sumY := sums.sumY + y
    sumXy := sums.sumXy + x * y
    sumXx := sums.sumXx + x * x }

def slopeSums (history : List RawSample) : SlopeSums :=
  match history with
  | [] => ⟨0, 0, 0, 0⟩
  | front :: _ => history.foldl (SlopeSums.add front.timestampUsec) ⟨0, 0, 0, 0⟩

/-- The denominator of the slope. -/
def slopeDenom (history : List RawSample) : ℚ :=
  (history.length : ℚ) * (slopeSums history).sumXx -
    (slopeSums history).sumX * (slopeSums history).sumX

def calculateSlope (history : List RawSample) : ℚ :=
  if history.length < 2 then 0
  else
    let denom := slopeDenom history
    if denom = 0 then 0
    else
      ((history.length : ℚ) * (slopeSums history).sumXy -
        (slopeSums history).sumX * (slopeSums history).sumY) / denom

structure CModuleHealthMonitor where
  history : List RawSample
  historySamples : Nat
  maxRssMb : ℚ
  maxGrowthMbPerHour : ℚ
  startTimeUsec : UInt64

namespace CModuleHealthMonitor

def fresh : CModuleHealthMonitor where
  history := []
  historySamples := 40
  maxRssMb := 500
  maxGrowthMbPerHour := 20
  startTimeUsec := 0

def configure (monitor : CModuleHealthMonitor) (maxRssMb maxGrowthMbPerHour : ℚ)
    (historySamples : Nat) : CModuleHealthMonitor :=
  { monitor with maxRssMb, maxGrowthMbPerHour, historySamples }

def trendOf (slopeMbH : ℚ) : HealthTrend :=
  if slopeMbH > 1 then .up else if slopeMbH < -1 then .down else .stable

/-- `sample`, at a time of the monotonic clock, with what the process status says. -/
def sample (monitor : CModuleHealthMonitor) (now : UInt64) (status : Option ProcSelfStatus) :
    CModuleHealthMonitor × ModuleHealthSample :=
  let started :=
    { monitor with
      startTimeUsec := if monitor.startTimeUsec = 0 then now else monitor.startTimeUsec }
  match status with
  | none => (started, .invalid)
  | some read =>
      let pushed := started.history ++ [⟨now, read.rssMb⟩]
      let history := pushed.drop (pushed.length - started.historySamples)
      let slopeMbH := calculateSlope history
      ({ started with history },
        { rssMb := read.rssMb
          peakRssMb := history.foldl (fun peak s => if s.rssMb > peak then s.rssMb else peak) 0
          vmswapMb := read.vmswapMb
          threads := read.threads
          slopeMbH
          trend := trendOf slopeMbH
          status :=
            if read.rssMb > started.maxRssMb then .critical
            else if history.length ≥ started.historySamples ∧
                slopeMbH > started.maxGrowthMbPerHour then .warning
            else .ok
          uptimeSec := (now - started.startTimeUsec) / 1000000
          valid := true })

end CModuleHealthMonitor

/-- Samples in the order of their times. -/
def InOrder (history : List RawSample) : Prop :=
  history.Pairwise fun earlier later => earlier.timestampUsec ≤ later.timestampUsec

/-- A time in hours. -/
def hours (timestampUsec : UInt64) : ℚ :=
  (timestampUsec.toNat : ℚ) / 3600000000

/-- The samples as points of hours and megabytes. -/
def points (history : List RawSample) : List (ℚ × ℚ) :=
  history.map fun s => (hours s.timestampUsec, s.rssMb)

section Slope

variable {history : List RawSample}

theorem foldl_add_eq (t0 : UInt64) (sums : SlopeSums) (history : List RawSample) :
    let elapsed := history.map fun s => (hoursSince t0 s.timestampUsec, s.rssMb)
    history.foldl (SlopeSums.add t0) sums =
      { sumX := sums.sumX + total (fun x _ => x) elapsed
        sumY := sums.sumY + total (fun _ y => y) elapsed
        sumXy := sums.sumXy + total (fun x y => x * y) elapsed
        sumXx := sums.sumXx + total (fun x _ => x * x) elapsed } := by
  induction history generalizing sums with
  | nil => simp
  | cons s history ih =>
      rw [List.foldl_cons, ih]
      simp only [SlopeSums.add, List.map_cons, total_cons, add_assoc]

theorem hoursSince_eq {t0 timestampUsec : UInt64} (order : t0 ≤ timestampUsec) :
    hoursSince t0 timestampUsec = hours timestampUsec - hours t0 := by
  rw [hoursSince, hours, hours, UInt64.toNat_sub_of_le _ _ order,
    Nat.cast_sub (UInt64.le_iff_toNat_le.mp order), sub_div]

/-- The sums are those of the points, with the first one at time zero. -/
theorem slopeSums_eq (inOrder : InOrder history) :
    ∃ along, slopeSums history =
      { sumX := total (fun x _ => x) (shift along 0 (points history))
        sumY := total (fun _ y => y) (shift along 0 (points history))
        sumXy := total (fun x y => x * y) (shift along 0 (points history))
        sumXx := total (fun x _ => x * x) (shift along 0 (points history)) } := by
  cases history with
  | nil => exact ⟨0, rfl⟩
  | cons front rest =>
      refine ⟨-hours front.timestampUsec, ?_⟩
      have elapsed : (front :: rest).map (fun s =>
          (hoursSince front.timestampUsec s.timestampUsec, s.rssMb)) =
            shift (-hours front.timestampUsec) 0 (points (front :: rest)) := by
        rw [shift, points, List.map_map]
        refine List.map_congr_left fun s listed => ?_
        have order : front.timestampUsec ≤ s.timestampUsec := by
          rcases List.mem_cons.mp listed with rfl | later
          · exact UInt64.le_refl _
          · exact (List.pairwise_cons.mp inOrder).1 s later
        simp [hoursSince_eq order, sub_eq_add_neg]
      rw [slopeSums, foldl_add_eq, elapsed]
      simp

theorem slopeDenom_eq (inOrder : InOrder history) :
    slopeDenom history = spread (points history) := by
  obtain ⟨along, sums⟩ := slopeSums_eq inOrder
  rw [← spread_shift along 0, slopeDenom, sums, spread]
  simp [shift, points]

theorem slopeDenom_of_short (inOrder : InOrder history) (short : history.length < 2) :
    slopeDenom history = 0 := by
  rw [slopeDenom_eq inOrder]
  match history with
  | [] => simp [spread, points]
  | [s] => simp [spread_eq_zero_iff, points]

/-- The slope is that of the regression line. -/
theorem calculateSlope_eq (inOrder : InOrder history) :
    calculateSlope history = regressionSlope (points history) := by
  unfold calculateSlope
  split
  · rename_i short
    rw [regressionSlope, ← slopeDenom_eq inOrder, slopeDenom_of_short inOrder short, div_zero]
  · dsimp only
    split
    · rename_i zero
      rw [regressionSlope, ← slopeDenom_eq inOrder, zero, div_zero]
    · obtain ⟨along, sums⟩ := slopeSums_eq inOrder
      rw [slopeDenom_eq inOrder, sums, ← regressionSlope_shift along 0, regressionSlope,
        spread_shift, coSpread]
      simp [shift, points]

theorem hours_injective : Function.Injective hours := by
  intro timestampUsec other same
  unfold hours at same
  rw [div_left_inj' (by norm_num), Nat.cast_inj] at same
  exact UInt64.toNat_inj.mp same

theorem slopeDenom_eq_zero_iff (inOrder : InOrder history) :
    slopeDenom history = 0 ↔ history.length < 2 ∨
      ∀ s ∈ history, ∀ other ∈ history, s.timestampUsec = other.timestampUsec := by
  constructor
  · intro zero
    right
    rw [slopeDenom_eq inOrder, spread_eq_zero_iff] at zero
    intro s listed other listedOther
    exact hours_injective (zero _ (List.mem_map_of_mem listed) _ (List.mem_map_of_mem listedOther))
  · rintro (short | same)
    · exact slopeDenom_of_short inOrder short
    · rw [slopeDenom_eq inOrder, spread_eq_zero_iff]
      intro point listed other listedOther
      obtain ⟨s, member, rfl⟩ := List.mem_map.mp listed
      obtain ⟨s', member', rfl⟩ := List.mem_map.mp listedOther
      exact congrArg hours (same s member s' member')

theorem calculateSlope_of_denom_eq_zero (inOrder : InOrder history)
    (zero : slopeDenom history = 0) : calculateSlope history = 0 := by
  rw [calculateSlope_eq inOrder, regressionSlope, ← slopeDenom_eq inOrder, zero, div_zero]

/-- Samples whose times are all moved, around the end of the clock too. -/
def delayed (delayUsec : UInt64) (history : List RawSample) : List RawSample :=
  history.map fun s => { s with timestampUsec := s.timestampUsec + delayUsec }

/-- Samples that are all larger by the same size. -/
def enlarged (moreMb : ℚ) (history : List RawSample) : List RawSample :=
  history.map fun s => { s with rssMb := s.rssMb + moreMb }

theorem add_delayed (t0 delayUsec : UInt64) (sums : SlopeSums) (s : RawSample) :
    SlopeSums.add (t0 + delayUsec) sums { s with timestampUsec := s.timestampUsec + delayUsec } =
      SlopeSums.add t0 sums s := by
  have sameDelta : s.timestampUsec + delayUsec - (t0 + delayUsec) = s.timestampUsec - t0 := by
    grind
  simp only [SlopeSums.add, hoursSince, sameDelta]

theorem slopeSums_delayed (delayUsec : UInt64) (history : List RawSample) :
    slopeSums (delayed delayUsec history) = slopeSums history := by
  cases history with
  | nil => rfl
  | cons front rest =>
      simp only [delayed, slopeSums, List.map_cons, List.foldl_cons, List.foldl_map, add_delayed]

theorem calculateSlope_delayed (delayUsec : UInt64) (history : List RawSample) :
    calculateSlope (delayed delayUsec history) = calculateSlope history := by
  unfold calculateSlope slopeDenom
  rw [slopeSums_delayed]
  simp only [delayed, List.length_map]

theorem calculateSlope_enlarged (inOrder : InOrder history) (moreMb : ℚ) :
    calculateSlope (enlarged moreMb history) = calculateSlope history := by
  have inOrderEnlarged : InOrder (enlarged moreMb history) := List.pairwise_map.mpr inOrder
  have moved : points (enlarged moreMb history) = shift 0 moreMb (points history) := by
    simp [points, enlarged, shift, Function.comp_def]
  rw [calculateSlope_eq inOrderEnlarged, moved, regressionSlope_shift, calculateSlope_eq inOrder]

/-- The slope is the trend of the samples, and does not depend on the origins. -/
structure IsTrend (history : List RawSample) : Prop where
  denom_nonneg : 0 ≤ slopeDenom history
  denom_eq_zero_iff : slopeDenom history = 0 ↔ history.length < 2 ∨
    ∀ s ∈ history, ∀ other ∈ history, s.timestampUsec = other.timestampUsec
  flat : slopeDenom history = 0 → calculateSlope history = 0
  least : slopeDenom history ≠ 0 → ∃ best, best.slope = calculateSlope history ∧
    ∀ line, IsLeastSquares line (points history) ↔ line = best
  delayed : ∀ delayUsec, calculateSlope (delayed delayUsec history) = calculateSlope history
  enlarged : ∀ moreMb, calculateSlope (enlarged moreMb history) = calculateSlope history
  onLine : ∀ line : Line ℚ, (∀ s ∈ history, s.rssMb = line.height (hours s.timestampUsec)) →
    slopeDenom history ≠ 0 → calculateSlope history = line.slope

/-- On samples in the order of their times the slope is that of least squares. -/
theorem calculateSlope_isTrend (inOrder : InOrder history) : IsTrend history where
  denom_nonneg := by
    rw [slopeDenom_eq inOrder]
    exact spread_nonneg _
  denom_eq_zero_iff := slopeDenom_eq_zero_iff inOrder
  flat := calculateSlope_of_denom_eq_zero inOrder
  least := by
    intro spreads
    rw [slopeDenom_eq inOrder] at spreads
    refine ⟨regressionLine (points history), ?_, fun line => isLeastSquares_iff spreads⟩
    rw [calculateSlope_eq inOrder]
    rfl
  delayed := fun delayUsec => calculateSlope_delayed delayUsec history
  enlarged := calculateSlope_enlarged inOrder
  onLine := by
    intro line onLine spreads
    rw [slopeDenom_eq inOrder] at spreads
    rw [calculateSlope_eq inOrder]
    refine regressionSlope_of_onLine (fun point listed => ?_) spreads
    obtain ⟨s, member, rfl⟩ := List.mem_map.mp listed
    exact onLine s member

/-- Half a megabyte in half a minute. -/
theorem calculateSlope_isTrend_two : IsTrend [⟨0, 100⟩, ⟨30000000, 201 / 2⟩] :=
  calculateSlope_isTrend (by unfold InOrder; decide)

end Slope

/-! The samples of a monitor are in order. -/

/-- What happens to a monitor. -/
inductive HealthCall
  | configure (maxRssMb maxGrowthMbPerHour : ℚ) (historySamples : Nat)
  | sample (now : UInt64) (status : Option ProcSelfStatus)

/-- A monitor with the time of its last sample. -/
structure HealthWatch where
  monitor : CModuleHealthMonitor
  clockUsec : UInt64

namespace HealthWatch

/-- A call at a time that is not before the last one. -/
def step (watch : HealthWatch) : HealthCall → Option HealthWatch
  | .configure maxRssMb maxGrowthMbPerHour historySamples =>
      some
        { watch with
          monitor := watch.monitor.configure maxRssMb maxGrowthMbPerHour historySamples }
  | .sample now status =>
      if watch.clockUsec ≤ now then some ⟨(watch.monitor.sample now status).1, now⟩ else none

/-- The samples are in order, and none is later than the clock. -/
structure Dated (watch : HealthWatch) : Prop where
  inOrder : InOrder watch.monitor.history
  past : ∀ s ∈ watch.monitor.history, s.timestampUsec ≤ watch.clockUsec

theorem Dated.step {watch next : HealthWatch} (dated : watch.Dated) {call : HealthCall}
    (stepped : watch.step call = some next) : next.Dated := by
  cases call with
  | configure maxRssMb maxGrowthMbPerHour historySamples =>
      cases stepped
      exact ⟨dated.inOrder, dated.past⟩
  | sample now status =>
      obtain ⟨ordered, same⟩ := Option.ite_none_right_eq_some.mp stepped
      cases same
      cases status with
      | none => exact ⟨dated.inOrder, fun s listed => UInt64.le_trans (dated.past s listed) ordered⟩
      | some read =>
          have pushed : Dated ⟨{ watch.monitor with
              history := watch.monitor.history ++ [⟨now, read.rssMb⟩] }, now⟩ := by
            constructor
            · refine List.pairwise_append.mpr ⟨dated.inOrder, List.pairwise_singleton _ _, ?_⟩
              intro s listed last isLast
              rw [List.mem_singleton.mp isLast]
              exact UInt64.le_trans (dated.past s listed) ordered
            · intro s listed
              rcases List.mem_append.mp listed with old | new
              · exact UInt64.le_trans (dated.past s old) ordered
              · rw [List.mem_singleton.mp new]
                exact UInt64.le_refl _
          exact ⟨pushed.inOrder.sublist (List.drop_sublist _ _),
            fun s listed => pushed.past s (List.mem_of_mem_drop listed)⟩

end HealthWatch

end DroneEngage
