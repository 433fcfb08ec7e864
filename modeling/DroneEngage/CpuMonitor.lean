import DroneEngage.JsonValues
import Mathlib.Algebra.Order.Field.Rat

/-!
# The CPU monitor of a board

The monitor computes the busy share between two successive samples and runs a
machine of two states with a dead band between its thresholds.  A share is an
exact rational here; the source computes it as a double.
-/

namespace DroneEngage

/-- The integer part of a double, towards zero. -/
def Double.truncate : Double → Option Int
  | finite negative significand exponent =>
      let magnitude : Int :=
        if 0 ≤ exponent then significand * 2 ^ exponent.toNat
        else significand / 2 ^ (-exponent).toNat
      some (if negative then -magnitude else magnitude)
  | _ => none

/-- `static_cast<int>` of a double; `beyondInt` is what the machine makes of a
value that an `int` can not hold. -/
def Double.toInt32 (beyondInt : Double → Int32) (value : Double) : Int32 :=
  match value.truncate with
  | some whole =>
      if -(2 ^ 31 : Int) ≤ whole ∧ whole < 2 ^ 31 then Int32.ofInt whole
      else beyondInt value
  | none => beyondInt value

/-- `get<int>()` -/
def Json.getInt (beyondInt : Double → Int32) : Json → Except JsonException Int32
  | .boolean value => .ok (if value then 1 else 0)
  | .numberInteger value => .ok value.toInt32
  | .numberUnsigned value => .ok (Int32.ofNat value.toNat)
  | .numberFloat value => .ok (value.toInt32 beyondInt)
  | _ => .error .typeMismatch

def unsigned64 (value : Int32) : Nat :=
  (value.toInt % 2 ^ 64).toNat

theorem unsigned64_of_nonneg {value : Int32} (nonneg : 0 ≤ value.toInt) :
    (unsigned64 value : Int) = value.toInt := by
  have bound := value.toInt_lt
  unfold unsigned64
  omega

/-- `static_cast<uint64_t>(value) * 1000ULL` does not wrap. -/
theorem unsigned64_millis {value : Int32} (nonneg : 0 ≤ value.toInt) :
    ((unsigned64 value * 1000 % 2 ^ 64 : Nat) : Int) = value.toInt * 1000 := by
  have same := unsigned64_of_nonneg nonneg
  have bound := value.toInt_lt
  omega

/-- Thresholds and gates, from the `cpu_monitor` object of a configuration. -/
structure CpuMonitorConfig where
  enabled : Bool
  superBusyPercent : Int32
  freePercent : Int32
  sustainS : Int32
  reportS : Int32
  summaryS : Int32
  deriving DecidableEq, Repr

def CpuMonitorConfig.default : CpuMonitorConfig where
  enabled := true
  superBusyPercent := 90
  freePercent := 70
  sustainS := 5
  reportS := 10
  summaryS := 60

inductive CpuBusyState
  | free
  | superBusy
  deriving DecidableEq, Repr

inductive CpuTransition
  | none
  | becameSuperBusy
  | becameFree
  deriving DecidableEq, Repr

/-- One aggregate line of `/proc/stat`: all ticks, and the idle part. -/
structure CpuTimes where
  total : UInt64
  idleAll : UInt64
  deriving DecidableEq, Repr

/-- Busy percent between two samples, or -1 where the total did not advance. -/
def deCpuUsagePercent (prev cur : CpuTimes) : ℚ :=
  if cur.total ≤ prev.total then -1
  else
    let totalDelta := cur.total - prev.total
    let idleDelta := cur.idleAll - prev.idleAll
    let busyDelta := if idleDelta ≤ totalDelta then totalDelta - idleDelta else 0
    100 * (busyDelta.toNat : ℚ) / (totalDelta.toNat : ℚ)

section Parsing

variable (beyondInt : Double → Int32)

/-- A number of the `cpu_monitor` object, or the value it replaces. -/
def numberField (src : Json) (key : String) (current : Int32) : Int32 :=
  match src.member? key with
  | some found =>
      if found.isNumber then (found.getInt beyondInt).toOption.getD current else current
  | none => current

/-- The fields of a `cpu_monitor` object that are there, over the defaults. -/
def readCpuMonitorConfig (src : Json) : CpuMonitorConfig :=
  let defaults := CpuMonitorConfig.default
  { enabled :=
      match src.member? "enabled" with
      | some (.boolean enabled) => enabled
      | _ => defaults.enabled
    superBusyPercent := numberField beyondInt src "super_busy_percent" defaults.superBusyPercent
    freePercent := numberField beyondInt src "free_percent" defaults.freePercent
    sustainS := numberField beyondInt src "sustain_s" defaults.sustainS
    reportS := numberField beyondInt src "report_s" defaults.reportS
    summaryS := numberField beyondInt src "summary_s" defaults.summaryS }

def CpuMonitorConfig.badRange (config : CpuMonitorConfig) : Bool :=
  config.superBusyPercent < 1 || config.superBusyPercent > 100 ||
    config.freePercent < 0 || config.freePercent > 100 ||
    config.sustainS < 1 || config.reportS < 1 || config.summaryS < 0

/-- A configuration that `deParseCpuMonitorConfig` lets through. -/
def CpuMonitorConfig.Valid (config : CpuMonitorConfig) : Prop :=
  config.badRange = false ∧ config.freePercent < config.superBusyPercent

theorem CpuMonitorConfig.Valid.reportS_pos {config : CpuMonitorConfig} (valid : config.Valid) :
    1 ≤ config.reportS.toInt := by
  have sound := valid.1
  simp only [badRange, Bool.or_eq_false_iff, decide_eq_false_iff_not, Int32.not_lt,
    Int32.le_iff_toInt_le] at sound
  exact sound.1.2

theorem CpuMonitorConfig.Valid.summaryS_nonneg {config : CpuMonitorConfig}
    (valid : config.Valid) : 0 ≤ config.summaryS.toInt := by
  have sound := valid.1
  simp only [badRange, Bool.or_eq_false_iff, decide_eq_false_iff_not, Int32.not_lt,
    Int32.le_iff_toInt_le] at sound
  exact sound.2

theorem CpuMonitorConfig.default_valid : CpuMonitorConfig.default.Valid := by
  unfold Valid
  decide

def deParseCpuMonitorConfig (moduleConfig : Json) : CpuMonitorConfig :=
  match moduleConfig.member? "cpu_monitor" with
  | some (.object members) =>
      let config := readCpuMonitorConfig beyondInt (.object members)
      if config.badRange || config.freePercent ≥ config.superBusyPercent then
        CpuMonitorConfig.default
      else config
  | _ => CpuMonitorConfig.default

/-- What is parsed is valid: a bad object falls back to the defaults. -/
theorem deParseCpuMonitorConfig_valid (moduleConfig : Json) :
    (deParseCpuMonitorConfig beyondInt moduleConfig).Valid := by
  unfold deParseCpuMonitorConfig
  split
  · dsimp only
    split
    · exact CpuMonitorConfig.default_valid
    · rename_i sound
      rw [Bool.or_eq_true, not_or, Bool.not_eq_true, decide_eq_true_eq, ge_iff_le,
        Int32.not_le] at sound
      exact sound
  · exact CpuMonitorConfig.default_valid

end Parsing

structure CCpuMonitor where
  config : CpuMonitorConfig
  state : CpuBusyState
  haveSample : Bool
  prev : CpuTimes
  lastUsage : ℚ
  pendingDir : Int
  pendingSinceMs : Nat

namespace CCpuMonitor

def fresh (config : CpuMonitorConfig) : CCpuMonitor where
  config := config
  state := .free
  haveSample := false
  prev := ⟨0, 0⟩
  lastUsage := -1
  pendingDir := 0
  pendingSinceMs := 0

/-- Which side is pressing on the state of the machine, if any. -/
def wantedDir (monitor : CCpuMonitor) (usagePercent : ℚ) : Int :=
  match monitor.state with
  | .free => if usagePercent ≥ (monitor.config.superBusyPercent.toInt : ℚ) then 1 else 0
  | .superBusy => if usagePercent ≤ (monitor.config.freePercent.toInt : ℚ) then -1 else 0

def onUsage (monitor : CCpuMonitor) (usagePercent : ℚ) (nowMs : Nat) :
    CCpuMonitor × CpuTransition :=
  let want := monitor.wantedDir usagePercent
  if want = 0 then
    ({ monitor with pendingDir := 0, pendingSinceMs := 0 }, .none)
  else if monitor.pendingDir ≠ want then
    ({ monitor with pendingDir := want, pendingSinceMs := nowMs }, .none)
  else
    let heldMs := if nowMs ≥ monitor.pendingSinceMs then nowMs - monitor.pendingSinceMs else 0
    if heldMs < unsigned64 monitor.config.sustainS * 1000 % 2 ^ 64 then (monitor, .none)
    else
      let released := { monitor with pendingDir := 0, pendingSinceMs := 0 }
      if want > 0 then ({ released with state := .superBusy }, .becameSuperBusy)
      else ({ released with state := .free }, .becameFree)

def updateFromTimes (monitor : CCpuMonitor) (cur : CpuTimes) (nowMs : Nat) :
    CCpuMonitor × CpuTransition :=
  if !monitor.haveSample then
    -- the first sample is the baseline
    ({ monitor with prev := cur, haveSample := true }, .none)
  else
    let usage := deCpuUsagePercent monitor.prev cur
    if usage < 0 then (monitor, .none)
    else { monitor with prev := cur, lastUsage := usage }.onUsage usage nowMs

end CCpuMonitor

end DroneEngage
