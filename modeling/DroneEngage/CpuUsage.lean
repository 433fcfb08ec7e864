import DroneEngage.CpuMonitor
import Mathlib.Tactic.Positivity
import Mathlib.Tactic.FieldSimp
import Mathlib.Tactic.GCongr

/-!
# The busy share with signed deltas

The idle counter may step back between two samples.  The unsigned difference then
wraps around, and a board that was busy all the time reads as idle.
-/

namespace DroneEngage

/-- The ticks of an interval that were not idle: none if there were more idle ticks
than ticks, and all if the idle counter stepped back. -/
def signedBusyDelta (prev cur : CpuTimes) : Int :=
  let totalDelta : Int := cur.total.toNat - prev.total.toNat
  let idleDelta : Int := cur.idleAll.toNat - prev.idleAll.toNat
  max 0 (min (totalDelta - idleDelta) totalDelta)

/-- The busy percent with a signed difference of the idle counters. -/
def signedUsagePercent (prev cur : CpuTimes) : ℚ :=
  100 * (signedBusyDelta prev cur : ℚ) / ((cur.total.toNat - prev.total.toNat : Int) : ℚ)

/-- The busy percent is the signed one, is a percentage, and does not increase when
there are more idle ticks. -/
structure CountsIdle (prev cur : CpuTimes) : Prop where
  exact : deCpuUsagePercent prev cur = signedUsagePercent prev cur
  inRange : 0 ≤ deCpuUsagePercent prev cur ∧ deCpuUsagePercent prev cur ≤ 100
  antitone : ∀ idleAll, cur.idleAll ≤ idleAll →
    deCpuUsagePercent prev { cur with idleAll := idleAll } ≤ deCpuUsagePercent prev cur

variable {prev cur : CpuTimes}

/-- The busy ticks as the source counts them. -/
def unsignedBusyDelta (prev cur : CpuTimes) : UInt64 :=
  if cur.idleAll - prev.idleAll ≤ cur.total - prev.total then
    cur.total - prev.total - (cur.idleAll - prev.idleAll)
  else 0

theorem deCpuUsagePercent_of_advanced (advanced : prev.total < cur.total) :
    deCpuUsagePercent prev cur =
      100 * ((unsignedBusyDelta prev cur).toNat : ℚ) / ((cur.total - prev.total).toNat : ℚ) := by
  rw [deCpuUsagePercent, if_neg (UInt64.not_le.mpr advanced)]
  rfl

theorem toNat_totalDelta (advanced : prev.total < cur.total) :
    ((cur.total - prev.total).toNat : Int) = cur.total.toNat - prev.total.toNat := by
  have order := UInt64.le_of_lt advanced
  have bound := UInt64.le_iff_toNat_le.mp order
  rw [UInt64.toNat_sub_of_le _ _ order]
  omega

theorem totalDelta_pos (advanced : prev.total < cur.total) :
    0 < (cur.total - prev.total).toNat := by
  have delta := toNat_totalDelta advanced
  have order := UInt64.lt_iff_toNat_lt.mp advanced
  omega

theorem unsignedBusyDelta_le (prev cur : CpuTimes) :
    (unsignedBusyDelta prev cur).toNat ≤ (cur.total - prev.total).toNat := by
  unfold unsignedBusyDelta
  split
  · rename_i within
    rw [UInt64.toNat_sub_of_le _ _ within]
    exact Nat.sub_le _ _
  · exact Nat.zero_le _

/-- Where the idle counter does not step back, the unsigned count is the signed one. -/
theorem toNat_unsignedBusyDelta (advanced : prev.total < cur.total)
    (forward : prev.idleAll ≤ cur.idleAll) :
    ((unsignedBusyDelta prev cur).toNat : Int) = signedBusyDelta prev cur := by
  have total := toNat_totalDelta advanced
  have idle := UInt64.toNat_sub_of_le _ _ forward
  have order := UInt64.le_iff_toNat_le.mp forward
  unfold unsignedBusyDelta signedBusyDelta
  dsimp only
  split
  · rename_i within
    have within' := UInt64.le_iff_toNat_le.mp within
    rw [UInt64.toNat_sub_of_le _ _ within]
    omega
  · rename_i beyond
    have beyond' := UInt64.lt_iff_toNat_lt.mp (UInt64.not_le.mp beyond)
    rw [UInt64.toNat_zero]
    omega

/-- Where it steps back, some ticks that were busy are not counted. -/
theorem unsignedBusyDelta_lt (advanced : prev.total < cur.total)
    (back : cur.idleAll < prev.idleAll) :
    ((unsignedBusyDelta prev cur).toNat : Int) < signedBusyDelta prev cur := by
  have total := toNat_totalDelta advanced
  have positive := totalDelta_pos advanced
  have order := UInt64.lt_iff_toNat_lt.mp back
  have all : signedBusyDelta prev cur = (cur.total - prev.total).toNat := by
    unfold signedBusyDelta
    dsimp only
    omega
  rw [all]
  unfold unsignedBusyDelta
  split
  · rename_i within
    have wrapped : 0 < (cur.idleAll - prev.idleAll).toNat := by
      rw [UInt64.toNat_sub]
      have := prev.idleAll.toNat_lt
      have := cur.idleAll.toNat_lt
      omega
    rw [UInt64.toNat_sub_of_le _ _ within]
    omega
  · simpa using positive

theorem signedUsagePercent_eq (advanced : prev.total < cur.total) :
    signedUsagePercent prev cur =
      100 * (signedBusyDelta prev cur : ℚ) / ((cur.total - prev.total).toNat : ℚ) := by
  rw [signedUsagePercent, ← toNat_totalDelta advanced, Int.cast_natCast]

theorem deCpuUsagePercent_eq_signed_iff (advanced : prev.total < cur.total) :
    deCpuUsagePercent prev cur = signedUsagePercent prev cur ↔ prev.idleAll ≤ cur.idleAll := by
  have positive : ((cur.total - prev.total).toNat : ℚ) ≠ 0 :=
    Nat.cast_ne_zero.mpr (totalDelta_pos advanced).ne'
  rw [deCpuUsagePercent_of_advanced advanced, signedUsagePercent_eq advanced,
    div_left_inj' positive, mul_right_inj' (by norm_num)]
  constructor
  · intro same
    by_contra back
    have fewer := unsignedBusyDelta_lt advanced (UInt64.not_le.mp back)
    exact fewer.ne (by exact_mod_cast same)
  · intro forward
    rw [← toNat_unsignedBusyDelta advanced forward, Int.cast_natCast]

theorem deCpuUsagePercent_inRange (advanced : prev.total < cur.total) :
    0 ≤ deCpuUsagePercent prev cur ∧ deCpuUsagePercent prev cur ≤ 100 := by
  have positive : (0 : ℚ) < (cur.total - prev.total).toNat :=
    Nat.cast_pos.mpr (totalDelta_pos advanced)
  have bound : ((unsignedBusyDelta prev cur).toNat : ℚ) ≤ (cur.total - prev.total).toNat :=
    Nat.cast_le.mpr (unsignedBusyDelta_le prev cur)
  rw [deCpuUsagePercent_of_advanced advanced]
  constructor
  · positivity
  · rw [div_le_iff₀ positive]
    gcongr

theorem signedUsagePercent_antitone (advanced : prev.total < cur.total) {idleAll : UInt64}
    (more : cur.idleAll ≤ idleAll) :
    signedUsagePercent prev { cur with idleAll := idleAll } ≤ signedUsagePercent prev cur := by
  have order := UInt64.le_iff_toNat_le.mp more
  have fewer : signedBusyDelta prev { cur with idleAll := idleAll } ≤
      signedBusyDelta prev cur := by
    unfold signedBusyDelta
    dsimp only
    omega
  rw [signedUsagePercent_eq advanced, @signedUsagePercent_eq prev { cur with idleAll } advanced]
  gcongr

/-- The busy percent is the signed one exactly where the idle counter does not step
back. -/
theorem countsIdle_iff (advanced : prev.total < cur.total) :
    CountsIdle prev cur ↔ prev.idleAll ≤ cur.idleAll := by
  rw [← deCpuUsagePercent_eq_signed_iff advanced]
  constructor
  · exact CountsIdle.exact
  · intro same
    refine ⟨same, deCpuUsagePercent_inRange advanced, fun idleAll more => ?_⟩
    have forward := (deCpuUsagePercent_eq_signed_iff advanced).mp same
    have later : deCpuUsagePercent prev { cur with idleAll := idleAll } =
        signedUsagePercent prev { cur with idleAll := idleAll } :=
      (@deCpuUsagePercent_eq_signed_iff prev { cur with idleAll } advanced).mpr
        (UInt64.le_trans forward more)
    rw [later, same]
    exact signedUsagePercent_antitone advanced more

/-- Ten ticks, four of them idle. -/
theorem countsIdle_iff_fourIdle :
    CountsIdle ⟨100, 50⟩ ⟨110, 54⟩ :=
  (countsIdle_iff (by decide)).mpr (by decide)

/-- Ten busy ticks with an idle counter that steps back read as none. -/
theorem countsIdle_fails :
    ¬ ∀ prev cur : CpuTimes, prev.total < cur.total → CountsIdle prev cur := by
  intro always
  have same := (always ⟨100, 50⟩ ⟨110, 49⟩ (by decide)).exact
  have forward := (deCpuUsagePercent_eq_signed_iff (by decide)).mp same
  exact absurd forward (by decide)

end DroneEngage
