import DroneEngage.GeoProjectorCore

/-!
# The time a frame is projected at

The pose is asked for at the time of the capture, unless the stamp is missing or too
far from now.  A stamp that is slightly ahead is meant to be good, but the unsigned
difference to it wraps around.
-/

namespace DroneEngage.CGeoProjectorCore

variable (core : CGeoProjectorCore)

/-- The time that the pose source is asked for, if it is asked. -/
def poseRequest (ms : Json) (now : UInt64) : Option UInt64 :=
  if core.config.enabled then
    match obsParse ms with
    | .error _ => none
    | .ok frame => if frame.obs.isEmpty then none else some (core.frameTime frame.tmCapture now)
  else none

/-- The time that is wanted for a capture time, now and a latency, without a bound. -/
def wantedTime (tmCapture now latencyMs : Int) : Int :=
  if tmCapture ≠ 0 ∧ tmCapture ≤ now + 200000 ∧ now ≤ tmCapture + 2000000 then tmCapture
  else now - latencyMs * 1000

section FrameTime

variable {core} {tmCapture : Int} {now : UInt64}

theorem toNat_ofInt (nonneg : 0 ≤ tmCapture) (fits : tmCapture < 2 ^ 63) :
    ((Int64.ofInt tmCapture).toUInt64.toNat : Int) = tmCapture := by
  obtain ⟨stamp, rfl⟩ := Int.eq_ofNat_of_zero_le nonneg
  have same : (Int64.ofInt stamp).toUInt64 = UInt64.ofNat stamp := by
    rw [Int64.ofInt_eq_ofNat, Int64.toUInt64_ofNat']
  rw [same, UInt64.toNat_ofNat', Nat.mod_eq_of_lt (by omega)]

/-- The time of a latency before now. -/
theorem toNat_beforeLatency (nonneg : 0 ≤ core.config.latencyMs.toInt)
    (started : core.config.latencyMs.toInt * 1000 ≤ now.toNat) :
    ((now - core.config.latencyMs.toInt64.toUInt64 * 1000).toNat : Int) =
      now.toNat - core.config.latencyMs.toInt * 1000 := by
  have small := core.config.latencyMs.toInt_lt
  have latency := toNat_ofInt nonneg (by omega)
  rw [Int64.ofInt_int32ToInt] at latency
  have product : ((core.config.latencyMs.toInt64.toUInt64 * 1000).toNat : Int) =
      core.config.latencyMs.toInt * 1000 := by
    simp only [UInt64.toNat_mul, UInt64.reduceToNat]
    omega
  have order : core.config.latencyMs.toInt64.toUInt64 * 1000 ≤ now := by
    rw [UInt64.le_iff_toNat_le]
    omega
  rw [UInt64.toNat_sub_of_le _ _ order]
  have := UInt64.le_iff_toNat_le.mp order
  omega

/-- What the source makes of a stamp: it is never ahead of now. -/
theorem toNat_frameTime (nonneg : 0 ≤ tmCapture) (fits : tmCapture < 2 ^ 63)
    (nowFits : now.toNat < 2 ^ 63) (latency : 0 ≤ core.config.latencyMs.toInt)
    (started : core.config.latencyMs.toInt * 1000 ≤ now.toNat) :
    ((core.frameTime tmCapture now).toNat : Int) =
      if tmCapture ≠ 0 ∧ tmCapture ≤ now.toNat ∧ now.toNat ≤ tmCapture + 2000000 then tmCapture
      else now.toNat - core.config.latencyMs.toInt * 1000 := by
  have stamp := toNat_ofInt nonneg fits
  have before := toNat_beforeLatency latency started
  unfold frameTime
  dsimp only
  generalize (Int64.ofInt tmCapture).toUInt64 = tFrame at stamp
  have zero : tFrame = 0 ↔ tmCapture = 0 := by
    rw [← UInt64.toNat_inj, UInt64.toNat_zero]
    omega
  have ahead : now + 200000 < tFrame ↔ (now.toNat : Int) + 200000 < tmCapture := by
    simp only [UInt64.lt_iff_toNat_lt, UInt64.toNat_add, UInt64.reduceToNat]
    omega
  have behind : frameTimeWindowUs < now - tFrame ↔
      now.toNat < tmCapture ∨ tmCapture + 2000000 < now.toNat := by
    simp only [UInt64.lt_iff_toNat_lt, UInt64.toNat_sub, frameTimeWindowUs, UInt64.reduceToNat]
    omega
  simp only [Bool.or_eq_true, decide_eq_true_eq, zero, ahead, behind]
  split
  · rw [before, if_neg (by omega)]
  · rw [stamp, if_pos (by omega)]

end FrameTime

/-- The time that the source is asked for is the wanted one, exactly unless the stamp is
ahead of now within the tolerance. -/
theorem poseRequest_wanted_iff {core : CGeoProjectorCore} {ms : Json}
    {frame : ObservationFrame Double} {now : UInt64} (enabled : core.config.enabled = true)
    (parsed : obsParse ms = .ok frame) (seen : frame.obs ≠ [])
    (nonneg : 0 ≤ frame.tmCapture) (fits : frame.tmCapture < 2 ^ 63)
    (nowFits : now.toNat < 2 ^ 63) (latency : 0 ≤ core.config.latencyMs.toInt)
    (started : core.config.latencyMs.toInt * 1000 ≤ now.toNat) :
    (∃ tFrame, core.poseRequest ms now = some tFrame ∧
        (tFrame.toNat : Int) =
          wantedTime frame.tmCapture now.toNat core.config.latencyMs.toInt) ↔
      ¬ (now.toNat < frame.tmCapture ∧ frame.tmCapture ≤ now.toNat + 200000) := by
  have asked : core.poseRequest ms now = some (core.frameTime frame.tmCapture now) := by
    rw [poseRequest, if_pos enabled, parsed]
    simp [seen]
  rw [asked]
  simp only [Option.some.injEq, exists_eq_left']
  rw [toNat_frameTime nonneg fits nowFits latency started, wantedTime]
  split <;> split <;> omega

/-- A frame with one detection and a stamp. -/
def stampedFrame (tmCapture : UInt64) : Json :=
  .object
    [ ("cam_id", .string "DE-CAM1"),
      ("obs", .array
        [ .object
          [ ("box", .array
              [.numberUnsigned 0, .numberUnsigned 0, .numberUnsigned 1, .numberUnsigned 1]),
            ("cls", .string "person"), ("conf", .numberUnsigned 1) ] ]),
      ("tm_capture", .numberUnsigned tmCapture) ]

def enabledCore : CGeoProjectorCore :=
  { fresh with config := { fresh.config with enabled := true } }

def stampedObservations (tmCapture : UInt64) : ObservationFrame Double where
  camId := "DE-CAM1"
  tmCapture := tmCapture.toInt64.toInt
  obs :=
    [ { hasTrk := false, trk := -1, cls := "person", hasClsId := false, clsId := -1
        conf := .ofInt 1, x := .ofInt 0, y := .ofInt 0, w := .ofInt 1, h := .ofInt 1
        attrs := .null } ]

theorem obsParse_stampedFrame :
    obsParse (stampedFrame 1200000) = .ok (stampedObservations 1200000) :=
  rfl

/-- A stamp that is 0.1 s behind now. -/
theorem poseRequest_wanted_iff_behind :
    ∃ tFrame, enabledCore.poseRequest (stampedFrame 1200000) 1300000 = some tFrame ∧
      (tFrame.toNat : Int) = wantedTime 1200000 1300000 150 :=
  (poseRequest_wanted_iff rfl obsParse_stampedFrame (List.cons_ne_nil _ _) (by decide)
    (by decide) (by decide) (by decide) (by decide)).mpr (by decide)

/-- A stamp that is 0.1 s ahead of now is not asked for. -/
theorem poseRequest_wanted_fails :
    ¬ ∀ (core : CGeoProjectorCore) (ms : Json) (frame : ObservationFrame Double) (now : UInt64),
      core.config.enabled = true → obsParse ms = .ok frame → frame.obs ≠ [] →
        0 ≤ frame.tmCapture → frame.tmCapture < 2 ^ 63 → now.toNat < 2 ^ 63 →
          0 ≤ core.config.latencyMs.toInt →
            core.config.latencyMs.toInt * 1000 ≤ now.toNat →
              ∃ tFrame, core.poseRequest ms now = some tFrame ∧
                (tFrame.toNat : Int) =
                  wantedTime frame.tmCapture now.toNat core.config.latencyMs.toInt := by
  intro always
  obtain ⟨tFrame, asked, same⟩ := always enabledCore (stampedFrame 1200000)
    (stampedObservations 1200000) 1100000 rfl obsParse_stampedFrame (List.cons_ne_nil _ _)
    (by decide) (by decide) (by decide) (by decide) (by decide)
  have fallback : enabledCore.poseRequest (stampedFrame 1200000) 1100000 = some 950000 := rfl
  rw [fallback] at asked
  rw [← Option.some.inj asked] at same
  exact absurd same (by decide)

end DroneEngage.CGeoProjectorCore
