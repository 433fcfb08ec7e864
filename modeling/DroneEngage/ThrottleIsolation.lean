import DroneEngage.EventRuns
import DroneEngage.ForgetfulGates
import DroneEngage.GeoThrottle

/-!
# One target does not silence another

The throttle keeps one entry for each key, and drops old entries where there are many.
For a target whose key no other one has, it is a gate of its own whose memory may be
lost.
-/

namespace DroneEngage

open EventRuns ForgetfulGates CGeoProjectorCore

/-- A call of `passesThrottle`, with the rate that is configured then. -/
structure ThrottleCall where
  rateHz : Double
  sighting : Sighting
  now : UInt64

section Calls

variable (beyondUInt : Double → UInt64) (cmath : CMath Double)

/-- Whether the sighting passes, and the throttle after it. -/
def ThrottleCall.decided (throttle : OrderedMap String ThrottleEntry) (call : ThrottleCall) :
    Bool × OrderedMap String ThrottleEntry :=
  passesThrottle beyondUInt cmath call.rateHz throttle call.sighting.camId call.sighting.o
    call.sighting.r call.now

/-- The throttle of a single target. -/
def throttleGate : Gate ThrottleEntry ThrottleCall where
  enter call :=
    { lastSentUs := call.now
      lastLat := call.sighting.r.lat
      lastLng := call.sighting.r.lng
      lastUncM := call.sighting.r.uncM }
  holds te call := heldBack beyondUInt cmath call.rateHz te call.sighting.r call.now

end Calls

/-- The throttle with the decisions on a target so far, and with the entry of the last
observation of it that has passed. -/
structure ThrottleWatch where
  throttle : OrderedMap String ThrottleEntry
  last : Option ThrottleEntry
  decisions : List Bool

namespace ThrottleWatch

/-- Nothing has been seen. -/
def start : ThrottleWatch where
  throttle := .empty
  last := none
  decisions := []

section Runs

variable (beyondUInt : Double → UInt64) (cmath : CMath Double) (target : DetectTarget)

def step (watch : ThrottleWatch) (call : ThrottleCall) : Option ThrottleWatch :=
  let decided := call.decided beyondUInt cmath watch.throttle
  if call.sighting.target = target then
    some
      { throttle := decided.2
        last := ((throttleGate beyondUInt cmath).step watch.last call).1
        decisions := watch.decisions ++ [decided.1] }
  else some { watch with throttle := decided.2 }

/-- Another target has another key, and where the last observation of this one that has
passed holds the next back, its entry has not been dropped. -/
structure Undisturbed (watch : ThrottleWatch) (call : ThrottleCall) : Prop where
  apart : call.sighting.target ≠ target → call.sighting.target.key ≠ target.key
  recalled : call.sighting.target = target →
    (watch.last.any fun te => (throttleGate beyondUInt cmath).holds te call) = true →
      ((purge watch.throttle call.now).find? target.key).isSome

end Runs

section Decisions

variable {beyondUInt : Double → UInt64} {cmath : CMath Double} {target : DetectTarget}
  {throttle : OrderedMap String ThrottleEntry} {call : ThrottleCall} {key : String}

theorem find?_purge (throttle : OrderedMap String ThrottleEntry) (now : UInt64) (key : String) :
    (purge throttle now).find? key = none ∨
      (purge throttle now).find? key = throttle.find? key := by
  cases found : (purge throttle now).find? key with
  | none => exact .inl rfl
  | some te => exact .inr (find?_of_purge found).symm

/-- For the target of a call the throttle is its gate. -/
theorem decided_self :
    let decided := call.decided beyondUInt cmath throttle
    let gated := (throttleGate beyondUInt cmath).step
      ((purge throttle call.now).find? call.sighting.target.key) call
    decided.1 = gated.2 ∧ decided.2.find? call.sighting.target.key = gated.1 := by
  unfold ThrottleCall.decided passesThrottle Gate.step
  rw [← call.sighting.key_target]
  dsimp only
  generalize purge throttle call.now = throttle
  cases found : throttle.find? call.sighting.target.key with
  | none => simp [heldBack_default, throttleGate]
  | some te =>
      cases held : heldBack beyondUInt cmath call.rateHz te call.sighting.r call.now <;>
        simp [held, throttleGate]

theorem decided_other (other : call.sighting.target.key ≠ key) :
    (call.decided beyondUInt cmath throttle).2.find? key =
      (purge throttle call.now).find? key := by
  unfold ThrottleCall.decided passesThrottle
  rw [← call.sighting.key_target]
  dsimp only
  split <;> simp [other.symm]

end Decisions

section Isolation

variable {beyondUInt : Double → UInt64} {cmath : CMath Double} {target : DetectTarget}
  {watch next : ThrottleWatch} {call : ThrottleCall} {calls : List ThrottleCall}

/-- The throttle has the entry of the last observation that has passed, or none. -/
def Kept (target : DetectTarget) (watch : ThrottleWatch) : Prop :=
  watch.throttle.find? target.key = none ∨ watch.throttle.find? target.key = watch.last

theorem Kept.purge (kept : Kept target watch) (now : UInt64) :
    (purge watch.throttle now).find? target.key = none ∨
      (purge watch.throttle now).find? target.key = watch.last := by
  rcases find?_purge watch.throttle now target.key with dropped | same
  · exact .inl dropped
  · rw [same]
    exact kept

/-- What the throttle knows of a target is what its gate does, if it has not been dropped. -/
structure Mirrors (beyondUInt : Double → UInt64) (cmath : CMath Double) (target : DetectTarget)
    (seen : List ThrottleCall) (watch : ThrottleWatch) : Prop where
  kept : Kept target watch
  last : watch.last = (throttleGate beyondUInt cmath).memoryAfter none seen
  decisions : watch.decisions = (throttleGate beyondUInt cmath).verdicts none seen

/-- The calls of a target. -/
def ofTarget (target : DetectTarget) (call : ThrottleCall) : Bool :=
  decide (call.sighting.target = target)

theorem mirrors_start : Mirrors beyondUInt cmath target [] start :=
  ⟨.inl rfl, rfl, rfl⟩

theorem Mirrors.step {seen : List ThrottleCall}
    (mirrors : Mirrors beyondUInt cmath target seen watch)
    (stepped : watch.step beyondUInt cmath target call = some next)
    (undisturbed : watch.Undisturbed beyondUInt cmath target call) :
    Mirrors beyondUInt cmath target (seen ++ [call].filter (ofTarget target)) next := by
  have kept := mirrors.kept.purge call.now
  unfold ThrottleWatch.step at stepped
  dsimp only at stepped
  split at stepped
  · rename_i same
    obtain rfl := Option.some.inj stepped
    have recalled := Gate.step_of_forgotten kept (undisturbed.recalled same)
    obtain ⟨passed, entered⟩ := @decided_self beyondUInt cmath watch.throttle call
    rw [same, recalled] at passed entered
    rw [List.filter_cons_of_pos (by simpa [ofTarget] using same), List.filter_nil]
    exact
      { kept := .inr entered
        last := by rw [Gate.memoryAfter_append, ← mirrors.last]
        decisions := by
          rw [Gate.verdicts_append, ← mirrors.last, ← mirrors.decisions, passed] }
  · rename_i other
    obtain rfl := Option.some.inj stepped
    rw [List.filter_cons_of_neg (by simpa [ofTarget] using other), List.filter_nil,
      List.append_nil]
    exact
      { kept := by
          rw [Kept, decided_other (undisturbed.apart other)]
          exact kept
        last := mirrors.last
        decisions := mirrors.decisions }

/-- A run in which nothing disturbs a target decides on it as its gate does. -/
theorem mirrors_run
    (run : RunWhere (step beyondUInt cmath target) (Undisturbed beyondUInt cmath target) start
      calls watch) :
    Mirrors beyondUInt cmath target (calls.filter (ofTarget target)) watch := by
  induction run with
  | nil => exact mirrors_start
  | snoc _ stepped undisturbed ih =>
      rw [List.filter_append]
      exact ih.step stepped undisturbed

/-- A throttle from which nothing is dropped has not forgotten the target. -/
theorem undisturbed_of_kept
    (apart : call.sighting.target ≠ target → call.sighting.target.key ≠ target.key)
    (undropped : purge watch.throttle call.now = watch.throttle)
    (kept : watch.throttle.find? target.key = watch.last) :
    watch.Undisturbed beyondUInt cmath target call where
  apart := apart
  recalled := by
    intro _ held
    rw [undropped, kept]
    cases last : watch.last with
    | none => simp [last] at held
    | some te => rfl

theorem kept_of_step
    (apart : call.sighting.target ≠ target → call.sighting.target.key ≠ target.key)
    (undropped : purge watch.throttle call.now = watch.throttle)
    (kept : watch.throttle.find? target.key = watch.last)
    (stepped : watch.step beyondUInt cmath target call = some next) :
    next.throttle.find? target.key = next.last := by
  unfold ThrottleWatch.step at stepped
  dsimp only at stepped
  split at stepped
  · rename_i own
    obtain rfl := Option.some.inj stepped
    obtain ⟨-, entered⟩ := @decided_self beyondUInt cmath watch.throttle call
    rwa [own, undropped, kept] at entered
  · rename_i other
    obtain rfl := Option.some.inj stepped
    rw [decided_other (apart other), undropped]
    exact kept

/-- As long as the table is small, only another target with the same key disturbs one. -/
theorem runWhere_small
    (run : RunWhere (step beyondUInt cmath target)
      (fun watch call =>
        (call.sighting.target ≠ target → call.sighting.target.key ≠ target.key) ∧
          watch.throttle.entries.length ≤ 256) start calls watch) :
    RunWhere (step beyondUInt cmath target) (Undisturbed beyondUInt cmath target) start calls
        watch ∧ watch.throttle.find? target.key = watch.last := by
  induction run with
  | nil => exact ⟨.nil, rfl⟩
  | @snoc calls watch next call _ stepped small ih =>
      obtain ⟨apart, few⟩ := small
      have undropped : purge watch.throttle call.now = watch.throttle :=
        if_neg (Nat.not_lt.mpr few)
      exact ⟨ih.1.snoc stepped (undisturbed_of_kept apart undropped ih.2),
        kept_of_step apart undropped ih.2 stepped⟩

/-- No other target has been seen. -/
def Alone (target : DetectTarget) (watch : ThrottleWatch) : Prop :=
  ∀ key ∈ watch.throttle.keys, key = target.key

theorem Alone.small (alone : Alone target watch) : watch.throttle.entries.length ≤ 256 := by
  have bound : watch.throttle.keys.length ≤ [target.key].length :=
    (watch.throttle.nodup_keys.subperm fun key member =>
      List.mem_singleton.mpr (alone key member)).length_le
  rw [OrderedMap.keys, List.length_map, List.length_singleton] at bound
  omega

theorem Alone.step (alone : Alone target watch)
    (stepped : watch.step beyondUInt cmath target call = some next)
    (own : call.sighting.target = target) : Alone target next := by
  have undropped : purge watch.throttle call.now = watch.throttle :=
    if_neg (Nat.not_lt.mpr alone.small)
  unfold ThrottleWatch.step at stepped
  dsimp only at stepped
  rw [if_pos own] at stepped
  obtain rfl := Option.some.inj stepped
  intro key member
  obtain ⟨te, found⟩ := (OrderedMap.mem_keys _).mp member
  by_contra other
  rw [decided_other (by rw [own]; exact fun same => other same.symm), undropped] at found
  exact other (alone key ((OrderedMap.mem_keys _).mpr ⟨te, found⟩))

/-- The observations of a target by themselves are not disturbed. -/
theorem runWhere_alone (run : Run (step beyondUInt cmath target) start calls watch)
    (own : ∀ call ∈ calls, call.sighting.target = target) :
    RunWhere (step beyondUInt cmath target) (Undisturbed beyondUInt cmath target) start calls
      watch := by
  have small : RunWhere (step beyondUInt cmath target)
      (fun watch call =>
        (call.sighting.target ≠ target → call.sighting.target.key ≠ target.key) ∧
          watch.throttle.entries.length ≤ 256) start calls watch ∧ Alone target watch := by
    induction run with
    | nil => exact ⟨.nil, by simp [Alone, start, OrderedMap.keys, OrderedMap.empty]⟩
    | snoc _ stepped ih =>
        obtain ⟨run, alone⟩ := ih fun call member => own call (List.mem_append_left _ member)
        have ownLast := own _ (List.mem_append_right _ (List.mem_singleton_self _))
        exact ⟨run.snoc stepped ⟨fun other => absurd ownLast other, alone.small⟩,
          alone.step stepped ownLast⟩
  exact (runWhere_small small.1).1

/-- The last observation that has passed is not later than a moment, and more than a
minute before it where its entry is gone. -/
def Ages (target : DetectTarget) (watch : ThrottleWatch) (now : UInt64) : Prop :=
  ∀ te, watch.last = some te → te.lastSentUs ≤ now ∧
    (watch.throttle.find? target.key = none → 60000000 < now - te.lastSentUs)

theorem Ages.advance {now later : UInt64} (ages : Ages target watch now)
    (elapsed : now ≤ later) : Ages target watch later := by
  intro te last
  obtain ⟨past, old⟩ := ages te last
  refine ⟨UInt64.le_trans past elapsed, fun gone => UInt64.lt_iff_toNat_lt.mpr ?_⟩
  have older := UInt64.lt_iff_toNat_lt.mp (old gone)
  have order := UInt64.le_iff_toNat_le.mp elapsed
  rw [UInt64.toNat_sub_of_le _ _ past] at older
  rw [UInt64.toNat_sub_of_le _ _ (UInt64.le_trans past elapsed)]
  omega

/-- Only an entry that is more than a minute old is dropped. -/
theorem Ages.purge {now : UInt64} (ages : Ages target watch now)
    (kept : Kept target watch) {te : ThrottleEntry}
    (last : watch.last = some te) (gone : (purge watch.throttle now).find? target.key = none) :
    60000000 < now - te.lastSentUs := by
  rcases kept with absent | same
  · exact (ages te last).2 absent
  · rw [last] at same
    unfold CGeoProjectorCore.purge at gone
    split at gone
    · rw [OrderedMap.find?_filter, same] at gone
      simpa using gone
    · rw [same] at gone
      cases gone

/-- After a minute nothing is held back by a period that is not longer. -/
theorem released_of_old {te : ThrottleEntry}
    (short : periodUs beyondUInt call.rateHz ≤ 60000001)
    (old : 60000000 < call.now - te.lastSentUs) :
    (throttleGate beyondUInt cmath).holds te call = false := by
  have oldUs := UInt64.lt_iff_toNat_lt.mp old
  have shortUs := UInt64.le_iff_toNat_le.mp short
  have elapsed : ¬ call.now - te.lastSentUs < periodUs beyondUInt call.rateHz := by
    intro within
    have withinUs := UInt64.lt_iff_toNat_lt.mp within
    simp only [UInt64.reduceToNat] at oldUs shortUs
    omega
  have timeout : steadyResendUs ≤ call.now - te.lastSentUs := by
    refine UInt64.le_iff_toNat_le.mpr ?_
    simp only [UInt64.reduceToNat, steadyResendUs] at oldUs ⊢
    omega
  simp [throttleGate, heldBack, elapsed, timeout]

theorem Ages.undisturbed (ages : Ages target watch call.now)
    (kept : Kept target watch)
    (apart : call.sighting.target ≠ target → call.sighting.target.key ≠ target.key)
    (short : periodUs beyondUInt call.rateHz ≤ 60000001) :
    watch.Undisturbed beyondUInt cmath target call where
  apart := apart
  recalled := by
    intro _ held
    cases gone : (CGeoProjectorCore.purge watch.throttle call.now).find? target.key with
    | some te => rfl
    | none =>
        cases last : watch.last with
        | none => simp [last] at held
        | some te =>
            have released := @released_of_old beyondUInt cmath call te short
              (ages.purge kept last gone)
            simp [last, released] at held

theorem Ages.step (ages : Ages target watch call.now)
    (kept : Kept target watch)
    (undisturbed : watch.Undisturbed beyondUInt cmath target call)
    (stepped : watch.step beyondUInt cmath target call = some next) :
    Ages target next call.now := by
  unfold ThrottleWatch.step at stepped
  dsimp only at stepped
  intro te last
  split at stepped
  · rename_i own
    obtain rfl := Option.some.inj stepped
    dsimp only at last
    have recalled := Gate.step_of_forgotten (kept.purge call.now) (undisturbed.recalled own)
    obtain ⟨-, entered⟩ := @decided_self beyondUInt cmath watch.throttle call
    rw [own, recalled] at entered
    refine ⟨?_, fun gone => ?_⟩
    · unfold Gate.step at last
      split at last
      · exact (ages te last).1
      · cases last
        exact UInt64.le_refl _
    · rw [entered, last] at gone
      cases gone
  · rename_i other
    obtain rfl := Option.some.inj stepped
    refine ⟨(ages te last).1, fun gone => ?_⟩
    rw [decided_other (undisturbed.apart other)] at gone
    exact ages.purge kept last gone

/-- With a clock that does not go back and periods of at most a minute, only another
target with the same key disturbs one. -/
theorem runWhere_forward
    (apart : ∀ call ∈ calls, call.sighting.target ≠ target →
      call.sighting.target.key ≠ target.key)
    (short : ∀ call ∈ calls, periodUs beyondUInt call.rateHz ≤ 60000001)
    (forward : calls.Pairwise fun earlier later => earlier.now ≤ later.now)
    (run : Run (step beyondUInt cmath target) start calls watch) :
    RunWhere (step beyondUInt cmath target) (Undisturbed beyondUInt cmath target) start calls
        watch ∧
      ∀ now, (∀ call ∈ calls, call.now ≤ now) → Ages target watch now := by
  induction run with
  | nil => exact ⟨.nil, fun now _ te last => nomatch last⟩
  | @snoc earlier before next call run stepped ih =>
      obtain ⟨forwardEarlier, -, upTo⟩ := List.pairwise_append.mp forward
      have last := List.mem_append_right earlier (List.mem_singleton_self call)
      obtain ⟨runEarlier, aging⟩ := ih
        (fun call member => apart call (List.mem_append_left _ member))
        (fun call member => short call (List.mem_append_left _ member)) forwardEarlier
      have ages := aging call.now fun other member =>
        upTo other member call (List.mem_singleton_self call)
      have kept := (mirrors_run runEarlier).kept
      have undisturbed : before.Undisturbed beyondUInt cmath target call :=
        ages.undisturbed kept (apart call last) (short call last)
      exact ⟨runEarlier.snoc stepped undisturbed, fun now bound =>
        (ages.step kept undisturbed stepped).advance (bound call last)⟩

theorem decisions_alone {alone : ThrottleWatch}
    (run : Run (step beyondUInt cmath target) start (calls.filter (ofTarget target)) alone) :
    alone.decisions =
      (throttleGate beyondUInt cmath).verdicts none (calls.filter (ofTarget target)) := by
  have own : ∀ call ∈ calls.filter (ofTarget target), call.sighting.target = target := by
    intro call member
    exact of_decide_eq_true (List.mem_filter.mp member).2
  have mirrors := mirrors_run (runWhere_alone run own)
  simp only [List.filter_filter, Bool.and_self] at mirrors
  exact mirrors.decisions

/-- An entry that is missed lets an observation pass that is held back otherwise. -/
theorem recalled_of_verdict
    (own : call.sighting.target = target)
    (same : (call.decided beyondUInt cmath watch.throttle).1 =
      ((throttleGate beyondUInt cmath).step watch.last call).2)
    (held : (watch.last.any fun te => (throttleGate beyondUInt cmath).holds te call) = true) :
    ((purge watch.throttle call.now).find? target.key).isSome := by
  obtain ⟨passed, -⟩ := @decided_self beyondUInt cmath watch.throttle call
  rw [own] at passed
  cases found : (purge watch.throttle call.now).find? target.key with
  | some te => rfl
  | none =>
      rw [found, same, Gate.step, if_pos held] at passed
      cases passed

/-- Where no other target has its key, a target is decided on as it is by itself exactly
in the runs that drop no entry of it that would hold an observation back. -/
theorem decisions_eq_alone_iff {alone : ThrottleWatch}
    (apart : ∀ call ∈ calls, call.sighting.target ≠ target →
      call.sighting.target.key ≠ target.key)
    (run : Run (step beyondUInt cmath target) start calls watch)
    (runAlone : Run (step beyondUInt cmath target) start (calls.filter (ofTarget target))
      alone) :
    watch.decisions = alone.decisions ↔
      RunWhere (step beyondUInt cmath target) (Undisturbed beyondUInt cmath target) start
        calls watch := by
  rw [decisions_alone runAlone]
  refine ⟨fun same => ?_, fun run => (mirrors_run run).decisions⟩
  clear runAlone
  induction run with
  | nil => exact .nil
  | @snoc earlier before next call run stepped ih =>
      have apartEarlier := fun call member => apart call (List.mem_append_left _ member)
      have apartLast := apart call (List.mem_append_right _ (List.mem_singleton_self _))
      rw [List.filter_append] at same
      unfold ThrottleWatch.step at stepped
      dsimp only at stepped
      by_cases own : call.sighting.target = target
      · have decided := stepped
        rw [if_pos own] at decided
        obtain rfl := Option.some.inj decided
        rw [List.filter_cons_of_pos (by simpa [ofTarget] using own), List.filter_nil,
          Gate.verdicts_append] at same
        obtain ⟨sameEarlier, sameLast⟩ := List.append_inj' same rfl
        have runEarlier := ih apartEarlier sameEarlier
        rw [← (mirrors_run runEarlier).last] at sameLast
        exact runEarlier.snoc stepped
          { apart := apartLast
            recalled := fun _ held =>
              recalled_of_verdict own (List.singleton_inj.mp sameLast) held }
      · have decided := stepped
        rw [if_neg own] at decided
        obtain rfl := Option.some.inj decided
        rw [List.filter_cons_of_neg (by simpa [ofTarget] using own), List.filter_nil,
          List.append_nil] at same
        exact (ih apartEarlier same).snoc stepped
          { apart := apartLast
            recalled := fun same => absurd same own }

end Isolation

/-- A detection without a track, at the place where all of them are. -/
def untracked (camId cls : String) (now : UInt64) : ThrottleCall where
  rateHz := .ofInt 1
  sighting :=
    { camId
      o :=
        { hasTrk := false, trk := -1, cls, hasClsId := false, clsId := -1
          conf := .ofInt 1, x := .ofInt 0, y := .ofInt 0, w := .ofInt 1, h := .ofInt 1
          attrs := .null }
      r := .default }
  now

def clashingTarget : DetectTarget where
  camId := "a"
  identity := .untracked "b|cc"

/-- A target is seen right after another one with the same key. -/
def clashingSightings : List ThrottleCall :=
  [untracked "a|cb" "c" 1000000, untracked "a" "b|cc" 1000001]

/-- A target is seen twice, and another one with another key in between. -/
def apartSightings : List ThrottleCall :=
  [untracked "a" "b|cc" 1000000, untracked "b" "c" 1000001, untracked "a" "b|cc" 1000002]

def watched (calls : List ThrottleCall) : ThrottleWatch :=
  (calls.foldlM (step (fun _ => 0) downwardMath clashingTarget) start).getD start

/-- The target is silenced by the other one. -/
theorem decisions_fails :
    ¬ ∀ (beyondUInt : Double → UInt64) (cmath : CMath Double) (target : DetectTarget)
      (calls : List ThrottleCall) (watch alone : ThrottleWatch),
      Run (step beyondUInt cmath target) start calls watch →
        Run (step beyondUInt cmath target) start (calls.filter (ofTarget target)) alone →
          watch.decisions = alone.decisions := by
  intro always
  have run : Run (step (fun _ => 0) downwardMath clashingTarget) start clashingSightings
      (watched clashingSightings) :=
    .of_foldlM rfl
  have runAlone : Run (step (fun _ => 0) downwardMath clashingTarget) start
      (clashingSightings.filter (ofTarget clashingTarget))
      (watched (clashingSightings.filter (ofTarget clashingTarget))) :=
    .of_foldlM rfl
  exact absurd (always _ _ _ _ _ _ run runAlone) (by decide +kernel)

/-- A target and another one with another key. -/
theorem decisions_eq_alone_iff_apart :
    (watched apartSightings).decisions =
      (watched (apartSightings.filter (ofTarget clashingTarget))).decisions := by
  have run : Run (step (fun _ => 0) downwardMath clashingTarget) start apartSightings
      (watched apartSightings) :=
    .of_foldlM rfl
  have undisturbed := runWhere_forward (by decide) (by decide) (by decide) run
  exact (decisions_eq_alone_iff (by decide) run (.of_foldlM rfl)).mpr undisturbed.1

end ThrottleWatch

end DroneEngage
