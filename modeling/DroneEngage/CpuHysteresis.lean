import DroneEngage.CpuMonitor
import DroneEngage.EventRuns
import Mathlib.Tactic.Positivity

/-!
# The sustained-threshold rule

A watch feeds samples to a monitor and keeps what it has seen: the samples whose
total advanced, their usage and what the monitor answered.  The monitor answers
with an edge exactly when the usage has been on the far side of the threshold
for long enough, without a break and since the last edge.
-/

namespace DroneEngage

open EventRuns

structure UsedSample where
  usage : ℚ
  nowMs : Nat
  transition : CpuTransition
  deriving DecidableEq

structure CpuSample where
  times : CpuTimes
  nowMs : Nat

/-- A monitor, the time of the last sample, the last sample that counted, and
the samples used since, the newest first. -/
structure CpuWatch where
  monitor : CCpuMonitor
  clockMs : Nat
  counted : Option CpuTimes
  used : List UsedSample

namespace CpuWatch

def fresh (config : CpuMonitorConfig) : CpuWatch where
  monitor := .fresh config
  clockMs := 0
  counted := none
  used := []

/-- The usage of a sample, unless it is the first or its total did not advance. -/
def usageOf (watch : CpuWatch) (sample : CpuSample) : Option ℚ :=
  match watch.counted with
  | some prev =>
      if prev.total < sample.times.total then some (deCpuUsagePercent prev sample.times)
      else none
  | none => none

def counts (watch : CpuWatch) (sample : CpuSample) : Bool :=
  watch.counted.all fun prev => prev.total < sample.times.total

/-- What the monitor answers to a sample. -/
def answer (watch : CpuWatch) (sample : CpuSample) : CpuTransition :=
  (watch.monitor.updateFromTimes sample.times sample.nowMs).2

/-- A sample at a time that is not before the last one. -/
def step (watch : CpuWatch) (sample : CpuSample) : Option CpuWatch :=
  if watch.clockMs ≤ sample.nowMs then
    some
      { monitor := (watch.monitor.updateFromTimes sample.times sample.nowMs).1
        clockMs := sample.nowMs
        counted := if watch.counts sample then some sample.times else watch.counted
        used :=
          match watch.usageOf sample with
          | some usage => ⟨usage, sample.nowMs, watch.answer sample⟩ :: watch.used
          | none => watch.used }
  else none

/-- When the unbroken run of samples that qualify began, since the last edge. -/
def sustainedSince (qualifies : ℚ → Bool) (used : List UsedSample) : Option Nat :=
  (used.takeWhile fun sample =>
    sample.transition = .none && qualifies sample.usage).getLast?.map UsedSample.nowMs

def presses (config : CpuMonitorConfig) (state : CpuBusyState) (usage : ℚ) : Bool :=
  match state with
  | .free => usage ≥ (config.superBusyPercent.toInt : ℚ)
  | .superBusy => usage ≤ (config.freePercent.toInt : ℚ)

/-- The usage of this sample presses on the state, and the run of such samples
began at an earlier one, the sustain time ago at least. -/
def Sustained (config : CpuMonitorConfig) (watch : CpuWatch) (state : CpuBusyState)
    (sample : CpuSample) : Prop :=
  ∃ usage, watch.usageOf sample = some usage ∧ presses config state usage ∧
    ∃ since, sustainedSince (presses config state) watch.used = some since ∧
      (since : Int) + config.sustainS.toInt * 1000 ≤ sample.nowMs

def edges (watch : CpuWatch) : List CpuTransition :=
  (watch.used.reverse.map UsedSample.transition).filter (· ≠ .none)

/-- The edge that a machine starting free takes after so many others. -/
def edgeAt (index : Nat) : CpuTransition :=
  if index % 2 = 0 then .becameSuperBusy else .becameFree

/-- The direction, the edge and the state that pressure on a state leads to. -/
def dirFrom : CpuBusyState → Int
  | .free => 1
  | .superBusy => -1

def edgeFrom : CpuBusyState → CpuTransition
  | .free => .becameSuperBusy
  | .superBusy => .becameFree

def otherState : CpuBusyState → CpuBusyState
  | .free => .superBusy
  | .superBusy => .free

section Usage

variable {config : CpuMonitorConfig} {monitor : CCpuMonitor} {usage : ℚ} {nowMs : Nat}

/-- The usage is negative exactly where the total did not advance. -/
theorem deCpuUsagePercent_neg_iff (prev cur : CpuTimes) :
    deCpuUsagePercent prev cur < 0 ↔ ¬ prev.total < cur.total := by
  unfold deCpuUsagePercent
  rw [UInt64.not_lt]
  split
  · rename_i stays
    exact iff_of_true (by decide) stays
  · rename_i advances
    refine iff_of_false (not_lt.mpr ?_) advances
    positivity

theorem wantedDir_eq (same : monitor.config = config) :
    monitor.wantedDir usage =
      if presses config monitor.state usage then dirFrom monitor.state else 0 := by
  unfold CCpuMonitor.wantedDir presses dirFrom
  rw [same]
  cases monitor.state <;> simp

theorem sustainMs_eq (nonneg : 0 ≤ config.sustainS.toInt) :
    (unsigned64 config.sustainS * 1000 % 2 ^ 64 : Nat) =
      (config.sustainS.toInt * 1000).toNat := by
  rw [← unsigned64_millis nonneg, Int.toNat_natCast]

/-- What one usage does to the pending timer and the state. -/
theorem onUsage_cases (same : monitor.config = config)
    (nonneg : 0 ≤ config.sustainS.toInt) :
    (presses config monitor.state usage = false ∧ monitor.onUsage usage nowMs =
      ({ monitor with pendingDir := 0, pendingSinceMs := 0 }, .none)) ∨
    (presses config monitor.state usage ∧ monitor.pendingDir ≠ dirFrom monitor.state ∧
      monitor.onUsage usage nowMs =
        ({ monitor with pendingDir := dirFrom monitor.state, pendingSinceMs := nowMs },
          .none)) ∨
    (presses config monitor.state usage ∧ monitor.pendingDir = dirFrom monitor.state ∧
      nowMs - monitor.pendingSinceMs < (config.sustainS.toInt * 1000).toNat ∧
      monitor.onUsage usage nowMs = (monitor, .none)) ∨
    (presses config monitor.state usage ∧ monitor.pendingDir = dirFrom monitor.state ∧
      (config.sustainS.toInt * 1000).toNat ≤ nowMs - monitor.pendingSinceMs ∧
      monitor.onUsage usage nowMs =
        ({ monitor with
            pendingDir := 0, pendingSinceMs := 0, state := otherState monitor.state },
          edgeFrom monitor.state)) := by
  have held : (if nowMs ≥ monitor.pendingSinceMs then nowMs - monitor.pendingSinceMs else 0) =
      nowMs - monitor.pendingSinceMs := by
    split
    · rfl
    · omega
  have notZero : dirFrom monitor.state ≠ 0 := by
    cases monitor.state <;> decide
  unfold CCpuMonitor.onUsage
  simp only [wantedDir_eq same, held, same, sustainMs_eq nonneg]
  by_cases presses : CpuWatch.presses config monitor.state usage
  · simp only [presses, if_true, if_neg notZero, true_and, Bool.true_eq_false, false_and,
      false_or]
    by_cases pending : monitor.pendingDir = dirFrom monitor.state
    · by_cases short :
          nowMs - monitor.pendingSinceMs < (config.sustainS.toInt * 1000).toNat
      · exact .inr (.inl ⟨pending, short, by simp [pending, short]⟩)
      · refine .inr (.inr ⟨pending, Nat.le_of_not_lt short, ?_⟩)
        simp only [pending, ne_eq, not_true_eq_false, if_false, if_neg short]
        cases monitor.state <;> rfl
    · exact .inl ⟨pending, by simp [pending]⟩
  · exact .inl ⟨eq_false_of_ne_true presses, by simp [presses]⟩

end Usage

section Sustaining

variable {qualifies : ℚ → Bool} {sample : UsedSample} {used : List UsedSample}

theorem sustainedSince_cons_of_breaks
    (breaks : sample.transition ≠ .none ∨ qualifies sample.usage = false) :
    sustainedSince qualifies (sample :: used) = none := by
  unfold sustainedSince
  rw [List.takeWhile_cons_of_neg]
  · rfl
  · rcases breaks with edge | short
    · simp [edge]
    · simp [short]

theorem sustainedSince_cons_of_goesOn (noEdge : sample.transition = .none)
    (long : qualifies sample.usage) :
    sustainedSince qualifies (sample :: used) =
      some ((sustainedSince qualifies used).getD sample.nowMs) := by
  unfold sustainedSince
  rw [List.takeWhile_cons_of_pos (by simp [noEdge, long]), List.getLast?_cons]
  cases (used.takeWhile _).getLast? <;> rfl

end Sustaining

/-- What holds of a watch along a run. -/
structure Follows (config : CpuMonitorConfig) (watch : CpuWatch) : Prop where
  sameConfig : watch.monitor.config = config
  baseline : watch.monitor.haveSample = watch.counted.isSome
  prev : ∀ prev, watch.counted = some prev → watch.monitor.prev = prev
  pending : (watch.monitor.pendingDir = 0 ∧
      sustainedSince (presses config watch.monitor.state) watch.used = none) ∨
    (watch.monitor.pendingDir = dirFrom watch.monitor.state ∧
      watch.monitor.pendingSinceMs ≤ watch.clockMs ∧
      sustainedSince (presses config watch.monitor.state) watch.used =
        some watch.monitor.pendingSinceMs)
  edges : watch.edges = (List.range watch.edges.length).map edgeAt
  state : watch.monitor.state =
    if watch.edges.length % 2 = 0 then .free else .superBusy

section Steps

variable {config : CpuMonitorConfig} {watch next : CpuWatch} {sample : CpuSample}

theorem step_eq_some (stepped : step watch sample = some next) :
    watch.clockMs ≤ sample.nowMs ∧
      next =
        { monitor := (watch.monitor.updateFromTimes sample.times sample.nowMs).1
          clockMs := sample.nowMs
          counted := if watch.counts sample then some sample.times else watch.counted
          used :=
            match watch.usageOf sample with
            | some usage => ⟨usage, sample.nowMs, watch.answer sample⟩ :: watch.used
            | none => watch.used } := by
  unfold step at stepped
  split at stepped
  · rename_i ordered
    exact ⟨ordered, (Option.some.inj stepped).symm⟩
  · cases stepped

/-- A sample that is not used leaves the state and the timer alone. -/
theorem updateFromTimes_of_unused (follows : Follows config watch)
    (unused : watch.usageOf sample = none) :
    watch.answer sample = .none ∧
      (watch.monitor.updateFromTimes sample.times sample.nowMs).1 =
        if watch.counts sample then
          { watch.monitor with prev := sample.times, haveSample := true }
        else watch.monitor := by
  have baseline := follows.baseline
  unfold answer CCpuMonitor.updateFromTimes
  unfold usageOf at unused
  unfold counts
  cases counted : watch.counted with
  | none =>
      rw [counted] at baseline
      simp [baseline]
  | some prev =>
      rw [counted] at baseline
      simp only [counted] at unused
      have stays : ¬ prev.total < sample.times.total := by
        intro advances
        simp [advances] at unused
      have negative := (deCpuUsagePercent_neg_iff prev sample.times).mpr stays
      simp [baseline, follows.prev prev counted, negative, stays]

/-- A sample that is used is a call of `onUsage`. -/
theorem updateFromTimes_of_used (follows : Follows config watch) {usage : ℚ}
    (used : watch.usageOf sample = some usage) :
    watch.counts sample ∧ watch.monitor.updateFromTimes sample.times sample.nowMs =
      { watch.monitor with prev := sample.times, lastUsage := usage }.onUsage usage
        sample.nowMs := by
  have baseline := follows.baseline
  unfold CCpuMonitor.updateFromTimes
  unfold usageOf at used
  unfold counts
  cases counted : watch.counted with
  | none => simp [counted] at used
  | some prev =>
      rw [counted] at baseline
      simp only [counted, Option.ite_none_right_eq_some, Option.some.injEq] at used
      obtain ⟨advances, rfl⟩ := used
      have positive := mt (deCpuUsagePercent_neg_iff prev sample.times).mp (not_not.mpr advances)
      simp [baseline, follows.prev prev counted, positive, advances]

/-- The answer is the edge from the state exactly where the rule asks for it. -/
theorem answer_cases (nonneg : 0 ≤ config.sustainS.toInt) (follows : Follows config watch)
    (ordered : watch.clockMs ≤ sample.nowMs) :
    (Sustained config watch watch.monitor.state sample ∧
      watch.answer sample = edgeFrom watch.monitor.state) ∨
    (¬ Sustained config watch watch.monitor.state sample ∧ watch.answer sample = .none) := by
  unfold Sustained
  cases seen : watch.usageOf sample with
  | none =>
      right
      exact ⟨nofun, (updateFromTimes_of_unused follows seen).1⟩
  | some usage =>
      unfold answer
      rw [(updateFromTimes_of_used follows seen).2]
      simp only [Option.some.injEq, exists_eq_left']
      have pending := follows.pending
      have notZero : dirFrom watch.monitor.state ≠ 0 := by
        cases watch.monitor.state <;> decide
      rcases @onUsage_cases config
        { watch.monitor with prev := sample.times, lastUsage := usage } usage sample.nowMs
        follows.sameConfig nonneg with
        ⟨light, outcome⟩ | ⟨-, other, outcome⟩ | ⟨-, same, short, outcome⟩ |
        ⟨heavy, same, long, outcome⟩
      · right
        rw [outcome]
        exact ⟨fun sustained => by simp [light] at sustained, rfl⟩
      · right
        rw [outcome]
        have idle := (pending.resolve_right fun running => other running.1).2
        exact ⟨fun sustained => by simp [idle] at sustained, rfl⟩
      · right
        rw [outcome]
        obtain ⟨-, -, since⟩ := pending.resolve_left fun idle => notZero (same.symm.trans idle.1)
        refine ⟨?_, rfl⟩
        rintro ⟨-, began, sinceBegan, held⟩
        rw [since, Option.some.injEq] at sinceBegan
        dsimp only at short
        omega
      · left
        rw [outcome]
        obtain ⟨-, before, since⟩ :=
          pending.resolve_left fun idle => notZero (same.symm.trans idle.1)
        refine ⟨⟨heavy, watch.monitor.pendingSinceMs, since, ?_⟩, rfl⟩
        dsimp only at long
        omega

theorem edges_cons (used : UsedSample) (monitor : CCpuMonitor) (clockMs : Nat)
    (counted : Option CpuTimes) (earlier : List UsedSample) :
    edges ⟨monitor, clockMs, counted, used :: earlier⟩ =
      edges ⟨monitor, clockMs, counted, earlier⟩ ++
        if used.transition = .none then [] else [used.transition] := by
  unfold edges
  rw [List.reverse_cons, List.map_append, List.filter_append]
  by_cases noEdge : used.transition = .none
  · simp [noEdge]
  · simp [noEdge]

/-- A used sample without an edge leaves the edges and the state as they were. -/
theorem Follows.used (follows : Follows config watch) {monitor : CCpuMonitor}
    {sample : UsedSample} {times : CpuTimes} (noEdge : sample.transition = .none)
    (sameConfig : monitor.config = watch.monitor.config)
    (sameState : monitor.state = watch.monitor.state) (baseline : monitor.haveSample)
    (prev : monitor.prev = times)
    (pending : (monitor.pendingDir = 0 ∧
        sustainedSince (presses config watch.monitor.state) (sample :: watch.used) = none) ∨
      (monitor.pendingDir = dirFrom watch.monitor.state ∧
        monitor.pendingSinceMs ≤ sample.nowMs ∧
        sustainedSince (presses config watch.monitor.state) (sample :: watch.used) =
          some monitor.pendingSinceMs)) :
    Follows config ⟨monitor, sample.nowMs, some times, sample :: watch.used⟩ := by
  have sameEdges : CpuWatch.edges ⟨monitor, sample.nowMs, some times, sample :: watch.used⟩ =
      watch.edges := by
    rw [edges_cons, if_pos noEdge, List.append_nil]
    rfl
  constructor
  · exact sameConfig.trans follows.sameConfig
  · exact baseline
  · rintro _ ⟨⟩
    exact prev
  · dsimp only
    rw [sameState]
    exact pending
  · rw [sameEdges]
    exact follows.edges
  · rw [sameEdges]
    exact sameState.trans follows.state

theorem edgeAt_eq_edgeFrom (follows : Follows config watch) :
    edgeAt watch.edges.length = edgeFrom watch.monitor.state ∧
      otherState watch.monitor.state =
        if (watch.edges.length + 1) % 2 = 0 then .free else .superBusy := by
  rw [follows.state, edgeAt]
  rcases Nat.mod_two_eq_zero_or_one watch.edges.length with even | odd
  · have next : (watch.edges.length + 1) % 2 = 1 := by omega
    simp [even, next, edgeFrom, otherState]
  · have next : (watch.edges.length + 1) % 2 = 0 := by omega
    simp [odd, next, edgeFrom, otherState]

/-- A sample that is not used leaves the timer, the edges and the state as they were. -/
theorem Follows.unused (follows : Follows config watch) {nowMs : Nat}
    (ordered : watch.clockMs ≤ nowMs) {monitor : CCpuMonitor} {counted : Option CpuTimes}
    (sameConfig : monitor.config = watch.monitor.config)
    (sameState : monitor.state = watch.monitor.state)
    (sameDir : monitor.pendingDir = watch.monitor.pendingDir)
    (sameSince : monitor.pendingSinceMs = watch.monitor.pendingSinceMs)
    (baseline : monitor.haveSample = counted.isSome)
    (prev : ∀ prev, counted = some prev → monitor.prev = prev) :
    Follows config ⟨monitor, nowMs, counted, watch.used⟩ := by
  refine ⟨sameConfig.trans follows.sameConfig, baseline, prev, ?_, follows.edges,
    sameState.trans follows.state⟩
  dsimp only
  rw [sameState, sameDir, sameSince]
  exact follows.pending.imp_right fun running =>
    ⟨running.1, running.2.1.trans ordered, running.2.2⟩

/-- A sample with an edge stops the timer and turns the state around. -/
theorem Follows.raised (follows : Follows config watch) (baseline : watch.monitor.haveSample)
    (sample : CpuSample) (usage : ℚ) :
    Follows config
      ⟨{ watch.monitor with
          prev := sample.times, lastUsage := usage, pendingDir := 0, pendingSinceMs := 0,
          state := otherState watch.monitor.state },
        sample.nowMs, some sample.times,
        ⟨usage, sample.nowMs, edgeFrom watch.monitor.state⟩ :: watch.used⟩ := by
  obtain ⟨edge, state⟩ := edgeAt_eq_edgeFrom follows
  have isEdge : edgeFrom watch.monitor.state ≠ .none := by
    cases watch.monitor.state <;> decide
  have edges : CpuWatch.edges
      ⟨{ watch.monitor with
          prev := sample.times, lastUsage := usage, pendingDir := 0, pendingSinceMs := 0,
          state := otherState watch.monitor.state },
        sample.nowMs, some sample.times,
        ⟨usage, sample.nowMs, edgeFrom watch.monitor.state⟩ :: watch.used⟩ =
      watch.edges ++ [edgeFrom watch.monitor.state] := by
    rw [edges_cons, if_neg isEdge]
    rfl
  refine ⟨follows.sameConfig, baseline, ?_, .inl ⟨rfl, ?_⟩, ?_, ?_⟩
  · rintro _ ⟨⟩
    rfl
  · exact sustainedSince_cons_of_breaks (.inl isEdge)
  · rw [edges, List.length_append, List.length_singleton, List.range_succ, List.map_append,
      ← follows.edges, List.map_singleton, edge]
  · rw [edges, List.length_append, List.length_singleton]
    exact state

theorem Follows.step (nonneg : 0 ≤ config.sustainS.toInt) (follows : Follows config watch)
    (stepped : step watch sample = some next) : Follows config next := by
  obtain ⟨ordered, rfl⟩ := step_eq_some stepped
  cases seen : watch.usageOf sample with
  | none =>
      obtain ⟨-, kept⟩ := updateFromTimes_of_unused follows seen
      dsimp only
      rw [kept]
      split
      · exact follows.unused ordered rfl rfl rfl rfl rfl fun prev same => Option.some.inj same
      · exact follows.unused ordered rfl rfl rfl rfl follows.baseline follows.prev
  | some usage =>
      obtain ⟨counts, update⟩ := updateFromTimes_of_used follows seen
      have pending := follows.pending
      have notZero : dirFrom watch.monitor.state ≠ 0 := by
        cases watch.monitor.state <;> decide
      unfold answer
      rw [update, if_pos counts]
      have baseline : watch.monitor.haveSample := by
        rw [follows.baseline]
        unfold usageOf at seen
        cases counted : watch.counted with
        | none => simp [counted] at seen
        | some prev => rfl
      rcases @onUsage_cases config
        { watch.monitor with prev := sample.times, lastUsage := usage } usage sample.nowMs
        follows.sameConfig nonneg with
        ⟨light, outcome⟩ | ⟨heavy, other, outcome⟩ | ⟨heavy, same, -, outcome⟩ |
        ⟨-, same, -, outcome⟩
      · rw [outcome]
        exact @Follows.used _ _ follows _ ⟨usage, sample.nowMs, .none⟩ _ rfl rfl rfl baseline rfl
          (.inl ⟨rfl, sustainedSince_cons_of_breaks (.inr light)⟩)
      · rw [outcome]
        have idle := (pending.resolve_right fun running => other running.1).2
        refine @Follows.used _ _ follows _ ⟨usage, sample.nowMs, .none⟩ _ rfl rfl rfl baseline rfl
          (.inr ⟨rfl, le_rfl, ?_⟩)
        rw [sustainedSince_cons_of_goesOn rfl heavy, idle]
        rfl
      · rw [outcome]
        obtain ⟨-, before, since⟩ :=
          pending.resolve_left fun idle => notZero (same.symm.trans idle.1)
        refine @Follows.used _ _ follows _ ⟨usage, sample.nowMs, .none⟩ _ rfl rfl rfl baseline rfl
          (.inr ⟨same, before.trans ordered, ?_⟩)
        rw [sustainedSince_cons_of_goesOn rfl heavy, since]
        rfl
      · rw [outcome]
        exact follows.raised baseline sample usage

end Steps

/-- The monitor takes an edge at a sample exactly when the usage has pressed on
its state, sample after sample, for the sustain time; and the edges alternate,
the first being to super busy. -/
theorem edges_iff_sustained (config : CpuMonitorConfig) (nonneg : 0 ≤ config.sustainS.toInt)
    {samples : List CpuSample} {watch : CpuWatch}
    (run : Run step (fresh config) samples watch) :
    (∀ sample next, step watch sample = some next →
      (watch.answer sample = .becameSuperBusy ↔
        watch.monitor.state = .free ∧ Sustained config watch .free sample) ∧
      (watch.answer sample = .becameFree ↔
        watch.monitor.state = .superBusy ∧ Sustained config watch .superBusy sample)) ∧
    watch.edges = (List.range watch.edges.length).map edgeAt := by
  have follows : Follows config watch := by
    refine run.invariant (Follows config) ?_ fun _ stepped follows =>
      follows.step nonneg stepped
    exact ⟨rfl, rfl, nofun, .inl ⟨rfl, rfl⟩, rfl, rfl⟩
  refine ⟨fun sample next stepped => ?_, follows.edges⟩
  obtain ⟨ordered, -⟩ := step_eq_some stepped
  rcases answer_cases nonneg follows ordered with ⟨sustained, answer⟩ | ⟨short, answer⟩
  · rw [answer]
    cases state : watch.monitor.state with
    | free =>
        rw [state] at sustained
        simp [edgeFrom, sustained]
    | superBusy =>
        rw [state] at sustained
        simp [edgeFrom, sustained]
  · rw [answer]
    constructor
    · refine iff_of_false nofun ?_
      rintro ⟨state, sustained⟩
      exact short (state ▸ sustained)
    · refine iff_of_false nofun ?_
      rintro ⟨state, sustained⟩
      exact short (state ▸ sustained)

theorem edges_iff_sustained_default :
    ∃ watch, Run step (fresh .default) ([⟨⟨0, 0⟩, 0⟩] ++ [⟨⟨100, 5⟩, 1000⟩]) watch ∧
      Sustained .default watch .free ⟨⟨200, 10⟩, 6000⟩ := by
  have run :=
    (Run.nil.snoc (show step (fresh .default) ⟨⟨0, 0⟩, 0⟩ = some _ from rfl)).snoc
      (show step _ ⟨⟨100, 5⟩, 1000⟩ = some _ from rfl)
  have edge := ((edges_iff_sustained .default (by decide) run).1 ⟨⟨200, 10⟩, 6000⟩ _ rfl).1
  exact ⟨_, run, (edge.mp (by decide +kernel)).2⟩

end CpuWatch

end DroneEngage
