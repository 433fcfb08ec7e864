import DroneEngage.CpuUsage
import DroneEngage.StreamExtraction
import Mathlib.Algebra.Order.BigOperators.Group.List
import Mathlib.Data.List.Forall2
import Mathlib.Data.List.GetD

/-!
# The CPU time of a board

The kernel prints the ticks of all cores in one line of `/proc/stat`, and those of each
core in lines of their own.  The parser takes the first line that begins with `cpu` and a
blank, adds its counters up and takes the idle time and the time of waiting for disks
together.  Fed with such texts, the monitor tells the share of time that was not idle
between the last two at which the ticks went on.
-/

namespace DroneEngage

open StreamExtraction

/-- What `std::getline` gives, line by line. -/
def getLines : List Char → List (List Char)
  | [] => []
  | '\n' :: rest => [] :: getLines rest
  | c :: rest =>
      match getLines rest with
      | [] => [[c]]
      | line :: lines => (c :: line) :: lines

def isAggregateLine (line : List Char) : Bool :=
  line.take 4 = "cpu ".toList

/-- The answer, and the times that stand in `out` afterwards. -/
def deParseProcStatCpu (procStatText : List Char) (out : CpuTimes) : Bool × CpuTimes :=
  match (getLines procStatText).find? isAggregateLine with
  | none => (false, out)
  | some line =>
      let values := extractUpTo (extractUnsigned 64) 16 (line.drop 4)
      if values.length < 4 then (false, out)
      else
        (true,
          { total := ⟨values.foldl (· + ·) 0⟩
            idleAll := ⟨values.getD 3 0 + if 4 < values.length then values.getD 4 0 else 0⟩ })

def CCpuMonitor.update (monitor : CCpuMonitor) (procStatText : List Char) (nowMs : Nat) :
    CCpuMonitor × CpuTransition :=
  match deParseProcStatCpu procStatText ⟨0, 0⟩ with
  | (true, cur) => monitor.updateFromTimes cur nowMs
  | (false, _) => (monitor, .none)

/-- What the kernel shows at one time: the lines before the aggregate one, its counters
(user, nice, system, idle, iowait and so on), and the text behind it. -/
structure ProcStat where
  before : List (List Char)
  counters : List Nat
  rest : List Char

namespace ProcStat

/-- The counters with a blank in front of each. -/
def printed (stat : ProcStat) : List Char :=
  stat.counters.flatMap fun counter : Nat => ' ' :: decimal counter

/-- The text of `/proc/stat`. -/
def text (stat : ProcStat) : List Char :=
  (stat.before.flatMap fun line => line ++ ['\n']) ++
    ("cpu ".toList ++ stat.printed ++
      '\n' :: stat.rest)

/-- The ticks of a board since it was started. -/
def ticks (stat : ProcStat) : Nat :=
  stat.counters.sum

/-- The ticks without work, those of waiting for disks among them. -/
def idleTicks (stat : ProcStat) : Nat :=
  stat.counters.getD 3 0 + stat.counters.getD 4 0

/-- A text of a kernel: what stands before is no aggregate line, and the counters are as
many as a kernel has ever had, with a sum that fits. -/
structure OfKernel (stat : ProcStat) : Prop where
  lines : ∀ line ∈ stat.before, '\n' ∉ line ∧ isAggregateLine line = false
  atLeast : 4 ≤ stat.counters.length
  atMost : stat.counters.length ≤ 16
  fits : stat.ticks < 2 ^ 64

/-- The counters as the parser sees them. -/
def times (stat : ProcStat) : CpuTimes :=
  ⟨UInt64.ofNat stat.ticks, UInt64.ofNat stat.idleTicks⟩

end ProcStat

section Lines

theorem getLines_append {line : List Char} (unbroken : '\n' ∉ line) (rest : List Char) :
    getLines (line ++ '\n' :: rest) = line :: getLines rest := by
  induction line with
  | nil => rfl
  | cons c line ih =>
      obtain ⟨first, later⟩ := not_or.mp (mt List.mem_cons.mpr unbroken)
      rw [List.cons_append, getLines, ih later]
      exact fun same => first same.symm

theorem getLines_flatMap {lines : List (List Char)} (unbroken : ∀ line ∈ lines, '\n' ∉ line)
    (rest : List Char) :
    getLines ((lines.flatMap fun line => line ++ ['\n']) ++ rest) = lines ++ getLines rest := by
  induction lines with
  | nil => rfl
  | cons line lines ih =>
      obtain ⟨first, later⟩ := List.forall_mem_cons.mp unbroken
      rw [List.flatMap_cons, List.append_assoc, List.append_assoc, List.singleton_append,
        getLines_append first, ih later, List.cons_append]

theorem not_mem_decimal {c : Char} (noDigit : c.isDigit = false) (noSign : c ≠ '-')
    (value : Int) : c ∉ decimal value := by
  unfold decimal
  intro member
  split at member
  · rcases List.mem_cons.mp member with rfl | digit
    · exact noSign rfl
    · exact absurd (isDigit_toDigits _ digit) (by simp [noDigit])
  · exact absurd (isDigit_toDigits _ member) (by simp [noDigit])

end Lines

namespace ProcStat

variable {stat prev cur : ProcStat}

theorem extract_counters (ofKernel : stat.OfKernel) :
    extractUpTo (extractUnsigned 64) 16 stat.printed =
      stat.counters.map (BitVec.ofNat 64) := by
  have read : ∀ counter ∈ stat.counters, ∀ rest, Separated rest →
      extractUnsigned 64 (' ' :: decimal (counter : Int) ++ rest) =
        some (BitVec.ofNat 64 counter, rest) := by
    intro counter listed rest separated
    have bound := Nat.lt_of_le_of_lt (List.le_sum_of_mem listed) ofKernel.fits
    have extracted := @extractUnsigned_decimal 64 counter (by simpa using bound) rest separated
    rwa [BitVec.ofInt_natCast] at extracted
  have all := extractUpTo_printed read .nil (show extractUnsigned 64 [] = none from rfl) 16
  rwa [List.append_nil, List.take_of_length_le (by simpa using ofKernel.atMost)] at all

theorem sum_ofNat (counters : List Nat) (start : Nat) :
    (counters.map (BitVec.ofNat 64)).foldl (· + ·) (BitVec.ofNat 64 start) =
      BitVec.ofNat 64 (start + counters.sum) := by
  induction counters generalizing start with
  | nil => simp
  | cons counter counters ih =>
      rw [List.map_cons, List.foldl_cons, ← BitVec.ofNat_add, ih, List.sum_cons, Nat.add_assoc]

theorem getD_ofNat (counters : List Nat) (index : Nat) :
    (counters.map (BitVec.ofNat 64)).getD index 0 = BitVec.ofNat 64 (counters.getD index 0) := by
  rw [List.getD_eq_getElem?_getD, List.getD_eq_getElem?_getD, List.getElem?_map]
  cases counters[index]? <;> rfl

/-- The parser reads the counters of a kernel, whatever stands around their line. -/
theorem deParseProcStatCpu_text (ofKernel : stat.OfKernel) (out : CpuTimes) :
    deParseProcStatCpu stat.text out = (true, stat.times) := by
  have unbroken : '\n' ∉
      "cpu ".toList ++ stat.printed := by
    simp only [printed, List.mem_append, List.mem_flatMap, List.mem_cons, not_or, not_exists,
      not_and]
    exact ⟨by decide, fun counter _ =>
      ⟨by decide, not_mem_decimal (by decide) (by decide) counter⟩⟩
  have skipped : stat.before.find? isAggregateLine = none :=
    List.find?_eq_none.mpr fun line listed => by simp [(ofKernel.lines line listed).2]
  have lines : (getLines stat.text).find? isAggregateLine =
      some ("cpu ".toList ++ stat.printed) := by
    rw [text, getLines_flatMap fun line listed => (ofKernel.lines line listed).1,
      getLines_append unbroken, List.find?_append, skipped, Option.none_or]
    rfl
  have behind : ("cpu ".toList ++ stat.printed).drop 4 = stat.printed := rfl
  unfold deParseProcStatCpu
  rw [lines]
  dsimp only
  rw [behind, extract_counters ofKernel, List.length_map,
    if_neg (Nat.not_lt.mpr ofKernel.atLeast)]
  have total := sum_ofNat stat.counters 0
  rw [Nat.zero_add] at total
  have idle : (stat.counters.map (BitVec.ofNat 64)).getD 3 0 +
      (if 4 < stat.counters.length then (stat.counters.map (BitVec.ofNat 64)).getD 4 0 else 0) =
        BitVec.ofNat 64 stat.idleTicks := by
    rw [getD_ofNat, getD_ofNat, idleTicks, BitVec.ofNat_add]
    split
    · rfl
    · rename_i short
      rw [List.getD_eq_default stat.counters 0 (not_lt.mp short)]
      rfl
  rw [idle]
  exact congrArg (fun total => (true, CpuTimes.mk ⟨total⟩ _)) total

/-- No counter has gone down. -/
def CountsOn (prev cur : ProcStat) : Prop :=
  List.Forall₂ (· ≤ ·) prev.counters cur.counters

/-- The share of time with work between two snapshots, in percent. -/
def busyPercent (prev cur : ProcStat) : ℚ :=
  100 * (((cur.ticks : ℚ) - prev.ticks) - ((cur.idleTicks : ℚ) - prev.idleTicks)) /
    ((cur.ticks : ℚ) - prev.ticks)

theorem sum_le_sum {counters later : List Nat} (counts : List.Forall₂ (· ≤ ·) counters later) :
    counters.sum ≤ later.sum := by
  induction counts with
  | nil => exact le_rfl
  | cons first _ ih =>
      rw [List.sum_cons, List.sum_cons]
      omega

/-- Counters with one sum are the same counters. -/
theorem eq_of_sum_le {counters later : List Nat} (counts : List.Forall₂ (· ≤ ·) counters later)
    (same : later.sum ≤ counters.sum) : counters = later := by
  induction counts with
  | nil => rfl
  | cons first rest ih =>
      rw [List.sum_cons, List.sum_cons] at same
      have restLe := sum_le_sum rest
      rw [ih (by omega)]
      congr
      omega

theorem getD_le_getD {counters later : List Nat}
    (counts : List.Forall₂ (· ≤ ·) counters later) (index : Nat) :
    counters.getD index 0 ≤ later.getD index 0 := by
  induction counts generalizing index with
  | nil => exact le_rfl
  | cons first _ ih =>
      cases index with
      | zero => exact first
      | succ index => exact ih index

/-- The ticks are those of work and the idle ones. -/
theorem sum_eq_add (counters : List Nat) :
    counters.sum = (counters.take 3).sum + (counters.drop 5).sum +
      (counters.getD 3 0 + counters.getD 4 0) := by
  match counters with
  | [] | [_] | [_, _] | [_, _, _] => simp
  | [_, _, _, _] => simp [Nat.add_assoc]
  | _ :: _ :: _ :: _ :: _ :: rest =>
      simp only [List.sum_cons, List.take_succ_cons, List.take_zero, List.drop_succ_cons,
        List.drop_zero, List.sum_nil, List.getD_cons_succ, List.getD_cons_zero]
      omega

theorem idleTicks_le_ticks (stat : ProcStat) : stat.idleTicks ≤ stat.ticks := by
  rw [idleTicks, ticks, sum_eq_add]
  omega

/-- The idle ticks go on, and no faster than all of them. -/
theorem CountsOn.idleTicks (counts : CountsOn prev cur) :
    prev.idleTicks ≤ cur.idleTicks ∧
      prev.ticks + cur.idleTicks ≤ cur.ticks + prev.idleTicks := by
  have early := sum_le_sum (List.forall₂_take 3 counts)
  have late := sum_le_sum (List.forall₂_drop 5 counts)
  have idle := getD_le_getD counts 3
  have wait := getD_le_getD counts 4
  have before := sum_eq_add prev.counters
  have after := sum_eq_add cur.counters
  unfold ProcStat.idleTicks ProcStat.ticks
  omega

/-- Between two snapshots the usage is the share of time with work. -/
theorem deCpuUsagePercent_times (ofKernel : prev.OfKernel) (ofKernel' : cur.OfKernel)
    (counts : CountsOn prev cur) (advanced : prev.ticks < cur.ticks) :
    deCpuUsagePercent prev.times cur.times = busyPercent prev cur ∧
      0 ≤ busyPercent prev cur ∧ busyPercent prev cur ≤ 100 := by
  have idle := counts.idleTicks
  have before := prev.idleTicks_le_ticks
  have after := cur.idleTicks_le_ticks
  have fits := ofKernel.fits
  have fits' := ofKernel'.fits
  have total (stat : ProcStat) (fits : stat.ticks < 2 ^ 64) :
      stat.times.total.toNat = stat.ticks :=
    UInt64.toNat_ofNat_of_lt' fits
  have idleAll (stat : ProcStat) (fits : stat.ticks < 2 ^ 64) :
      stat.times.idleAll.toNat = stat.idleTicks :=
    UInt64.toNat_ofNat_of_lt' (Nat.lt_of_le_of_lt stat.idleTicks_le_ticks fits)
  have forward : prev.times.total < cur.times.total := by
    rwa [UInt64.lt_iff_toNat_lt, total prev fits, total cur fits']
  have same : deCpuUsagePercent prev.times cur.times = busyPercent prev cur := by
    have idleForward : prev.times.idleAll ≤ cur.times.idleAll := by
      rw [UInt64.le_iff_toNat_le, idleAll prev fits, idleAll cur fits']
      exact idle.1
    have busy := toNat_unsignedBusyDelta forward idleForward
    rw [signedBusyDelta, total prev fits, total cur fits', idleAll prev fits,
      idleAll cur fits'] at busy
    have whole := toNat_totalDelta forward
    rw [total prev fits, total cur fits'] at whole
    have busyTicks : ((unsignedBusyDelta prev.times cur.times).toNat : Int) =
        (cur.ticks - prev.ticks) - (cur.idleTicks - prev.idleTicks) := by
      omega
    have busyRational : ((unsignedBusyDelta prev.times cur.times).toNat : ℚ) =
        ((cur.ticks : ℚ) - prev.ticks) - ((cur.idleTicks : ℚ) - prev.idleTicks) := by
      exact_mod_cast busyTicks
    have wholeRational : ((cur.times.total - prev.times.total).toNat : ℚ) =
        (cur.ticks : ℚ) - prev.ticks := by
      exact_mod_cast whole
    rw [deCpuUsagePercent_of_advanced forward, busyPercent, busyRational, wholeRational]
  rw [← same]
  exact ⟨rfl, deCpuUsagePercent_inRange forward⟩

end ProcStat

namespace CCpuMonitor

open ProcStat

variable {config : CpuMonitorConfig} {monitor : CCpuMonitor} {stat : ProcStat}

theorem onUsage_kept (monitor : CCpuMonitor) (usagePercent : ℚ) (nowMs : Nat) :
    (monitor.onUsage usagePercent nowMs).1.haveSample = monitor.haveSample ∧
      (monitor.onUsage usagePercent nowMs).1.prev = monitor.prev ∧
      (monitor.onUsage usagePercent nowMs).1.lastUsage = monitor.lastUsage := by
  unfold onUsage
  dsimp only
  split_ifs <;> exact ⟨rfl, rfl, rfl⟩

/-- The monitor after texts and their times. -/
def feed (monitor : CCpuMonitor) (samples : List (ProcStat × Nat)) : CCpuMonitor :=
  samples.foldl (fun monitor sample => (monitor.update sample.1.text sample.2).1) monitor

theorem feed_append_singleton (monitor : CCpuMonitor) (samples : List (ProcStat × Nat))
    (last : ProcStat × Nat) :
    monitor.feed (samples ++ [last]) =
      ((monitor.feed samples).update last.1.text last.2).1 := by
  simp [feed]

/-- The share of work since the latest snapshot with fewer ticks, or -1. -/
def usageSince (earlier : List (ProcStat × Nat)) (last : ProcStat) : ℚ :=
  match earlier.reverse.find? fun sample => sample.1.ticks < last.ticks with
  | some sample => busyPercent sample.1 last
  | none => -1

/-- A monitor that has been fed tells the usage up to the last snapshot. -/
structure Told (monitor : CCpuMonitor) (earlier : List (ProcStat × Nat)) (last : ProcStat) :
    Prop where
  sampled : monitor.haveSample = true
  prev : monitor.prev = last.times
  usage : monitor.lastUsage = usageSince earlier last
  percent : monitor.lastUsage = -1 ∨ 0 ≤ monitor.lastUsage ∧ monitor.lastUsage ≤ 100

theorem update_text (ofKernel : stat.OfKernel) (monitor : CCpuMonitor) (nowMs : Nat) :
    monitor.update stat.text nowMs = monitor.updateFromTimes stat.times nowMs := by
  rw [update, deParseProcStatCpu_text ofKernel]

theorem Told.update {earlier : List (ProcStat × Nat)} {last next : ProcStat} {lastMs nowMs : Nat}
    (told : Told monitor earlier last) (ofKernel : last.OfKernel) (ofKernel' : next.OfKernel)
    (counts : CountsOn last next) :
    Told (monitor.update next.text nowMs).1 (earlier ++ [(last, lastMs)]) next := by
  obtain ⟨sampled, prev, usage, percent⟩ := told
  rw [update_text ofKernel', updateFromTimes, sampled, prev]
  simp only [Bool.not_true, Bool.false_eq_true, if_false]
  by_cases advanced : last.ticks < next.ticks
  · obtain ⟨same, nonneg, atMost⟩ := deCpuUsagePercent_times ofKernel ofKernel' counts advanced
    rw [same, if_neg (not_lt.mpr nonneg)]
    obtain ⟨sampledAfter, prevAfter, usageAfter⟩ := onUsage_kept
      { monitor with
        haveSample := true, prev := next.times, lastUsage := busyPercent last next }
      (busyPercent last next) nowMs
    refine ⟨sampledAfter, prevAfter, usageAfter.trans ?_, ?_⟩
    · simp [usageSince, advanced]
    · rw [usageAfter]
      exact .inr ⟨nonneg, atMost⟩
  · -- the ticks stand still, and so do all counters
    have same : last.counters = next.counters := eq_of_sum_le counts (not_lt.mp advanced)
    have sameTimes : last.times = next.times := by
      simp only [times, ticks, idleTicks, same]
    have still : deCpuUsagePercent last.times next.times < 0 := by
      rw [deCpuUsagePercent, if_pos (by rw [sameTimes]; exact UInt64.le_refl _)]
      norm_num
    rw [if_pos still]
    refine ⟨sampled, prev.trans sameTimes, usage.trans ?_, percent⟩
    have sameTicks : last.ticks = next.ticks := by rw [ticks, ticks, same]
    have sameShare (sample : ProcStat) : busyPercent sample last = busyPercent sample next := by
      simp only [busyPercent, ticks, idleTicks, same]
    simp [usageSince, sameTicks, sameShare]

theorem told_feed {earlier : List (ProcStat × Nat)} {last : ProcStat} {lastMs : Nat}
    (ofKernel : ∀ sample ∈ earlier ++ [(last, lastMs)], sample.1.OfKernel)
    (counts : (earlier ++ [(last, lastMs)]).IsChain fun sample next =>
      CountsOn sample.1 next.1) :
    Told ((fresh config).feed (earlier ++ [(last, lastMs)])) earlier last := by
  induction earlier using List.reverseRecOn generalizing last lastMs with
  | nil =>
      rw [feed_append_singleton, update_text (ofKernel (last, lastMs) (by simp))]
      exact ⟨rfl, rfl, rfl, .inl rfl⟩
  | append_singleton earlier sample ih =>
      obtain ⟨before, beforeMs⟩ := sample
      obtain ⟨chain, -, joins⟩ := List.isChain_append.mp counts
      have ofKernelBefore : ∀ sample ∈ earlier ++ [(before, beforeMs)], sample.1.OfKernel :=
        fun sample listed => ofKernel sample (List.mem_append_left _ listed)
      rw [feed_append_singleton]
      apply (ih ofKernelBefore chain).update
      · exact ofKernel (before, beforeMs) (by simp)
      · exact ofKernel (last, lastMs) (by simp)
      · exact joins (before, beforeMs) (by simp) (last, lastMs) (by simp)

/-- Whatever stands around the counters, the usage that is told is the share of time with
work between the last snapshot and the latest one before it with fewer ticks. -/
theorem lastUsage_of_feed {earlier : List (ProcStat × Nat)} {last : ProcStat} {lastMs : Nat}
    (ofKernel : ∀ sample ∈ earlier ++ [(last, lastMs)], sample.1.OfKernel)
    (counts : (earlier ++ [(last, lastMs)]).IsChain fun sample next =>
      CountsOn sample.1 next.1) :
    ((fresh config).feed (earlier ++ [(last, lastMs)])).lastUsage = usageSince earlier last ∧
      (usageSince earlier last = -1 ∨
        0 ≤ usageSince earlier last ∧ usageSince earlier last ≤ 100) := by
  have told : Told ((fresh config).feed (earlier ++ [(last, lastMs)])) earlier last :=
    told_feed ofKernel counts
  exact ⟨told.usage, told.usage ▸ told.percent⟩

/-- Two snapshots of a board with two cores; a quarter of the time between was idle. -/
def twoSnapshots : List (ProcStat × Nat) :=
  [ (⟨[], [10, 0, 5, 80, 5], "cpu0 5 0 2 40 3\ncpu1 5 0 3 40 2\n".toList⟩, 1000),
    (⟨[], [10, 0, 5, 80, 5], "cpu0 5 0 2 40 3\ncpu1 5 0 3 40 2\n".toList⟩, 2000) ]

theorem lastUsage_of_feed_quarter :
    ((fresh .default).feed (twoSnapshots ++
        [(⟨[], [14, 0, 7, 81, 6], "cpu0 9 0 2 40 3\n".toList⟩, 3000)])).lastUsage = 75 := by
  rw [(lastUsage_of_feed ?_ ?_).1]
  · decide +kernel
  · have bare {stat : ProcStat} (noLines : stat.before = []) (atLeast : 4 ≤ stat.counters.length)
        (atMost : stat.counters.length ≤ 16) (fits : stat.ticks < 2 ^ 64) : stat.OfKernel :=
      ⟨noLines ▸ List.forall_mem_nil _, atLeast, atMost, fits⟩
    intro sample listed
    simp only [twoSnapshots, List.cons_append, List.nil_append, List.mem_cons, List.not_mem_nil,
      or_false] at listed
    rcases listed with rfl | rfl | rfl
    all_goals exact bare rfl (by decide) (by decide) (by decide)
  · simp [twoSnapshots, CountsOn]

end CCpuMonitor

end DroneEngage
