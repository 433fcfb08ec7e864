import DroneEngage.LeakDetection
import DroneEngage.ProcStat

/-!
# The memory of a module, as the kernel shows it

`/proc/self/status` has a line for each figure, with its name first.  The reader takes
those that it knows, wherever they stand.  A report that is made from such a text, and the
window of those before, tell what the kernel showed.
-/

namespace DroneEngage

open StreamExtraction

/-- What `readProcSelfStatus` fills. -/
structure StatusFields where
  rssMb : ℚ
  vmpeakMb : ℚ
  vmswapMb : ℚ
  threads : Int32

/-- `uint64_t value_kb = 0; iss >> value_kb;`: without digits it is 0, and the largest one
where the digits stand for more. -/
def extractKb (rest : List Char) : Nat :=
  match extractUnsigned 64 rest with
  | some (value, _) => value.toNat
  | none =>
      if ((takeSign (skipSpaces rest)).2.takeWhile Char.isDigit).isEmpty then 0 else 2 ^ 64 - 1

/-- `iss >> threads`: nothing happens at the end of the line, and what is beyond an `int`
becomes its limit. -/
def extractThreads (rest : List Char) (threads : Int32) : Int32 :=
  let (negative, text) := takeSign (skipSpaces rest)
  let magnitude : Int := Nat.ofDigitChars 10 (text.takeWhile Char.isDigit) 0
  if (skipSpaces rest).isEmpty then threads
  else Int32.ofInt (max (-2 ^ 31) (min (if negative then -magnitude else magnitude) (2 ^ 31 - 1)))

/-- One round of the loop over the lines. -/
def readStatusLine (fields : StatusFields) (line : List Char) : StatusFields :=
  match extractWord line with
  | none => fields
  | some (key, rest) =>
      if key = "VmRSS:".toList then { fields with rssMb := (extractKb rest : ℚ) / 1024 }
      else if key = "VmPeak:".toList then { fields with vmpeakMb := (extractKb rest : ℚ) / 1024 }
      else if key = "VmSwap:".toList then { fields with vmswapMb := (extractKb rest : ℚ) / 1024 }
      else if key = "Threads:".toList then
        { fields with threads := extractThreads rest fields.threads }
      else fields

/-- `readProcSelfStatus`, on the text of the file where it could be opened. -/
def readProcSelfStatus (file : Option (List Char)) : Option StatusFields :=
  file.map fun text => (getLines text).foldl readStatusLine ⟨0, 0, 0, 0⟩

/-- What `sample` uses of them. -/
def StatusFields.status (fields : StatusFields) : ProcSelfStatus where
  rssMb := fields.rssMb
  vmswapMb := fields.vmswapMb
  threads := fields.threads

/-- The sizes that are read, in the order of the source. -/
inductive MemoryKey
  | rss
  | peak
  | swap
  deriving DecidableEq

def MemoryKey.name : MemoryKey → List Char
  | rss => "VmRSS:".toList
  | peak => "VmPeak:".toList
  | swap => "VmSwap:".toList

/-- A line of the file: a size, which the kernel aligns with blanks, the number of threads,
or another one. -/
inductive StatusEntry
  | memory (key : MemoryKey) (blanks kb : Nat)
  | threads (count : Nat)
  | other (line : List Char)

namespace StatusEntry

def line : StatusEntry → List Char
  | memory key blanks kb =>
      key.name ++ '\t' :: (List.replicate blanks ' ' ++ (decimal kb ++ " kB".toList))
  | threads count => "Threads:".toList ++ '\t' :: decimal count
  | other line => line

/-- The sizes are 64 bits, the threads fit an `int`, and no other line has one of the names. -/
def OfKernel : StatusEntry → Prop
  | memory _ _ kb => kb < 2 ^ 64
  | threads count => count < 2 ^ 31
  | other line =>
      '\n' ∉ line ∧ ∀ key rest, extractWord line = some (key, rest) →
        key ∉ ["VmRSS:".toList, "VmPeak:".toList, "VmSwap:".toList, "Threads:".toList]

/-- What an entry tells. -/
def apply (fields : StatusFields) : StatusEntry → StatusFields
  | memory .rss _ kb => { fields with rssMb := (kb : ℚ) / 1024 }
  | memory .peak _ kb => { fields with vmpeakMb := (kb : ℚ) / 1024 }
  | memory .swap _ kb => { fields with vmswapMb := (kb : ℚ) / 1024 }
  | threads count => { fields with threads := Int32.ofNat count }
  | other _ => fields

def kb? (key : MemoryKey) : StatusEntry → Option Nat
  | memory shown _ kb => if shown = key then some kb else none
  | _ => none

def count? : StatusEntry → Option Nat
  | threads count => some count
  | _ => none

end StatusEntry

/-- The text of the file. -/
def statusText (entries : List StatusEntry) : List Char :=
  entries.flatMap fun entry => entry.line ++ ['\n']

/-- The size that the kernel shows under a name, by its last line.  Without one it is 0. -/
def shownKb (key : MemoryKey) (entries : List StatusEntry) : Nat :=
  (entries.filterMap (StatusEntry.kb? key)).getLast?.getD 0

def shownThreads (entries : List StatusEntry) : Nat :=
  (entries.filterMap StatusEntry.count?).getLast?.getD 0

section Lines

variable {input : List Char}

/-- The blanks that align a size do not matter. -/
theorem skipSpaces_aligned (blanks : Nat) :
    skipSpaces ('\t' :: (List.replicate blanks ' ' ++ input)) = skipSpaces (' ' :: input) := by
  have white : ∀ c ∈ List.replicate blanks ' ', isWhite c := by
    intro c member
    rw [List.eq_of_mem_replicate member]
    decide
  exact skipSpaces_append white

theorem extractKb_aligned {kb : Nat} (fits : kb < 2 ^ 64) (blanks : Nat) :
    extractKb ('\t' :: (List.replicate blanks ' ' ++ (decimal kb ++ " kB".toList))) = kb := by
  have read := @extractUnsigned_decimal 64 kb (by simpa using fits) _ (Separated.blank ['k', 'B'])
  unfold extractKb
  rw [extractUnsigned_congr (skipSpaces_aligned blanks)]
  change (match extractUnsigned 64 (' ' :: decimal kb ++ [' ', 'k', 'B']) with
    | some (value, _) => value.toNat
    | none => _) = kb
  rw [read, BitVec.ofInt_natCast]
  exact (BitVec.toNat_ofNat kb 64).trans (Nat.mod_eq_of_lt fits)

theorem extractThreads_decimal {count : Nat} (fits : count < 2 ^ 31) (threads : Int32) :
    extractThreads ('\t' :: decimal count) threads = Int32.ofNat count := by
  have skipped : skipSpaces ('\t' :: decimal count) = decimal count := by
    have := skipSpaces_decimal count []
    rwa [List.append_nil] at this
  have signed := takeSign_decimal count []
  rw [List.append_nil, List.append_nil, Int.natAbs_natCast,
    decide_eq_false (Int.not_lt.mpr (Int.natCast_nonneg count))] at signed
  have digits := @takeWhile_word _ [] _ (@isDigit_toDigits count) nofun
  rw [List.append_nil] at digits
  have nonempty : (decimal count).isEmpty = false := by
    rw [decimal, if_neg (Int.not_lt.mpr (Int.natCast_nonneg count)), Int.natAbs_natCast]
    exact List.isEmpty_eq_false_iff.mpr Nat.toDigits_ne_nil
  simp only [extractThreads, skipped, signed, digits, nonempty, Nat.ofDigitChars_ten_toDigits]
  have clamped : max (-2 ^ 31) (min (count : Int) (2 ^ 31 - 1)) = count := by omega
  simp only [Bool.false_eq_true, if_false, clamped]
  rfl

end Lines

theorem MemoryKey.solid (key : MemoryKey) : ∀ c ∈ key.name, isWhite c = false :=
  solid_of_all (by cases key <;> decide)

namespace StatusEntry

variable {entry : StatusEntry}

theorem OfKernel.unbroken (ofKernel : entry.OfKernel) : '\n' ∉ entry.line := by
  cases entry with
  | memory key blanks kb =>
      have named : '\n' ∉ key.name := by cases key <;> decide
      have aligned : '\n' ∉ List.replicate blanks ' ' := fun member =>
        absurd (List.eq_of_mem_replicate member) (by decide)
      have printed : '\n' ∉ decimal (kb : Int) := not_mem_decimal (by decide) (by decide) _
      have sized : '\n' ∉ decimal (kb : Int) ++ " kB".toList :=
        List.not_mem_append printed (by decide)
      exact List.not_mem_append named
        (List.not_mem_cons_of_ne_of_not_mem (by decide) (List.not_mem_append aligned sized))
  | threads count =>
      have printed : '\n' ∉ decimal (count : Int) := not_mem_decimal (by decide) (by decide) _
      exact List.not_mem_append (by decide)
        (List.not_mem_cons_of_ne_of_not_mem (by decide) printed)
  | other line => exact ofKernel.1

/-- One round of the loop takes what the line tells. -/
theorem OfKernel.readStatusLine (ofKernel : entry.OfKernel) (fields : StatusFields) :
    readStatusLine fields entry.line = entry.apply fields := by
  cases entry with
  | memory key blanks kb =>
      have word := extractWord_bare (by cases key <;> decide) (MemoryKey.solid key)
        (Separated.tab (List.replicate blanks ' ' ++ (decimal kb ++ " kB".toList)))
      have value := extractKb_aligned ofKernel blanks
      unfold DroneEngage.readStatusLine line
      rw [word]
      dsimp only
      rw [value]
      cases key <;> rfl
  | threads count =>
      have word : extractWord ("Threads:".toList ++ '\t' :: decimal count) = _ :=
        extractWord_bare (by decide) (solid_of_all (by decide)) (Separated.tab (decimal count))
      unfold DroneEngage.readStatusLine line
      rw [word]
      dsimp only
      rw [extractThreads_decimal ofKernel]
      rfl
  | other line =>
      unfold DroneEngage.readStatusLine
      change (match extractWord line with
        | none => fields
        | some (key, rest) => _) = fields
      cases found : extractWord line with
      | none => rfl
      | some read =>
          obtain ⟨key, rest⟩ := read
          have unknown := ofKernel.2 key rest found
          simp only [List.mem_cons, List.not_mem_nil, or_false, not_or] at unknown
          obtain ⟨noRss, noPeak, noSwap, noThreads⟩ := unknown
          dsimp only
          rw [if_neg noRss, if_neg noPeak, if_neg noSwap, if_neg noThreads]

end StatusEntry

section Text

variable {entries : List StatusEntry}

/-- The figures of a text. -/
def shownFields (entries : List StatusEntry) : StatusFields where
  rssMb := shownKb .rss entries / 1024
  vmpeakMb := shownKb .peak entries / 1024
  vmswapMb := shownKb .swap entries / 1024
  threads := Int32.ofNat (shownThreads entries)

theorem shownKb_append_singleton (key : MemoryKey) (entry : StatusEntry) :
    shownKb key (entries ++ [entry]) = (entry.kb? key).getD (shownKb key entries) := by
  unfold shownKb
  rw [List.filterMap_append]
  cases shown : entry.kb? key <;> simp [shown]

theorem shownThreads_append_singleton (entry : StatusEntry) :
    shownThreads (entries ++ [entry]) = entry.count?.getD (shownThreads entries) := by
  unfold shownThreads
  rw [List.filterMap_append]
  cases shown : entry.count? <;> simp [shown]

theorem apply_shownFields (entry : StatusEntry) :
    entry.apply (shownFields entries) = shownFields (entries ++ [entry]) := by
  simp only [shownFields, shownKb_append_singleton, shownThreads_append_singleton]
  cases entry with
  | memory key blanks kb => cases key <;> rfl
  | threads count => rfl
  | other line => rfl

/-- The lines are read one after the other, by induction from the last one. -/
theorem foldl_readStatusLine (ofKernel : ∀ entry ∈ entries, entry.OfKernel) :
    (entries.map StatusEntry.line).foldl readStatusLine ⟨0, 0, 0, 0⟩ = shownFields entries := by
  induction entries using List.reverseRecOn with
  | nil => simp [shownFields, shownKb, shownThreads]
  | append_singleton entries entry ih =>
      have earlier : ∀ entry ∈ entries, entry.OfKernel := fun entry listed =>
        ofKernel entry (List.mem_append_left _ listed)
      have last : entry.OfKernel := ofKernel entry (List.mem_append_right _ (.head _))
      rw [List.map_append, List.foldl_append, ih earlier]
      exact (last.readStatusLine _).trans (apply_shownFields entry)

/-- The reader takes what the kernel shows, wherever the lines stand. -/
theorem readProcSelfStatus_statusText (ofKernel : ∀ entry ∈ entries, entry.OfKernel) :
    readProcSelfStatus (some (statusText entries)) = some (shownFields entries) := by
  have unbroken : ∀ line ∈ entries.map StatusEntry.line, '\n' ∉ line := by
    intro line listed
    obtain ⟨entry, member, rfl⟩ := List.mem_map.mp listed
    exact (ofKernel entry member).unbroken
  have lines := getLines_flatMap unbroken []
  rw [List.append_nil, List.flatMap_map] at lines
  unfold readProcSelfStatus statusText
  rw [Option.map_some, lines, show getLines [] = [] from rfl, List.append_nil,
    foldl_readStatusLine ofKernel]

theorem toInt_shownThreads (ofKernel : ∀ entry ∈ entries, entry.OfKernel) :
    (shownFields entries).threads.toInt = shownThreads entries := by
  have fits : shownThreads entries < 2 ^ 31 := by
    unfold shownThreads
    cases last : (entries.filterMap StatusEntry.count?).getLast? with
    | none => decide
    | some count =>
        obtain ⟨entry, listed, shown⟩ := List.mem_filterMap.mp (List.mem_of_getLast? last)
        have fits := ofKernel entry listed
        cases entry with
        | threads shownCount =>
            cases shown
            exact fits
        | memory key blanks kb => cases shown
        | other line => cases shown
  exact Int32.toInt_ofNat_of_lt fits

end Text

/-! The reports of a monitor that reads such texts. -/

/-- What happens to a monitor, with what the kernel shows, or nothing where the file cannot
be opened. -/
inductive StatusCall
  | configure (maxRssMb maxGrowthMbPerHour : ℚ) (historySamples : Nat)
  | read (now : UInt64) (shown : Option (List StatusEntry))

namespace StatusCall

def call : StatusCall → HealthCall
  | configure maxRssMb maxGrowthMbPerHour historySamples =>
      .configure maxRssMb maxGrowthMbPerHour historySamples
  | read now shown =>
      .sample now ((readProcSelfStatus (shown.map statusText)).map StatusFields.status)

def OfKernel : StatusCall → Prop
  | configure _ _ _ => True
  | read _ shown => ∀ entries ∈ shown, ∀ entry ∈ entries, entry.OfKernel

end StatusCall

/-- A size as it is shown, with the time of the reading. -/
def shownSample (now : UInt64) (entries : List StatusEntry) : RawSample :=
  ⟨now, shownKb .rss entries / 1024⟩

def shownSamples (calls : List StatusCall) : List RawSample :=
  calls.filterMap fun
    | .read now (some entries) => some (shownSample now entries)
    | _ => none

/-- A report of the last text, on a window of the sizes shown. -/
structure ReportsShown (window : List RawSample) (monitor : CModuleHealthMonitor)
    (entries : List StatusEntry) (report : ModuleHealthSample) : Prop where
  valid : report.valid
  rss : report.rssMb * 1024 = shownKb .rss entries
  swap : report.vmswapMb * 1024 = shownKb .swap entries
  threads : report.threads.toInt = shownThreads entries
  reports : HealthWatch.Reports window monitor (shownFields entries).status report

namespace HealthWatch

open EventRuns

variable {calls : List StatusCall} {watch : HealthWatch} {maxRssMb maxGrowthMbPerHour : ℚ}
  {historySamples : Nat} {now : UInt64} {entries : List StatusEntry}

theorem taken_shown (ofKernel : ∀ call ∈ calls, call.OfKernel) :
    taken (calls.map StatusCall.call) = shownSamples calls := by
  unfold taken shownSamples
  rw [List.filterMap_map]
  refine List.filterMap_congr fun call listed => ?_
  cases call with
  | configure maxRssMb maxGrowthMbPerHour historySamples => rfl
  | read now shown =>
      cases shown with
      | none => rfl
      | some entries =>
          have read := readProcSelfStatus_statusText (ofKernel _ listed entries rfl)
          simp only [Function.comp_apply, StatusCall.call, Option.map_some, read]
          rfl

/-- Whatever texts a monitor has read, its report is about the last one and about the sizes
that the last texts showed. -/
theorem reportsShown_of_run
    (run : RunWhere step KeepsWindow
      ⟨CModuleHealthMonitor.fresh.configure maxRssMb maxGrowthMbPerHour historySamples, 0⟩
      (calls.map StatusCall.call) watch)
    (ofKernel : ∀ call ∈ calls, call.OfKernel) (later : watch.clockUsec ≤ now)
    (shown : ∀ entry ∈ entries, entry.OfKernel) :
    ReportsShown ((shownSamples calls ++ [shownSample now entries]).rtake historySamples)
      watch.monitor entries
      (watch.monitor.sample now
        ((readProcSelfStatus (some (statusText entries))).map StatusFields.status)).2 := by
  let status := (shownFields entries).status
  have window := windowAfter_of_run run now status.rssMb
  rw [taken_shown ofKernel] at window
  have reports := reports_sample (inOrder_windowAfter run later status)
  rw [window] at reports
  rw [readProcSelfStatus_statusText shown, Option.map_some]
  refine ⟨rfl, ?_, ?_, toInt_shownThreads shown, reports⟩
  · exact div_mul_cancel₀ _ (by norm_num)
  · exact div_mul_cancel₀ _ (by norm_num)

/-- A module that grows, with a window of two samples and a text that tells its size after
its state. -/
theorem reportsShown_of_run_growing :
    ∃ watch : HealthWatch,
      ReportsShown [⟨30000000, (103424 : ℕ) / 1024⟩, ⟨60000000, (104448 : ℕ) / 1024⟩]
        watch.monitor
        [.other "State:\tS (sleeping)".toList, .memory .rss 3 104448, .threads 7]
        (watch.monitor.sample 60000000
          ((readProcSelfStatus (some (statusText
            [.other "State:\tS (sleeping)".toList, .memory .rss 3 104448, .threads 7]))).map
              StatusFields.status)).2 := by
  let start : HealthWatch := ⟨CModuleHealthMonitor.fresh.configure 500 20 2, 0⟩
  let calls : List StatusCall :=
    [.read 5 (some [.memory .rss 3 102400]), .read 30000000 (some [.memory .rss 3 103424])]
  have kernel : ∀ call ∈ calls, call.OfKernel := by
    simp [calls, StatusCall.OfKernel, StatusEntry.OfKernel]
  have stateLine : (StatusEntry.other "State:\tS (sleeping)".toList).OfKernel := by
    refine ⟨by decide, fun key rest found => ?_⟩
    obtain ⟨rfl, -⟩ := Prod.mk.inj (Option.some.inj found)
    decide
  have shown : ∀ entry ∈ ([.other "State:\tS (sleeping)".toList, .memory .rss 3 104448,
      .threads 7] : List StatusEntry), entry.OfKernel :=
    List.forall_mem_cons.mpr ⟨stateLine, by simp [StatusEntry.OfKernel]⟩
  have first : RunWhere step KeepsWindow start [(calls.get ⟨0, by decide⟩).call] _ :=
    RunWhere.nil.snoc (show step _ (calls.get ⟨0, by decide⟩).call = some _ from rfl) trivial
  have second := first.snoc
    (show step _ (calls.get ⟨1, by decide⟩).call = some _ from rfl) trivial
  have later : (30000000 : UInt64) ≤ 60000000 := by decide
  obtain ⟨watch, run, later⟩ : ∃ watch : HealthWatch,
      RunWhere step KeepsWindow start (calls.map StatusCall.call) watch ∧
        watch.clockUsec ≤ 60000000 :=
    ⟨_, second, later⟩
  exact ⟨watch, reportsShown_of_run run kernel later shown⟩

end HealthWatch

end DroneEngage
