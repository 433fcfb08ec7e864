import DroneEngage.CpuMonitor

/-!
# Thresholds as numbers without a bound

The numbers of a `cpu_monitor` object have 64 bits, and are narrowed to 32 before their
ranges are checked.  Here they are compared with what the check would make of the
numbers themselves.
-/

namespace DroneEngage

/-- The five numbers of a `cpu_monitor` object. -/
structure CpuNumbers where
  superBusyPercent : Int
  freePercent : Int
  sustainS : Int
  reportS : Int
  summaryS : Int
  deriving DecidableEq

namespace CpuNumbers

/-- Every number is in its range, and the thresholds are in order. -/
structure Accepted (numbers : CpuNumbers) : Prop where
  superBusyPercent : 1 ≤ numbers.superBusyPercent ∧ numbers.superBusyPercent ≤ 100
  freePercent : 0 ≤ numbers.freePercent ∧ numbers.freePercent ≤ 100
  sustainS : 1 ≤ numbers.sustainS
  reportS : 1 ≤ numbers.reportS
  summaryS : 0 ≤ numbers.summaryS
  inOrder : numbers.freePercent < numbers.superBusyPercent

def map (narrow : Int → Int) (numbers : CpuNumbers) : CpuNumbers where
  superBusyPercent := narrow numbers.superBusyPercent
  freePercent := narrow numbers.freePercent
  sustainS := narrow numbers.sustainS
  reportS := narrow numbers.reportS
  summaryS := narrow numbers.summaryS

end CpuNumbers

/-- What `static_cast<int>` makes of a number. -/
def narrow32 (number : Int) : Int :=
  (Int32.ofInt number).toInt

def CpuMonitorConfig.numbers (config : CpuMonitorConfig) : CpuNumbers where
  superBusyPercent := config.superBusyPercent.toInt
  freePercent := config.freePercent.toInt
  sustainS := config.sustainS.toInt
  reportS := config.reportS.toInt
  summaryS := config.summaryS.toInt

/-- A whole number that is given under a key. -/
def givenNumber (src : Json) (key : String) : Option Int :=
  match src.member? key with
  | some (.numberInteger value) => some value.toInt
  | some (.numberUnsigned value) => some value.toNat
  | _ => none

/-- The numbers that are given, and the defaults of the others. -/
def askedNumbers (src : Json) : CpuNumbers where
  superBusyPercent := (givenNumber src "super_busy_percent").getD 90
  freePercent := (givenNumber src "free_percent").getD 70
  sustainS := (givenNumber src "sustain_s").getD 5
  reportS := (givenNumber src "report_s").getD 10
  summaryS := (givenNumber src "summary_s").getD 60

/-- The numbers that are given are whole ones. -/
def WholeNumbers (src : Json) : Prop :=
  ∀ key ∈ ["super_busy_percent", "free_percent", "sustain_s", "report_s", "summary_s"],
    ∀ value, src.member? key ≠ some (.numberFloat value)

/-- A configuration that is what was asked for, or the defaults where that is out of
range, and in range in any case. -/
structure AllOrNothing (src : Json) (config : CpuMonitorConfig) : Prop where
  accepted : (askedNumbers src).Accepted → config.numbers = askedNumbers src
  rejected : ¬ (askedNumbers src).Accepted → config = .default
  sound : config.numbers.Accepted

section Reading

variable {beyondInt : Double → Int32} {src : Json}

theorem numberField_eq {key : String} {current : Int32}
    (whole : ∀ value, src.member? key ≠ some (.numberFloat value)) :
    (numberField beyondInt src key current).toInt =
      narrow32 ((givenNumber src key).getD current.toInt) := by
  unfold numberField givenNumber
  cases present : src.member? key with
  | none => simp [narrow32]
  | some found =>
      cases found with
      | numberInteger value => simp [Json.isNumber, Json.getInt, Except.toOption, narrow32]
      | numberUnsigned value => rfl
      | numberFloat value => exact absurd present (whole value)
      | _ => simp [Json.isNumber, narrow32]

theorem numbers_readCpuMonitorConfig (whole : WholeNumbers src) :
    (readCpuMonitorConfig beyondInt src).numbers = (askedNumbers src).map narrow32 := by
  unfold WholeNumbers at whole
  simp only [List.forall_mem_cons] at whole
  obtain ⟨superBusy, free, sustain, report, summary, -⟩ := whole
  unfold readCpuMonitorConfig CpuMonitorConfig.numbers askedNumbers CpuNumbers.map
  simp only [CpuNumbers.mk.injEq]
  exact ⟨numberField_eq superBusy, numberField_eq free, numberField_eq sustain,
    numberField_eq report, numberField_eq summary⟩

theorem CpuMonitorConfig.valid_iff (config : CpuMonitorConfig) :
    config.Valid ↔ config.numbers.Accepted := by
  unfold Valid badRange numbers
  simp only [Bool.or_eq_false_iff, decide_eq_false_iff_not, gt_iff_lt, Int32.lt_iff_toInt_lt,
    Int.not_lt]
  constructor
  · rintro ⟨⟨⟨⟨⟨⟨⟨superLow, superHigh⟩, freeLow⟩, freeHigh⟩, sustain⟩, report⟩, summary⟩, order⟩
    exact ⟨⟨superLow, superHigh⟩, ⟨freeLow, freeHigh⟩, sustain, report, summary, order⟩
  · rintro ⟨⟨superLow, superHigh⟩, ⟨freeLow, freeHigh⟩, sustain, report, summary, order⟩
    exact ⟨⟨⟨⟨⟨⟨⟨superLow, superHigh⟩, freeLow⟩, freeHigh⟩, sustain⟩, report⟩, summary⟩, order⟩

theorem CpuMonitorConfig.eq_of_numbers {config other : CpuMonitorConfig}
    (enabled : config.enabled = other.enabled) (same : config.numbers = other.numbers) :
    config = other := by
  obtain ⟨_, _, _, _, _, _⟩ := config
  obtain ⟨_, _, _, _, _, _⟩ := other
  simp only [numbers, CpuNumbers.mk.injEq, Int32.toInt_inj] at same
  simpa using ⟨enabled, same⟩

/-- The object is read, and let through if the narrowed numbers are accepted. -/
theorem deParseCpuMonitorConfig_eq {moduleConfig : Json} {members : List (String × Json)}
    (present : moduleConfig.member? "cpu_monitor" = some (.object members))
    (whole : WholeNumbers (.object members)) :
    let numbers := (askedNumbers (.object members)).map narrow32
    (numbers.Accepted → deParseCpuMonitorConfig beyondInt moduleConfig =
      readCpuMonitorConfig beyondInt (.object members)) ∧
    (¬ numbers.Accepted → deParseCpuMonitorConfig beyondInt moduleConfig = .default) := by
  dsimp only
  rw [← @numbers_readCpuMonitorConfig beyondInt _ whole, ← CpuMonitorConfig.valid_iff]
  unfold deParseCpuMonitorConfig CpuMonitorConfig.Valid
  rw [present]
  dsimp only
  generalize readCpuMonitorConfig beyondInt (.object members) = config
  constructor
  · rintro ⟨inRange, order⟩
    rw [if_neg]
    simpa [inRange] using order
  · intro rejected
    rw [if_pos]
    rw [Bool.or_eq_true, decide_eq_true_eq]
    by_contra fine
    rw [not_or, Bool.not_eq_true, ge_iff_le, Int32.not_le] at fine
    exact rejected fine

theorem enabled_readCpuMonitorConfig :
    (readCpuMonitorConfig beyondInt src).enabled = true ↔
      src.member? "enabled" ≠ some (.boolean false) := by
  unfold readCpuMonitorConfig
  dsimp only
  cases src.member? "enabled" with
  | none => simp [CpuMonitorConfig.default]
  | some found => cases found <;> simp [CpuMonitorConfig.default]

end Reading

/-- Narrowing changes no number, or what is asked for is out of range and so are the
narrowed numbers, unless they are the defaults. -/
def SafelyNarrowed (src : Json) : Prop :=
  let asked := askedNumbers src
  let narrowed := asked.map narrow32
  narrowed = asked ∨
    ¬ asked.Accepted ∧
      (¬ narrowed.Accepted ∨
        narrowed = CpuMonitorConfig.default.numbers ∧
          src.member? "enabled" ≠ some (.boolean false))

/-- The configuration is all that is asked for or the defaults, exactly where its
numbers are narrowed safely. -/
theorem deParseCpuMonitorConfig_allOrNothing_iff (beyondInt : Double → Int32)
    {moduleConfig : Json} {members : List (String × Json)}
    (present : moduleConfig.member? "cpu_monitor" = some (.object members))
    (whole : WholeNumbers (.object members)) :
    AllOrNothing (.object members) (deParseCpuMonitorConfig beyondInt moduleConfig) ↔
      SafelyNarrowed (.object members) := by
  have sound := (deParseCpuMonitorConfig beyondInt moduleConfig).valid_iff.mp
    (deParseCpuMonitorConfig_valid beyondInt moduleConfig)
  have read := @numbers_readCpuMonitorConfig beyondInt _ whole
  obtain ⟨letThrough, fallsBack⟩ := @deParseCpuMonitorConfig_eq beyondInt _ _ present whole
  unfold SafelyNarrowed
  dsimp only
  by_cases accepted : ((askedNumbers (.object members)).map narrow32).Accepted
  · rw [letThrough accepted] at sound ⊢
    constructor
    · intro allOrNothing
      by_cases asked : (askedNumbers (.object members)).Accepted
      · exact .inl (read.symm.trans (allOrNothing.accepted asked))
      · have defaults := allOrNothing.rejected asked
        refine .inr ⟨asked, .inr ⟨read.symm.trans (congrArg _ defaults), ?_⟩⟩
        rw [← @enabled_readCpuMonitorConfig beyondInt, defaults]
        rfl
    · rintro (same | ⟨rejected, impossible | ⟨same, enabled⟩⟩)
      · exact ⟨fun _ => read.trans same, fun rejected => absurd (same ▸ accepted) rejected, sound⟩
      · exact absurd accepted impossible
      · refine ⟨fun asked => absurd asked rejected, fun _ => ?_, sound⟩
        exact CpuMonitorConfig.eq_of_numbers (enabled_readCpuMonitorConfig.mpr enabled)
          (read.trans same)
  · rw [fallsBack accepted] at sound ⊢
    constructor
    · intro allOrNothing
      by_cases asked : (askedNumbers (.object members)).Accepted
      · refine .inl ?_
        rw [← allOrNothing.accepted asked]
        decide
      · exact .inr ⟨asked, .inl accepted⟩
    · rintro (same | ⟨rejected, -⟩)
      · exact ⟨fun asked => absurd (same.symm ▸ asked) accepted, fun _ => rfl, sound⟩
      · exact ⟨fun asked => absurd asked rejected, fun _ => rfl, sound⟩

/-- Reports every twenty seconds. -/
theorem deParseCpuMonitorConfig_allOrNothing_iff_twenty :
    let members : List (String × Json) := [("report_s", .numberUnsigned 20)]
    AllOrNothing (.object members)
      (deParseCpuMonitorConfig (fun _ => 0) (.object [("cpu_monitor", .object members)])) := by
  intro members
  have whole : WholeNumbers (.object members) := by
    unfold WholeNumbers
    simp [members, Json.member?, List.lookup_cons]
  exact (deParseCpuMonitorConfig_allOrNothing_iff _ rfl whole).mpr (.inl (by decide +kernel))

/-- A percentage beyond 32 bits is narrowed to one that is in range. -/
theorem allOrNothing_fails :
    ¬ ∀ (beyondInt : Double → Int32) (moduleConfig : Json) (members : List (String × Json)),
      moduleConfig.member? "cpu_monitor" = some (.object members) →
        WholeNumbers (.object members) →
          AllOrNothing (.object members) (deParseCpuMonitorConfig beyondInt moduleConfig) := by
  intro always
  let members : List (String × Json) := [("super_busy_percent", .numberUnsigned 4294967376)]
  have whole : WholeNumbers (.object members) := by
    unfold WholeNumbers
    simp [members, Json.member?, List.lookup_cons]
  have rejected : ¬ (askedNumbers (.object members)).Accepted :=
    fun accepted => absurd accepted.superBusyPercent.2 (by decide)
  have allOrNothing :=
    always (fun _ => 0) (.object [("cpu_monitor", .object members)]) members rfl whole
  exact absurd (allOrNothing.rejected rejected) (by decide)

end DroneEngage
