import DroneEngage.StreamExtraction
import Mathlib.Data.List.GetD

/-!
# The CPU time of a process

The line of `/proc/self/stat` carries the name of the process in parentheses,
and that name may hold anything.  The parser looks for the last closing
parenthesis, skips the state and reads the counters behind it.
-/

namespace DroneEngage

open StreamExtraction

/-- Kernel ticks of one process, in user and in system mode. -/
structure ProcCpuTimes where
  busyJiffies : UInt64
  deriving DecidableEq, Repr

/-- `text.rfind(c)` -/
def rfind (c : Char) : List Char → Option Nat
  | [] => none
  | first :: text =>
      match rfind c text with
      | some index => some (index + 1)
      | none => if first = c then some 0 else none

/-- The answer, and the times that stand in `out` afterwards. -/
def deParseProcSelfStatCpu (procSelfStatText : List Char) (out : ProcCpuTimes) :
    Bool × ProcCpuTimes :=
  match rfind ')' procSelfStatText with
  | none => (false, out)
  | some commEnd =>
      match extractWord (procSelfStatText.drop (commEnd + 1)) with
      | none => (false, out)
      | some (_state, fields) =>
          let values := extractUpTo (extractUnsigned 64) 16 fields
          if values.length < 12 then (false, out)
          else (true, { out with busyJiffies := ⟨values.getD 10 0 + values.getD 11 0⟩ })

/-- The line as the kernel prints it, with what ends it. -/
def procSelfStatLine (pid : Int) (comm : List Char) (state : Char) (fields : List Int)
    (ending : List Char) : List Char :=
  decimal pid ++ " (".toList ++ comm ++ ')' :: ' ' :: state ::
    ((fields.flatMap fun field => ' ' :: decimal field) ++ ending)

/-- The place of `tpgid` among the numeric fields. -/
def tpgidIndex : Nat := 4

/-- Counters are unsigned; only `tpgid` may be -1. -/
def InKernelRange (fields : List Int) : Prop :=
  ∀ entry ∈ fields.zipIdx,
    entry.1 < 2 ^ 64 ∧ (0 ≤ entry.1 ∨ entry.2 = tpgidIndex ∧ entry.1 = -1)

instance (fields : List Int) : Decidable (InKernelRange fields) :=
  inferInstanceAs (Decidable (∀ entry ∈ fields.zipIdx, _))

theorem InKernelRange.fits {fields : List Int} (inRange : InKernelRange fields) {field : Int}
    (member : field ∈ fields) : field.natAbs < 2 ^ 64 := by
  obtain ⟨index, found⟩ := List.mem_iff_getElem?.mp member
  have entry : (field, index) ∈ fields.zipIdx := List.mem_zipIdx_iff_getElem?.mpr found
  obtain ⟨small, nonneg | ⟨-, rfl⟩⟩ := inRange _ entry
  · dsimp only at small nonneg
    omega
  · decide

theorem rfind_eq_none {c : Char} {text : List Char} (absent : c ∉ text) :
    rfind c text = none := by
  induction text with
  | nil => rfl
  | cons first text ih =>
      rw [List.mem_cons, not_or] at absent
      simp [rfind, ih absent.2, Ne.symm absent.1]

/-- Whatever stands before it, the last occurrence is the one found. -/
theorem rfind_append (before : List Char) {c : Char} {after : List Char}
    (absent : c ∉ after) : rfind c (before ++ c :: after) = some before.length := by
  induction before with
  | nil => simp [rfind, rfind_eq_none absent]
  | cons first before ih => simp [rfind, ih]

theorem parenthesis_not_mem_decimal (value : Int) : ')' ∉ decimal value := by
  have digits : ')' ∉ Nat.toDigits 10 value.natAbs := by
    intro member
    have digit := isDigit_toDigits _ member
    exact absurd digit (by decide)
  unfold decimal
  split
  · simpa using digits
  · exact digits

section Parsing

variable {state : Char} {fields : List Int} {ending : List Char}

/-- The text behind the name has no parenthesis that could be taken for its end. -/
theorem parenthesis_not_mem_fields (stateNotParen : state ≠ ')')
    (blank : ∀ c ∈ ending, isWhite c) :
    ')' ∉ ' ' :: state :: ((fields.flatMap fun field => ' ' :: decimal field) ++ ending) := by
  simp only [List.mem_cons, List.mem_append, List.mem_flatMap, not_or, not_exists, not_and]
  refine ⟨by decide, stateNotParen.symm, fun field _ => ⟨by decide, ?_⟩, ?_⟩
  · exact parenthesis_not_mem_decimal field
  · intro member
    exact absurd (blank _ member) (by decide)

/-- What the read loop gets out of the printed fields. -/
theorem extractUpTo_fields (inRange : InKernelRange fields)
    (blank : ∀ c ∈ ending, isWhite c) :
    extractUpTo (extractUnsigned 64) 16
        ((fields.flatMap fun field => ' ' :: decimal field) ++ ending) =
      (fields.map (BitVec.ofInt 64)).take 16 :=
  extractUpTo_printed
    (fun _ member _ separated => extractUnsigned_decimal (inRange.fits member) separated)
    (.of_spaces blank) (extractUnsigned_of_spaces blank) 16

/-- The last parenthesis of the line is the one that ends the name. -/
theorem rfind_procSelfStatLine (pid : Int) (comm : List Char) (stateNotParen : state ≠ ')')
    (blank : ∀ c ∈ ending, isWhite c) :
    rfind ')' (procSelfStatLine pid comm state fields ending) =
      some (decimal pid ++ " (".toList ++ comm).length :=
  rfind_append _ (parenthesis_not_mem_fields stateNotParen blank)

/-- On a line of the kernel the parser depends on the fields alone. -/
theorem deParseProcSelfStatCpu_line_eq (pid : Int) (comm : List Char)
    (stateNotSpace : isWhite state = false) (stateNotParen : state ≠ ')')
    (inRange : InKernelRange fields) (blank : ∀ c ∈ ending, isWhite c) (out : ProcCpuTimes) :
    deParseProcSelfStatCpu (procSelfStatLine pid comm state fields ending) out =
      if fields.length < 12 then (false, out)
      else (true, ⟨⟨BitVec.ofInt 64 (fields.getD 10 0 + fields.getD 11 0)⟩⟩) := by
  have separated := @Separated.printed _ decimal fields ending (.of_spaces blank)
  have word := @extractWord_word [state] _ (List.cons_ne_nil _ _)
    (fun c member => List.mem_singleton.mp member ▸ stateNotSpace) separated
  have behind : (procSelfStatLine pid comm state fields ending).drop
      ((decimal pid ++ " (".toList ++ comm).length + 1) =
        ' ' :: [state] ++ ((fields.flatMap fun field => ' ' :: decimal field) ++ ending) := by
    unfold procSelfStatLine
    rw [← List.drop_drop, List.drop_left]
    rfl
  have read (index : Nat) (early : index < 16) :
      ((fields.map (BitVec.ofInt 64)).take 16).getD index 0 =
        BitVec.ofInt 64 (fields.getD index 0) := by
    rw [List.getD_eq_getElem?_getD, List.getElem?_take_of_lt early, List.getElem?_map,
      List.getD_eq_getElem?_getD]
    cases fields[index]? <;> rfl
  have count : ((fields.map (BitVec.ofInt 64)).take 16).length < 12 ↔ fields.length < 12 := by
    rw [List.length_take, List.length_map]
    omega
  unfold deParseProcSelfStatCpu
  simp only [rfind_procSelfStatLine pid comm stateNotParen blank, behind, word,
    extractUpTo_fields inRange blank, count, read 10 (by decide), read 11 (by decide),
    BitVec.ofInt_add]

/-- Whatever the name of the process is, the ticks are read from a line that has
the twelve fields they need, and a shorter line is refused. -/
theorem deParseProcSelfStatCpu_line (pid : Int) (comm : List Char)
    (stateNotSpace : isWhite state = false) (stateNotParen : state ≠ ')')
    (inRange : InKernelRange fields) (blank : ∀ c ∈ ending, isWhite c) (out : ProcCpuTimes) :
    (∀ _ : 12 ≤ fields.length, ∃ times,
      deParseProcSelfStatCpu (procSelfStatLine pid comm state fields ending) out =
        (true, times) ∧
      (times.busyJiffies.toNat : Int) = (fields[10] + fields[11]) % 2 ^ 64) ∧
    (fields.length < 12 →
      deParseProcSelfStatCpu (procSelfStatLine pid comm state fields ending) out =
        (false, out)) := by
  rw [deParseProcSelfStatCpu_line_eq pid comm stateNotSpace stateNotParen inRange blank]
  constructor
  · intro enough
    refine ⟨_, if_neg (Nat.not_lt.mpr enough), ?_⟩
    rw [List.getD_eq_getElem _ _ (by omega), List.getD_eq_getElem _ _ (by omega)]
    change ((BitVec.ofInt 64 (fields[10] + fields[11])).toNat : Int) = _
    rw [BitVec.toNat_ofInt]
    exact Int.toNat_of_nonneg (Int.emod_nonneg _ (by decide))
  · exact fun short => if_pos short

theorem deParseProcSelfStatCpu_line_tracker :
    ∃ times, deParseProcSelfStatCpu
        (procSelfStatLine 99 "weird)na (me".toList 'R'
          [5, 6, 7, 0, -1, 0, 0, 0, 0, 0, 40, 60, 0] ['\n']) ⟨0⟩ = (true, times) ∧
      (times.busyJiffies.toNat : Int) = (40 + 60) % 2 ^ 64 := by
  exact (deParseProcSelfStatCpu_line 99 "weird)na (me".toList (by decide) (by decide)
    (by decide) (List.forall_mem_singleton.mpr rfl) ⟨0⟩).1 (by decide)

end Parsing

end DroneEngage
