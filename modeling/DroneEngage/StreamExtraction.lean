import Mathlib.Algebra.Order.Ring.Int
import Mathlib.Data.List.TakeWhile

/-!
# Formatted extraction from a string stream

The operator `>>` of an input stream skips white space and then takes a word or
a number off the front of what is left.  Extraction is a partial function from
the text that is left to a value and the new rest.  What was printed with blanks
in between is read back item by item.
-/

namespace DroneEngage.StreamExtraction

/-- White space in the C locale. -/
def isWhite (c : Char) : Bool :=
  c = ' ' || ('\t' ≤ c && c ≤ '\r')

def skipSpaces (input : List Char) : List Char :=
  input.dropWhile isWhite

/-- `>>` into a string. -/
def extractWord (input : List Char) : Option (List Char × List Char) :=
  let text := skipSpaces input
  let word := text.takeWhile (!isWhite ·)
  if word.isEmpty then none else some (word, text.dropWhile (!isWhite ·))

def takeSign : List Char → Bool × List Char
  | '-' :: digits => (true, digits)
  | '+' :: digits => (false, digits)
  | digits => (false, digits)

/-- `>>` into an unsigned integer.  A minus sign negates the value modulo its
width; a magnitude that does not fit is a failure. -/
def extractUnsigned (width : Nat) (input : List Char) :
    Option (BitVec width × List Char) :=
  let (negative, text) := takeSign (skipSpaces input)
  let digits := text.takeWhile Char.isDigit
  let magnitude := Nat.ofDigitChars 10 digits 0
  if digits.isEmpty || 2 ^ width ≤ magnitude then none
  else
    let value := BitVec.ofNat width magnitude
    some (if negative then -value else value, text.dropWhile Char.isDigit)

/-- The loop that extracts items until one fails or there is no room left. -/
def extractUpTo {Item : Type*} (extract : List Char → Option (Item × List Char)) :
    Nat → List Char → List Item
  | 0, _ => []
  | room + 1, input =>
      match extract input with
      | some (item, rest) => item :: extractUpTo extract room rest
      | none => []

/-- An integer as it is printed. -/
def decimal (value : Int) : List Char :=
  if value < 0 then '-' :: Nat.toDigits 10 value.natAbs
  else Nat.toDigits 10 value.natAbs

/-- A text that does not go on with the word before it. -/
def Separated (rest : List Char) : Prop :=
  ∀ c, rest.head? = some c → isWhite c

theorem Separated.nil : Separated [] :=
  nofun

theorem Separated.blank (rest : List Char) : Separated (' ' :: rest) := by
  rintro _ ⟨⟩
  decide

theorem Separated.tab (rest : List Char) : Separated ('\t' :: rest) := by
  rintro _ ⟨⟩
  decide

theorem Separated.of_spaces {spaces : List Char} (blank : ∀ c ∈ spaces, isWhite c) :
    Separated spaces :=
  fun c first => blank c (List.mem_of_mem_head? first)

section Scanning

variable {word rest : List Char} {belongs : Char → Bool}

theorem isDigit_toDigits {n : Nat} : ∀ c ∈ Nat.toDigits 10 n, c.isDigit :=
  fun _ member => Nat.isDigit_of_mem_toDigits (by decide) (by decide) member

theorem isWhite_eq_false_of_isDigit {c : Char} (digit : c.isDigit) : isWhite c = false := by
  rw [Char.isDigit_iff_toNat] at digit
  unfold isWhite
  rw [Bool.or_eq_false_iff, Bool.and_eq_false_iff]
  refine ⟨decide_eq_false ?_, .inr (decide_eq_false ?_)⟩
  · rintro rfl
    exact absurd digit.1 (by decide)
  · intro small
    have small : c.toNat ≤ 13 := small
    have large : 48 ≤ c.toNat := digit.1
    omega

/-- A scan takes the word and stops where the rest does not go on with it. -/
theorem takeWhile_word (whole : ∀ c ∈ word, belongs c)
    (stops : ∀ c, rest.head? = some c → belongs c = false) :
    (word ++ rest).takeWhile belongs = word := by
  rw [List.takeWhile_append_of_pos whole]
  cases rest with
  | nil => simp
  | cons first others => simp [stops first rfl]

theorem dropWhile_word (whole : ∀ c ∈ word, belongs c)
    (stops : ∀ c, rest.head? = some c → belongs c = false) :
    (word ++ rest).dropWhile belongs = rest := by
  rw [List.dropWhile_append_of_pos whole]
  cases rest with
  | nil => rfl
  | cons first others => simp [stops first rfl]

theorem skipSpaces_of_spaces {spaces : List Char} (blank : ∀ c ∈ spaces, isWhite c) :
    skipSpaces spaces = [] :=
  List.dropWhile_eq_nil_iff.mpr blank

theorem skipSpaces_append {spaces : List Char} (blank : ∀ c ∈ spaces, isWhite c) :
    skipSpaces (spaces ++ rest) = skipSpaces rest :=
  List.dropWhile_append_of_pos blank

theorem solid_of_all (solid : word.all fun c => !isWhite c) : ∀ c ∈ word, isWhite c = false := by
  simpa using solid

theorem skipSpaces_word (nonempty : word ≠ [])
    (solid : ∀ c, word.head? = some c → isWhite c = false) :
    skipSpaces (word ++ rest) = word ++ rest := by
  cases word with
  | nil => exact absurd rfl nonempty
  | cons first others => simp [skipSpaces, solid first rfl]

theorem extractWord_bare (nonempty : word ≠ []) (solid : ∀ c ∈ word, isWhite c = false)
    (separated : Separated rest) : extractWord (word ++ rest) = some (word, rest) := by
  have whole : ∀ c ∈ word, !isWhite c := fun c member => by simp [solid c member]
  have stops : ∀ c, rest.head? = some c → (!isWhite c) = false := fun c first => by
    simp [separated c first]
  have skipped : skipSpaces (word ++ rest) = word ++ rest :=
    skipSpaces_word nonempty fun c first => solid c (List.mem_of_mem_head? first)
  simp only [extractWord, skipped, takeWhile_word whole stops, dropWhile_word whole stops,
    List.isEmpty_iff, if_neg nonempty]

theorem extractWord_word (nonempty : word ≠ []) (solid : ∀ c ∈ word, isWhite c = false)
    (separated : Separated rest) : extractWord (' ' :: word ++ rest) = some (word, rest) := by
  have same : skipSpaces (' ' :: word ++ rest) = skipSpaces (word ++ rest) := rfl
  rw [← extractWord_bare nonempty solid separated]
  unfold extractWord
  rw [same]

end Scanning

section Numbers

variable {width : Nat}

theorem extractUnsigned_congr {input other : List Char}
    (same : skipSpaces input = skipSpaces other) :
    extractUnsigned width input = extractUnsigned width other := by
  unfold extractUnsigned
  rw [same]

theorem extractUnsigned_of_spaces {spaces : List Char} (blank : ∀ c ∈ spaces, isWhite c) :
    extractUnsigned width spaces = none := by
  unfold extractUnsigned
  rw [skipSpaces_of_spaces blank]
  rfl

theorem takeSign_toDigits (value : Nat) (rest : List Char) :
    takeSign (Nat.toDigits 10 value ++ rest) = (false, Nat.toDigits 10 value ++ rest) := by
  cases printed : Nat.toDigits 10 value with
  | nil => exact absurd printed Nat.toDigits_ne_nil
  | cons first others =>
      have digit := @isDigit_toDigits value first (by simp [printed])
      unfold takeSign
      split
      · rename_i same
        obtain ⟨rfl, -⟩ := List.cons.inj same
        exact absurd digit (by decide)
      · rename_i same
        obtain ⟨rfl, -⟩ := List.cons.inj same
        exact absurd digit (by decide)
      · rfl

/-- The number after the sign, where its digits end before the rest. -/
theorem takeSign_decimal (value : Int) (rest : List Char) :
    takeSign (decimal value ++ rest) =
      (decide (value < 0), Nat.toDigits 10 value.natAbs ++ rest) := by
  unfold decimal
  split
  · rename_i negative
    rw [decide_eq_true negative]
    rfl
  · rename_i nonneg
    rw [takeSign_toDigits, decide_eq_false nonneg]

theorem skipSpaces_decimal (value : Int) (rest : List Char) :
    skipSpaces (decimal value ++ rest) = decimal value ++ rest := by
  have digits : ∀ c ∈ Nat.toDigits 10 value.natAbs, isWhite c = false := fun c member =>
    isWhite_eq_false_of_isDigit (isDigit_toDigits c member)
  unfold decimal
  split
  · exact skipSpaces_word (List.cons_ne_nil _ _) fun c first => by
      obtain rfl := Option.some.inj first
      decide
  · exact skipSpaces_word Nat.toDigits_ne_nil fun c first =>
      digits c (List.mem_of_mem_head? first)

theorem negate_ofNat_natAbs (value : Int) :
    (if value < 0 then -BitVec.ofNat width value.natAbs
      else BitVec.ofNat width value.natAbs) = BitVec.ofInt width value := by
  split
  · rename_i negative
    rw [← BitVec.ofInt_natCast, ← BitVec.ofInt_neg,
      ← Int.eq_neg_natAbs_of_nonpos (Int.le_of_lt negative)]
  · rename_i nonneg
    rw [← BitVec.ofInt_natCast, ← Int.eq_natAbs_of_nonneg (Int.not_lt.mp nonneg)]

/-- A printed integer is read back, modulo the width where it is negative. -/
theorem extractUnsigned_decimal {value : Int} (fits : value.natAbs < 2 ^ width)
    {rest : List Char} (separated : Separated rest) :
    extractUnsigned width (' ' :: decimal value ++ rest) =
      some (BitVec.ofInt width value, rest) := by
  have stops : ∀ c, rest.head? = some c → c.isDigit = false := by
    intro c first
    by_contra digit
    have space := separated c first
    rw [isWhite_eq_false_of_isDigit (eq_true_of_ne_false digit)] at space
    cases space
  have skipped : skipSpaces (' ' :: decimal value ++ rest) = decimal value ++ rest :=
    skipSpaces_decimal value rest
  have nonempty : (Nat.toDigits 10 value.natAbs).isEmpty = false :=
    List.isEmpty_eq_false_iff.mpr Nat.toDigits_ne_nil
  simp only [extractUnsigned, skipped, takeSign_decimal, takeWhile_word isDigit_toDigits stops,
    dropWhile_word isDigit_toDigits stops, Nat.ofDigitChars_ten_toDigits, nonempty, Bool.false_or,
    decide_eq_true_eq, if_neg (Nat.not_le_of_lt fits), negate_ofNat_natAbs]

end Numbers

section Printing

variable {Item Value : Type*} {print : Item → List Char} {value : Item → Value}
  {extract : List Char → Option (Value × List Char)} {items : List Item} {ending : List Char}

theorem Separated.printed (separated : Separated ending) :
    Separated ((items.flatMap fun item => ' ' :: print item) ++ ending) := by
  cases items with
  | nil => exact separated
  | cons next others => exact .blank _

/-- Items printed with a blank in front of each are read back in order, as far
as there is room. -/
theorem extractUpTo_printed
    (reads : ∀ item ∈ items, ∀ rest, Separated rest →
      extract (' ' :: print item ++ rest) = some (value item, rest))
    (separated : Separated ending) (exhausted : extract ending = none) (room : Nat) :
    extractUpTo extract room ((items.flatMap fun item => ' ' :: print item) ++ ending) =
      (items.map value).take room := by
  induction items generalizing room with
  | nil =>
      cases room with
      | zero => rfl
      | succ room => simp [extractUpTo, exhausted]
  | cons item items ih =>
      cases room with
      | zero => rfl
      | succ room =>
          have read := reads item List.mem_cons_self _
            (@Separated.printed _ print items ending separated)
          rw [List.flatMap_cons, List.append_assoc, List.map_cons, List.take_succ_cons]
          simp only [extractUpTo, read]
          rw [ih (fun other member => reads other (List.mem_cons_of_mem item member))]

end Printing

end DroneEngage.StreamExtraction
