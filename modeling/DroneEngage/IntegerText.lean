import DroneEngage.StreamExtraction

/-!
# Integers in a text

`strtol` and its like skip white space, take a sign and, to the base 16, a leading
`0x`, and then as many digits as there are.  On a text that is all digits they
return its value, and printed digits are read back.
-/

namespace DroneEngage.IntegerText

open StreamExtraction

/-- What `std::stoi` and `std::stoul` throw, and `substr` of a text that is too short. -/
inductive StringError
  | invalidArgument
  | outOfRange
  deriving DecidableEq

/-- The value of a digit to the bases up to 36; 36 where there is none. -/
def digitValue (c : Char) : Nat :=
  if '0' ≤ c ∧ c ≤ '9' then c.toNat - '0'.toNat
  else if 'a' ≤ c ∧ c ≤ 'z' then c.toNat - 'a'.toNat + 10
  else if 'A' ≤ c ∧ c ≤ 'Z' then c.toNat - 'A'.toNat + 10
  else 36

def isDigitOf (base : Nat) (c : Char) : Bool :=
  digitValue c < base

def digitsValue (base : Nat) (digits : List Char) : Nat :=
  digits.foldl (fun value c => base * value + digitValue c) 0

/-- To the base 16 a `0x` is skipped that a digit follows. -/
def skipRadix (base : Nat) : List Char → List Char
  | '0' :: x :: digit :: rest =>
      if base = 16 ∧ (x = 'x' ∨ x = 'X') ∧ isDigitOf 16 digit then digit :: rest
      else '0' :: x :: digit :: rest
  | text => text

/-- Sign and magnitude of the number at the front of a text. -/
def readInteger (base : Nat) (text : List Char) : Option (Bool × Nat) :=
  let (negative, unsigned) := takeSign (skipSpaces text)
  let digits := (skipRadix base unsigned).takeWhile (isDigitOf base)
  if digits.isEmpty then none else some (negative, digitsValue base digits)

/-- `std::stoi(text, nullptr, base)` -/
def stoi (base : Nat) (text : List Char) : Except StringError Int :=
  match readInteger base text with
  | none => .error .invalidArgument
  | some (negative, magnitude) =>
      let value : Int := if negative then -magnitude else magnitude
      if -2 ^ 31 ≤ value ∧ value < 2 ^ 31 then .ok value else .error .outOfRange

/-- `std::stoul(text, nullptr, base)`, for an `unsigned long` of 64 bits. -/
def stoul (base : Nat) (text : List Char) : Except StringError UInt64 :=
  match readInteger base text with
  | none => .error .invalidArgument
  | some (negative, magnitude) =>
      if magnitude < 2 ^ 64 then
        .ok (if negative then -UInt64.ofNat magnitude else UInt64.ofNat magnitude)
      else .error .outOfRange

section Digits

variable {base : Nat}

theorem digitValue_digitChar {digit : Nat} (small : digit < 16) :
    digitValue digit.digitChar = digit := by
  have all : ∀ digit < 16, digitValue digit.digitChar = digit := by decide
  exact all digit small

theorem isDigitOf_of_mem_toDigits (proper : 1 < base) (small : base ≤ 16) {n : Nat} {c : Char}
    (member : c ∈ Nat.toDigits base n) : isDigitOf base c := by
  induction n using Nat.strong_induction_on with
  | _ n ih =>
      have digit {d : Nat} (fits : d < base) : isDigitOf base d.digitChar := by
        rw [isDigitOf, digitValue_digitChar (Nat.lt_of_lt_of_le fits small)]
        exact decide_eq_true fits
      rw [Nat.toDigits_eq_if proper] at member
      split at member
      · rename_i last
        rw [List.mem_singleton.mp member]
        exact digit last
      · rename_i more
        rcases List.mem_append.mp member with earlier | last
        · exact ih (n / base) (Nat.div_lt_self (by omega) proper) earlier
        · rw [List.mem_singleton.mp last]
          exact digit (Nat.mod_lt n (by omega))

theorem digitsValue_append (front : List Char) (c : Char) :
    digitsValue base (front ++ [c]) = base * digitsValue base front + digitValue c := by
  simp [digitsValue]

/-- Zeros in front of the digits count for nothing. -/
theorem digitsValue_zeros (zeros : Nat) (digits : List Char) :
    digitsValue base (List.replicate zeros '0' ++ digits) = digitsValue base digits := by
  induction zeros with
  | zero => rfl
  | succ zeros ih =>
      have zero : base * 0 + digitValue '0' = 0 := Nat.mul_zero base
      rw [List.replicate_succ, List.cons_append, digitsValue, List.foldl_cons, zero]
      exact ih

/-- The digits of a number have its value. -/
theorem digitsValue_toDigits (proper : 1 < base) (small : base ≤ 16) (n : Nat) :
    digitsValue base (Nat.toDigits base n) = n := by
  induction n using Nat.strong_induction_on with
  | _ n ih =>
      rw [Nat.toDigits_eq_if proper]
      split
      · rename_i last
        simp [digitsValue, digitValue_digitChar (Nat.lt_of_lt_of_le last small)]
      · rename_i more
        have remainder := Nat.mod_lt n (Nat.lt_of_succ_lt proper)
        rw [digitsValue_append, ih (n / base) (Nat.div_lt_self (by omega) proper),
          digitValue_digitChar (Nat.lt_of_lt_of_le remainder small), Nat.div_add_mod]

end Digits

section Reading

variable {base : Nat} {text : List Char}

theorem le_toNat_of_isDigitOf (small : base ≤ 36) {c : Char} (digit : isDigitOf base c) :
    48 ≤ c.toNat := by
  have value := of_decide_eq_true digit
  unfold digitValue at value
  split at value
  · rename_i decimal
    exact decimal.1
  · split at value
    · rename_i lower
      exact Nat.le_trans (by decide) (show 97 ≤ c.toNat from lower.1)
    · split at value
      · rename_i upper
        exact Nat.le_trans (by decide) (show 65 ≤ c.toNat from upper.1)
      · omega

/-- A digit is no white space. -/
theorem isWhite_of_isDigitOf (small : base ≤ 36) {c : Char} (digit : isDigitOf base c) :
    isWhite c = false := by
  have large := le_toNat_of_isDigitOf small digit
  unfold isWhite
  rw [Bool.or_eq_false_iff, Bool.and_eq_false_iff]
  refine ⟨decide_eq_false ?_, .inr (decide_eq_false ?_)⟩
  · rintro rfl
    exact absurd large (by decide)
  · intro control
    have control : c.toNat ≤ 13 := control
    omega

theorem takeSign_digits (small : base ≤ 36) (digits : ∀ c ∈ text, isDigitOf base c) :
    takeSign text = (false, text) := by
  unfold takeSign
  split
  · exact absurd (le_toNat_of_isDigitOf small (digits '-' List.mem_cons_self)) (by decide)
  · exact absurd (le_toNat_of_isDigitOf small (digits '+' List.mem_cons_self)) (by decide)
  · rfl

/-- The `x` of a radix is no digit up to the base 33. -/
theorem skipRadix_digits (small : base ≤ 33) (digits : ∀ c ∈ text, isDigitOf base c) :
    skipRadix base text = text := by
  unfold skipRadix
  split
  · rename_i x digit rest
    have value := of_decide_eq_true (digits x (by simp))
    rw [if_neg]
    rintro ⟨-, rfl | rfl, -⟩
    · exact absurd (Nat.lt_of_lt_of_le value small) (by decide)
    · exact absurd (Nat.lt_of_lt_of_le value small) (by decide)
  · rfl

/-- A text that is all digits is a number. -/
theorem readInteger_digits (nonempty : text ≠ []) (small : base ≤ 33)
    (digits : ∀ c ∈ text, isDigitOf base c) :
    readInteger base text = some (false, digitsValue base text) := by
  have wide : base ≤ 36 := Nat.le_trans small (by decide)
  have skipped : skipSpaces text = text := by
    have word := @skipSpaces_word text [] nonempty fun c first =>
      isWhite_of_isDigitOf wide (digits c (List.mem_of_mem_head? first))
    rwa [List.append_nil] at word
  have whole : text.takeWhile (isDigitOf base) = text := List.takeWhile_eq_self_iff.mpr digits
  simp only [readInteger, skipped, takeSign_digits wide digits, skipRadix_digits small digits,
    whole, List.isEmpty_iff, if_neg nonempty]

theorem stoi_digits (nonempty : text ≠ []) (small : base ≤ 33)
    (digits : ∀ c ∈ text, isDigitOf base c) (fits : digitsValue base text < 2 ^ 31) :
    stoi base text = .ok (digitsValue base text) := by
  unfold stoi
  rw [readInteger_digits nonempty small digits]
  dsimp only
  rw [if_neg Bool.false_ne_true, if_pos (by omega)]

theorem stoul_digits (nonempty : text ≠ []) (small : base ≤ 33)
    (digits : ∀ c ∈ text, isDigitOf base c) (fits : digitsValue base text < 2 ^ 64) :
    stoul base text = .ok (UInt64.ofNat (digitsValue base text)) := by
  unfold stoul
  rw [readInteger_digits nonempty small digits]
  dsimp only
  rw [if_pos fits, if_neg Bool.false_ne_true]

/-- A printed number is read back where it fits. -/
theorem stoi_toDigits (proper : 1 < base) (small : base ≤ 16) {n : Nat} (fits : n < 2 ^ 31) :
    stoi base (Nat.toDigits base n) = .ok (n : Int) := by
  have value := digitsValue_toDigits proper small n
  rw [stoi_digits Nat.toDigits_ne_nil (Nat.le_trans small (by decide))
    (fun c member => isDigitOf_of_mem_toDigits proper small member) (by rwa [value]), value]

end Reading

end DroneEngage.IntegerText
