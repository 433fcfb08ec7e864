import DroneEngage.JsonValues

/-!
# Arithmetic on doubles

Sums and products are exact in units of a power of two, and a quotient has more
bits than a double with a last one for what is left over; then 53 bits are kept,
and what lies halfway between two doubles goes to the even one.
-/

namespace DroneEngage.Double

def le (left right : Double) : Bool :=
  left.lt right || left.eq right

/-- A magnitude in units of `2 ^ dropped`: the nearest, or the even one of two. -/
def nearestUnits (magnitude dropped : Nat) : Nat :=
  let kept := magnitude / 2 ^ dropped
  let remainder := magnitude % 2 ^ dropped
  let half := 2 ^ (dropped - 1)
  if half < remainder ∨ (half = remainder ∧ kept % 2 = 1) then kept + 1 else kept

/-- A number of units of `2 ^ base`, rounded to a double. -/
def round (negative : Bool) (magnitude : Nat) (base : Int) : Double :=
  -- 53 bits at most, and none below 2 ^ -1074
  let dropped := max (Nat.log2 magnitude - 52) (-1074 - base).toNat
  let significand := nearestUnits magnitude dropped
  if significand ≠ 0 ∧ 1024 ≤ Nat.log2 significand + (base + dropped) then infinity negative
  else finite negative significand (base + dropped)

def add : Double → Double → Double
  | finite negative significand exponent,
      finite negative' significand' exponent' =>
      let base := min exponent exponent'
      let sum := inUnits base negative significand exponent +
        inUnits base negative' significand' exponent'
      -- a zero is negative only as the sum of two negative zeros
      if sum = 0 then finite (negative && negative') 0 0
      else round (decide (sum < 0)) sum.natAbs base
  | notANumber, _ | _, notANumber => notANumber
  | infinity negative, infinity negative' =>
      if negative = negative' then infinity negative else notANumber
  | infinity negative, _ | _, infinity negative => infinity negative

def neg : Double → Double
  | finite negative significand exponent => finite (!negative) significand exponent
  | infinity negative => infinity (!negative)
  | notANumber => notANumber

def sub (left right : Double) : Double :=
  left.add right.neg

def mul : Double → Double → Double
  | finite negative significand exponent,
      finite negative' significand' exponent' =>
      round (negative != negative') (significand * significand') (exponent + exponent')
  | notANumber, _ | _, notANumber => notANumber
  | infinity negative, infinity negative' => infinity (negative != negative')
  | infinity negative, finite negative' significand _
  | finite negative' significand _, infinity negative =>
      if significand = 0 then notANumber else infinity (negative != negative')

/-- The bits of a quotient of significands that are looked at: at least 55, and one
that tells whether anything is left over. -/
def quotientBits (dividend divisor : Nat) : Nat :=
  let scaled := dividend * 2 ^ (Nat.log2 divisor + 55)
  2 * (scaled / divisor) + if scaled % divisor = 0 then 0 else 1

def div : Double → Double → Double
  | finite negative significand exponent,
      finite negative' significand' exponent' =>
      if significand' = 0 then
        if significand = 0 then notANumber else infinity (negative != negative')
      else
        round (negative != negative') (quotientBits significand significand')
          (exponent - exponent' - (Nat.log2 significand' + 56))
  | notANumber, _ | _, notANumber => notANumber
  | infinity _, infinity _ => notANumber
  | infinity negative, finite negative' _ _ => infinity (negative != negative')
  | finite negative _ _, infinity negative' => finite (negative != negative') 0 0

/-- The double nearest to a decimal literal, `digits / 10 ^ places`. -/
def decimal (digits places : Nat) : Double :=
  (finite false digits 0).div (finite false (10 ^ places) 0)

/-- The same value: equal, or both not a number. -/
def same (left right : Double) : Bool :=
  left.eq right || (left == notANumber && right == notANumber)

/-- An integer, not rounded. -/
def exactly (value : Int) : Double :=
  finite (decide (value < 0)) value.natAbs 0

def isFinite : Double → Bool
  | finite _ _ _ => true
  | _ => false

@[simp]
theorem same_self (value : Double) : value.same value = true := by
  cases value <;> simp [same, eq]

@[simp]
theorem inUnits_zero (value : Int) :
    inUnits 0 (decide (value < 0)) value.natAbs 0 = value := by
  unfold inUnits
  simp only [sub_self, Int.toNat_zero, pow_zero, mul_one, decide_eq_true_eq]
  split <;> omega

theorem same_exactly_iff (left right : Int) :
    (exactly left).same (exactly right) = true ↔ left = right := by
  simp [exactly, same, eq]

theorem lt_eq_false_of_le {left right : Double} (ordered : left.le right = true) :
    right.lt left = false := by
  cases left with
  | finite =>
      cases right with
      | finite =>
          simp only [le, lt, eq, Bool.or_eq_true, decide_eq_true_eq, decide_eq_false_iff_not,
            not_lt, min_comm] at ordered ⊢
          exact ordered.elim le_of_lt le_of_eq
      | _ => simp_all [le, lt, eq]
  | infinity negative =>
      cases right with
      | infinity negative' =>
          cases negative <;> cases negative' <;> simp_all [le, lt, eq]
      | _ => simp_all [le, lt, eq]
  | notANumber => simp [le, lt, eq] at ordered

theorem nearestUnits_bounds (magnitude dropped : Nat) :
    magnitude / 2 ^ dropped ≤ nearestUnits magnitude dropped ∧
      nearestUnits magnitude dropped ≤ magnitude / 2 ^ dropped + 1 := by
  unfold nearestUnits
  dsimp only
  split <;> omega

/-- A double between two finite ones is finite, unless it is not a number. -/
theorem isFinite_of_between {value low high : Double} (aboveLow : value.lt low = false)
    (belowHigh : high.lt value = false) (lowFinite : low.isFinite = true)
    (highFinite : high.isFinite = true) (number : value ≠ notANumber) :
    value.isFinite = true := by
  cases value with
  | finite => rfl
  | notANumber => exact absurd rfl number
  | infinity negative =>
      cases low with
      | finite =>
          cases high with
          | finite => cases negative <;> simp [lt] at aboveLow belowHigh
          | _ => simp [isFinite] at highFinite
      | _ => simp [isFinite] at lowFinite

theorem isFinite_of_le {value low high : Double} (aboveLow : low.le value = true)
    (belowHigh : value.le high = true) (lowFinite : low.isFinite = true)
    (highFinite : high.isFinite = true) : value.isFinite = true := by
  cases value with
  | finite => rfl
  | notANumber => cases low <;> simp [le, lt, eq] at aboveLow
  | infinity negative =>
      cases low with
      | finite =>
          cases high with
          | finite => cases negative <;> simp [le, lt, eq] at aboveLow belowHigh
          | _ => simp [isFinite] at highFinite
      | _ => simp [isFinite] at lowFinite

end DroneEngage.Double
