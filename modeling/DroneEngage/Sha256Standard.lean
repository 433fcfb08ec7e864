import Mathlib.Data.List.GetD
import Mathlib.Data.Nat.NthRoot.Defs
import Mathlib.Data.Nat.Prime.Basic
import Mathlib.Order.Bounds.Basic

/-!
# SHA-256 as FIPS 180 defines it

A message of whole bytes is padded and cut into blocks of 512 bits.  Each block
is expanded into a schedule of 64 words and compressed into the hash value.  The
constants are the leading fraction bits of roots of the first primes.
-/

namespace DroneEngage.Sha256Standard

abbrev Word := BitVec 32

abbrev Block := Vector UInt8 64

section Functions

variable (x y z : Word)

def ch : Word :=
  (x &&& y) ^^^ (~~~x &&& z)

def maj : Word :=
  (x &&& y) ^^^ (x &&& z) ^^^ (y &&& z)

def bigSigma0 : Word :=
  x.rotateRight 2 ^^^ x.rotateRight 13 ^^^ x.rotateRight 22

def bigSigma1 : Word :=
  x.rotateRight 6 ^^^ x.rotateRight 11 ^^^ x.rotateRight 25

def smallSigma0 : Word :=
  x.rotateRight 7 ^^^ x.rotateRight 18 ^^^ x >>> 3

def smallSigma1 : Word :=
  x.rotateRight 17 ^^^ x.rotateRight 19 ^^^ x >>> 10

end Functions

/-- The first 64 primes. -/
def firstPrimes : List Nat :=
  [2, 3, 5, 7, 11, 13, 17, 19, 23, 29, 31, 37, 41, 43, 47, 53, 59, 61, 67, 71, 73, 79, 83, 89,
   97, 101, 103, 107, 109, 113, 127, 131, 137, 139, 149, 151, 157, 163, 167, 173, 179, 181,
   191, 193, 197, 199, 211, 223, 227, 229, 233, 239, 241, 251, 257, 263, 269, 271, 277, 281,
   283, 293, 307, 311]

/-- Trial division by the numbers below 18. -/
theorem prime_iff_of_lt {n : Nat} (small : n < 18 * 18) :
    n.Prime ↔ 2 ≤ n ∧ ∀ m < 18, 2 ≤ m → m < n → ¬ m ∣ n := by
  constructor
  · intro prime
    refine ⟨prime.two_le, fun m _ large less divides => ?_⟩
    rcases prime.eq_one_or_self_of_dvd m divides with one | same
    · omega
    · omega
  · rintro ⟨two, none⟩
    refine Nat.prime_def_le_sqrt.mpr ⟨two, fun m large root => ?_⟩
    have square : m * m ≤ n := Nat.le_sqrt.mp root
    have below : m < 18 := by
      by_contra above
      have squares : 18 * 18 ≤ m * m := Nat.mul_self_le_mul_self (Nat.le_of_not_lt above)
      omega
    have double : m * 2 ≤ m * m := Nat.mul_le_mul_left m large
    exact none m below large (by omega)

theorem firstPrimes_eq :
    firstPrimes.length = 64 ∧ firstPrimes = (List.range 312).filter Nat.Prime := by
  refine ⟨rfl, ?_⟩
  calc
    firstPrimes = (List.range 312).filter fun n =>
        2 ≤ n ∧ ∀ m < 18, 2 ≤ m → m < n → ¬ m ∣ n := by
      decide +kernel
    _ = (List.range 312).filter Nat.Prime := by
      refine List.filter_congr fun n listed => decide_eq_decide.mpr ?_
      have small := List.mem_range.mp listed
      exact (prime_iff_of_lt (by omega)).symm

/-- The first 32 bits of the fractional part of a root of a prime. -/
def fractionBits (degree prime : Nat) : Word :=
  BitVec.ofNat 32 (Nat.nthRoot degree (prime * 2 ^ (32 * degree)))

def roundConstants : List Word :=
  firstPrimes.map (fractionBits 3)

def initialHash : Vector Word 8 :=
  Vector.ofFn fun j => fractionBits 2 (firstPrimes.getD j 0)

/-- Zero bytes between the final one bit, which has a byte of its own, and the length. -/
def zeroBytes (length : Nat) : Nat :=
  (119 - length % 64) % 64

/-- The zero bits, those that share the byte of the one bit included, are as few
as the standard wants. -/
theorem zeroBytes_isLeast (length : Nat) :
    IsLeast {zeros | (8 * length + 1 + zeros) % 512 = 448} (8 * zeroBytes length + 7) := by
  unfold zeroBytes
  constructor
  · show (_ : Nat) = _
    omega
  · intro zeros ends
    have ends : (8 * length + 1 + zeros) % 512 = 448 := ends
    omega

/-- Big-endian bytes of a number. -/
def bigEndian (count number : Nat) : List UInt8 :=
  (List.range count).map fun index => UInt8.ofNat (number / 256 ^ (count - 1 - index))

def pad (message : List UInt8) : List UInt8 :=
  message ++ 0x80 :: List.replicate (zeroBytes message.length) 0 ++
    bigEndian 8 (8 * message.length)

/-- So many blocks from the front of the bytes. -/
def cutBlocks : Nat → List UInt8 → List Block
  | 0, _ => []
  | count + 1, bytes =>
      Vector.ofFn (fun index => bytes.getD index 0) :: cutBlocks count (bytes.drop 64)

def paddedBlocks (message : List UInt8) : List Block :=
  cutBlocks ((pad message).length / 64) (pad message)

/-- Word `t` of a block, big-endian. -/
def messageWord (block : Block) (t : Nat) : Word :=
  BitVec.ofNat 32 <|
    ((List.range 4).map fun index => (block.toList.getD (4 * t + index) 0).toNat).foldl
      (fun number byte => 256 * number + byte) 0

/-- The message schedule `W`. -/
def schedule (block : Block) (t : Nat) : Word :=
  if t < 16 then messageWord block t
  else
    smallSigma1 (schedule block (t - 2)) + schedule block (t - 7) +
      smallSigma0 (schedule block (t - 15)) + schedule block (t - 16)
termination_by t

/-- The working variables. -/
structure Working where
  a : Word
  b : Word
  c : Word
  d : Word
  e : Word
  f : Word
  g : Word
  h : Word

def compressionRound (k w : Word) (v : Working) : Working :=
  let t1 := v.h + bigSigma1 v.e + ch v.e v.f v.g + k + w
  let t2 := bigSigma0 v.a + maj v.a v.b v.c
  { a := t1 + t2, b := v.a, c := v.b, d := v.c, e := v.d + t1, f := v.e, g := v.f, h := v.g }

def Working.ofHash (hash : Vector Word 8) : Working where
  a := hash.getD 0 0
  b := hash.getD 1 0
  c := hash.getD 2 0
  d := hash.getD 3 0
  e := hash.getD 4 0
  f := hash.getD 5 0
  g := hash.getD 6 0
  h := hash.getD 7 0

def Working.addTo (hash : Vector Word 8) (v : Working) : Vector Word 8 :=
  #v[v.a + hash.getD 0 0, v.b + hash.getD 1 0, v.c + hash.getD 2 0, v.d + hash.getD 3 0,
    v.e + hash.getD 4 0, v.f + hash.getD 5 0, v.g + hash.getD 6 0, v.h + hash.getD 7 0]

/-- The hash value after one more block. -/
def compress (hash : Vector Word 8) (block : Block) : Vector Word 8 :=
  Working.addTo hash <|
    (List.range 64).foldl
      (fun v t => compressionRound (roundConstants.getD t 0) (schedule block t) v)
      (.ofHash hash)

/-- The digest of a message shorter than `2 ^ 64` bits. -/
def digest (message : List UInt8) : List UInt8 :=
  ((paddedBlocks message).foldl compress initialHash).toList.flatMap fun word =>
    bigEndian 4 word.toNat

/-- Lowercase hexadecimal. -/
def hex (bytes : List UInt8) : List Char :=
  bytes.flatMap fun byte =>
    [Nat.digitChar (byte.toNat / 16), Nat.digitChar (byte.toNat % 16)]

/-- Blocks that are put together can be cut apart again. -/
theorem cutBlocks_flatMap (blocks : List Block) :
    cutBlocks blocks.length (blocks.flatMap Vector.toList) = blocks := by
  induction blocks with
  | nil => rfl
  | cons block blocks ih =>
      rw [List.flatMap_cons, List.length_cons, cutBlocks]
      have length : block.toList.length = 64 := Vector.length_toList
      refine congrArg₂ List.cons ?_ ?_
      · ext index small : 1
        rw [Vector.getElem_ofFn, List.getD_append _ _ _ _ (by omega),
          List.getD_eq_getElem _ _ (by omega)]
        exact Vector.getElem_toList _
      · rw [List.drop_append_of_le_length length.ge, List.drop_of_length_le length.le]
        exact ih

/-- Whole blocks hold all of the bytes. -/
theorem flatMap_cutBlocks {bytes : List UInt8} {count : Nat}
    (whole : bytes.length = 64 * count) :
    (cutBlocks count bytes).flatMap Vector.toList = bytes := by
  induction count generalizing bytes with
  | zero => exact (List.eq_nil_of_length_eq_zero whole).symm
  | succ count ih =>
      have front : (Vector.ofFn fun index : Fin 64 => bytes.getD index 0).toList =
          bytes.take 64 := by
        apply List.ext_getElem
        · rw [Vector.length_toList, List.length_take]
          omega
        · intro index small inside
          rw [Vector.length_toList] at small
          rw [Vector.getElem_toList, Vector.getElem_ofFn, List.getElem_take,
            List.getD_eq_getElem]
      rw [cutBlocks, List.flatMap_cons, front, ih (by rw [List.length_drop]; omega),
        List.take_append_drop]

theorem length_pad (message : List UInt8) : 64 ∣ (pad message).length := by
  have length : (bigEndian 8 (8 * message.length)).length = 8 := rfl
  unfold pad zeroBytes
  simp only [List.length_append, List.length_cons, List.length_replicate, length]
  omega

theorem flatMap_paddedBlocks (message : List UInt8) :
    (paddedBlocks message).flatMap Vector.toList = pad message :=
  flatMap_cutBlocks (Nat.mul_div_cancel' (length_pad message)).symm

end DroneEngage.Sha256Standard
