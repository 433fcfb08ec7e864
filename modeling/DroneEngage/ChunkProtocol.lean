import Mathlib.Data.List.Basic
import Mathlib.Tactic.IntervalCases

/-!
# The two-byte chunk header

Both transports put a little-endian chunk number in front of every chunk and
mark the last chunk of a message with `0xFFFF`.  The Unix client reads the
header through `parseChunkNumber`, from unsigned bytes; the UDP client reads it
from a `char` buffer, so there the number depends on whether plain `char` is
signed.  This file has both readers and says which headers they take for the
start and for the end of a message.
-/

namespace DroneEngage.ChunkProtocol

def chunkEndMarker : UInt16 := 0xFFFF

def chunkHeaderSize : Nat := 2

def prepareChunkHeader (chunkNumber : UInt16) (isLastChunk : Bool) : List UInt8 :=
  if isLastChunk then
    [0xFF, 0xFF]
  else
    [(chunkNumber &&& 0xFF).toUInt8, ((chunkNumber >>> 8) &&& 0xFF).toUInt8]

def parseChunkNumber (low high : UInt8) : UInt16 :=
  (high.toUInt16 <<< 8) ||| low.toUInt16

def isEndChunk (chunkNumber : UInt16) : Bool :=
  chunkNumber == chunkEndMarker

def reassembleChunks (chunks : List (List UInt8)) : List UInt8 :=
  chunks.foldl (fun concatenatedData chunk => concatenatedData ++ chunk) []

@[simp]
theorem reassembleChunks_eq_flatten (chunks : List (List UInt8)) :
    reassembleChunks chunks = chunks.flatten := by
  have accumulate (collected : List UInt8) :
      chunks.foldl (fun concatenatedData chunk => concatenatedData ++ chunk) collected =
        collected ++ chunks.flatten := by
    induction chunks generalizing collected with
    | nil => simp
    | cons chunk chunks ih => simp [ih]
  simpa [reassembleChunks] using accumulate []

@[simp]
theorem length_prepareChunkHeader (chunkNumber : UInt16) (isLastChunk : Bool) :
    (prepareChunkHeader chunkNumber isLastChunk).length = chunkHeaderSize := by
  cases isLastChunk <;> rfl

theorem and_low_byte (number : Nat) :
    number % 256 &&& 255 = number % 256 := by
  simpa using Nat.and_two_pow_sub_one_eq_mod (number % 256) 8

theorem prepareChunkHeader_ofNat (chunkNumber : Nat) :
    prepareChunkHeader (UInt16.ofNat chunkNumber) false =
      [UInt8.ofNat chunkNumber, UInt8.ofNat (chunkNumber / 256)] := by
  simp only [prepareChunkHeader, Bool.false_eq_true, if_false, List.cons.injEq,
    and_true]
  constructor
  · apply UInt8.toNat_inj.mp
    simp [and_low_byte]
  · apply UInt8.toNat_inj.mp
    have shift : (chunkNumber % 65536) >>> 8 = chunkNumber % 65536 / 256 := by
      simp [Nat.shiftRight_eq_div_pow]
    simp [shift, and_low_byte]
    omega

theorem toNat_parseChunkNumber (low high : UInt8) :
    (parseChunkNumber low high).toNat = 256 * high.toNat + low.toNat := by
  have lowBound : low.toNat < 2 ^ 8 := low.toNat_lt
  have highBound := high.toNat_lt
  have shifted : high.toNat <<< 8 % 65536 = 2 ^ 8 * high.toNat := by
    rw [Nat.shiftLeft_eq]
    omega
  simp only [parseChunkNumber, UInt16.toNat_or, UInt16.toNat_shiftLeft,
    UInt8.toNat_toUInt16]
  simp only [UInt16.toNat_ofNat, Nat.reducePow, Nat.reduceMod]
  rw [shifted, ← Nat.two_pow_add_eq_or_of_lt lowBound]

/-- Whether plain `char` is a signed type: it is on x86-64 and is not on ARM. -/
inductive CharSignedness
  | signed
  | unsigned
  deriving DecidableEq, Repr

/-- The integral promotion of a `char` to `int`. -/
def promoteChar : CharSignedness → UInt8 → BitVec 32
  | .signed, byte => byte.toBitVec.signExtend 32
  | .unsigned, byte => byte.toBitVec.setWidth 32

/-- `(buffer[1] << 8) | buffer[0]` over a `char` buffer, narrowed to
`uint16_t`. -/
def charChunkNumber (signedness : CharSignedness) (low high : UInt8) : UInt16 :=
  UInt16.ofBitVec
    (((promoteChar signedness high <<< 8) ||| promoteChar signedness low).setWidth 16)

/-- On unsigned `char` both readers agree. -/
theorem charChunkNumber_unsigned (low high : UInt8) :
    charChunkNumber .unsigned low high = parseChunkNumber low high := by
  apply UInt16.toBitVec_inj.mp
  simp only [charChunkNumber, promoteChar, parseChunkNumber]
  apply BitVec.eq_of_getLsbD_eq
  intro index bound
  simp

/-- Sign extension leaves the low byte of the number alone. -/
theorem charChunkNumber_signed_getLsbD_low (low high : UInt8) {index : Nat}
    (bound : index < 8) :
    (charChunkNumber .signed low high).toBitVec.getLsbD index =
      low.toBitVec.getLsbD index := by
  simp [charChunkNumber, promoteChar, BitVec.getElem_signExtend, bound,
    (by omega : index < 16), (by omega : index < 32)]

theorem charChunkNumber_signed_getLsbD_high (high : UInt8) {index : Nat}
    (bound : index < 8) :
    (charChunkNumber .signed 0 high).toBitVec.getLsbD (index + 8) =
      high.toBitVec.getLsbD index := by
  simp [charChunkNumber, promoteChar, BitVec.getElem_signExtend, bound,
    (by omega : index + 8 < 16), (by omega : index < 32)]

/-- A low byte of `0xFF` is promoted to `-1`, which swallows the high byte:
over signed `char` every 256th chunk number reads as the end marker. -/
theorem charChunkNumber_signed_eq_end_iff (low high : UInt8) :
    charChunkNumber .signed low high = chunkEndMarker ↔ low = 0xFF := by
  constructor
  · intro isEnd
    apply UInt8.toBitVec_inj.mp
    apply BitVec.eq_of_getLsbD_eq
    intro index bound
    rw [← charChunkNumber_signed_getLsbD_low low high bound, isEnd]
    interval_cases index <;> rfl
  · rintro rfl
    have promoted : promoteChar .signed 0xFF = BitVec.allOnes 32 := by decide
    apply UInt16.toBitVec_inj.mp
    simp only [charChunkNumber, promoted, BitVec.or_allOnes]
    rfl

theorem charChunkNumber_signed_eq_zero_iff (low high : UInt8) :
    charChunkNumber .signed low high = 0 ↔ low = 0 ∧ high = 0 := by
  constructor
  · intro isStart
    have lowZero : low = 0 := by
      apply UInt8.toBitVec_inj.mp
      apply BitVec.eq_of_getLsbD_eq
      intro index bound
      rw [← charChunkNumber_signed_getLsbD_low low high bound, isStart]
      simp
    subst lowZero
    refine ⟨rfl, ?_⟩
    apply UInt8.toBitVec_inj.mp
    apply BitVec.eq_of_getLsbD_eq
    intro index bound
    rw [← charChunkNumber_signed_getLsbD_high high bound, isStart]
    simp
  · rintro ⟨rfl, rfl⟩
    decide

end DroneEngage.ChunkProtocol
