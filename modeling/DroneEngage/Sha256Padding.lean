import DroneEngage.Sha256
import Mathlib.Data.List.Induction

/-!
# Feeding SHA-256 byte by byte

`update` fills the block of the context and hands it over when it is full;
`final` adds the closing bit, the zeros and the length, in one more block or in
two.  Whatever `transform` does, it is given the blocks of the padded message.
-/

namespace DroneEngage

open Sha256Standard

/-- `Sha256Ctx`, over any state that `transform` may keep. -/
structure Sha256Ctx (State : Type*) where
  state : State
  bitlen : UInt64
  block : Vector UInt8 64
  blockLen : Nat

/-- The eight bytes that `final` makes of the length. -/
def lengthBytes (totalBits : UInt64) : List UInt8 :=
  ([7, 6, 5, 4, 3, 2, 1, 0] : List UInt64).map fun i => (totalBits >>> (i * 8)).toUInt8

namespace Sha256Ctx

variable {State : Type*} (transform : State → Vector UInt8 64 → State)
  (ctx : Sha256Ctx State)

/-- `init` leaves the block as it is found in memory. -/
def init (state : State) : Sha256Ctx State :=
  { ctx with state := state, bitlen := 0, blockLen := 0 }

/-- `ctx.block[ctx.block_len++] = byte` -/
def put (byte : UInt8) : Sha256Ctx State :=
  { ctx with
    block := ctx.block.setIfInBounds ctx.blockLen byte
    blockLen := ctx.blockLen + 1 }

/-- `transform(ctx, ctx.block)` -/
def transformed : Sha256Ctx State :=
  { ctx with state := transform ctx.state ctx.block }

def updateByte (byte : UInt8) : Sha256Ctx State :=
  let filled := ctx.put byte
  if filled.blockLen = 64 then
    { filled.transformed transform with bitlen := filled.bitlen + 512, blockLen := 0 }
  else filled

def update (data : List UInt8) : Sha256Ctx State :=
  data.foldl (updateByte transform) ctx

/-- `while (ctx.block_len < limit) ctx.block[ctx.block_len++] = 0` -/
def putZeros (limit : Nat) : Sha256Ctx State :=
  (List.replicate (limit - ctx.blockLen) 0).foldl put ctx

/-- `final` as far as the last call of `transform`. -/
def finish : Sha256Ctx State :=
  let totalBits := ctx.bitlen + UInt64.ofNat (ctx.blockLen * 8)
  let marked := ctx.put 0x80
  let last :=
    if marked.blockLen > 56 then
      { (marked.putZeros 64).transformed transform with blockLen := 0 }
    else marked
  ((lengthBytes totalBits).foldl put (last.putZeros 56)).transformed transform

end Sha256Ctx

def stateBytes (state : Vector (BitVec 32) 8) : List UInt8 :=
  state.toList.flatMap fun word =>
    [24, 16, 8, 0].map fun shift => UInt8.ofBitVec ((word >>> shift).setWidth 8)

/-- The bytes that `final` writes to `out`. -/
def Sha256Ctx.final (ctx : Sha256Ctx (Vector (BitVec 32) 8)) : List UInt8 :=
  stateBytes (ctx.finish transform).state

/-- A byte as `sha256_hex` writes it. -/
def hexByte (byte : UInt8) : List Char :=
  let digits := "0123456789abcdef".toList
  [digits.getD (byte >>> 4).toNat '0', digits.getD (byte &&& 0x0f).toNat '0']

/-- `memory` is what the context holds before it is set up. -/
def sha256Hex (memory : Sha256Ctx (Vector (BitVec 32) 8)) (input : List UInt8) : List Char :=
  ((memory.init sha256InitialState).update transform input).final.flatMap hexByte

/-- The blocks that `update` and `final` pass to `transform`. -/
def passedBlocks (memory : Sha256Ctx (List Block)) (input : List UInt8) : List Block :=
  let record := fun passed block => passed ++ [block]
  (((memory.init []).update record input).finish record).state

namespace Sha256Ctx

variable {State : Type*} {transform : State → Vector UInt8 64 → State} {start : State}
  {ctx : Sha256Ctx State} {bytes : List UInt8}

/-- The bytes so far: the blocks that have been transformed and what is in the
block now. -/
def Absorbed (transform : State → Vector UInt8 64 → State) (start : State)
    (bytes : List UInt8) (ctx : Sha256Ctx State) : Prop :=
  ∃ (blocks : List Block) (pending : List UInt8),
    bytes = blocks.flatMap Vector.toList ++ pending ∧
      ctx.state = blocks.foldl transform start ∧
      ctx.blockLen = pending.length ∧ ctx.block.toList.take pending.length = pending

theorem absorbed_init (memory : Sha256Ctx State) :
    Absorbed transform start [] (memory.init start) :=
  ⟨[], [], rfl, rfl, rfl, rfl⟩

theorem Absorbed.put (absorbed : Absorbed transform start bytes ctx) (byte : UInt8)
    (room : ctx.blockLen < 64) : Absorbed transform start (bytes ++ [byte]) (ctx.put byte) := by
  obtain ⟨blocks, pending, rfl, state, length, front⟩ := absorbed
  refine ⟨blocks, pending ++ [byte], List.append_assoc _ _ _, state, ?_, ?_⟩
  · rw [List.length_append, List.length_singleton]
    exact congrArg (· + 1) length
  · have inside : ctx.blockLen < ctx.block.toList.length := by simpa using room
    have before : (ctx.block.toList.take ctx.blockLen).length = ctx.blockLen := by
      rw [List.length_take]
      omega
    unfold Sha256Ctx.put
    dsimp only
    rw [Vector.toList_setIfInBounds, List.set_eq_take_append_cons_drop, if_pos inside,
      List.length_append, List.length_singleton, ← length, List.take_append, before,
      Nat.add_sub_cancel_left]
    rw [← length] at front
    rw [front, List.take_of_length_le (by omega)]
    rfl

theorem Absorbed.putAll (absorbed : Absorbed transform start bytes ctx) (more : List UInt8)
    (room : ctx.blockLen + more.length ≤ 64) :
    Absorbed transform start (bytes ++ more) (more.foldl Sha256Ctx.put ctx) ∧
      (more.foldl Sha256Ctx.put ctx).blockLen = ctx.blockLen + more.length := by
  induction more generalizing ctx bytes with
  | nil => exact ⟨by simpa using absorbed, rfl⟩
  | cons byte more ih =>
      rw [List.length_cons] at room
      obtain ⟨all, length⟩ := ih (absorbed.put byte (by omega)) (by
        show ctx.blockLen + 1 + _ ≤ 64
        omega)
      rw [List.append_assoc, List.singleton_append] at all
      refine ⟨all, length.trans ?_⟩
      show ctx.blockLen + 1 + _ = _
      rw [List.length_cons]
      omega

/-- A full block is transformed, and the next one is empty. -/
theorem Absorbed.transformed (absorbed : Absorbed transform start bytes ctx)
    (full : ctx.blockLen = 64) (bitlen : UInt64) :
    Absorbed transform start bytes
      { ctx.transformed transform with bitlen := bitlen, blockLen := 0 } := by
  obtain ⟨blocks, pending, rfl, state, length, front⟩ := absorbed
  have whole : ctx.block.toList = pending := by
    rw [← front, ← length, full]
    exact (List.take_of_length_le Vector.length_toList.le).symm
  refine ⟨blocks ++ [ctx.block], [], ?_, ?_, rfl, rfl⟩
  · simp [whole]
  · rw [List.foldl_append, ← state]
    rfl

/-- What an empty block stands for. -/
theorem Absorbed.state_eq (absorbed : Absorbed transform start bytes ctx)
    (empty : ctx.blockLen = 0) :
    ctx.state = (cutBlocks (bytes.length / 64) bytes).foldl transform start := by
  obtain ⟨blocks, pending, rfl, state, length, -⟩ := absorbed
  obtain rfl := List.eq_nil_of_length_eq_zero (length.symm.trans empty)
  have count : (blocks.flatMap Vector.toList).length = 64 * blocks.length := by
    simp [List.length_flatMap, Nat.mul_comm]
  rw [List.append_nil, count, Nat.mul_div_cancel_left _ (by decide), cutBlocks_flatMap]
  exact state

/-- After the message the block has room, and the count of the bits is that of
the blocks that are through. -/
structure Updated (transform : State → Vector UInt8 64 → State) (start : State)
    (message : List UInt8) (ctx : Sha256Ctx State) : Prop where
  absorbed : Absorbed transform start message ctx
  blockLen : ctx.blockLen = message.length % 64
  bitlen : ctx.bitlen = UInt64.ofNat (8 * (message.length - message.length % 64))

theorem Updated.updateByte (updated : Updated transform start bytes ctx) (byte : UInt8) :
    Updated transform start (bytes ++ [byte]) (ctx.updateByte transform byte) := by
  have blockLen := updated.blockLen
  have small := Nat.mod_lt bytes.length (show 0 < 64 by decide)
  have put := updated.absorbed.put byte (by omega)
  have length : (bytes ++ [byte]).length = bytes.length + 1 := by
    rw [List.length_append, List.length_singleton]
  have filled : (ctx.put byte).blockLen = bytes.length % 64 + 1 := by
    rw [← blockLen]
    rfl
  have bitlen : (ctx.put byte).bitlen = UInt64.ofNat (8 * (bytes.length - bytes.length % 64)) :=
    updated.bitlen
  unfold Sha256Ctx.updateByte
  dsimp only
  split
  · rename_i full
    refine ⟨put.transformed full _, ?_, ?_⟩
    · show 0 = _
      omega
    · show (ctx.put byte).bitlen + UInt64.ofNat 512 = _
      rw [bitlen, ← UInt64.ofNat_add, length]
      congr 1
      omega
  · rename_i notFull
    refine ⟨put, ?_, ?_⟩
    · omega
    · rw [bitlen, length]
      congr 2
      omega

theorem updated_update (memory : Sha256Ctx State) (message : List UInt8) :
    Updated transform start message ((memory.init start).update transform message) := by
  induction message using List.reverseRecOn with
  | nil => exact ⟨absorbed_init memory, rfl, rfl⟩
  | append_singleton message byte ih =>
      unfold update
      rw [List.foldl_append]
      exact ih.updateByte byte

theorem Absorbed.putZeros (absorbed : Absorbed transform start bytes ctx) {limit : Nat}
    (reachable : ctx.blockLen ≤ limit) (room : limit ≤ 64) :
    Absorbed transform start (bytes ++ List.replicate (limit - ctx.blockLen) 0)
        (ctx.putZeros limit) ∧
      (ctx.putZeros limit).blockLen = limit := by
  obtain ⟨all, length⟩ := absorbed.putAll (List.replicate (limit - ctx.blockLen) 0) (by
    rw [List.length_replicate]
    omega)
  refine ⟨all, length.trans ?_⟩
  rw [List.length_replicate]
  omega

/-- The zeros and the length end the last block. -/
theorem Absorbed.close (absorbed : Absorbed transform start bytes ctx)
    (room : ctx.blockLen ≤ 56) {ending all : List UInt8} (eight : ending.length = 8)
    (split : all = bytes ++ List.replicate (56 - ctx.blockLen) 0 ++ ending) :
    ((ending.foldl Sha256Ctx.put (ctx.putZeros 56)).transformed transform).state =
      (cutBlocks (all.length / 64) all).foldl transform start := by
  obtain ⟨zeros, zerosLen⟩ := absorbed.putZeros room (by decide)
  obtain ⟨closed, closedLen⟩ := zeros.putAll ending (by omega)
  rw [split]
  exact (closed.transformed (by omega) 0).state_eq rfl

theorem totalBits_eq {message : List UInt8} (updated : Updated transform start message ctx) :
    ctx.bitlen + UInt64.ofNat (ctx.blockLen * 8) = UInt64.ofNat (8 * message.length) := by
  rw [updated.bitlen, updated.blockLen, ← UInt64.ofNat_add]
  congr 1
  omega

theorem toUInt8_shiftRight (bits : Nat) {shift : Nat} (small : shift ≤ 56) :
    (UInt64.ofNat bits >>> UInt64.ofNat shift).toUInt8 = UInt8.ofNat (bits / 2 ^ shift) := by
  have inside : 2 ^ shift * 2 ^ 8 ∣ 2 ^ 64 := by
    rw [← Nat.pow_add]
    exact Nat.pow_dvd_pow 2 (by omega)
  apply UInt8.toNat_inj.mp
  rw [UInt64.toNat_toUInt8, UInt64.toNat_shiftRight, UInt64.toNat_ofNat', UInt64.toNat_ofNat',
    UInt8.toNat_ofNat', Nat.mod_eq_of_lt (show shift < 2 ^ 64 by omega),
    Nat.mod_eq_of_lt (show shift < 64 by omega), Nat.shiftRight_eq_div_pow,
    ← Nat.mod_mul_right_div_self, Nat.mod_mod_of_dvd _ inside, Nat.mod_mul_right_div_self]

theorem lengthBytes_ofNat (bits : Nat) : lengthBytes (UInt64.ofNat bits) = bigEndian 8 bits :=
  calc
    lengthBytes (UInt64.ofNat bits) = [56, 48, 40, 32, 24, 16, 8, 0].map fun shift =>
        (UInt64.ofNat bits >>> UInt64.ofNat shift).toUInt8 := rfl
    _ = [56, 48, 40, 32, 24, 16, 8, 0].map fun shift => UInt8.ofNat (bits / 2 ^ shift) := by
      refine List.map_congr_left fun shift listed => toUInt8_shiftRight bits ?_
      simp only [List.mem_cons, List.not_mem_nil, or_false] at listed
      omega
    _ = bigEndian 8 bits := rfl

/-- The state after `final` is that of the padded message, block by block. -/
theorem Updated.finish_state {message : List UInt8}
    (updated : Updated transform start message ctx) :
    (ctx.finish transform).state = (paddedBlocks message).foldl transform start := by
  have blockLen := updated.blockLen
  have small := Nat.mod_lt message.length (show 0 < 64 by decide)
  have marked := updated.absorbed.put 0x80 (by omega)
  have markedLen : (ctx.put 0x80).blockLen = message.length % 64 + 1 := by
    rw [← blockLen]
    rfl
  have ending : (bigEndian 8 (8 * message.length)).length = 8 := rfl
  unfold Sha256Ctx.finish paddedBlocks
  dsimp only
  rw [totalBits_eq updated, lengthBytes_ofNat]
  split
  · rename_i crowded
    obtain ⟨full, fullLen⟩ := marked.putZeros (show (ctx.put 0x80).blockLen ≤ 64 by omega) le_rfl
    refine (full.transformed fullLen _).close (Nat.zero_le 56) ending ?_
    have zeros : zeroBytes message.length = 64 - (ctx.put 0x80).blockLen + (56 - 0) := by
      unfold zeroBytes
      omega
    unfold Sha256Standard.pad
    rw [zeros, ← List.replicate_append_replicate]
    simp only [List.append_assoc, List.cons_append, List.nil_append]
  · rename_i roomy
    refine marked.close (by omega) ending ?_
    have zeros : zeroBytes message.length = 56 - (ctx.put 0x80).blockLen := by
      unfold zeroBytes
      omega
    unfold Sha256Standard.pad
    rw [zeros]
    simp only [List.append_assoc, List.cons_append, List.nil_append]

/-- Whatever the blocks do to the state, they are those of the padded message. -/
theorem state_of_finish (memory : Sha256Ctx State) (message : List UInt8) :
    (((memory.init start).update transform message).finish transform).state =
      (paddedBlocks message).foldl transform start :=
  (updated_update memory message).finish_state

end Sha256Ctx

theorem passedBlocks_eq (memory : Sha256Ctx (List Block)) (message : List UInt8) :
    passedBlocks memory message = paddedBlocks message := by
  have collect (blocks passed : List Block) :
      blocks.foldl (fun passed block => passed ++ [block]) passed = passed ++ blocks := by
    induction blocks generalizing passed with
    | nil => exact (List.append_nil passed).symm
    | cons block blocks ih => rw [List.foldl_cons, ih, List.append_assoc, List.singleton_append]
  unfold passedBlocks
  dsimp only
  rw [Sha256Ctx.state_of_finish, collect]
  rfl

theorem ofBitVec_shiftRight (word : BitVec 32) (shift : Nat) :
    UInt8.ofBitVec ((word >>> shift).setWidth 8) = UInt8.ofNat (word.toNat / 2 ^ shift) := by
  apply UInt8.toNat_inj.mp
  rw [UInt8.toNat_ofBitVec, BitVec.toNat_setWidth, BitVec.toNat_ushiftRight, UInt8.toNat_ofNat',
    Nat.shiftRight_eq_div_pow]

theorem stateBytes_eq (state : Vector (BitVec 32) 8) :
    stateBytes state = state.toList.flatMap fun word => bigEndian 4 word.toNat := by
  unfold stateBytes
  simp only [ofBitVec_shiftRight]
  rfl

theorem hexByte_eq (byte : UInt8) :
    hexByte byte = [Nat.digitChar (byte.toNat / 16), Nat.digitChar (byte.toNat % 16)] := by
  have digit : ∀ n < 16, "0123456789abcdef".toList.getD n '0' = Nat.digitChar n := by
    decide
  have small := byte.toNat_lt
  have high : (byte >>> 4).toNat = byte.toNat / 16 :=
    Nat.shiftRight_eq_div_pow byte.toNat 4
  have low : (byte &&& 0x0f).toNat = byte.toNat % 16 :=
    Nat.and_two_pow_sub_one_eq_mod byte.toNat 4
  unfold hexByte
  rw [high, low]
  dsimp only
  rw [digit _ (by omega), digit _ (by omega)]

/-- The hash of the header is the standard one, of the blocks of the padded
message, whatever the context has held before. -/
theorem sha256Hex_eq (memory : Sha256Ctx (Vector (BitVec 32) 8))
    (recording : Sha256Ctx (List Block)) (message : List UInt8) :
    sha256Hex memory message = hex (digest message) ∧
      passedBlocks recording message = paddedBlocks message ∧
      (passedBlocks recording message).flatMap Vector.toList = Sha256Standard.pad message := by
  rw [passedBlocks_eq]
  refine ⟨?_, rfl, flatMap_paddedBlocks message⟩
  have sameByte : hexByte =
      fun byte => [Nat.digitChar (byte.toNat / 16), Nat.digitChar (byte.toNat % 16)] :=
    funext hexByte_eq
  unfold sha256Hex Sha256Ctx.final digest hex
  rw [Sha256Ctx.state_of_finish, stateBytes_eq, transform_eq, sha256InitialState_eq, sameByte]

example : sha256Hex ⟨.replicate 8 0, 0, .replicate 64 0, 0⟩ [0x61, 0x62, 0x63] =
    "ba7816bf8f01cfea414140de5dae2223b00361a396177a9cb410ff61f20015ad".toList := by
  decide +kernel

end DroneEngage
