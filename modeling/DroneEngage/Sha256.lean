import DroneEngage.Sha256Standard
import Mathlib.Data.List.Basic

/-!
# The SHA-256 of the helpers

The header keeps a context of eight words, a block that is filled byte by byte
and the count of the bits that are through.  `transform` takes a full block into
the words; it is the compression of the standard.
-/

namespace DroneEngage

open Sha256Standard

/-- `rotr(x, n)` for `0 < n < 32`. -/
def rotr (x : BitVec 32) (n : Nat) : BitVec 32 :=
  (x >>> n) ||| (x <<< (32 - n))

/-- The table `K`. -/
def sha256K : List (BitVec 32) :=
  [0x428a2f98, 0x71374491, 0xb5c0fbcf, 0xe9b5dba5, 0x3956c25b, 0x59f111f1, 0x923f82a4, 0xab1c5ed5,
   0xd807aa98, 0x12835b01, 0x243185be, 0x550c7dc3, 0x72be5d74, 0x80deb1fe, 0x9bdc06a7, 0xc19bf174,
   0xe49b69c1, 0xefbe4786, 0x0fc19dc6, 0x240ca1cc, 0x2de92c6f, 0x4a7484aa, 0x5cb0a9dc, 0x76f988da,
   0x983e5152, 0xa831c66d, 0xb00327c8, 0xbf597fc7, 0xc6e00bf3, 0xd5a79147, 0x06ca6351, 0x14292967,
   0x27b70a85, 0x2e1b2138, 0x4d2c6dfc, 0x53380d13, 0x650a7354, 0x766a0abb, 0x81c2c92e, 0x92722c85,
   0xa2bfe8a1, 0xa81a664b, 0xc24b8b70, 0xc76c51a3, 0xd192e819, 0xd6990624, 0xf40e3585, 0x106aa070,
   0x19a4c116, 0x1e376c08, 0x2748774c, 0x34b0bcb5, 0x391c0cb3, 0x4ed8aa4a, 0x5b9cca4f, 0x682e6ff3,
   0x748f82ee, 0x78a5636f, 0x84c87814, 0x8cc70208, 0x90befffa, 0xa4506ceb, 0xbef9a3f7, 0xc67178f2]

/-- A byte of the block as `uint32_t`. -/
def blockByte (block : Vector UInt8 64) (index : Nat) : BitVec 32 :=
  (block.toList.getD index 0).toBitVec.setWidth 32

/-- `w[i]` for the first sixteen words. -/
def loadWord (block : Vector UInt8 64) (i : Nat) : BitVec 32 :=
  blockByte block (i * 4) <<< 24 ||| blockByte block (i * 4 + 1) <<< 16 |||
    blockByte block (i * 4 + 2) <<< 8 ||| blockByte block (i * 4 + 3)

/-- `w[i]` for the others. -/
def extendWord (w : List (BitVec 32)) (i : Nat) : BitVec 32 :=
  let w15 := w.getD (i - 15) 0
  let w2 := w.getD (i - 2) 0
  let s0 := rotr w15 7 ^^^ rotr w15 18 ^^^ w15 >>> 3
  let s1 := rotr w2 17 ^^^ rotr w2 19 ^^^ w2 >>> 10
  w.getD (i - 16) 0 + s0 + w.getD (i - 7) 0 + s1

/-- The array `w` after both loops, which fill it in order. -/
def scheduleWords (block : Vector UInt8 64) : List (BitVec 32) :=
  (List.range' 16 48).foldl (fun w i => w ++ [extendWord w i])
    ((List.range 16).map (loadWord block))

/-- One round on the variables `a` to `h`. -/
def transformRound (k w : BitVec 32) (v : Working) : Working :=
  let s1 := rotr v.e 6 ^^^ rotr v.e 11 ^^^ rotr v.e 25
  let ch := (v.e &&& v.f) ^^^ (~~~v.e &&& v.g)
  let t1 := v.h + s1 + ch + k + w
  let s0 := rotr v.a 2 ^^^ rotr v.a 13 ^^^ rotr v.a 22
  let maj := (v.a &&& v.b) ^^^ (v.a &&& v.c) ^^^ (v.b &&& v.c)
  let t2 := s0 + maj
  { h := v.g, g := v.f, f := v.e, e := v.d + t1, d := v.c, c := v.b, b := v.a, a := t1 + t2 }

/-- The variables `a` to `h` before the rounds. -/
def loadState (state : Vector (BitVec 32) 8) : Working where
  a := state.getD 0 0
  b := state.getD 1 0
  c := state.getD 2 0
  d := state.getD 3 0
  e := state.getD 4 0
  f := state.getD 5 0
  g := state.getD 6 0
  h := state.getD 7 0

/-- `ctx.state[0] += a` and so on. -/
def addVariables (state : Vector (BitVec 32) 8) (v : Working) : Vector (BitVec 32) 8 :=
  #v[state.getD 0 0 + v.a, state.getD 1 0 + v.b, state.getD 2 0 + v.c, state.getD 3 0 + v.d,
    state.getD 4 0 + v.e, state.getD 5 0 + v.f, state.getD 6 0 + v.g, state.getD 7 0 + v.h]

/-- `ctx.state` after `transform`. -/
def transform (state : Vector (BitVec 32) 8) (block : Vector UInt8 64) :
    Vector (BitVec 32) 8 :=
  let w := scheduleWords block
  addVariables state <|
    (List.range 64).foldl
      (fun v i => transformRound (sha256K.getD i 0) (w.getD i 0) v) (loadState state)

/-- The state that `init` sets. -/
def sha256InitialState : Vector (BitVec 32) 8 :=
  #v[0x6a09e667, 0xbb67ae85, 0x3c6ef372, 0xa54ff53a, 0x510e527f, 0x9b05688c, 0x1f83d9ab,
    0x5be0cd19]

theorem sha256InitialState_eq : sha256InitialState = initialHash := by
  decide +kernel

theorem sha256K_eq : sha256K = roundConstants := by
  decide +kernel

theorem rotr_eq (x : BitVec 32) {n : Nat} (small : n < 32) : rotr x n = x.rotateRight n := by
  rw [BitVec.rotateRight_def, Nat.mod_eq_of_lt small]
  rfl

theorem toNat_blockByte (block : Vector UInt8 64) (index : Nat) :
    (blockByte block index).toNat = (block.toList.getD index 0).toNat := by
  have small := (block.toList.getD index 0).toNat_lt
  unfold blockByte
  rw [BitVec.toNat_setWidth, UInt8.toNat_toBitVec]
  omega

/-- A byte pushed in from the right is the next digit to the base 256. -/
theorem toNat_shiftLeft_or {x : BitVec 32} (fits : x.toNat < 2 ^ 24) (block : Vector UInt8 64)
    (index : Nat) :
    (x <<< 8 ||| blockByte block index).toNat =
      256 * x.toNat + (block.toList.getD index 0).toNat := by
  have small := (block.toList.getD index 0).toNat_lt
  have shifted : (x <<< 8).toNat = 2 ^ 8 * x.toNat := by
    rw [BitVec.toNat_shiftLeft, Nat.shiftLeft_eq]
    omega
  rw [BitVec.toNat_or, shifted, toNat_blockByte, ← Nat.two_pow_add_eq_or_of_lt small]

/-- The bytes shifted into their places are the big-endian word. -/
theorem loadWord_eq (block : Vector UInt8 64) (i : Nat) :
    loadWord block i = messageWord block i := by
  have nested : loadWord block i =
      ((blockByte block (i * 4) <<< 8 ||| blockByte block (i * 4 + 1)) <<< 8 |||
        blockByte block (i * 4 + 2)) <<< 8 ||| blockByte block (i * 4 + 3) := by
    simp only [loadWord, BitVec.shiftLeft_or_distrib, ← BitVec.shiftLeft_add, Nat.reduceAdd]
  have small (index : Nat) := (block.toList.getD index 0).toNat_lt
  have first := toNat_blockByte block (i * 4)
  have smallFirst := small (i * 4)
  have second := @toNat_shiftLeft_or (blockByte block (i * 4)) (by omega) block (i * 4 + 1)
  have smallSecond := small (i * 4 + 1)
  have third := @toNat_shiftLeft_or _ (by rw [second, first]; omega) block (i * 4 + 2)
  have smallThird := small (i * 4 + 2)
  have fourth := @toNat_shiftLeft_or _ (by rw [third, second, first]; omega) block (i * 4 + 3)
  have smallFourth := small (i * 4 + 3)
  apply BitVec.eq_of_toNat_eq
  rw [nested]
  rw [Nat.mul_comm i 4] at *
  have number : (messageWord block i).toNat =
      (256 * (256 * (256 * (256 * 0 + (block.toList.getD (4 * i) 0).toNat) +
        (block.toList.getD (4 * i + 1) 0).toNat) + (block.toList.getD (4 * i + 2) 0).toNat) +
          (block.toList.getD (4 * i + 3) 0).toNat) % 2 ^ 32 :=
    BitVec.toNat_ofNat _ _
  omega

theorem getD_map_range (f : Nat → BitVec 32) {count index : Nat} (small : index < count) :
    ((List.range count).map f).getD index 0 = f index := by
  rw [List.getD_eq_getElem _ _ (by simpa using small), List.getElem_map, List.getElem_range]

/-- Both loops together make the schedule of the standard. -/
theorem scheduleWords_eq (block : Vector UInt8 64) :
    scheduleWords block = (List.range 64).map (schedule block) := by
  have grown (count : Nat) :
      (List.range' 16 count).foldl (fun w i => w ++ [extendWord w i])
          ((List.range 16).map (loadWord block)) =
        (List.range (16 + count)).map (schedule block) := by
    induction count with
    | zero =>
        refine List.map_congr_left fun i listed => ?_
        rw [loadWord_eq, schedule, if_pos (List.mem_range.mp listed)]
    | succ count ih =>
        rw [List.range'_1_concat, List.foldl_append, ih, ← Nat.add_assoc, List.range_succ,
          List.map_append, List.foldl_cons, List.foldl_nil, List.map_singleton, schedule,
          if_neg (by omega)]
        unfold extendWord smallSigma0 smallSigma1
        dsimp only
        rw [getD_map_range _ (by omega), getD_map_range _ (by omega), getD_map_range _ (by omega),
          getD_map_range _ (by omega), rotr_eq _ (by decide), rotr_eq _ (by decide),
          rotr_eq _ (by decide), rotr_eq _ (by decide)]
        ac_rfl
  unfold scheduleWords
  simpa only [Nat.reduceAdd] using grown 48

theorem transformRound_eq (k w : BitVec 32) (v : Working) :
    transformRound k w v = compressionRound k w v := by
  simp only [transformRound, compressionRound, rotr_eq, bigSigma0, bigSigma1, ch, maj,
    Nat.reduceLT]

/-- The 64 rounds on the variables. -/
theorem foldl_transformRound (block : Vector UInt8 64) (start : Working) :
    (List.range 64).foldl
        (fun v i => transformRound (sha256K.getD i 0) ((scheduleWords block).getD i 0) v)
        start =
      (List.range 64).foldl
        (fun v t => compressionRound (roundConstants.getD t 0) (schedule block t) v) start := by
  refine List.foldl_ext _ _ _ fun v t listed => ?_
  rw [scheduleWords_eq, getD_map_range _ (List.mem_range.mp listed), sha256K_eq,
    transformRound_eq]

theorem addVariables_eq (state : Vector (BitVec 32) 8) (v : Working) :
    addVariables state v = v.addTo state := by
  unfold addVariables Working.addTo
  simp only [BitVec.add_comm]

theorem transform_eq : transform = compress := by
  funext state block
  unfold transform compress
  dsimp only
  rw [foldl_transformRound]
  exact addVariables_eq _ _

end DroneEngage
