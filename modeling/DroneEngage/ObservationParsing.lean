import DroneEngage.ObservationWire

/-!
# What strict parsing keeps

A document that `obsParse` accepts is compared with the wire object of the frame
it was decoded to.  The range checks leave integers of sides and confidence no
room to be rounded, and a capture time that wraps around is rejected.  A track
id and a class id are narrowed without a check.
-/

namespace DroneEngage

def restrictTo (keys : List String) (document : Json) : List (String × Json) :=
  keys.filterMap fun key => (document.member? key).map fun value => (key, value)

/-- An entry without the members that `obsParse` does not know. -/
def knownObservation (e : Json) : Json :=
  .object (restrictTo ["attrs", "box", "cls", "cls_id", "conf", "trk"] e)

def knownFrame (ms : Json) : Json :=
  .object ((restrictTo ["cam_id", "obs", "tm_capture"] ms).map fun entry =>
    if entry.1 = "obs" then (entry.1, .array (entry.2.elements.map knownObservation))
    else entry)

def integerValue : Json → Int
  | .numberInteger value => value.toInt
  | .numberUnsigned value => value.toNat
  | _ => 0

/-- The ids of an entry fit the fields of an observation. -/
structure IdsFit (e : Json) : Prop where
  trk : ∀ trk, e.member? "trk" = some trk → integerValue trk < 2 ^ 63
  clsId : ∀ clsId, e.member? "cls_id" = some clsId →
    -2 ^ 31 ≤ integerValue clsId ∧ integerValue clsId < 2 ^ 31

section Numbers

theorem getInt64_bounds (value : Json) : -2 ^ 63 ≤ value.getInt64 ∧ value.getInt64 < 2 ^ 63 := by
  cases value with
  | numberInteger value => exact ⟨value.le_toInt, value.toInt_lt⟩
  | numberUnsigned value => exact ⟨value.toInt64.le_toInt, value.toInt64.toInt_lt⟩
  | _ =>
      change -2 ^ 63 ≤ (0 : Int) ∧ (0 : Int) < 2 ^ 63
      decide

theorem getInt64_eq_iff {value : Json} (integer : value.isNumberInteger = true) :
    value.getInt64 = integerValue value ↔ integerValue value < 2 ^ 63 := by
  cases value with
  | numberInteger value => exact iff_of_true rfl value.toInt_lt
  | numberUnsigned value =>
      have same : value.toInt64.toInt = value.toBitVec.toInt := rfl
      have bound := value.toBitVec.isLt
      rw [Json.getInt64, integerValue, same, BitVec.toInt_eq_toNat_cond, UInt64.toNat]
      split <;> omega
  | _ => simp [Json.isNumberInteger] at integer

theorem integerValue_lt {value : Json} (integer : value.isNumberInteger = true)
    (nonneg : 0 ≤ value.getInt64) : integerValue value < 2 ^ 63 := by
  cases value with
  | numberInteger value => exact value.toInt_lt
  | numberUnsigned value =>
      have same : value.toInt64.toInt = value.toBitVec.toInt := rfl
      have bound := value.toBitVec.isLt
      rw [Json.getInt64, same, BitVec.toInt_eq_toNat_cond] at nonneg
      rw [integerValue, UInt64.toNat]
      split at nonneg <;> omega
  | _ => simp [Json.isNumberInteger] at integer

theorem getInt32_eq_iff {value : Json} (integer : value.isNumberInteger = true) :
    value.getInt32.toInt = integerValue value ↔
      -2 ^ 31 ≤ integerValue value ∧ integerValue value < 2 ^ 31 := by
  have narrowed : value.getInt32.toInt = (integerValue value).bmod (2 ^ 32) := by
    cases value with
    | numberInteger value => exact Int64.toInt_toInt32 value
    | numberUnsigned value => exact Int32.toInt_ofNat'
    | _ => simp [Json.isNumberInteger] at integer
  rw [narrowed]
  constructor
  · intro same
    have low := Int.le_bmod (x := integerValue value) (m := 2 ^ 32) (by decide)
    have high := Int.bmod_lt (x := integerValue value) (m := 2 ^ 32) (by decide)
    omega
  · intro fits
    exact Int.bmod_eq_of_le (by omega) (by omega)

theorem exists_ofInt_eq {value : Int} (large : 2 ^ 53 ≤ value.natAbs) :
    ∃ significand exponent : Nat,
      Double.ofInt value = .finite (decide (value < 0)) significand exponent ∧
        1 ≤ significand ∧ 1 ≤ exponent := by
  have positive : value.natAbs ≠ 0 := by omega
  have wide : 53 ≤ Nat.log2 value.natAbs := (Nat.le_log2 positive).mpr large
  have power : 2 ^ (Nat.log2 value.natAbs - 52) ≤ value.natAbs :=
    (Nat.pow_le_pow_right (by decide) (Nat.sub_le _ _)).trans (Nat.log2_self_le positive)
  have kept := Nat.div_pos power (Nat.two_pow_pos _)
  unfold Double.ofInt
  dsimp only
  rw [if_neg (by omega)]
  refine ⟨_, _, rfl, ?_, by omega⟩
  split <;> omega

/-- An integer that is a valid side is not rounded. -/
theorem ofInt_eq_exactly {value : Int} (low : (Double.ofInt value).lt (.ofInt 0) = false)
    (high : (Double.ofInt 1).lt (.ofInt value) = false) :
    Double.ofInt value = .exactly value := by
  by_cases small : value.natAbs < 2 ^ 53
  · unfold Double.ofInt
    dsimp only
    rw [if_pos small]
    rfl
  · exfalso
    obtain ⟨significand, exponent, same, kept, wide⟩ := exists_ofInt_eq (not_lt.mp small)
    have power : (2 : Int) ≤ significand * 2 ^ exponent := by
      have := Nat.mul_le_mul kept (Nat.pow_le_pow_right (show 0 < 2 by decide) wide)
      exact_mod_cast this
    rw [same] at low high
    have base : min (exponent : Int) 0 = 0 := min_eq_right (Int.natCast_nonneg _)
    have base' : min 0 (exponent : Int) = 0 := min_eq_left (Int.natCast_nonneg _)
    have zero : Double.ofInt 0 = .finite false 0 0 := rfl
    have one : Double.ofInt 1 = .finite false 1 0 := rfl
    rw [zero, Double.lt, base, decide_eq_false_iff_not] at low
    rw [one, Double.lt, base', decide_eq_false_iff_not] at high
    unfold Double.inUnits at low high
    simp only [sub_zero, Int.toNat_natCast, Int.toNat_zero, pow_zero, Nat.cast_zero,
      Nat.cast_one, mul_one, Bool.false_eq_true, if_false, decide_eq_true_eq]
      at low high
    split at low <;> split at high <;> omega

/-- A number that is a valid side, or a valid confidence, is read as it is. -/
theorem sameValue_toDouble {value : Json} (number : value.isNumber = true)
    (low : value.toDouble.lt (.ofInt 0) = false)
    (high : (Double.ofInt 1).lt value.toDouble = false) :
    (Json.numberFloat value.toDouble).sameValue value = true := by
  cases value with
  | numberFloat value => simp [Json.toDouble]
  | numberInteger value =>
      rw [Json.toDouble] at low high ⊢
      simp [Json.sameValue, Json.sameNumber, Json.exactNumber?, ofInt_eq_exactly low high]
  | numberUnsigned value =>
      rw [Json.toDouble] at low high ⊢
      simp [Json.sameValue, Json.sameNumber, Json.exactNumber?, ofInt_eq_exactly low high]
  | _ => simp [Json.isNumber] at number

theorem sameValue_numberInteger_iff {value : Json} {written : Int64}
    (integer : value.isNumberInteger = true) :
    (Json.numberInteger written).sameValue value = true ↔
      written.toInt = integerValue value := by
  cases value with
  | numberInteger value =>
      simp [Json.sameValue, Json.sameNumber, Json.exactNumber?, Double.same_exactly_iff,
        integerValue]
  | numberUnsigned value =>
      simp [Json.sameValue, Json.sameNumber, Json.exactNumber?, Double.same_exactly_iff,
        integerValue]
  | _ => simp [Json.isNumberInteger] at integer

end Numbers

section Observations

variable {e : Json} {o : Observation Double}

theorem sides_of_conf {conf : Double} (valid : confValid conf = true) :
    conf.lt (.ofInt 0) = false ∧ (Double.ofInt 1).lt conf = false := by
  obtain ⟨above, below⟩ := Bool.and_eq_true_iff.mp valid
  exact ⟨Double.lt_eq_false_of_le above, Double.lt_eq_false_of_le below⟩

/-- The sides of a valid box are written with the values they were read from. -/
theorem sameElements_box (valid : o.Valid) {x y w h : Json}
    (numbers : ∀ side ∈ [x, y, w, h], side.isNumber = true) (xRead : x.toDouble = o.x)
    (yRead : y.toDouble = o.y) (wRead : w.toDouble = o.w) (hRead : h.toDouble = o.h) :
    (Json.array [.numberFloat o.x, .numberFloat o.y, .numberFloat o.w,
      .numberFloat o.h]).sameValue (.array [x, y, w, h]) = true := by
  obtain ⟨⟨xLow, xHigh⟩, ⟨yLow, yHigh⟩, ⟨wLow, wHigh⟩, ⟨hLow, hHigh⟩, -⟩ :=
    obsBoxValid_iff.mp valid.box
  simp only [List.forall_mem_cons] at numbers
  obtain ⟨xNumber, yNumber, wNumber, hNumber, -⟩ := numbers
  rw [← xRead] at xLow xHigh ⊢
  rw [← yRead] at yLow yHigh ⊢
  rw [← wRead] at wLow wHigh ⊢
  rw [← hRead] at hLow hHigh ⊢
  rw [Json.sameValue]
  simp only [Json.sameElements, sameValue_toDouble xNumber xLow xHigh,
    sameValue_toDouble yNumber yLow yHigh,
    sameValue_toDouble wNumber (Bool.or_eq_false_iff.mp wLow).1 wHigh,
    sameValue_toDouble hNumber (Bool.or_eq_false_iff.mp hLow).1 hHigh, Bool.and_self]

theorem sameValue_toWire (reads : Reads e o) (valid : o.Valid) :
    o.toWire.sameValue (knownObservation e) = true ↔
      (∀ clsId, e.member? "cls_id" = some clsId →
        (Json.numberInteger o.clsId.toInt64).sameValue clsId = true) ∧
      ∀ trk, e.member? "trk" = some trk →
        (Json.numberInteger (Int64.ofInt o.trk)).sameValue trk = true := by
  obtain ⟨conf, confFound, confNumber, confRead⟩ := reads.conf
  obtain ⟨x, y, w, h, boxFound, numbers, xRead, yRead, wRead, hRead⟩ := reads.box
  have sameBox := sameElements_box valid numbers xRead yRead wRead hRead
  have sameConf : (Json.numberFloat o.conf).sameValue conf = true := by
    obtain ⟨low, high⟩ := sides_of_conf valid.conf
    rw [← confRead] at low high ⊢
    exact sameValue_toDouble confNumber low high
  have attrs := reads.attrs
  have attrsRead := reads.attrsRead
  have hasTrk := reads.hasTrk
  have hasClsId := reads.hasClsId
  rw [Observation.toWire, knownObservation, restrictTo, Json.sameValue]
  unfold Json.contains at hasTrk hasClsId
  cases attrsFound : e.member? "attrs" <;> cases trkFound : e.member? "trk" <;>
    cases clsIdFound : e.member? "cls_id" <;>
    simp_all [Json.sameMembers, Json.isObject, reads.cls]

/-- What is written of an observation has the values of the entry exactly if the
ids fit. -/
theorem sameValue_toWire_iff (reads : Reads e o) (valid : o.Valid) :
    o.toWire.sameValue (knownObservation e) = true ↔ IdsFit e := by
  rw [sameValue_toWire reads valid]
  have trkKept (trk : Json) (found : e.member? "trk" = some trk) :
      (Json.numberInteger (Int64.ofInt o.trk)).sameValue trk = true ↔
        integerValue trk < 2 ^ 63 := by
    have integer := reads.trk trk found
    have read : o.trk = trk.getInt64 := by
      rw [reads.trkRead, found]
      rfl
    have fits : -2 ^ 63 ≤ trk.getInt64 ∧ trk.getInt64 < 2 ^ 63 := getInt64_bounds trk
    rw [sameValue_numberInteger_iff integer, read,
      Int64.toInt_ofInt_of_le fits.1 fits.2, getInt64_eq_iff integer]
  have clsIdKept (clsId : Json) (found : e.member? "cls_id" = some clsId) :
      (Json.numberInteger o.clsId.toInt64).sameValue clsId = true ↔
        -2 ^ 31 ≤ integerValue clsId ∧ integerValue clsId < 2 ^ 31 := by
    have integer := reads.clsId clsId found
    have read : o.clsId = clsId.getInt32 := by
      rw [reads.clsIdRead, found]
      rfl
    rw [sameValue_numberInteger_iff integer, read, Int32.toInt_toInt64,
      getInt32_eq_iff integer]
  constructor
  · rintro ⟨clsId, trk⟩
    exact ⟨fun value found => (trkKept value found).mp (trk value found),
      fun value found => (clsIdKept value found).mp (clsId value found)⟩
  · rintro ⟨trk, clsId⟩
    exact ⟨fun value found => (clsIdKept value found).mpr (clsId value found),
      fun value found => (trkKept value found).mpr (trk value found)⟩

end Observations

theorem sameElements_toWire_iff {arr : List Json} {obs : List (Observation Double)}
    (reads : List.Forall₂ Reads arr obs) (valid : ∀ o ∈ obs, o.Valid) :
    Json.sameElements (obs.map Observation.toWire) (arr.map knownObservation) = true ↔
      ∀ e ∈ arr, IdsFit e := by
  induction reads with
  | nil => simp [Json.sameElements]
  | cons reads readsRest ih =>
      rw [List.forall_mem_cons] at valid ⊢
      rw [List.map_cons, List.map_cons, Json.sameElements, Bool.and_eq_true,
        sameValue_toWire_iff reads valid.1, ih valid.2]

/-- A document that `obsParse` accepts is written again with the same values
exactly if the track ids fit 64 bits and the class ids 32 bits. -/
theorem obsParse_keeps_iff {ms : Json} {frame : ObservationFrame Double}
    (accepted : obsParse ms = .ok frame) :
    (∃ wire, obsBuild frame = .ok wire ∧ wire.sameValue (knownFrame ms) = true) ↔
      ∀ e ∈ ((ms.member? "obs").getD .null).elements, IdsFit e := by
  obtain ⟨reads, valid⟩ := obsParse_eq_ok_iff.mp accepted
  obtain ⟨tmCapture, tmFound, tmInteger, tmRead⟩ := reads.tmCapture
  obtain ⟨arr, arrFound, readsObs⟩ := reads.obs
  have sameTime : (Json.numberInteger (Int64.ofInt frame.tmCapture)).sameValue tmCapture =
      true := by
    have small := integerValue_lt tmInteger (tmRead ▸ valid.tmCapture)
    obtain ⟨low, high⟩ := getInt64_bounds tmCapture
    rw [sameValue_numberInteger_iff tmInteger, ← tmRead, Int64.toInt_ofInt_of_le low high]
    exact (getInt64_eq_iff tmInteger).mpr small
  have known : knownFrame ms = .object
      [ ("cam_id", .string frame.camId), ("obs", .array (arr.map knownObservation)),
        ("tm_capture", tmCapture) ] := by
    simp [knownFrame, restrictTo, reads.camId, arrFound, tmFound, Json.elements]
  have written : frame.toWire.sameValue (knownFrame ms) = true ↔ ∀ e ∈ arr, IdsFit e := by
    rw [← sameElements_toWire_iff readsObs valid.obs, known, ObservationFrame.toWire,
      Json.sameValue]
    simp [Json.sameMembers, sameTime, Json.sameValue.eq_def (.array _)]
  rw [arrFound]
  refine Iff.trans ?_ written
  constructor
  · rintro ⟨wire, built, same⟩
    rwa [(obsBuild_eq_ok_iff.mp built).2] at same
  · intro same
    exact ⟨_, obsBuild_eq_ok_iff.mpr ⟨valid, rfl⟩, same⟩

/-- A document with one detection that fills the image, under a track id. -/
def wholeDocument (trk : UInt64) : Json :=
  .object
    [ ("cam_id", .string "DE-CAM1"),
      ("obs", .array
        [ .object
          [ ("box", .array
              [.numberUnsigned 0, .numberUnsigned 0, .numberUnsigned 1, .numberUnsigned 1]),
            ("cls", .string "person"), ("conf", .numberUnsigned 1),
            ("trk", .numberUnsigned trk) ] ]),
      ("tm_capture", .numberUnsigned 1) ]

def wholeFrame (trk : UInt64) : ObservationFrame Double where
  camId := "DE-CAM1"
  tmCapture := 1
  obs :=
    [ { hasTrk := true, trk := trk.toInt64.toInt, cls := "person", hasClsId := false, clsId := -1
        conf := .ofInt 1, x := .ofInt 0, y := .ofInt 0, w := .ofInt 1, h := .ofInt 1
        attrs := .null } ]

theorem obsParse_wholeDocument (trk : UInt64) :
    obsParse (wholeDocument trk) = .ok (wholeFrame trk) :=
  rfl

/-- A track id of 63 bits is kept. -/
theorem obsParse_keeps_whole :
    ∃ wire, obsBuild (wholeFrame 7) = .ok wire ∧
      wire.sameValue (knownFrame (wholeDocument 7)) = true := by
  refine (obsParse_keeps_iff (obsParse_wholeDocument 7)).mpr ?_
  intro e listed
  obtain rfl := List.mem_singleton.mp listed
  constructor
  · intro trk found
    obtain rfl := Option.some.inj found
    decide
  · intro clsId found
    cases found

/-- A track id of 64 bits becomes negative. -/
theorem obsParse_keeps_fails :
    ∃ ms frame, obsParse ms = .ok frame ∧
      ¬ ∃ wire, obsBuild frame = .ok wire ∧ wire.sameValue (knownFrame ms) = true := by
  refine ⟨wholeDocument (2 ^ 63), wholeFrame (2 ^ 63), obsParse_wholeDocument _, ?_⟩
  rintro ⟨wire, built, same⟩
  rw [(obsBuild_eq_ok_iff.mp built).2] at same
  have changed : (wholeFrame (2 ^ 63)).toWire.sameValue
      (knownFrame (wholeDocument (2 ^ 63))) = false := by
    decide +kernel
  rw [changed] at same
  cases same

end DroneEngage
