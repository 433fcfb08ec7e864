import DroneEngage.ObservationWire

/-!
# Frames sent and received

A frame that `obsBuild` accepts is dumped to text, parsed back and read by
`obsParse`.  All that the checks let through survives, except for two things:
a side of a box that is not a number passes the range checks, and an infinity in
the attributes is never checked.  Both become `null` in the text.
-/

namespace DroneEngage

/-- The integers of a frame have the types of the source. -/
structure ObservationFrame.Fits (frame : ObservationFrame Double) : Prop where
  tmCapture : -2 ^ 63 ≤ frame.tmCapture ∧ frame.tmCapture < 2 ^ 63
  trk : ∀ o ∈ frame.obs, -2 ^ 63 ≤ o.trk ∧ o.trk < 2 ^ 63

structure SameObservation (decoded original : Observation Double) : Prop where
  hasTrk : decoded.hasTrk = original.hasTrk
  trk : original.hasTrk = true → decoded.trk = original.trk
  cls : decoded.cls = original.cls
  hasClsId : decoded.hasClsId = original.hasClsId
  clsId : original.hasClsId = true → decoded.clsId = original.clsId
  conf : decoded.conf = original.conf
  x : decoded.x = original.x
  y : decoded.y = original.y
  w : decoded.w = original.w
  h : decoded.h = original.h
  attrs : decoded.attrs.sameValue original.attrs = true

structure SameFrame (decoded original : ObservationFrame Double) : Prop where
  camId : decoded.camId = original.camId
  tmCapture : decoded.tmCapture = original.tmCapture
  obs : List.Forall₂ SameObservation decoded.obs original.obs

/-- The sides of the box are numbers and the attributes hold no infinity. -/
structure Observation.Writable (o : Observation Double) : Prop where
  x : o.x ≠ .notANumber
  y : o.y ≠ .notANumber
  w : o.w ≠ .notANumber
  h : o.h ≠ .notANumber
  attrs : o.attrs.allFinite = true

section Integers

theorem getInt64_reread (value : Int64) :
    (Json.numberInteger value).reread.getInt64 = value.toInt := by
  rw [Json.reread]
  split <;> rfl

theorem isNumberInteger_reread (value : Int64) :
    (Json.numberInteger value).reread.isNumberInteger = true := by
  rw [Json.reread]
  split <;> rfl

theorem getInt32_reread (value : Int32) :
    (Json.numberInteger value.toInt64).reread.getInt32 = value := by
  rw [Json.reread]
  split
  · exact Int32.toInt32_toInt64 value
  · rename_i nonneg
    exact Json.ofNat_toUInt64 (not_lt.mp nonneg)

end Integers

section Members

variable (o : Observation Double)

theorem member?_attrs_toWire :
    o.toWire.member? "attrs" = if o.attrs.isObject then some o.attrs else none := by
  unfold Observation.toWire
  split <;> split <;> split <;> rfl

theorem member?_box_toWire :
    o.toWire.member? "box" =
      some (.array [.numberFloat o.x, .numberFloat o.y, .numberFloat o.w, .numberFloat o.h]) := by
  unfold Observation.toWire
  split <;> split <;> split <;> rfl

theorem member?_cls_toWire : o.toWire.member? "cls" = some (.string o.cls) := by
  unfold Observation.toWire
  split <;> split <;> split <;> rfl

theorem member?_clsId_toWire :
    o.toWire.member? "cls_id" =
      if o.hasClsId then some (.numberInteger o.clsId.toInt64) else none := by
  unfold Observation.toWire
  split <;> split <;> split <;> rfl

theorem member?_conf_toWire : o.toWire.member? "conf" = some (.numberFloat o.conf) := by
  unfold Observation.toWire
  split <;> split <;> split <;> rfl

theorem member?_trk_toWire :
    o.toWire.member? "trk" =
      if o.hasTrk then some (.numberInteger (Int64.ofInt o.trk)) else none := by
  unfold Observation.toWire
  split <;> split <;> split <;> rfl

end Members

def Observation.decoded (o : Observation Double) : Observation Double :=
  { o with
    trk := if o.hasTrk then o.trk else -1
    clsId := if o.hasClsId then o.clsId else -1
    attrs := o.attrs.reread }

section Observations

variable {o other : Observation Double}

theorem Reads.unique {e : Json} (reads : Reads e o) (readsOther : Reads e other) :
    o = other := by
  obtain ⟨conf, confFound, -, confRead⟩ := reads.conf
  obtain ⟨conf', confFound', -, confRead'⟩ := readsOther.conf
  obtain ⟨x, y, w, h, boxFound, -, xRead, yRead, wRead, hRead⟩ := reads.box
  obtain ⟨x', y', w', h', boxFound', -, xRead', yRead', wRead', hRead'⟩ := readsOther.box
  have sameConf := Option.some.inj (confFound.symm.trans confFound')
  have sameCls := Option.some.inj (reads.cls.symm.trans readsOther.cls)
  have sameBox := Option.some.inj (boxFound.symm.trans boxFound')
  simp only [Json.array.injEq, List.cons.injEq, and_true] at sameBox
  obtain ⟨rfl, rfl, rfl, rfl⟩ := sameBox
  apply Observation.ext
  · rw [reads.hasTrk, readsOther.hasTrk]
  · rw [reads.trkRead, readsOther.trkRead]
  · exact Json.string.inj sameCls
  · rw [reads.hasClsId, readsOther.hasClsId]
  · rw [reads.clsIdRead, readsOther.clsIdRead]
  · rw [← confRead, ← confRead', sameConf]
  · rw [← xRead, ← xRead']
  · rw [← yRead, ← yRead']
  · rw [← wRead, ← wRead']
  · rw [← hRead, ← hRead']
  · rw [reads.attrsRead, readsOther.attrsRead]

theorem Observation.Valid.isFinite_conf (valid : o.Valid) : o.conf.isFinite = true := by
  obtain ⟨above, below⟩ := Bool.and_eq_true_iff.mp valid.conf
  exact Double.isFinite_of_le above below rfl rfl

theorem Observation.Valid.isFinite_sides (valid : o.Valid) :
    (o.x ≠ .notANumber → o.x.isFinite = true) ∧ (o.y ≠ .notANumber → o.y.isFinite = true) ∧
      (o.w ≠ .notANumber → o.w.isFinite = true) ∧
        (o.h ≠ .notANumber → o.h.isFinite = true) := by
  obtain ⟨⟨xLow, xHigh⟩, ⟨yLow, yHigh⟩, ⟨wLow, wHigh⟩, ⟨hLow, hHigh⟩, -⟩ :=
    obsBoxValid_iff.mp valid.box
  refine ⟨Double.isFinite_of_between xLow xHigh rfl rfl,
    Double.isFinite_of_between yLow yHigh rfl rfl,
    Double.isFinite_of_between (Bool.or_eq_false_iff.mp wLow).1 wHigh rfl rfl,
    Double.isFinite_of_between (Bool.or_eq_false_iff.mp hLow).1 hHigh rfl rfl⟩

theorem reread_numberFloat {value : Double} (finite : value.isFinite = true) :
    (Json.numberFloat value).reread = .numberFloat value := by
  rw [Json.reread, if_pos finite]

theorem ne_notANumber_of_isNumber {value : Double}
    (number : (Json.numberFloat value).reread.isNumber = true) : value ≠ .notANumber := by
  rintro rfl
  exact absurd number (by decide)

/-- The wire object of a valid observation whose box has four numbers is read
back as the observation. -/
theorem reads_reread_toWire (valid : o.Valid) (fits : -2 ^ 63 ≤ o.trk ∧ o.trk < 2 ^ 63)
    (x : o.x ≠ .notANumber) (y : o.y ≠ .notANumber) (w : o.w ≠ .notANumber)
    (h : o.h ≠ .notANumber) : Reads o.toWire.reread o.decoded := by
  obtain ⟨xFinite, yFinite, wFinite, hFinite⟩ := valid.isFinite_sides
  constructor
  case isObject =>
    rw [Json.isObject_reread]
    rfl
  case cls => rw [Json.member?_reread, member?_cls_toWire]; rfl
  case conf =>
    refine ⟨.numberFloat o.conf, ?_, rfl, rfl⟩
    rw [Json.member?_reread, member?_conf_toWire, Option.map_some,
      reread_numberFloat valid.isFinite_conf]
  case box =>
    refine ⟨.numberFloat o.x, .numberFloat o.y, .numberFloat o.w, .numberFloat o.h, ?_, ?_,
      rfl, rfl, rfl, rfl⟩
    · rw [Json.member?_reread, member?_box_toWire, Option.map_some, Json.reread,
        Json.rereadElements_eq_map]
      simp only [List.map_cons, List.map_nil, reread_numberFloat (xFinite x),
        reread_numberFloat (yFinite y), reread_numberFloat (wFinite w),
        reread_numberFloat (hFinite h)]
    · simp [Json.isNumber]
  case trk =>
    intro trk found
    rw [Json.member?_reread, member?_trk_toWire] at found
    split at found
    · cases found
      exact isNumberInteger_reread _
    · cases found
  case hasTrk =>
    rw [Json.contains, Json.member?_reread, member?_trk_toWire]
    cases given : o.hasTrk <;> simp [Observation.decoded, given]
  case trkRead =>
    rw [Json.member?_reread, member?_trk_toWire]
    cases given : o.hasTrk with
    | false => simp [Observation.decoded, given]
    | true =>
        simp [Observation.decoded, given, getInt64_reread,
          Int64.toInt_ofInt_of_le fits.1 fits.2, -Int64.toInt_ofInt]
  case clsId =>
    intro clsId found
    rw [Json.member?_reread, member?_clsId_toWire] at found
    split at found
    · cases found
      exact isNumberInteger_reread _
    · cases found
  case hasClsId =>
    rw [Json.contains, Json.member?_reread, member?_clsId_toWire]
    cases given : o.hasClsId <;> simp [Observation.decoded, given]
  case clsIdRead =>
    rw [Json.member?_reread, member?_clsId_toWire]
    cases given : o.hasClsId <;> simp [Observation.decoded, given, getInt32_reread]
  case attrs =>
    intro attrs found
    rw [Json.member?_reread, member?_attrs_toWire] at found
    split at found
    · rename_i isObject
      cases found
      rw [Json.isObject_reread, isObject]
    · cases found
  case attrsRead =>
    rw [Json.member?_reread, member?_attrs_toWire]
    rcases Bool.or_eq_true_iff.mp valid.attrs with isNull | isObject
    · cases given : o.attrs with
      | null => simp [Observation.decoded, given, Json.reread, Json.isObject]
      | _ => simp [given, Json.isNull] at isNull
    · simp [Observation.decoded, isObject]

theorem valid_decoded (valid : o.Valid) : o.decoded.Valid where
  cls := valid.cls
  conf := valid.conf
  box := (obsBoxValid_congr rfl rfl rfl rfl).trans valid.box
  attrs := by
    rcases Bool.or_eq_true_iff.mp valid.attrs with isNull | isObject
    · cases given : o.attrs with
      | null => simp [Observation.decoded, given, Json.reread, Json.isNull]
      | _ => simp [given, Json.isNull] at isNull
    · simp [Observation.decoded, Json.isObject_reread, isObject]

theorem sameObservation_decoded_iff :
    SameObservation o.decoded o ↔ o.attrs.allFinite = true := by
  rw [← Json.sameValue_reread]
  constructor
  · intro same
    exact same.attrs
  · intro attrs
    exact ⟨rfl, fun given => if_pos given, rfl, rfl, fun given => if_pos given, rfl, rfl, rfl,
      rfl, rfl, attrs⟩

/-- A valid observation comes back equal exactly if it is writable. -/
theorem exists_reads_iff (valid : o.Valid) (fits : -2 ^ 63 ≤ o.trk ∧ o.trk < 2 ^ 63) :
    (∃ decoded, (Reads o.toWire.reread decoded ∧ decoded.Valid) ∧
      SameObservation decoded o) ↔ o.Writable := by
  constructor
  · rintro ⟨decoded, ⟨reads, -⟩, same⟩
    obtain ⟨x, y, w, h, boxFound, sides, -⟩ := reads.box
    rw [Json.member?_reread, member?_box_toWire, Option.map_some, Json.reread,
      Json.rereadElements_eq_map] at boxFound
    simp only [List.map_cons, List.map_nil, Option.some.injEq, Json.array.injEq,
      List.cons.injEq, and_true] at boxFound
    obtain ⟨rfl, rfl, rfl, rfl⟩ := boxFound
    simp only [List.forall_mem_cons] at sides
    obtain ⟨x, y, w, h, -⟩ := sides
    have numberX := ne_notANumber_of_isNumber x
    have numberY := ne_notANumber_of_isNumber y
    have numberW := ne_notANumber_of_isNumber w
    have numberH := ne_notANumber_of_isNumber h
    have readBack := reads_reread_toWire valid fits numberX numberY numberW numberH
    obtain rfl := reads.unique readBack
    exact ⟨numberX, numberY, numberW, numberH, sameObservation_decoded_iff.mp same⟩
  · rintro ⟨x, y, w, h, attrs⟩
    exact ⟨o.decoded, ⟨reads_reread_toWire valid fits x y w h, valid_decoded valid⟩,
      sameObservation_decoded_iff.mpr attrs⟩

end Observations

section Frames

variable {frame : ObservationFrame Double}

/-- The frame is dumped and parsed back, accepted, and the same. -/
def RoundTrips (library : JsonLibrary) (frame : ObservationFrame Double) (wire : Json) :
    Prop :=
  ∃ ms decoded, library.parse (wire.dump library none) = some ms ∧
    obsParse ms = .ok decoded ∧ SameFrame decoded frame

/-- The observations of a frame come back equal exactly if each is writable. -/
theorem exists_readsAll_iff {obs : List (Observation Double)} (valid : ∀ o ∈ obs, o.Valid)
    (fits : ∀ o ∈ obs, -2 ^ 63 ≤ o.trk ∧ o.trk < 2 ^ 63) :
    (∃ decoded, (List.Forall₂ Reads (obs.map fun o => o.toWire.reread) decoded ∧
        ∀ o ∈ decoded, o.Valid) ∧ List.Forall₂ SameObservation decoded obs) ↔
      ∀ o ∈ obs, o.Writable := by
  induction obs with
  | nil => simp
  | cons o rest ih =>
      rw [List.forall_mem_cons] at valid fits
      rw [List.forall_mem_cons, ← ih valid.2 fits.2, ← exists_reads_iff valid.1 fits.1,
        List.map_cons]
      constructor
      · rintro ⟨decoded, ⟨reads, validDecoded⟩, same⟩
        cases reads with
        | cons reads readsRest =>
            cases same with
            | cons same sameRest =>
                rw [List.forall_mem_cons] at validDecoded
                exact ⟨⟨_, ⟨reads, validDecoded.1⟩, same⟩,
                  ⟨_, ⟨readsRest, validDecoded.2⟩, sameRest⟩⟩
      · rintro ⟨⟨first, ⟨reads, validFirst⟩, same⟩,
          ⟨decoded, ⟨readsRest, validRest⟩, sameRest⟩⟩
        exact ⟨first :: decoded, ⟨.cons reads readsRest,
          List.forall_mem_cons.mpr ⟨validFirst, validRest⟩⟩, .cons same sameRest⟩

theorem member?_obs_reread_toWire :
    frame.toWire.reread.member? "obs" =
      some (.array (frame.obs.map fun o => o.toWire.reread)) := by
  rw [Json.member?_reread]
  have found : frame.toWire.member? "obs" =
      some (.array (frame.obs.map Observation.toWire)) :=
    rfl
  rw [found, Option.map_some, Json.reread, Json.rereadElements_eq_map, List.map_map]
  rfl

/-- A frame that `obsBuild` accepts survives the text exactly if the sides of
all boxes are numbers and no attributes hold an infinity. -/
theorem obsBuild_roundTrip_iff {library : JsonLibrary} {wire : Json}
    (built : obsBuild frame = .ok wire) (fits : frame.Fits)
    (rereads : library.parse (wire.dump library none) = some wire.reread) :
    RoundTrips library frame wire ↔ ∀ o ∈ frame.obs, o.Writable := by
  obtain ⟨valid, rfl⟩ := obsBuild_eq_ok_iff.mp built
  rw [← exists_readsAll_iff valid.obs fits.trk]
  unfold RoundTrips
  constructor
  · rintro ⟨ms, decoded, parsed, accepted, same⟩
    obtain rfl := Option.some.inj (rereads.symm.trans parsed)
    obtain ⟨reads, validDecoded⟩ := obsParse_eq_ok_iff.mp accepted
    obtain ⟨arr, arrFound, readsObs⟩ := reads.obs
    rw [member?_obs_reread_toWire, Option.some.injEq, Json.array.injEq] at arrFound
    subst arrFound
    exact ⟨decoded.obs, ⟨readsObs, validDecoded.obs⟩, same.obs⟩
  · rintro ⟨obs, ⟨readsObs, validObs⟩, same⟩
    refine ⟨_, { frame with obs := obs }, rereads, ?_, ⟨rfl, rfl, same⟩⟩
    refine obsParse_eq_ok_iff.mpr ⟨⟨?_, ?_, ?_, _, member?_obs_reread_toWire, readsObs⟩,
      valid.camId, valid.tmCapture, validObs⟩
    · rw [Json.isObject_reread]
      rfl
    · rw [Json.member?_reread]
      rfl
    · refine ⟨(Json.numberInteger (Int64.ofInt frame.tmCapture)).reread, ?_,
        isNumberInteger_reread _, ?_⟩
      · rw [Json.member?_reread]
        rfl
      · rw [getInt64_reread,
          Int64.toInt_ofInt_of_le fits.tmCapture.1 fits.tmCapture.2]

/-- The text of documents whose only finite double is one half. -/
def halfDigits : JsonLibrary :=
  .writing fun value => if value.isFinite then "0.5".toList else "null".toList

def rereadLibrary (wire : Json) (wellFormed : wire.reread.WellFormed) : JsonLibrary where
  parse := fun text =>
    if text = wire.dump halfDigits none then some wire.reread else none
  dumpFloat := halfDigits.dumpFloat
  parse_wellFormed := by
    intro text found parsed
    split at parsed
    · exact Option.some.inj parsed ▸ wellFormed
    · simp at parsed

def half : Double := .finite false 1 (-1)

theorem rereadLibrary_rereads {wire : Json} (wellFormed : wire.reread.WellFormed) :
    (rereadLibrary wire wellFormed).parse
        (wire.dump (rereadLibrary wire wellFormed) none) = some wire.reread := by
  have digits : (rereadLibrary wire wellFormed).dumpFloat = halfDigits.dumpFloat := rfl
  rw [Json.dump_congr none digits]
  exact if_pos rfl

/-- A frame with one detection, in a box of half the size of the image. -/
def halfFrame (x : Double) : ObservationFrame Double where
  camId := "DE-CAM1"
  tmCapture := 1
  obs :=
    [ { hasTrk := true, trk := 7, cls := "person", hasClsId := true, clsId := 0, conf := half
        x := x, y := half, w := half, h := half, attrs := .null } ]

theorem halfFrame_fits (x : Double) : (halfFrame x).Fits := by
  constructor
  · change -2 ^ 63 ≤ (1 : Int) ∧ (1 : Int) < 2 ^ 63
    decide
  · intro o listed
    obtain rfl := List.mem_singleton.mp listed
    change -2 ^ 63 ≤ (7 : Int) ∧ (7 : Int) < 2 ^ 63
    decide

def halfWire (x : Double) : Json :=
  .object
    [ ("cam_id", .string "DE-CAM1"),
      ("obs", .array
        [ .object
          [ ("box", .array
              [ (Json.numberFloat x).reread, .numberFloat half, .numberFloat half,
                .numberFloat half ]),
            ("cls", .string "person"), ("cls_id", .numberUnsigned 0),
            ("conf", .numberFloat half), ("trk", .numberUnsigned 7) ] ]),
      ("tm_capture", .numberUnsigned 1) ]

theorem reread_halfFrame (x : Double) : (halfFrame x).toWire.reread = halfWire x :=
  rfl

theorem wellFormed_halfWire (x : Double) : (halfWire x).WellFormed := by
  have side : (Json.numberFloat x).reread.WellFormed := by
    rw [Json.reread]
    split
    · exact .numberFloat _
    · exact .null
  have entry : (Json.object
      [ ("box", .array
          [ (Json.numberFloat x).reread, .numberFloat half, .numberFloat half,
            .numberFloat half ]),
        ("cls", .string "person"), ("cls_id", .numberUnsigned 0),
        ("conf", .numberFloat half), ("trk", .numberUnsigned 7) ]).WellFormed := by
    refine .object _ (by simp only [List.pairwise_cons, List.forall_mem_cons]; decide) ?_
    simp only [List.forall_mem_cons]
    refine ⟨.array _ ?_, .string _, .numberUnsigned _, .numberFloat _, .numberUnsigned _,
      by simp⟩
    simp only [List.forall_mem_cons]
    exact ⟨side, .numberFloat _, .numberFloat _, .numberFloat _, by simp⟩
  refine .object _ (by simp only [List.pairwise_cons, List.forall_mem_cons]; decide) ?_
  simp only [List.forall_mem_cons]
  refine ⟨.string _, .array _ ?_, .numberUnsigned _, by simp⟩
  simpa using entry

def halfLibrary (x : Double) : JsonLibrary :=
  rereadLibrary (halfFrame x).toWire (reread_halfFrame x ▸ wellFormed_halfWire x)

/-- A box with four numbers arrives as it was sent. -/
theorem obsBuild_roundTrip_half :
    RoundTrips (halfLibrary half) (halfFrame half) (halfFrame half).toWire := by
  have built : obsBuild (halfFrame half) = .ok (halfFrame half).toWire := rfl
  refine (obsBuild_roundTrip_iff built (halfFrame_fits half)
    (rereadLibrary_rereads _)).mpr ?_
  intro o listed
  obtain rfl := List.mem_singleton.mp listed
  exact ⟨by decide, by decide, by decide, by decide, rfl⟩

/-- A box whose left side is not a number is sent, and rejected on arrival. -/
theorem obsBuild_roundTrip_fails :
    ∃ library frame wire, frame.Fits ∧ obsBuild frame = .ok wire ∧
      library.parse (wire.dump library none) = some wire.reread ∧
      ¬ RoundTrips library frame wire := by
  refine ⟨halfLibrary .notANumber, halfFrame .notANumber, (halfFrame .notANumber).toWire,
    halfFrame_fits _, rfl, rereadLibrary_rereads _, ?_⟩
  rintro ⟨ms, decoded, parsed, accepted, -⟩
  obtain rfl := Option.some.inj ((rereadLibrary_rereads _).symm.trans parsed)
  have rejected : obsParse (halfFrame .notANumber).toWire.reread =
      .error "obs[0] box not numeric" :=
    rfl
  rw [rejected] at accepted
  cases accepted

end Frames

end DroneEngage
