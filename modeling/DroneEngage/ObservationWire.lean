import DroneEngage.JsonReread
import DroneEngage.JsonText
import DroneEngage.TrackManager

/-!
# Observation frames on the wire

`obsBuild` makes the wire object of a frame and `obsParse` reads one strictly.
Both check the same ranges; what each accepts is stated once as a predicate on
the frame, and the rest is the object that is written and the fields that are
read.
-/

namespace DroneEngage

/-- Go on if the condition holds, or reject with the text. -/
def require (holds : Bool) (err : String) : Except String Unit :=
  if holds then .ok () else .error err

/-- The double nearest to `1e-6`. -/
def obsEps : Double := .finite false 4722366482869645 (-72)

def obsBoxValid (o : Observation Double) : Bool :=
  let zero := Double.ofInt 0
  let one := Double.ofInt 1
  if o.x.lt zero || one.lt o.x then false
  else if o.y.lt zero || one.lt o.y then false
  else if o.w.le zero || one.lt o.w then false
  else if o.h.le zero || one.lt o.h then false
  else if (one.add obsEps).lt (o.x.add o.w) then false
  else if (one.add obsEps).lt (o.y.add o.h) then false
  else true

/-- `conf >= 0.0 && conf <= 1.0` -/
def confValid (conf : Double) : Bool :=
  (Double.ofInt 0).le conf && conf.le (Double.ofInt 1)

/-- `"obs[" + std::to_string(i) + "] "` -/
def obsPlace (index : Nat) : String :=
  "obs[" ++ toString index ++ "] "

def Observation.toWire (o : Observation Double) : Json :=
  .object
    ((if o.attrs.isObject then [("attrs", o.attrs)] else []) ++
      [ ("box", .array [.numberFloat o.x, .numberFloat o.y, .numberFloat o.w, .numberFloat o.h]),
        ("cls", .string o.cls) ] ++
      (if o.hasClsId then [("cls_id", .numberInteger o.clsId.toInt64)] else []) ++
      [("conf", .numberFloat o.conf)] ++
      (if o.hasTrk then [("trk", .numberInteger (Int64.ofInt o.trk))] else []))

/-- One round of the loop in `obsBuild`. -/
def buildObservation (place : String) (o : Observation Double) : Except String Json := do
  require (!o.cls.isEmpty) (place ++ "cls empty")
  require (confValid o.conf) (place ++ "conf out of [0..1]")
  require (obsBoxValid o) (place ++ "box outside [0..1]")
  require (o.attrs.isNull || o.attrs.isObject) (place ++ "attrs not an object")
  .ok o.toWire

def buildObservations : Nat → List (Observation Double) → Except String (List Json)
  | _, [] => .ok []
  | index, o :: rest => do
      let e ← buildObservation (obsPlace index) o
      let arr ← buildObservations (index + 1) rest
      .ok (e :: arr)

/-- `obsBuild`: the wire object, or `err` -/
def obsBuild (frame : ObservationFrame Double) : Except String Json := do
  require (!frame.camId.isEmpty) "cam_id empty"
  require (decide (0 ≤ frame.tmCapture)) "tm_capture negative"
  let arr ← buildObservations 0 frame.obs
  .ok (.object
    [ ("cam_id", .string frame.camId), ("obs", .array arr),
      ("tm_capture", .numberInteger (Int64.ofInt frame.tmCapture)) ])

/-- `get<int64_t>()` of an integer; an unsigned one wraps around. -/
def Json.getInt64 : Json → Int
  | .numberInteger value => value.toInt
  | .numberUnsigned value => value.toInt64.toInt
  | _ => 0

/-- `get<int>()` of an integer; what does not fit wraps around. -/
def Json.getInt32 : Json → Int32
  | .numberInteger value => value.toInt32
  | .numberUnsigned value => Int32.ofNat value.toNat
  | _ => 0

/-- The member under a key, if it passes a test. -/
def expect (document : Json) (key : String) (holds : Json → Bool) (err : String) :
    Except String Json :=
  match document.member? key with
  | some found => if holds found then .ok found else .error err
  | none => .error err

/-- A member that may be absent but must pass a test. -/
def expectOptional (document : Json) (key : String) (holds : Json → Bool) (err : String) :
    Except String (Option Json) :=
  match document.member? key with
  | some found => if holds found then .ok (some found) else .error err
  | none => .ok none

def textOf : Json → String
  | .string text => text
  | _ => ""

/-- One round of the loop in `obsParse`. -/
def parseObservation (place : String) (e : Json) : Except String (Observation Double) := do
  require e.isObject (place ++ "not an object")
  let cls ← expect e "cls" Json.isString (place ++ "cls missing")
  require (!(textOf cls).isEmpty) (place ++ "cls empty")
  let conf ← expect e "conf" Json.isNumber (place ++ "conf missing")
  require (confValid conf.toDouble) (place ++ "conf out of [0..1]")
  let box ← expect e "box" (fun box => box.isArray && box.elements.length == 4)
    (place ++ "box missing")
  require (box.elements.all Json.isNumber) (place ++ "box not numeric")
  let o : Observation Double :=
    { hasTrk := false
      trk := -1
      cls := textOf cls
      hasClsId := false
      clsId := -1
      conf := conf.toDouble
      x := (box.elements.getD 0 .null).toDouble
      y := (box.elements.getD 1 .null).toDouble
      w := (box.elements.getD 2 .null).toDouble
      h := (box.elements.getD 3 .null).toDouble
      attrs := .null }
  require (obsBoxValid o) (place ++ "box outside [0..1]")
  let trk ← expectOptional e "trk" Json.isNumberInteger (place ++ "trk not an integer")
  let clsId ← expectOptional e "cls_id" Json.isNumberInteger
    (place ++ "cls_id not an integer")
  let attrs ← expectOptional e "attrs" Json.isObject (place ++ "attrs not an object")
  .ok
    { o with
      hasTrk := trk.isSome
      trk := (trk.map Json.getInt64).getD (-1)
      hasClsId := clsId.isSome
      clsId := (clsId.map Json.getInt32).getD (-1)
      attrs := attrs.getD .null }

def parseObservations : Nat → List Json → Except String (List (Observation Double))
  | _, [] => .ok []
  | index, e :: rest => do
      let o ← parseObservation (obsPlace index) e
      let obs ← parseObservations (index + 1) rest
      .ok (o :: obs)

/-- `obsParse`: the frame, or `err` -/
def obsParse (ms : Json) : Except String (ObservationFrame Double) := do
  require ms.isObject "not an object"
  let camId ← expect ms "cam_id" Json.isString "cam_id missing"
  require (!(textOf camId).isEmpty) "cam_id empty"
  let tmCapture ← expect ms "tm_capture" Json.isNumberInteger "tm_capture missing"
  require (decide (0 ≤ tmCapture.getInt64)) "tm_capture negative"
  let arr ← expect ms "obs" Json.isArray "obs missing"
  let obs ← parseObservations 0 arr.elements
  .ok { camId := textOf camId, tmCapture := tmCapture.getInt64, obs := obs }

attribute [ext] Observation

/-- What both directions demand of an observation. -/
structure Observation.Valid (o : Observation Double) : Prop where
  cls : o.cls.isEmpty = false
  conf : confValid o.conf = true
  box : obsBoxValid o = true
  attrs : (o.attrs.isNull || o.attrs.isObject) = true

/-- What both directions demand of a frame. -/
structure ObservationFrame.Valid (frame : ObservationFrame Double) : Prop where
  camId : frame.camId.isEmpty = false
  tmCapture : 0 ≤ frame.tmCapture
  obs : ∀ o ∈ frame.obs, o.Valid

def ObservationFrame.toWire (frame : ObservationFrame Double) : Json :=
  .object
    [ ("cam_id", .string frame.camId), ("obs", .array (frame.obs.map Observation.toWire)),
      ("tm_capture", .numberInteger (Int64.ofInt frame.tmCapture)) ]

structure Reads (e : Json) (o : Observation Double) : Prop where
  isObject : e.isObject = true
  cls : e.member? "cls" = some (.string o.cls)
  conf : ∃ conf, e.member? "conf" = some conf ∧ conf.isNumber = true ∧ conf.toDouble = o.conf
  box : ∃ x y w h, e.member? "box" = some (.array [x, y, w, h]) ∧
    (∀ side ∈ [x, y, w, h], side.isNumber = true) ∧
    x.toDouble = o.x ∧ y.toDouble = o.y ∧ w.toDouble = o.w ∧ h.toDouble = o.h
  trk : ∀ trk, e.member? "trk" = some trk → trk.isNumberInteger = true
  hasTrk : o.hasTrk = e.contains "trk"
  trkRead : o.trk = ((e.member? "trk").map Json.getInt64).getD (-1)
  clsId : ∀ clsId, e.member? "cls_id" = some clsId → clsId.isNumberInteger = true
  hasClsId : o.hasClsId = e.contains "cls_id"
  clsIdRead : o.clsId = ((e.member? "cls_id").map Json.getInt32).getD (-1)
  attrs : ∀ attrs, e.member? "attrs" = some attrs → attrs.isObject = true
  attrsRead : o.attrs = (e.member? "attrs").getD .null

structure ReadsFrame (ms : Json) (frame : ObservationFrame Double) : Prop where
  isObject : ms.isObject = true
  camId : ms.member? "cam_id" = some (.string frame.camId)
  tmCapture : ∃ tmCapture, ms.member? "tm_capture" = some tmCapture ∧
    tmCapture.isNumberInteger = true ∧ tmCapture.getInt64 = frame.tmCapture
  obs : ∃ arr, ms.member? "obs" = some (.array arr) ∧ List.Forall₂ Reads arr frame.obs

section Specs

variable {holds : Bool} {err : String}

@[simp]
theorem require_eq_ok_iff {done : Unit} : require holds err = .ok done ↔ holds = true := by
  cases holds <;> simp [require]

theorem except_bind_eq_ok {α β : Type} {first : Except String α} {next : α → Except String β}
    {result : β} :
    (first >>= next) = .ok result ↔ ∃ value, first = .ok value ∧ next value = .ok result := by
  cases first with
  | ok value => simp [Bind.bind, Except.bind]
  | error text => simp [Bind.bind, Except.bind]

theorem expect_eq_ok_iff {document found : Json} {key : String} {test : Json → Bool} :
    expect document key test err = .ok found ↔
      document.member? key = some found ∧ test found = true := by
  unfold expect
  cases document.member? key with
  | none => simp
  | some member =>
      by_cases passes : test member = true
      · simp only [passes, ↓reduceIte, Except.ok.injEq, Option.some.injEq]
        exact ⟨fun same => ⟨same, same ▸ passes⟩, And.left⟩
      · simp only [passes, Option.some.injEq]
        exact ⟨nofun, fun ⟨same, held⟩ => absurd (same ▸ held) passes⟩

theorem expectOptional_eq_ok_iff {document : Json} {key : String} {test : Json → Bool}
    {found : Option Json} :
    expectOptional document key test err = .ok found ↔
      document.member? key = found ∧ ∀ member, found = some member → test member = true := by
  unfold expectOptional
  cases document.member? key with
  | none => cases found <;> simp
  | some member =>
      by_cases passes : test member = true
      · simp only [passes, ↓reduceIte, Except.ok.injEq]
        constructor
        · rintro rfl
          exact ⟨rfl, fun other same => Option.some.inj same ▸ passes⟩
        · exact And.left
      · simp only [passes]
        refine ⟨nofun, ?_⟩
        rintro ⟨rfl, held⟩
        exact absurd (held member rfl) passes

end Specs

theorem buildObservation_eq_ok_iff {place : String} {o : Observation Double} {e : Json} :
    buildObservation place o = .ok e ↔ o.Valid ∧ e = o.toWire := by
  simp only [buildObservation, except_bind_eq_ok, require_eq_ok_iff, Except.ok.injEq,
    exists_const, Bool.not_eq_true']
  constructor
  · rintro ⟨cls, conf, box, attrs, rfl⟩
    exact ⟨⟨cls, conf, box, attrs⟩, rfl⟩
  · rintro ⟨valid, rfl⟩
    exact ⟨valid.cls, valid.conf, valid.box, valid.attrs, rfl⟩

theorem buildObservations_eq_ok_iff {index : Nat} {obs : List (Observation Double)}
    {arr : List Json} :
    buildObservations index obs = .ok arr ↔
      (∀ o ∈ obs, o.Valid) ∧ arr = obs.map Observation.toWire := by
  induction obs generalizing index arr with
  | nil => simp [buildObservations, eq_comm]
  | cons o rest ih =>
      simp only [buildObservations, except_bind_eq_ok, buildObservation_eq_ok_iff, ih,
        Except.ok.injEq, List.forall_mem_cons, List.map_cons]
      constructor
      · rintro ⟨e, ⟨valid, rfl⟩, more, ⟨others, rfl⟩, rfl⟩
        exact ⟨⟨valid, others⟩, rfl⟩
      · rintro ⟨⟨valid, others⟩, rfl⟩
        exact ⟨_, ⟨valid, rfl⟩, _, ⟨others, rfl⟩, rfl⟩

theorem obsBuild_eq_ok_iff {frame : ObservationFrame Double} {wire : Json} :
    obsBuild frame = .ok wire ↔ frame.Valid ∧ wire = frame.toWire := by
  simp only [obsBuild, except_bind_eq_ok, require_eq_ok_iff, exists_const, Except.ok.injEq,
    buildObservations_eq_ok_iff, Bool.not_eq_true', decide_eq_true_eq]
  constructor
  · rintro ⟨camId, tmCapture, arr, ⟨obs, rfl⟩, rfl⟩
    exact ⟨⟨camId, tmCapture, obs⟩, rfl⟩
  · rintro ⟨valid, rfl⟩
    exact ⟨valid.camId, valid.tmCapture, _, ⟨valid.obs, rfl⟩, rfl⟩

theorem isString_iff {document : Json} :
    document.isString = true ↔ document = .string (textOf document) := by
  cases document <;> simp [Json.isString, textOf]

theorem obsBoxValid_congr {o other : Observation Double} (x : o.x = other.x)
    (y : o.y = other.y) (w : o.w = other.w) (h : o.h = other.h) :
    obsBoxValid o = obsBoxValid other := by
  unfold obsBoxValid
  rw [x, y, w, h]

/-- The range checks on the sides, in the style that lets a NaN pass. -/
theorem obsBoxValid_iff {o : Observation Double} :
    obsBoxValid o = true ↔
      (o.x.lt (.ofInt 0) = false ∧ (Double.ofInt 1).lt o.x = false) ∧
      (o.y.lt (.ofInt 0) = false ∧ (Double.ofInt 1).lt o.y = false) ∧
      (o.w.le (.ofInt 0) = false ∧ (Double.ofInt 1).lt o.w = false) ∧
      (o.h.le (.ofInt 0) = false ∧ (Double.ofInt 1).lt o.h = false) ∧
      ((Double.ofInt 1).add obsEps).lt (o.x.add o.w) = false ∧
      ((Double.ofInt 1).add obsEps).lt (o.y.add o.h) = false := by
  unfold obsBoxValid
  simp only [Bool.if_false_left, Bool.and_eq_true, Bool.not_eq_true', decide_eq_false_iff_not,
    Bool.not_eq_true, Bool.or_eq_false_iff, and_assoc, and_true]

theorem exists_sides {box : Json}
    (shape : (box.isArray && box.elements.length == 4) = true) :
    ∃ x y w h, box = .array [x, y, w, h] := by
  cases box with
  | array elements =>
      have length : elements.length = 4 := by
        simpa [Json.isArray, Json.elements] using shape
      obtain ⟨x, y, rest, rfl⟩ : ∃ x y rest, elements = x :: y :: rest := by
        rcases elements with _ | ⟨x, _ | ⟨y, rest⟩⟩ <;> simp at length
        exact ⟨x, y, rest, rfl⟩
      obtain ⟨w, h, rfl⟩ := List.length_eq_two.mp (show rest.length = 2 by simpa using length)
      exact ⟨x, y, w, h, rfl⟩
  | _ => simp [Json.isArray] at shape

/-- An observation is read exactly from an entry with its fields, and only if it
is valid. -/
theorem parseObservation_eq_ok_iff {place : String} {e : Json} {o : Observation Double} :
    parseObservation place e = .ok o ↔ Reads e o ∧ o.Valid := by
  simp only [parseObservation, except_bind_eq_ok, require_eq_ok_iff, exists_const,
    Except.ok.injEq, expect_eq_ok_iff, expectOptional_eq_ok_iff, Bool.not_eq_true']
  constructor
  · rintro ⟨isObject, cls, ⟨clsFound, clsText⟩, clsGiven, conf, ⟨confFound, confNumber⟩,
      confValid, box, ⟨boxFound, boxShape⟩, boxNumbers, boxValid, trk, ⟨trkFound, trkInteger⟩,
      clsId, ⟨clsIdFound, clsIdInteger⟩, attrs, ⟨attrsFound, attrsObject⟩, rfl⟩
    obtain ⟨x, y, w, h, rfl⟩ := exists_sides boxShape
    subst trkFound clsIdFound attrsFound
    constructor
    · exact
        { isObject := isObject
          cls := clsFound.trans (congrArg some (isString_iff.mp clsText))
          conf := ⟨conf, confFound, confNumber, rfl⟩
          box := ⟨x, y, w, h, boxFound, List.all_eq_true.mp boxNumbers, rfl, rfl, rfl, rfl⟩
          trk := trkInteger
          hasTrk := rfl
          trkRead := rfl
          clsId := clsIdInteger
          hasClsId := rfl
          clsIdRead := rfl
          attrs := attrsObject
          attrsRead := rfl }
    · refine ⟨clsGiven, confValid, boxValid, ?_⟩
      cases given : e.member? "attrs" with
      | none => rfl
      | some attrs => simp [attrsObject attrs given]
  · rintro ⟨reads, valid⟩
    obtain ⟨conf, confFound, confNumber, confRead⟩ := reads.conf
    obtain ⟨x, y, w, h, boxFound, sides, xRead, yRead, wRead, hRead⟩ := reads.box
    refine ⟨reads.isObject, _, ⟨reads.cls, rfl⟩, valid.cls, conf, ⟨confFound, confNumber⟩,
      confRead ▸ valid.conf, _, ⟨boxFound, rfl⟩, List.all_eq_true.mpr sides, ?_, _,
      ⟨rfl, reads.trk⟩, _, ⟨rfl, reads.clsId⟩, _, ⟨rfl, reads.attrs⟩, ?_⟩
    · exact (obsBoxValid_congr xRead yRead wRead hRead).trans valid.box
    · exact Observation.ext reads.hasTrk.symm reads.trkRead.symm rfl reads.hasClsId.symm
        reads.clsIdRead.symm confRead xRead yRead wRead hRead reads.attrsRead.symm

theorem parseObservations_eq_ok_iff {index : Nat} {arr : List Json}
    {obs : List (Observation Double)} :
    parseObservations index arr = .ok obs ↔
      List.Forall₂ Reads arr obs ∧ ∀ o ∈ obs, o.Valid := by
  induction arr generalizing index obs with
  | nil =>
      rw [parseObservations, Except.ok.injEq, List.forall₂_nil_left_iff]
      constructor
      · rintro rfl
        simp
      · rintro ⟨rfl, -⟩
        rfl
  | cons e rest ih =>
      simp only [parseObservations, except_bind_eq_ok, parseObservation_eq_ok_iff, ih,
        Except.ok.injEq]
      constructor
      · rintro ⟨o, ⟨reads, valid⟩, more, ⟨readsMore, validMore⟩, rfl⟩
        exact ⟨.cons reads readsMore, List.forall_mem_cons.mpr ⟨valid, validMore⟩⟩
      · rintro ⟨reads, valid⟩
        cases reads with
        | cons reads readsMore =>
            rw [List.forall_mem_cons] at valid
            exact ⟨_, ⟨reads, valid.1⟩, _, ⟨readsMore, valid.2⟩, rfl⟩

/-- `obsParse` accepts the documents with the fields of a valid frame. -/
theorem obsParse_eq_ok_iff {ms : Json} {frame : ObservationFrame Double} :
    obsParse ms = .ok frame ↔ ReadsFrame ms frame ∧ frame.Valid := by
  simp only [obsParse, except_bind_eq_ok, require_eq_ok_iff, exists_const, Except.ok.injEq,
    expect_eq_ok_iff, parseObservations_eq_ok_iff, Bool.not_eq_true', decide_eq_true_eq]
  constructor
  · rintro ⟨isObject, camId, ⟨camIdFound, camIdText⟩, camIdGiven, tmCapture,
      ⟨tmFound, tmInteger⟩, tmNonneg, arr, ⟨arrFound, isArray⟩, obs, ⟨reads, valid⟩, rfl⟩
    cases arr with
    | array elements =>
        exact ⟨⟨isObject, camIdFound.trans (congrArg some (isString_iff.mp camIdText)),
          ⟨tmCapture, tmFound, tmInteger, rfl⟩, ⟨elements, arrFound, reads⟩⟩,
          ⟨camIdGiven, tmNonneg, valid⟩⟩
    | _ => simp [Json.isArray] at isArray
  · rintro ⟨reads, valid⟩
    obtain ⟨tmCapture, tmFound, tmInteger, tmRead⟩ := reads.tmCapture
    obtain ⟨arr, arrFound, readsObs⟩ := reads.obs
    refine ⟨reads.isObject, _, ⟨reads.camId, rfl⟩, valid.camId, tmCapture,
      ⟨tmFound, tmInteger⟩, tmRead ▸ valid.tmCapture, _, ⟨arrFound, rfl⟩, frame.obs,
      ⟨readsObs, valid.obs⟩, ?_⟩
    rw [tmRead]
    rfl

end DroneEngage
