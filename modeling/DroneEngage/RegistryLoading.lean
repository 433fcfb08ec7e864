import DroneEngage.CameraRegistry

/-!
# Bad entries of a registry file

Which entries of a file are well typed, and what they decode to, said of the
members alone.  A load takes each entry by itself as long as `fromJson` reports
the bad ones; a member of another type is thrown, and nothing in `load` catches
it.
-/

namespace DroneEngage

/-- The member under a key, if there is one, is accepted. -/
def Json.memberIs (accepts : Json → Bool) (j : Json) (key : String) : Bool :=
  (j.member? key).all accepts

/-- The value that `get` has of the member under a key, or the default. -/
def Json.memberOr {α : Type} (get : Json → Except JsonException α) (j : Json) (key : String)
    (default : α) : α :=
  ((j.member? key).bind fun found => (get found).toOption).getD default

/-- `get<int>()` takes truth values too. -/
def Json.givesInt (j : Json) : Bool :=
  j.isBoolean || j.isNumber

def Json.isMatrix (j : Json) : Bool :=
  j.isArray && decide (j.elements.length = 9)

def Json.holdsNumbers (j : Json) : Bool :=
  j.elements.all Json.isNumber

namespace CameraRegistryEntry

/-- The members that are read first. -/
def sized (j : Json) : Bool :=
  j.memberIs Json.givesInt "image_width" && j.memberIs Json.givesInt "image_height"

/-- The members that are read last. -/
def mounted (j : Json) : Bool :=
  j.memberIs Json.isNumber "mount_yaw_deg" && j.memberIs Json.isNumber "mount_pitch_deg" &&
    j.memberIs Json.isNumber "mount_roll_deg" && j.memberIs Json.isNumber "hfov_deg"

def wellTyped (j : Json) : Bool :=
  j.isObject && sized j && j.memberIs Json.isMatrix "camera_matrix" &&
    j.memberIs Json.holdsNumbers "camera_matrix" && j.memberIs Json.isArray "distortion" &&
    j.memberIs Json.holdsNumbers "distortion" && mounted j

/-- In the order of `fromJson`, a member of another shape comes before a member of
another type, or neither comes. -/
def reported (j : Json) : Bool :=
  !j.isObject || sized j && (!j.memberIs Json.isMatrix "camera_matrix" ||
    j.memberIs Json.holdsNumbers "camera_matrix" && (!j.memberIs Json.isArray "distortion" ||
      j.memberIs Json.holdsNumbers "distortion" && mounted j))

section Decoding

variable (beyondInt : Double → Int32)

/-- What a well-typed entry says, with the defaults where it says nothing. -/
def decoded (j : Json) : CameraRegistryEntry where
  imageWidth := j.memberOr (Json.getInt beyondInt) "image_width" default.imageWidth
  imageHeight := j.memberOr (Json.getInt beyondInt) "image_height" default.imageHeight
  cameraMatrix :=
    match j.member? "camera_matrix" with
    | some found => .ofFn fun index => (found.elements.map Json.toDouble).getD index (.ofInt 0)
    | none => default.cameraMatrix
  distortion :=
    match j.member? "distortion" with
    | some found => found.elements.map Json.toDouble
    | none => default.distortion
  mountYawDeg := j.memberOr Json.getDouble "mount_yaw_deg" default.mountYawDeg
  mountPitchDeg := j.memberOr Json.getDouble "mount_pitch_deg" default.mountPitchDeg
  mountRollDeg := j.memberOr Json.getDouble "mount_roll_deg" default.mountRollDeg
  hfovDeg := j.memberOr Json.getDouble "hfov_deg" default.hfovDeg

/-- The entry as the file has it, if it is well typed with valid intrinsics. -/
def accepted (j : Json) : Option CameraRegistryEntry :=
  if wellTyped j && (decoded beyondInt j).validIntrinsics then some (decoded beyondInt j)
  else none

end Decoding

end CameraRegistryEntry

section Members

open CameraRegistryEntry

variable {beyondInt : Double → Int32} {j : Json}

/-- A reader gives a value where it accepts, and throws elsewhere. -/
def GetsWhere {α : Type} (get : Json → Except JsonException α) (accepts : Json → Bool) : Prop :=
  ∀ j, (accepts j = true ∧ ∃ value, get j = .ok value) ∨
    accepts j = false ∧ get j = .error .typeMismatch

theorem getsWhere_getInt : GetsWhere (Json.getInt beyondInt) Json.givesInt := by
  intro j
  cases j with
  | boolean value => exact .inl ⟨rfl, _, rfl⟩
  | numberInteger value => exact .inl ⟨rfl, _, rfl⟩
  | numberUnsigned value => exact .inl ⟨rfl, _, rfl⟩
  | numberFloat value => exact .inl ⟨rfl, _, rfl⟩
  | _ => exact .inr ⟨rfl, rfl⟩

theorem getsWhere_getDouble : GetsWhere Json.getDouble Json.isNumber := by
  intro j
  unfold Json.getDouble
  cases number : j.isNumber with
  | true => exact .inl ⟨rfl, _, rfl⟩
  | false => exact .inr ⟨rfl, rfl⟩

theorem readMember_eq {α : Type} {get : Json → Except JsonException α} {accepts : Json → Bool}
    (gets : GetsWhere get accepts) (key : String) (current : α) :
    readMember get j key current =
      if j.memberIs accepts key then .ok (j.memberOr get key current)
      else .error .typeMismatch := by
  unfold readMember Json.memberIs Json.memberOr
  cases j.member? key with
  | none => rfl
  | some found =>
      rcases gets found with ⟨accepted, value, got⟩ | ⟨refused, threw⟩
      · simp [accepted, got, Except.toOption]
      · simp [refused, threw]

theorem getDoubles_eq (elements : List Json) :
    getDoubles elements =
      if elements.all Json.isNumber then .ok (elements.map Json.toDouble)
      else .error .typeMismatch := by
  induction elements with
  | nil => rfl
  | cons first rest ih =>
      rw [getDoubles, ih, Json.getDouble]
      cases number : first.isNumber with
      | false => simp [number, bind, Except.bind]
      | true => cases numbers : rest.all Json.isNumber <;> simp [number, numbers, bind, Except.bind]

theorem readMatrix_eq :
    readMatrix j CameraRegistryEntry.default.cameraMatrix =
      if j.memberIs Json.isMatrix "camera_matrix" then
        if j.memberIs Json.holdsNumbers "camera_matrix" then
          .ok (.ok (decoded beyondInt j).cameraMatrix)
        else .error .typeMismatch
      else .ok (.error "camera_matrix must be a 9-element array (row-major 3x3)") := by
  unfold readMatrix Json.memberIs decoded
  cases j.member? "camera_matrix" with
  | none => rfl
  | some found =>
      cases found with
      | array m =>
          by_cases nine : m.length = 9
          · cases numbers : m.all Json.isNumber <;>
              simp [getDoubles_eq, Json.isMatrix, Json.holdsNumbers, Json.isArray,
                Json.elements, nine, numbers, bind, Except.bind]
          · simp [Json.isMatrix, Json.isArray, Json.elements, nine]
      | _ => rfl

theorem readDistortion_eq :
    readDistortion j CameraRegistryEntry.default.distortion =
      if j.memberIs Json.isArray "distortion" then
        if j.memberIs Json.holdsNumbers "distortion" then
          .ok (.ok (decoded beyondInt j).distortion)
        else .error .typeMismatch
      else .ok (.error "distortion must be an array") := by
  unfold readDistortion Json.memberIs decoded
  cases j.member? "distortion" with
  | none => rfl
  | some found =>
      cases found with
      | array d =>
          cases numbers : d.all Json.isNumber <;>
            simp [getDoubles_eq, Json.holdsNumbers, Json.isArray, Json.elements, numbers,
              bind, Except.bind]
      | _ => rfl

theorem bind_sizes {α : Type} (next : Int32 → Int32 → Except JsonException α) :
    (do
      let imageWidth ← readMember (Json.getInt beyondInt) j "image_width"
        CameraRegistryEntry.default.imageWidth
      let imageHeight ← readMember (Json.getInt beyondInt) j "image_height"
        CameraRegistryEntry.default.imageHeight
      next imageWidth imageHeight) =
      if sized j then next (decoded beyondInt j).imageWidth (decoded beyondInt j).imageHeight
      else .error .typeMismatch := by
  rw [readMember_eq getsWhere_getInt, readMember_eq getsWhere_getInt]
  unfold sized
  cases width : j.memberIs Json.givesInt "image_width"
  · simp [bind, Except.bind]
  cases height : j.memberIs Json.givesInt "image_height" <;>
    simp [decoded, bind, Except.bind]

theorem bind_mounts {α : Type}
    (next : Double → Double → Double → Double → Except JsonException α) :
    (do
      let mountYawDeg ← readMember Json.getDouble j "mount_yaw_deg"
        CameraRegistryEntry.default.mountYawDeg
      let mountPitchDeg ← readMember Json.getDouble j "mount_pitch_deg"
        CameraRegistryEntry.default.mountPitchDeg
      let mountRollDeg ← readMember Json.getDouble j "mount_roll_deg"
        CameraRegistryEntry.default.mountRollDeg
      let hfovDeg ← readMember Json.getDouble j "hfov_deg" CameraRegistryEntry.default.hfovDeg
      next mountYawDeg mountPitchDeg mountRollDeg hfovDeg) =
      if mounted j then
        next (decoded beyondInt j).mountYawDeg (decoded beyondInt j).mountPitchDeg
          (decoded beyondInt j).mountRollDeg (decoded beyondInt j).hfovDeg
      else .error .typeMismatch := by
  simp only [readMember_eq getsWhere_getDouble]
  unfold mounted
  cases yaw : j.memberIs Json.isNumber "mount_yaw_deg"
  · simp [bind, Except.bind]
  cases pitch : j.memberIs Json.isNumber "mount_pitch_deg"
  · simp [bind, Except.bind]
  cases roll : j.memberIs Json.isNumber "mount_roll_deg"
  · simp [bind, Except.bind]
  cases hfov : j.memberIs Json.isNumber "hfov_deg" <;> simp [decoded, bind, Except.bind]

/-- A decoding throws nothing exactly where every defect before the first member of a
wrong type is one of shape. -/
theorem fromJson_cases :
    (wellTyped j = true ∧ reported j = true ∧
        CameraRegistryEntry.default.fromJson beyondInt j = .ok (.ok (decoded beyondInt j))) ∨
      (wellTyped j = false ∧ reported j = true ∧
        ∃ err, CameraRegistryEntry.default.fromJson beyondInt j = .ok (.error err)) ∨
      wellTyped j = false ∧ reported j = false ∧
        CameraRegistryEntry.default.fromJson beyondInt j = .error .typeMismatch := by
  unfold CameraRegistryEntry.fromJson wellTyped reported
  simp only [bind_sizes, @bind_mounts beyondInt j, @readMatrix_eq beyondInt j,
    @readDistortion_eq beyondInt j]
  cases object : j.isObject
  · exact .inr (.inl ⟨rfl, rfl, _, rfl⟩)
  cases sizes : sized j
  · exact .inr (.inr ⟨rfl, rfl, rfl⟩)
  cases shape : j.memberIs Json.isMatrix "camera_matrix"
  · exact .inr (.inl ⟨rfl, rfl, _, rfl⟩)
  cases numbers : j.memberIs Json.holdsNumbers "camera_matrix"
  · exact .inr (.inr ⟨rfl, rfl, rfl⟩)
  cases list : j.memberIs Json.isArray "distortion"
  · exact .inr (.inl ⟨rfl, rfl, _, rfl⟩)
  cases coefficients : j.memberIs Json.holdsNumbers "distortion"
  · exact .inr (.inr ⟨rfl, rfl, rfl⟩)
  cases mounts : mounted j
  · exact .inr (.inr ⟨rfl, rfl, rfl⟩)
  · exact .inl ⟨rfl, rfl, rfl⟩

theorem usableEntry_eq_accepted : usableEntry beyondInt j = accepted beyondInt j := by
  unfold usableEntry accepted
  rcases @fromJson_cases beyondInt j with
    ⟨typed, -, read⟩ | ⟨mistyped, -, err, read⟩ | ⟨mistyped, -, threw⟩
  · simp [typed, read]
  · simp [mistyped, read]
  · simp [mistyped, threw]

end Members

section Loads

open CameraRegistryEntry

variable {beyondInt : Double → Int32} {table next : CameraTable}
  {entries : List (String × Json)} {key : String} {value : Json}

theorem first_error_ne {err text : String} (told : text ≠ "") :
    (if err.isEmpty then text else err) ≠ "" := by
  cases empty : err.isEmpty with
  | true => exact told
  | false => simpa using empty

/-- An entry that is reported leaves the error empty only if it is taken. -/
theorem loadEntry_reported (known : reported value = true) :
    ∃ next, loadEntry beyondInt table key value = .ok next ∧
      (next.err = "" ↔ table.err = "" ∧ (accepted beyondInt value).isSome) := by
  unfold loadEntry accepted
  rcases @fromJson_cases beyondInt value with
    ⟨typed, -, read⟩ | ⟨mistyped, -, err, read⟩ | ⟨-, unknown, -⟩
  · rw [read]
    cases valid : (decoded beyondInt value).validIntrinsics with
    | true =>
        refine ⟨{ table with cameras := table.cameras.insert key (decoded beyondInt value) },
          by simp [valid, bind, Except.bind], by simp [typed]⟩
    | false =>
        refine ⟨_, by simp only [valid, bind, Except.bind]; rfl, ?_⟩
        have told := @first_error_ne table.err ("camera '" ++ key ++ "': invalid intrinsics " ++
          "(image_width/image_height/fx/fy must be > 0)") (by simp)
        exact iff_of_false told (by simp)
  · rw [read]
    refine ⟨_, rfl, ?_⟩
    have told := @first_error_ne table.err ("camera '" ++ key ++ "': " ++ err) (by simp)
    exact iff_of_false told (by simp [mistyped])
  · exact absurd known (by simp [unknown])

theorem loadEntry_unreported (unknown : reported value = false) :
    loadEntry beyondInt table key value = .error .typeMismatch := by
  unfold loadEntry
  rcases @fromJson_cases beyondInt value with ⟨-, known, -⟩ | ⟨-, known, -⟩ | ⟨-, -, threw⟩
  · exact absurd known (by simp [unknown])
  · exact absurd known (by simp [unknown])
  · rw [threw]
    rfl

/-- The loop ends where all entries are reported, and has no error where all are taken. -/
theorem loadEntries_reported (known : ∀ entry ∈ entries, reported entry.2 = true) :
    ∃ next, loadEntries beyondInt table entries = .ok next ∧
      (next.err = "" ↔ table.err = "" ∧
        ∀ entry ∈ entries, (accepted beyondInt entry.2).isSome) := by
  induction entries generalizing table with
  | nil => exact ⟨table, rfl, by simp⟩
  | cons first rest ih =>
      obtain ⟨key, value⟩ := first
      obtain ⟨middle, loaded, untold⟩ := @loadEntry_reported beyondInt table key value
        (known _ List.mem_cons_self)
      obtain ⟨final, restLoaded, restUntold⟩ := @ih middle fun entry later =>
        known entry (List.mem_cons_of_mem _ later)
      refine ⟨final, by rw [loadEntries, loaded]; exact restLoaded, ?_⟩
      rw [restUntold, untold, List.forall_mem_cons, and_assoc]

theorem reported_of_loadEntries (loaded : loadEntries beyondInt table entries = .ok next) :
    ∀ entry ∈ entries, reported entry.2 = true := by
  induction entries generalizing table with
  | nil => simp
  | cons first rest ih =>
      obtain ⟨key, value⟩ := first
      cases known : reported value with
      | false =>
          rw [loadEntries, loadEntry_unreported known] at loaded
          cases loaded
      | true =>
          obtain ⟨middle, taken, -⟩ := @loadEntry_reported beyondInt table key value known
          rw [loadEntries, taken] at loaded
          exact List.forall_mem_cons.mpr ⟨known, ih loaded⟩

/-- A load that a bad entry does not sink: each entry is taken as the file has it, or
skipped by itself, and an empty error says that none was skipped. -/
def TakesEach (beyondInt : Double → Int32) (entries : List (String × Json))
    (result : Except JsonException (Except String CameraTable)) : Prop :=
  ∃ table, result = .ok (.ok table) ∧
    (∀ camId, table.cameras.find? camId =
      (entries.lookup camId).bind (accepted beyondInt)) ∧
    (table.err = "" ↔ ∀ entry ∈ entries, (accepted beyondInt entry.2).isSome)

/-- No bad entry sinks a file exactly where `fromJson` reports each of them. -/
theorem load_takesEach_iff {content : Json} {wellFormed : content.WellFormed}
    (found : content.member? "cameras" = some (.object entries)) (path : String) :
    TakesEach beyondInt entries
        (CCameraRegistry.load beyondInt path (.document content wellFormed)) ↔
      ∀ entry ∈ entries, reported entry.2 = true := by
  simp only [CCameraRegistry.load, found]
  constructor
  · rintro ⟨table, loaded, -⟩
    cases read : loadEntries beyondInt { cameras := .empty, err := "" } entries with
    | error exception =>
        rw [read] at loaded
        cases loaded
    | ok next => exact reported_of_loadEntries read
  · intro known
    obtain ⟨table, read, untold⟩ :=
      @loadEntries_reported beyondInt { cameras := .empty, err := "" } entries known
    refine ⟨table, by rw [read]; rfl, fun camId => ?_, by simpa using untold⟩
    rw [find?_loadEntries (wellFormed.member found).sorted read]
    simp [usableEntry_eq_accepted]

def oneEntry (entry : Json) : Json :=
  .object [("cameras", .object [("CAM0", entry)])]

theorem wellFormed_oneEntry {entry : Json} (wellFormed : entry.WellFormed) :
    (oneEntry entry).WellFormed :=
  (wellFormed.singleton _).singleton _

/-- The width of a camera in quotes. -/
def quotedWidth : Json :=
  .object [("image_width", .string "640")]

theorem wellFormed_quotedWidth : quotedWidth.WellFormed :=
  (Json.WellFormed.string "640").singleton _

/-- The entry with a quoted width is not skipped: the load throws. -/
theorem takesEach_fails :
    ¬ ∀ (beyondInt : Double → Int32) (path : String) (content : Json)
      (wellFormed : content.WellFormed) (entries : List (String × Json)),
      content.member? "cameras" = some (.object entries) →
        TakesEach beyondInt entries
          (CCameraRegistry.load beyondInt path (.document content wellFormed)) := by
  intro always
  obtain ⟨table, loaded, -⟩ := always (fun _ => 0) "cameras.json" (oneEntry quotedWidth)
    (wellFormed_oneEntry wellFormed_quotedWidth) _ rfl
  cases loaded

theorem load_takesEach_iff_notObject :
    TakesEach (fun _ => 0) [("CAM0", .null)]
      (CCameraRegistry.load (fun _ => 0) "cameras.json"
        (.document (oneEntry .null) (wellFormed_oneEntry .null))) :=
  (load_takesEach_iff rfl "cameras.json").mpr (by decide)

end Loads

end DroneEngage
