import DroneEngage.CpuMonitor
import DroneEngage.DoubleArithmetic
import DroneEngage.JsonObjects
import DroneEngage.OrderedMaps
import Mathlib.Data.String.Basic

/-!
# The camera registry

One file per vehicle has an entry for each camera.  `load` keeps the entries
that can be read and have usable intrinsics, and skips the others with the first
error.
-/

namespace DroneEngage

/-- `get<double>()` -/
def Json.getDouble (document : Json) : Except JsonException Double :=
  if document.isNumber then .ok document.toDouble else .error .typeMismatch

structure CameraRegistryEntry where
  imageWidth : Int32
  imageHeight : Int32
  cameraMatrix : Vector Double 9
  distortion : List Double
  mountYawDeg : Double
  mountPitchDeg : Double
  mountRollDeg : Double
  hfovDeg : Double

namespace CameraRegistryEntry

def default : CameraRegistryEntry where
  imageWidth := 0
  imageHeight := 0
  cameraMatrix := .replicate 9 (.ofInt 0)
  distortion := []
  mountYawDeg := .ofInt 0
  mountPitchDeg := .ofInt (-90)
  mountRollDeg := .ofInt 0
  hfovDeg := .ofInt 0

variable (entry : CameraRegistryEntry)

def fx : Double := entry.cameraMatrix[0]

def fy : Double := entry.cameraMatrix[4]

def validIntrinsics : Bool :=
  decide (0 < entry.imageWidth) && decide (0 < entry.imageHeight) &&
    (Double.ofInt 0).lt entry.fx && (Double.ofInt 0).lt entry.fy

def toJson : Json :=
  .ofMembers
    [ ("image_width", .numberInteger entry.imageWidth.toInt64),
      ("image_height", .numberInteger entry.imageHeight.toInt64),
      ("camera_matrix", .array (entry.cameraMatrix.toList.map .numberFloat)),
      ("distortion", .array (entry.distortion.map .numberFloat)),
      ("mount_yaw_deg", .numberFloat entry.mountYawDeg),
      ("mount_pitch_deg", .numberFloat entry.mountPitchDeg),
      ("mount_roll_deg", .numberFloat entry.mountRollDeg),
      ("hfov_deg", .numberFloat entry.hfovDeg) ]

end CameraRegistryEntry

/-- The member under a key, or the current value where there is none. -/
def readMember {α : Type} (get : Json → Except JsonException α) (j : Json) (key : String)
    (current : α) : Except JsonException α :=
  match j.member? key with
  | some found => get found
  | none => .ok current

def getDoubles : List Json → Except JsonException (List Double)
  | [] => .ok []
  | first :: rest => do
      let value ← first.getDouble
      let values ← getDoubles rest
      .ok (value :: values)

def readMatrix (j : Json) (current : Vector Double 9) :
    Except JsonException (Except String (Vector Double 9)) :=
  match j.member? "camera_matrix" with
  | none => .ok (.ok current)
  | some (.array m) => do
      if m.length = 9 then
        let values ← getDoubles m
        .ok (.ok (.ofFn fun index => values.getD index (.ofInt 0)))
      else .ok (.error "camera_matrix must be a 9-element array (row-major 3x3)")
  | some _ => .ok (.error "camera_matrix must be a 9-element array (row-major 3x3)")

def readDistortion (j : Json) (current : List Double) :
    Except JsonException (Except String (List Double)) :=
  match j.member? "distortion" with
  | none => .ok (.ok current)
  | some (.array d) => do
      let values ← getDoubles d
      .ok (.ok values)
  | some _ => .ok (.error "distortion must be an array")

section Load

variable (beyondInt : Double → Int32)

/-- `CameraRegistryEntry::fromJson`; missing keys keep the current values. -/
def CameraRegistryEntry.fromJson (entry : CameraRegistryEntry) (j : Json) :
    Except JsonException (Except String CameraRegistryEntry) :=
  if !j.isObject then .ok (.error "entry is not an object")
  else do
    let imageWidth ← readMember (Json.getInt beyondInt) j "image_width" entry.imageWidth
    let imageHeight ← readMember (Json.getInt beyondInt) j "image_height" entry.imageHeight
    match ← readMatrix j entry.cameraMatrix with
    | .error err => .ok (.error err)
    | .ok cameraMatrix =>
        match ← readDistortion j entry.distortion with
        | .error err => .ok (.error err)
        | .ok distortion =>
            let mountYawDeg ← readMember Json.getDouble j "mount_yaw_deg" entry.mountYawDeg
            let mountPitchDeg ←
              readMember Json.getDouble j "mount_pitch_deg" entry.mountPitchDeg
            let mountRollDeg ← readMember Json.getDouble j "mount_roll_deg" entry.mountRollDeg
            let hfovDeg ← readMember Json.getDouble j "hfov_deg" entry.hfovDeg
            .ok (.ok
              { imageWidth := imageWidth
                imageHeight := imageHeight
                cameraMatrix := cameraMatrix
                distortion := distortion
                mountYawDeg := mountYawDeg
                mountPitchDeg := mountPitchDeg
                mountRollDeg := mountRollDeg
                hfovDeg := hfovDeg })

inductive RegistryFile
  | missing
  | notJson (what : String)
  | document (content : Json) (wellFormed : content.WellFormed)

/-- `m_cameras` and `err` of a load. -/
structure CameraTable where
  cameras : OrderedMap String CameraRegistryEntry
  err : String

/-- One round of the loop in `load`: an entry is taken, or skipped with the first
error. -/
def loadEntry (table : CameraTable) (key : String) (value : Json) :
    Except JsonException CameraTable := do
  match ← CameraRegistryEntry.default.fromJson beyondInt value with
  | .error entryErr =>
      .ok { table with
        err := if table.err.isEmpty then "camera '" ++ key ++ "': " ++ entryErr
          else table.err }
  | .ok entry =>
      if entry.validIntrinsics then
        .ok { table with cameras := table.cameras.insert key entry }
      else
        .ok { table with
          err := if table.err.isEmpty then
              "camera '" ++ key ++ "': invalid intrinsics " ++
                "(image_width/image_height/fx/fy must be > 0)"
            else table.err }

def loadEntries (table : CameraTable) :
    List (String × Json) → Except JsonException CameraTable
  | [] => .ok table
  | (key, value) :: rest => do
      let table ← loadEntry beyondInt table key value
      loadEntries table rest

/-- `CCameraRegistry::load`: the table, or `err` -/
def CCameraRegistry.load (path : String) (file : RegistryFile) :
    Except JsonException (Except String CameraTable) :=
  match file with
  | .missing => .ok (.error ("cannot open camera registry '" ++ path ++ "'"))
  | .notJson what =>
      .ok (.error ("camera registry '" ++ path ++ "' is not valid JSON: " ++ what))
  | .document content _ =>
      match content.member? "cameras" with
      | some (.object entries) => do
          let table ← loadEntries beyondInt { cameras := .empty, err := "" } entries
          .ok (.ok table)
      | _ => .ok (.error ("camera registry '" ++ path ++ "' has no 'cameras' object"))

/-- What is taken of an entry: nothing if it can not be read or not be used. -/
def usableEntry (value : Json) : Option CameraRegistryEntry :=
  match CameraRegistryEntry.default.fromJson beyondInt value with
  | .ok (.ok entry) => if entry.validIntrinsics then some entry else none
  | _ => none

/-- The entry of a file for a camera, if it can be read and is usable. -/
def registryEntry (file : RegistryFile) (camId : String) : Option CameraRegistryEntry :=
  match file with
  | .document content _ =>
      match content.member? "cameras" with
      | some (.object entries) => (entries.lookup camId).bind (usableEntry beyondInt)
      | _ => none
  | _ => none

end Load

section Table

variable {beyondInt : Double → Int32} {table next : CameraTable}

theorem usableEntry_validIntrinsics {value : Json} {entry : CameraRegistryEntry}
    (usable : usableEntry beyondInt value = some entry) : entry.validIntrinsics = true := by
  unfold usableEntry at usable
  split at usable
  · split at usable
    · cases usable
      assumption
    · cases usable
  · cases usable

theorem registryEntry_validIntrinsics {file : RegistryFile} {camId : String}
    {entry : CameraRegistryEntry} (found : registryEntry beyondInt file camId = some entry) :
    entry.validIntrinsics = true := by
  unfold registryEntry at found
  split at found
  · split at found
    · obtain ⟨value, -, usable⟩ := Option.bind_eq_some_iff.mp found
      exact usableEntry_validIntrinsics usable
    · cases found
  · cases found

theorem find?_loadEntry {key : String} {value : Json}
    (loaded : loadEntry beyondInt table key value = .ok next) (camId : String) :
    next.cameras.find? camId =
      (if camId = key then usableEntry beyondInt value else none).or
        (table.cameras.find? camId) := by
  unfold loadEntry at loaded
  unfold usableEntry
  cases read : CameraRegistryEntry.default.fromJson beyondInt value with
  | error exception =>
      rw [read] at loaded
      cases loaded
  | ok result =>
      rw [read] at loaded
      cases result with
      | error entryErr =>
          cases loaded
          simp
      | ok entry =>
          simp only [bind, Except.bind] at loaded
          split at loaded
          · rename_i valid
            cases loaded
            by_cases same : camId = key <;> simp [same, valid]
          · rename_i invalid
            cases loaded
            simp [invalid]

/-- Each entry of a file comes into the table under its own key. -/
theorem find?_loadEntries {entries : List (String × Json)}
    (sorted : entries.Pairwise fun left right => Json.keyBefore left.1 right.1)
    (loaded : loadEntries beyondInt table entries = .ok next) (camId : String) :
    next.cameras.find? camId =
      ((entries.lookup camId).bind (usableEntry beyondInt)).or (table.cameras.find? camId) := by
  induction entries generalizing table with
  | nil =>
      cases loaded
      simp
  | cons entry rest ih =>
      have fresh := Json.lookup_tail sorted
      obtain ⟨key, value⟩ := entry
      rw [loadEntries] at loaded
      cases first : loadEntry beyondInt table key value with
      | error exception =>
          rw [first] at loaded
          cases loaded
      | ok middle =>
          rw [first] at loaded
          rw [ih sorted.of_cons loaded, find?_loadEntry first, Json.lookup_cons_eq_ite]
          by_cases same : camId = key
          · subst same
            simp [fresh]
          · simp [same]

/-- A load that ends normally: either the file has no entries, or the table holds
the usable ones. -/
theorem load_cases {path : String} {file : RegistryFile} {result : Except String CameraTable}
    (loaded : CCameraRegistry.load beyondInt path file = .ok result) :
    (∃ err, result = .error err ∧ ∀ camId, registryEntry beyondInt file camId = none) ∨
      ∃ table, result = .ok table ∧
        ∀ camId, table.cameras.find? camId = registryEntry beyondInt file camId := by
  unfold CCameraRegistry.load at loaded
  unfold registryEntry
  split at loaded
  · cases loaded
    exact .inl ⟨_, rfl, fun _ => rfl⟩
  · cases loaded
    exact .inl ⟨_, rfl, fun _ => rfl⟩
  · rename_i content wellFormed
    dsimp only
    split at loaded
    · rename_i entries found
      cases read : loadEntries beyondInt { cameras := .empty, err := "" } entries with
      | error exception =>
          rw [read] at loaded
          cases loaded
      | ok table =>
          rw [read] at loaded
          cases loaded
          refine .inr ⟨table, rfl, fun camId => ?_⟩
          rw [find?_loadEntries (wellFormed.member found).sorted read]
          simp
    · cases loaded
      exact .inl ⟨_, rfl, fun _ => rfl⟩

theorem find?_load {path : String} {file : RegistryFile}
    (loaded : CCameraRegistry.load beyondInt path file = .ok (.ok table)) (camId : String) :
    table.cameras.find? camId = registryEntry beyondInt file camId := by
  obtain ⟨err, other, -⟩ | ⟨same, equal, found⟩ := load_cases loaded
  · cases other
  · cases equal
    exact found camId

theorem registryEntry_of_load_error {path err : String} {file : RegistryFile}
    (failed : CCameraRegistry.load beyondInt path file = .ok (.error err)) (camId : String) :
    registryEntry beyondInt file camId = none := by
  obtain ⟨same, -, none⟩ | ⟨table, other, -⟩ := load_cases failed
  · exact none camId
  · cases other

end Table

end DroneEngage
