import DroneEngage.EntryRoundTrip
import DroneEngage.RegistryReplacement

/-!
# An updated registry is loaded again

A call of `cameraRegistryUpdateEntry` whose file operations succeed leaves a file
from which the same cameras are loaded as before, but for the one that was updated.
-/

namespace DroneEngage

open EventRuns Function

/-- How `load` reads a file: objects are `std::map`s, and a number too large for a
double is refused. -/
structure RegistryReader where
  extract : List Char → Option Json
  what : List Char → String
  wellFormed : ∀ {text document}, extract text = some document → document.WellFormed
  finite : ∀ {text document}, extract text = some document → document.allFinite = true

namespace RegistryReader

variable (reader : RegistryReader)

def read (files : Files) (path : String) : RegistryFile :=
  match files path with
  | none => .missing
  | some text =>
      match parsed : reader.extract text with
      | none => .notJson (reader.what text)
      | some content => .document content (reader.wellFormed parsed)

variable {reader} {files : Files} {path : String} {text : List Char} {content : Json}

theorem read_eq (there : files path = some text) (parsed : reader.extract text = some content) :
    reader.read files path = .document content (reader.wellFormed parsed) := by
  unfold read
  rw [there]
  dsimp only
  split
  · rename_i refused
    rw [parsed] at refused
    cases refused
  · rename_i found same
    obtain rfl := Option.some.inj (parsed.symm.trans same)
    rfl

theorem read_refused (there : files path = some text) (refused : reader.extract text = none) :
    reader.read files path = .notJson (reader.what text) := by
  unfold read
  rw [there]
  dsimp only
  split
  · rfl
  · rename_i found same
    rw [refused] at same
    cases same

end RegistryReader

/-- The steps whose failure ends the call succeed; the results of the others are not
looked at. -/
def UpdateStep.succeeds : UpdateStep → Bool
  | .readOld success => success
  | .openTemp success => success
  | .finishWrite success => success
  | .renameIntoPlace success _ => success
  | _ => true

namespace RegistryUpdate

section Progress

variable {library : JsonLibrary} {extract : List Char → Option Json} {path camId : String}
  {entry : CameraRegistryEntry} {old : Option (List Char)} {new : List Char}
  {state next : RegistryUpdate} {event : UpdateStep} {files : Files}

theorem bakPath_ne (path : String) (timestamp : Nat) : tmpPath path ≠ bakPath path timestamp := by
  intro same
  have last := congrArg (fun text => text.toList.reverse.head?) same
  simp [tmpPath, bakPath] at last

/-- How far a call has come whose steps have succeeded. -/
def Advances (path : String) (old : Option (List Char)) (new : List Char)
    (state : RegistryUpdate) : Prop :=
  match state.phase with
  | .called => state.files path = old
  | .merged | .opened => state.text = some new
  | .written | .synced | .backingUp | .replacing =>
      state.text = some new ∧ state.files (tmpPath path) = some new
  | .returned result err => result = true ∧ err = "" ∧ state.files path = some new

theorem advances_start (nonempty : camId ≠ "") :
    Advances path (files path) new (start camId files) := by
  unfold Advances start
  simp [nonempty]

theorem advances_step
    (stepped : step library extract path camId entry state event = some next)
    (succeeds : event.succeeds = true)
    (advances : Advances path old (newContent library extract camId entry old) state) :
    Advances path old (newContent library extract camId entry old) next := by
  obtain ⟨files, text, phase⟩ := state
  have elsewhere := (tmpPath_ne path).symm
  cases phase <;> cases event <;>
    simp only [step, reduceCtorEq, Option.some.injEq] at stepped
  case called.readOld success =>
    obtain rfl : success = true := succeeds
    have kept : files path = old := advances
    subst stepped
    exact congrArg (fun content => some (newContent library extract camId entry content)) kept
  case merged.openTemp success =>
    obtain rfl : success = true := succeeds
    obtain rfl := Option.some.inj stepped
    exact advances
  case opened.writePart count =>
    subst stepped
    exact advances
  case opened.finishWrite success =>
    obtain rfl : success = true := succeeds
    obtain rfl := Option.some.inj stepped
    exact ⟨advances, (update_self ..).trans advances⟩
  case written.syncTemp success =>
    subst stepped
    exact advances
  case synced.access success =>
    split at stepped <;> obtain rfl := Option.some.inj stepped <;> exact advances
  case backingUp.renameToBackup timestamp success =>
    split at stepped <;> obtain rfl := Option.some.inj stepped
    · refine ⟨advances.1, ?_⟩
      change Files.rename files path (bakPath path timestamp) (tmpPath path) = _
      rw [Files.rename, update_of_ne (tmpPath_ne path), update_of_ne (bakPath_ne path timestamp)]
      exact advances.2
    · exact advances
  case replacing.renameIntoPlace success reason =>
    obtain rfl : success = true := succeeds
    obtain rfl := Option.some.inj stepped
    refine ⟨rfl, rfl, ?_⟩
    change Files.rename files (tmpPath path) path path = _
    rw [Files.rename, update_of_ne elsewhere, update_self]
    exact advances.2

/-- A call that has come to its end has put the new content into place. -/
theorem returned_of_succeeds {events : List UpdateStep} {result : Bool} {err : String}
    (nonempty : camId ≠ "")
    (run : Run (step library extract path camId entry) (start camId files) events state)
    (succeed : ∀ event ∈ events, event.succeeds = true)
    (ended : state.phase = .returned result err) :
    state.phase = .returned true "" ∧
      state.files path = some (newContent library extract camId entry (files path)) := by
  have advances : Advances path (files path)
      (newContent library extract camId entry (files path)) state := by
    clear ended
    induction run with
    | nil => exact advances_start nonempty
    | snoc _ stepped ih =>
        have before := ih fun event member => succeed event (List.mem_append_left _ member)
        exact advances_step stepped
          (succeed _ (List.mem_append_right _ (List.mem_singleton_self _))) before
  unfold Advances at advances
  rw [ended] at advances ⊢
  obtain ⟨rfl, rfl, placed⟩ := advances
  exact ⟨rfl, placed⟩

/-- The steps of a call where everything succeeds. -/
def allSteps : List UpdateStep :=
  [.readOld true, .openTemp true, .finishWrite true, .syncTemp true, .access true,
    .renameToBackup 0 true, .renameIntoPlace true ""]

theorem exists_run (nonempty : camId ≠ "") (there : (files path).isSome) :
    ∃ final, Run (step library extract path camId entry) (start camId files) allSteps final ∧
      ∃ result err, final.phase = .returned result err := by
  have called : start camId files = ⟨files, none, .called⟩ := by simp [start, nonempty]
  have elsewhere := (tmpPath_ne path).symm
  rw [called]
  have merged : Run (step library extract path camId entry) ⟨files, none, .called⟩
      [.readOld true, .openTemp true, .finishWrite true, .syncTemp true] _ :=
    .of_foldlM rfl
  have access : ∀ {state : RegistryUpdate}, state.phase = .synced →
      (state.files path).isSome = true →
        step library extract path camId entry state (.access true) =
          some { state with phase := .backingUp } := by
    intro state synced found
    simp [step, synced, found]
  exact ⟨_, ((merged.snoc (access rfl (by simp [update_of_ne elsewhere, there]))).snoc rfl).snoc
    rfl, _, _, rfl⟩

end Progress

section Documents

/-- The document that is written. -/
def newDocument (extract : List Char → Option Json) (camId : String)
    (entry : CameraRegistryEntry) (old : Option (List Char)) : Json :=
  let members := oldDocument extract old
  let cameras := Capabilities.objectMembers ((members.lookup "cameras").getD .null)
  .object (Json.insertMember "cameras"
    (.object (Json.insertMember camId entry.toJson cameras)) members)

variable {library : JsonLibrary} {reader : RegistryReader} {beyondInt : Double → Int32}
  {path camId : String} {entry : CameraRegistryEntry} {files : Files} {text : List Char}
  {content : Json} {members cameras : List (String × Json)}

theorem newContent_eq (extract : List Char → Option Json) (old : Option (List Char)) :
    newContent library extract camId entry old =
      (newDocument extract camId entry old).dump library (some 2) ++ ['\n'] :=
  rfl

theorem newDocument_eq (parsed : reader.extract text = some (.object members))
    (listed : members.lookup "cameras" = some (.object cameras)) :
    newDocument reader.extract camId entry (some text) =
      .object (Json.insertMember "cameras"
        (.object (Json.insertMember camId entry.toJson cameras)) members) := by
  have kept : oldDocument reader.extract (some text) = members := by
    unfold oldDocument
    rw [Option.bind_some, parsed]
    dsimp only
    rw [listed]
  unfold newDocument
  dsimp only
  rw [kept, listed]
  rfl

/-- A file from which a table is loaded is an object with an object of cameras. -/
theorem document_of_load {table : CameraTable}
    (loaded : CCameraRegistry.load beyondInt path (reader.read files path) = .ok (.ok table)) :
    ∃ text members cameras, files path = some text ∧
      reader.extract text = some (.object members) ∧
      members.lookup "cameras" = some (.object cameras) ∧
      loadEntries beyondInt { cameras := .empty, err := "" } cameras = .ok table := by
  cases there : files path with
  | none =>
      have missing : reader.read files path = .missing := by
        unfold RegistryReader.read
        rw [there]
      rw [missing] at loaded
      cases loaded
  | some text =>
      cases parsed : reader.extract text with
      | none =>
          rw [RegistryReader.read_refused there parsed] at loaded
          cases loaded
      | some content =>
          rw [RegistryReader.read_eq there parsed, CCameraRegistry.load] at loaded
          split at loaded
          · rename_i cameras found
            cases content with
            | object members =>
                refine ⟨text, members, cameras, rfl, parsed, found, ?_⟩
                cases read : loadEntries beyondInt { cameras := .empty, err := "" } cameras with
                | error exception =>
                    rw [read] at loaded
                    cases loaded
                | ok same =>
                    rw [read] at loaded
                    cases loaded
                    rfl
            | _ => cases found
          · cases loaded

/-- The entries of the new file are all reported, as those of the old one are. -/
theorem reported_updated {table next : CameraTable} (finite : entry.allFinite = true)
    (finiteCameras : (Json.object cameras).allFinite = true)
    (sorted : Json.Sorted cameras)
    (loaded : loadEntries beyondInt table cameras = .ok next) :
    ∀ member ∈ Json.rereadMembers (Json.insertMember camId entry.toJson cameras),
      CameraRegistryEntry.reported member.2 = true := by
  intro member listed
  rw [Json.rereadMembers_eq_map] at listed
  obtain ⟨source, inserted, rfl⟩ := List.mem_map.mp listed
  rcases Json.mem_insertMember inserted with rfl | old
  · rw [reported_reread (entry.allFinite_toJson finite)]
    exact CameraRegistryEntry.reported_of_wellTyped entry.wellTyped_toJson
  · have found : cameras.lookup source.1 = some source.2 := (sorted.mem_iff source).mp old
    rw [reported_reread (Json.allFinite_of_member? finiteCameras found)]
    exact reported_of_loadEntries loaded source old

/-- What an entry of the new file decodes to. -/
theorem accepted_updated (finite : entry.allFinite = true) (valid : entry.validIntrinsics = true)
    (finiteCameras : (Json.object cameras).allFinite = true) (id : String) :
    ((Json.rereadMembers (Json.insertMember camId entry.toJson cameras)).lookup id).bind
        (usableEntry beyondInt) =
      if id = camId then some entry else (cameras.lookup id).bind (usableEntry beyondInt) := by
  rw [Json.lookup_rereadMembers, Json.lookup_insertMember]
  by_cases same : id = camId
  · rw [if_pos same, if_pos same, Option.map_some, Option.bind_some, usableEntry_eq_accepted,
      accepted_reread (entry.allFinite_toJson finite), entry.accepted_toJson valid]
  · rw [if_neg same, if_neg same]
    cases found : cameras.lookup id with
    | none => rfl
    | some value =>
        rw [Option.map_some, Option.bind_some, Option.bind_some, usableEntry_eq_accepted,
          usableEntry_eq_accepted,
          accepted_reread (Json.allFinite_of_member? finiteCameras found)]

/-- A member of a document is the same in another, numbers compared by their values. -/
def SameMember (old new : Json) (key : String) : Prop :=
  Option.Rel (fun found written => written.sameValue found = true) (old.member? key)
    (new.member? key)

theorem sameMember_of_reread {old new : Json} {key : String} (finite : old.allFinite = true)
    (same : new.member? key = (old.member? key).map Json.reread) : SameMember old new key := by
  unfold SameMember
  rw [same]
  cases found : old.member? key with
  | none => exact .none
  | some value =>
      refine .some ?_
      rw [Json.sameValue_reread, Json.allFinite_of_member? finite found]

/-- A registry file after an update: the table has the camera, and is otherwise as it was,
and so are the other cameras and the other members of the document. -/
structure Updated (beyondInt : Double → Int32) (reader : RegistryReader) (path camId : String)
    (entry : CameraRegistryEntry) (table : CameraTable) (before after : Files) : Prop where
  reloaded : ∃ next,
    CCameraRegistry.load beyondInt path (reader.read after path) = .ok (.ok next) ∧
      ∀ id, next.cameras.find? id = if id = camId then some entry else table.cameras.find? id
  kept : ∃ old new oldCameras newCameras,
    (before path).bind reader.extract = some old ∧ (after path).bind reader.extract = some new ∧
      (∀ key ≠ "cameras", SameMember old new key) ∧
      old.member? "cameras" = some oldCameras ∧ new.member? "cameras" = some newCameras ∧
      ∀ id ≠ camId, SameMember oldCameras newCameras id

theorem updated_of_placed {table : CameraTable} {after : Files} (finite : entry.allFinite = true)
    (valid : entry.validIntrinsics = true)
    (loaded : CCameraRegistry.load beyondInt path (reader.read files path) = .ok (.ok table))
    (rereads : reader.extract (newContent library reader.extract camId entry (files path)) =
      some (newDocument reader.extract camId entry (files path)).reread)
    (placed : after path = some (newContent library reader.extract camId entry (files path))) :
    Updated beyondInt reader path camId entry table files after := by
  obtain ⟨text, members, cameras, there, parsed, listed, oldLoaded⟩ := document_of_load loaded
  rw [there] at rereads placed
  rw [newDocument_eq parsed listed] at rereads
  have finiteOld := reader.finite parsed
  have finiteCameras : (Json.object cameras).allFinite = true :=
    Json.allFinite_of_member? finiteOld listed
  have newCameras : (Json.object (Json.insertMember "cameras"
      (.object (Json.insertMember camId entry.toJson cameras)) members)).reread.member?
        "cameras" =
      some (.object (Json.rereadMembers (Json.insertMember camId entry.toJson cameras))) := by
    rw [Json.member?_reread, Json.member?, Json.lookup_insertMember, if_pos rfl, Option.map_some,
      Json.reread]
  have sorted : Json.Sorted cameras := ((reader.wellFormed parsed).member listed).sorted
  constructor
  · have reported := @reported_updated beyondInt camId entry cameras _ _ finite finiteCameras
      sorted oldLoaded
    obtain ⟨next, newLoaded, -⟩ :=
      @loadEntries_reported beyondInt { cameras := .empty, err := "" } _ reported
    refine ⟨next, ?_, fun id => ?_⟩
    · rw [RegistryReader.read_eq placed rereads, CCameraRegistry.load]
      simp only [newCameras]
      rw [newLoaded]
      rfl
    · have sortedNew := ((reader.wellFormed rereads).member newCameras).sorted
      rw [find?_loadEntries sortedNew newLoaded, accepted_updated finite valid finiteCameras,
        find?_loadEntries sorted oldLoaded]
      by_cases same : id = camId <;> simp [same]
  · refine ⟨.object members, _, .object cameras, _, by rw [there]; exact parsed,
      by rw [placed]; exact rereads, ?_, listed, newCameras, ?_⟩
    · intro key other
      apply sameMember_of_reread finiteOld
      rw [Json.member?_reread, Json.member?, Json.lookup_insertMember, if_neg other]
      rfl
    · intro id other
      apply sameMember_of_reread finiteCameras
      rw [Json.member?, Json.lookup_rereadMembers, Json.lookup_insertMember, if_neg other]
      rfl

/-- A call whose file operations succeed comes to its end, returns true, and leaves the
registry as it was but for the camera. -/
theorem updateEntry_reloads {table : CameraTable} (nonempty : camId ≠ "")
    (finite : entry.allFinite = true) (valid : entry.validIntrinsics = true)
    (loaded : CCameraRegistry.load beyondInt path (reader.read files path) = .ok (.ok table))
    (rereads : reader.extract ((newDocument reader.extract camId entry (files path)).dump library
        (some 2) ++ ['\n']) =
      some (newDocument reader.extract camId entry (files path)).reread) :
    (∃ events final,
        Run (step library reader.extract path camId entry) (start camId files) events final ∧
          (∀ event ∈ events, event.succeeds = true) ∧
          ∃ result err, final.phase = .returned result err) ∧
      ∀ events final result err,
        Run (step library reader.extract path camId entry) (start camId files) events final →
          (∀ event ∈ events, event.succeeds = true) →
            final.phase = .returned result err →
              (result = true ∧ err = "") ∧
                Updated beyondInt reader path camId entry table files final.files := by
  constructor
  · obtain ⟨text, -, -, there, -⟩ := document_of_load loaded
    obtain ⟨final, run, ended⟩ := @exists_run library reader.extract path camId entry files
      nonempty (by rw [there]; rfl)
    exact ⟨allSteps, final, run, by decide, ended⟩
  · intro events final result err run succeed ended
    obtain ⟨returned, placed⟩ := returned_of_succeeds nonempty run succeed ended
    rw [returned] at ended
    cases ended
    rw [← newContent_eq] at rereads
    exact ⟨⟨rfl, rfl⟩, updated_of_placed finite valid loaded rereads placed⟩

end Documents

/-- The digits of zero and one. -/
def binaryLibrary : JsonLibrary :=
  .writing fun value => if value.eq (.ofInt 0) then "0.0".toList else "1.0".toList

def squareEntry : CameraRegistryEntry where
  imageWidth := 2
  imageHeight := 2
  cameraMatrix := .ofFn fun index => .ofInt (if index.val ∈ [0, 2, 4, 5, 8] then 1 else 0)
  distortion := [.ofInt 1]
  mountYawDeg := .ofInt 0
  mountPitchDeg := .ofInt 1
  mountRollDeg := .ofInt 0
  hfovDeg := .ofInt 0

def wideEntry : CameraRegistryEntry :=
  { squareEntry with imageWidth := 4 }

def wideCamera : Json :=
  .object [("cameras", .object [("DE-CAM0", wideEntry.toJson)]), ("site", .numberUnsigned 7)]

def bothCameras : Json :=
  .object [ ("cameras", .object [("DE-CAM0", wideEntry.toJson), ("DE-CAM1", squareEntry.toJson)]),
    ("site", .numberUnsigned 7) ]

def wideTable : CameraTable where
  cameras := .insert .empty "DE-CAM0" wideEntry
  err := ""

theorem wellFormed_wideCamera : wideCamera.WellFormed := by
  refine .object _ (by decide) ?_
  simp only [List.forall_mem_cons]
  exact ⟨wideEntry.wellFormed_toJson.singleton _, .numberUnsigned _, by simp⟩

theorem wellFormed_bothCameras : bothCameras.WellFormed := by
  have cameras : (Json.object
      [("DE-CAM0", wideEntry.toJson), ("DE-CAM1", squareEntry.toJson)]).WellFormed := by
    refine .object _ (by decide) ?_
    simp only [List.forall_mem_cons]
    exact ⟨wideEntry.wellFormed_toJson, squareEntry.wellFormed_toJson, by simp⟩
  refine .object _ (by decide) ?_
  simp only [List.forall_mem_cons]
  exact ⟨cameras, .numberUnsigned _, by simp⟩

/-- Two texts are read: the old one and the new one. -/
def squareReader : RegistryReader where
  extract := fun text =>
    if text = bothCameras.dump binaryLibrary (some 2) ++ ['\n'] then some bothCameras.reread
    else if text = wideCamera.dump binaryLibrary none then some wideCamera
    else none
  what := fun _ => "parse error"
  wellFormed := by
    intro text document parsed
    split at parsed
    · exact Option.some.inj parsed ▸ wellFormed_bothCameras.reread
    · split at parsed
      · exact Option.some.inj parsed ▸ wellFormed_wideCamera
      · cases parsed
  finite := by
    intro text document parsed
    split at parsed
    · exact Option.some.inj parsed ▸ by decide +kernel
    · split at parsed
      · exact Option.some.inj parsed ▸ rfl
      · cases parsed

def squareFiles : Files :=
  update (fun _ => none) "cameras.json" (some (wideCamera.dump binaryLibrary none))

theorem squareFiles_path :
    squareFiles "cameras.json" = some (wideCamera.dump binaryLibrary none) :=
  update_self ..

theorem extract_squareReader (text : List Char) :
    squareReader.extract text =
      if text = bothCameras.dump binaryLibrary (some 2) ++ ['\n'] then
        some bothCameras.reread
      else if text = wideCamera.dump binaryLibrary none then some wideCamera
      else none :=
  rfl

theorem extract_wideCamera :
    squareReader.extract (wideCamera.dump binaryLibrary none) = some wideCamera := by
  have apart : wideCamera.dump binaryLibrary none ≠
      bothCameras.dump binaryLibrary (some 2) ++ ['\n'] := by
    decide +kernel
  rw [extract_squareReader, if_neg apart, if_pos rfl]

theorem newDocument_square :
    newDocument squareReader.extract "DE-CAM1" squareEntry (squareFiles "cameras.json") =
      bothCameras := by
  rw [squareFiles_path]
  exact newDocument_eq extract_wideCamera rfl

/-- A registry gets a second camera. -/
theorem updateEntry_reloads_square :
    ∃ events final,
      Run (step binaryLibrary squareReader.extract "cameras.json" "DE-CAM1" squareEntry)
          (start "DE-CAM1" squareFiles) events final ∧
        final.phase = .returned true "" ∧
        Updated (fun _ => 0) squareReader "cameras.json" "DE-CAM1" squareEntry wideTable
          squareFiles final.files := by
  have loaded : CCameraRegistry.load (fun _ => 0) "cameras.json"
      (squareReader.read squareFiles "cameras.json") =
        .ok (.ok wideTable) := by
    rw [RegistryReader.read_eq squareFiles_path extract_wideCamera]
    rfl
  have rereads : squareReader.extract ((newDocument squareReader.extract "DE-CAM1" squareEntry
      (squareFiles "cameras.json")).dump binaryLibrary (some 2) ++ ['\n']) =
        some (newDocument squareReader.extract "DE-CAM1" squareEntry
          (squareFiles "cameras.json")).reread := by
    rw [newDocument_square, extract_squareReader, if_pos rfl]
  obtain ⟨⟨events, final, run, succeed, result, err, ended⟩, each⟩ :=
    updateEntry_reloads (by decide) (by decide) (by decide) loaded rereads
  obtain ⟨⟨rfl, rfl⟩, updated⟩ := each events final result err run succeed ended
  exact ⟨events, final, run, ended, updated⟩

end RegistryUpdate

end DroneEngage
