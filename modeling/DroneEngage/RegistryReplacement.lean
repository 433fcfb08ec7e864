import DroneEngage.CameraRegistry
import DroneEngage.CapabilitySchema
import DroneEngage.EventRuns
import Mathlib.Logic.Function.Basic

/-!
# Replacing the registry file

`cameraRegistryUpdateEntry` writes the new content to a temporary file, renames
the old file to a backup and renames the temporary file into place.  Any of these
steps may fail, and the process may end between any two of them: what is left is
the state that the steps so far lead to.  A crash is such an end of the process, with
which nothing that was written is lost; it is not a loss of power.
-/

namespace DroneEngage

open EventRuns Function

/-- The content of each path, if there is a file. -/
abbrev Files :=
  String → Option (List Char)

def Files.rename (files : Files) (source target : String) : Files :=
  update (update files target (files source)) source none

/-- Where the function is between two file-system steps. -/
inductive UpdatePhase
  | called
  | merged
  | opened
  | written
  | synced
  | backingUp
  | replacing
  | returned (result : Bool) (err : String)
  deriving DecidableEq, Repr

/-- The file system, what is to be written once that is known, and the place in
the function. -/
structure RegistryUpdate where
  files : Files
  text : Option (List Char)
  phase : UpdatePhase

/-- The file-system steps, with whether they succeed. -/
inductive UpdateStep
  | readOld (success : Bool)
  | openTemp (success : Bool)
  | writePart (count : Nat)
  | finishWrite (success : Bool)
  | syncTemp (success : Bool)
  | access (success : Bool)
  | renameToBackup (timestamp : Nat) (success : Bool)
  | renameIntoPlace (success : Bool) (reason : String)

namespace RegistryUpdate

def tmpPath (path : String) : String :=
  path ++ ".new"

def bakPath (path : String) (timestamp : Nat) : String :=
  path ++ "." ++ toString timestamp ++ ".bak"

variable (library : JsonLibrary) (extract : List Char → Option Json) (path camId : String)
  (entry : CameraRegistryEntry)

/-- `j` before the entry is put into it: the old document if it can be read and
has cameras. -/
def oldDocument (old : Option (List Char)) : List (String × Json) :=
  match old.bind extract with
  | some (.object members) =>
      match members.lookup "cameras" with
      | some (.object _) => members
      | _ => [("cameras", .object [])]
  | _ => [("cameras", .object [])]

/-- `j.dump(2)` and a line break, with the entry in `j["cameras"]`. -/
def newContent (old : Option (List Char)) : List Char :=
  let members := oldDocument extract old
  let cameras := Capabilities.objectMembers ((members.lookup "cameras").getD .null)
  (Json.object (Json.insertMember "cameras"
    (.object (Json.insertMember camId entry.toJson cameras)) members)).dump library (some 2) ++
    ['\n']

def start (files : Files) : RegistryUpdate where
  files := files
  text := none
  phase := if camId.isEmpty then .returned false "cam_id empty" else .called

/-- One file-system step of `cameraRegistryUpdateEntry`. -/
def step (state : RegistryUpdate) (event : UpdateStep) : Option RegistryUpdate :=
  match state.phase, event with
  | .called, .readOld success =>
      some { state with
        text := some (newContent library extract camId entry
          (if success then state.files path else none))
        phase := .merged }
  | .merged, .openTemp success =>
      if success then
        some { state with
          files := update state.files (tmpPath path) (some [])
          phase := .opened }
      else some { state with phase := .returned false ("cannot write " ++ tmpPath path) }
  | .opened, .writePart count =>
      some { state with
        files := update state.files (tmpPath path)
          (state.text.map fun text => text.take count) }
  | .opened, .finishWrite success =>
      if success then
        some { state with
          files := update state.files (tmpPath path) state.text
          phase := .written }
      else some { state with phase := .returned false ("cannot write " ++ tmpPath path) }
  | .written, .syncTemp _ => some { state with phase := .synced }
  | .synced, .access success =>
      if success && (state.files path).isSome then some { state with phase := .backingUp }
      else some { state with phase := .replacing }
  | .backingUp, .renameToBackup timestamp success =>
      -- best-effort: the result of `rename` is not looked at
      if success then
        some { state with
          files := state.files.rename path (bakPath path timestamp)
          phase := .replacing }
      else some { state with phase := .replacing }
  | .replacing, .renameIntoPlace success reason =>
      if success then
        some { state with
          files := state.files.rename (tmpPath path) path
          phase := .returned true "" }
      else
        some { state with
          phase := .returned false
            ("rename " ++ tmpPath path ++ " -> " ++ path ++ " failed: " ++ reason) }
  | _, _ => none

/-- The registry path holds the complete old content or the complete new one. -/
def Whole (old : List Char) (state : RegistryUpdate) : Prop :=
  state.files path = some old ∨
    ∃ text, state.text = some text ∧ state.files path = some text

theorem tmpPath_ne (path : String) : tmpPath path ≠ path := by
  intro same
  have lengths := congrArg String.length same
  simp [tmpPath] at lengths

variable {library extract path camId entry} {old : List Char}
  {state next : RegistryUpdate} {files : Files} {event : UpdateStep}

/-- What holds as long as no backup rename has taken place: the old file stays
until the call returns, and the temporary file is complete once it is closed. -/
structure Intact (path : String) (old : List Char) (state : RegistryUpdate) : Prop where
  whole : Whole path old state
  untouched : (∀ result err, state.phase ≠ .returned result err) →
    state.files path = some old
  merged : state.phase ∈ [.merged, .opened, .written, .synced, .backingUp, .replacing] →
    state.text.isSome
  temporary : state.phase ∈ [.written, .synced, .backingUp, .replacing] →
    state.files (tmpPath path) = state.text

theorem intact_start (there : files path = some old) : Intact path old (start camId files) where
  whole := .inl there
  untouched := fun _ => there
  merged := by
    intro phase
    simp only [start] at phase
    split at phase <;> simp at phase
  temporary := by
    intro phase
    simp only [start] at phase
    split at phase <;> simp at phase

theorem intact_step (stepped : step library extract path camId entry state event = some next)
    (notBackup : ∀ timestamp, event ≠ .renameToBackup timestamp true)
    (intact : Intact path old state) : Intact path old next := by
  obtain ⟨whole, untouched, merged, temporary⟩ := intact
  obtain ⟨files, text, phase⟩ := state
  have elsewhere := (tmpPath_ne path).symm
  cases phase <;> cases event <;>
    simp only [step, reduceCtorEq, Option.some.injEq] at stepped
  case called.readOld success =>
    have kept : files path = some old := untouched (by simp)
    subst stepped
    exact ⟨.inl kept, fun _ => kept, by simp, by simp⟩
  case merged.openTemp success =>
    have kept : files path = some old := untouched (by simp)
    have known : text.isSome := merged (by simp)
    split at stepped <;> obtain rfl := Option.some.inj stepped
    · have still : update files (tmpPath path) (some []) path = some old := by
        rw [update_of_ne elsewhere, kept]
      exact ⟨.inl still, fun _ => still, fun _ => known, by simp⟩
    · exact ⟨.inl kept, fun _ => kept, by simp, by simp⟩
  case opened.writePart count =>
    have kept : files path = some old := untouched (by simp)
    have known : text.isSome := merged (by simp)
    subst stepped
    have still : update files (tmpPath path) (text.map fun text => text.take count) path =
        some old := by
      rw [update_of_ne elsewhere, kept]
    exact ⟨.inl still, fun _ => still, fun _ => known, by simp⟩
  case opened.finishWrite success =>
    have kept : files path = some old := untouched (by simp)
    have known : text.isSome := merged (by simp)
    split at stepped <;> obtain rfl := Option.some.inj stepped
    · have still : update files (tmpPath path) text path = some old := by
        rw [update_of_ne elsewhere, kept]
      exact ⟨.inl still, fun _ => still, fun _ => known, fun _ => update_self ..⟩
    · exact ⟨.inl kept, fun _ => kept, by simp, by simp⟩
  case written.syncTemp success =>
    subst stepped
    exact ⟨whole, fun _ => untouched (by simp), fun _ => merged (by simp),
      fun _ => temporary (by simp)⟩
  case synced.access success =>
    split at stepped <;> obtain rfl := Option.some.inj stepped <;>
    exact ⟨whole, fun _ => untouched (by simp), fun _ => merged (by simp),
      fun _ => temporary (by simp)⟩
  case backingUp.renameToBackup timestamp success =>
    obtain rfl : success = false := by
      cases success
      · rfl
      · exact absurd rfl (notBackup timestamp)
    rw [if_neg Bool.false_ne_true] at stepped
    obtain rfl := Option.some.inj stepped
    exact ⟨whole, fun _ => untouched (by simp), fun _ => merged (by simp),
      fun _ => temporary (by simp)⟩
  case replacing.renameIntoPlace success reason =>
    split at stepped <;> obtain rfl := Option.some.inj stepped
    · obtain ⟨content, held⟩ := Option.isSome_iff_exists.mp (merged (by simp))
      have complete : files (tmpPath path) = some content := (temporary (by simp)).trans held
      have inPlace : Files.rename files (tmpPath path) path path = some content := by
        rw [Files.rename, update_of_ne elsewhere, update_self, complete]
      exact ⟨.inr ⟨content, held, inPlace⟩, fun running => absurd rfl (running true ""),
        by simp, by simp⟩
    · exact ⟨whole, fun _ => untouched (by simp), by simp, by simp⟩

theorem missing_of_backup {timestamp : Nat}
    (stepped : step library extract path camId entry state (.renameToBackup timestamp true) =
      some next) : next.files path = none := by
  obtain ⟨files, text, phase⟩ := state
  cases phase <;> simp only [step, reduceCtorEq] at stepped
  obtain rfl := Option.some.inj stepped
  exact update_self ..

theorem not_whole_of_missing (missing : state.files path = none) : ¬ Whole path old state := by
  rintro (same | ⟨text, -, same⟩) <;> rw [missing] at same <;> cases same

/-- The registry path is whole at every point of an execution exactly if the old
file is not renamed to a backup in it. -/
theorem whole_throughout_iff {events : List UpdateStep} {final : RegistryUpdate}
    (there : files path = some old)
    (run : Run (step library extract path camId entry) (start camId files) events final) :
    (∀ before after middle, events = before ++ after →
      Run (step library extract path camId entry) (start camId files) before middle →
        Whole path old middle) ↔
      ∀ timestamp, .renameToBackup timestamp true ∉ events := by
  constructor
  · intro whole timestamp mem
    obtain ⟨before, after, rfl⟩ := List.append_of_mem mem
    rw [List.append_cons] at run
    obtain ⟨middle, runMiddle⟩ := run.exists_before
    obtain ⟨_, _, stepped⟩ := runMiddle.last
    apply not_whole_of_missing (missing_of_backup stepped)
    exact whole (before ++ [.renameToBackup timestamp true]) after middle (by simp) runMiddle
  · intro noBackup before after middle split runBefore
    have kept : RunWhere (step library extract path camId entry)
        (fun _ event => ∀ timestamp, event ≠ .renameToBackup timestamp true)
        (start camId files) before middle := by
      apply runBefore.runWhere
      intro front event back _ _ within _ _ timestamp same
      apply noBackup timestamp
      simp [split, within, same]
    have intact : Intact path old middle := by
      apply kept.invariant (Intact path old) (intact_start there)
      intro _ _ _ _ _ stepped notBackup
      exact intact_step stepped notBackup
    exact intact.whole

/-- The library on documents that are already parsed and hold no doubles but zeros. -/
def zeroLibrary : JsonLibrary :=
  .writing fun _ => ['0', '.', '0']

def levelEntry : CameraRegistryEntry :=
  { CameraRegistryEntry.default with mountPitchDeg := .ofInt 0 }

/-- A registry file with an empty object in it. -/
def emptyRegistry : Files :=
  update (fun _ => none) "cameras.json" (some "\x7b\x7d".toList)

def emptyRegistryStep : RegistryUpdate → UpdateStep → Option RegistryUpdate :=
  step zeroLibrary (fun _ => some (.object [])) "cameras.json" "DE-CAM1" levelEntry

/-- The old file cannot be renamed to a backup, and is replaced. -/
def replacedDirectly : List UpdateStep :=
  [.readOld true, .openTemp true, .finishWrite true, .syncTemp true, .access true,
    .renameToBackup 7 false, .renameIntoPlace true ""]

/-- The old file becomes a backup, and the temporary file cannot take its place. -/
def replacementRefused : List UpdateStep :=
  [.readOld true, .openTemp true, .finishWrite true, .syncTemp true, .access true,
    .renameToBackup 7 true, .renameIntoPlace false "Input/output error"]

theorem whole_throughout_replacedDirectly :
    ∃ final, Run emptyRegistryStep (start "DE-CAM1" emptyRegistry) replacedDirectly final ∧
      final.phase = .returned true "" ∧ Whole "cameras.json" "\x7b\x7d".toList final := by
  have run : Run emptyRegistryStep (start "DE-CAM1" emptyRegistry) replacedDirectly _ :=
    .of_foldlM rfl
  have noBackup : ∀ timestamp, .renameToBackup timestamp true ∉ replacedDirectly := by
    simp [replacedDirectly]
  exact ⟨_, run, rfl, (whole_throughout_iff rfl run).mpr noBackup _ [] _
    (List.append_nil _).symm run⟩

/-- The call returns false, and the registry file is gone. -/
theorem whole_fails_replacementRefused :
    ∃ final, Run emptyRegistryStep (start "DE-CAM1" emptyRegistry) replacementRefused final ∧
      (∃ err, final.phase = .returned false err) ∧ final.files "cameras.json" = none ∧
      ¬ Whole "cameras.json" "\x7b\x7d".toList final :=
  ⟨_, .of_foldlM rfl, ⟨_, rfl⟩, rfl, not_whole_of_missing rfl⟩

end RegistryUpdate

end DroneEngage
