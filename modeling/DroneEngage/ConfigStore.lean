import DroneEngage.DeepMerge
import DroneEngage.EventRuns
import Mathlib.Logic.Function.Basic

/-!
# The configuration and its files

All of `CConfigFile`: the runtime and the base configuration, the local
overrides, and the files it reads and writes.  A call that ends the process has
no next state.  Other programs may write the files between two calls.
-/

namespace DroneEngage

open CommentRemoval

/-- `empty()` -/
def Json.isEmpty : Json → Bool
  | .null => true
  | .array elements => elements.isEmpty
  | .object members => members.isEmpty
  | _ => false

/-- What `updateJSON` catches and reports. -/
inductive UpdateError
  | parseError
  | thrown (exception : JsonException)
  deriving DecidableEq, Repr

/-- How the file system answers one `saveConfigFile`: whether the backup can be
copied, the time in its name, and whether the file can be opened. -/
structure Disk where
  copies : Bool
  timestamp : String
  opens : Bool

/-- The members of `CConfigFile`, the files by their names, and all that was
written to them, in order. -/
structure ConfigStore where
  fileURL : String
  configJSON : Json
  baseJSON : Json
  localOverrides : Json
  updatePending : Bool
  files : String → Option (List Char)
  written : List (String × List Char)

namespace ConfigStore

/-- The state of a new `CConfigFile`. -/
def fresh (files : String → Option (List Char)) : ConfigStore where
  fileURL := ""
  configJSON := .null
  baseJSON := .null
  localOverrides := .null
  updatePending := false
  files := files
  written := []

def write (store : ConfigStore) (name : String) (contents : List Char) : ConfigStore :=
  { store with
    files := Function.update store.files name (some contents)
    written := store.written ++ [(name, contents)] }

def applyLocalOverrides (store : ConfigStore) (localJson : Json) : ConfigStore :=
  let remembered := { store with localOverrides := localJson }
  if localJson.isNull || localJson.isEmpty then remembered
  else { remembered with configJSON := Json.deepMerge store.baseJSON localJson }

section Files

variable (library : JsonLibrary)

/-- `ReadFile` and `ParseData`; the process exits where either fails. -/
def readDocument (store : ConfigStore) (fileURL : String) : Option Json := do
  let contents ← store.files fileURL
  library.parse (removeComments contents)

def initConfigFile (store : ConfigStore) (fileURL : String) : Option ConfigStore :=
  (readDocument library store fileURL).map fun document =>
    { store with fileURL := fileURL, configJSON := document, baseJSON := document }

def reloadFile (store : ConfigStore) : Option ConfigStore :=
  (readDocument library store store.fileURL).map fun document =>
    let reloaded :=
      { store with updatePending := false, configJSON := document, baseJSON := document }
    if store.localOverrides.isNull then reloaded
    else reloaded.applyLocalOverrides store.localOverrides

/-- The copy that `saveConfigFile` makes of a file that is there. -/
def backUp (disk : Disk) (store : ConfigStore) : ConfigStore :=
  match store.files store.fileURL with
  | some contents =>
      if disk.copies then store.write (store.fileURL ++ ".bak_" ++ disk.timestamp) contents
      else store
  | none => store

def saveConfigFile (disk : Disk) (store : ConfigStore) : ConfigStore :=
  let copied := store.backUp disk
  if disk.opens then copied.write store.fileURL (store.baseJSON.dump library (some 4))
  else copied

/-- `updateJSON`, with the error it reports. -/
def updateJSON (disk : Disk) (store : ConfigStore) (jsonString : List Char) :
    ConfigStore × Option UpdateError :=
  let pending := { store with updatePending := true }
  match library.parse (removeComments jsonString) with
  | none => (pending, some .parseError)
  | some updateJson =>
      match CConfigFile.applyUpdateJSON store.configJSON updateJson.items with
      | (runtime, some exception) =>
          ({ pending with configJSON := runtime }, some (.thrown exception))
      | (runtime, none) =>
          match CConfigFile.applyUpdateJSON store.baseJSON updateJson.items with
          | (base, some exception) =>
              ({ pending with configJSON := runtime, baseJSON := base },
                some (.thrown exception))
          | (base, none) =>
              (saveConfigFile library disk
                { pending with configJSON := runtime, baseJSON := base }, none)

/-- What happens to a `CConfigFile` and its files. -/
inductive Call
  | initConfigFile (fileURL : String)
  | reloadFile
  | applyLocalOverrides (localJson : Json.Document)
  | updateJSON (disk : Disk) (jsonString : List Char)
  | saveConfigFile (disk : Disk)
  /-- another program writes or removes a file -/
  | fileEdited (fileURL : String) (contents : Option (List Char))

/-- The state after a call; none where the process ended. -/
def step (store : ConfigStore) : Call → Option ConfigStore
  | .initConfigFile fileURL => initConfigFile library store fileURL
  | .reloadFile => reloadFile library store
  | .applyLocalOverrides localJson => some (store.applyLocalOverrides localJson.val)
  | .updateJSON disk jsonString => some (updateJSON library disk store jsonString).1
  | .saveConfigFile disk => some (saveConfigFile library disk store)
  | .fileEdited fileURL contents =>
      some { store with files := Function.update store.files fileURL contents }

end Files

section Saving

variable {library : JsonLibrary} (disk : Disk) (store : ConfigStore)

/-- A backup only adds a file. -/
theorem backUp_eq : ∃ files written,
    store.backUp disk = { store with files := files, written := written } := by
  unfold backUp
  split
  · split
    · exact ⟨_, _, rfl⟩
    · exact ⟨_, _, rfl⟩
  · exact ⟨_, _, rfl⟩

/-- Saving changes the files and nothing else. -/
theorem saveConfigFile_eq : ∃ files written,
    saveConfigFile library disk store =
      { store with files := files, written := written } := by
  obtain ⟨files, written, copied⟩ := store.backUp_eq disk
  unfold saveConfigFile
  rw [copied]
  split
  · exact ⟨_, _, rfl⟩
  · exact ⟨_, _, rfl⟩

theorem backUp_files_fileURL :
    (store.backUp disk).files store.fileURL = store.files store.fileURL := by
  unfold backUp
  split
  · split
    · apply Function.update_of_ne
      intro same
      have lengths := congrArg String.length same
      simp only [String.length_append] at lengths
      have suffix : ".bak_".length = 5 := rfl
      omega
    · rfl
  · rfl

theorem saveConfigFile_files_fileURL :
    (saveConfigFile library disk store).files store.fileURL =
      if disk.opens then some (store.baseJSON.dump library (some 4))
      else store.files store.fileURL := by
  obtain ⟨files, written, copied⟩ := store.backUp_eq disk
  have kept := store.backUp_files_fileURL disk
  unfold saveConfigFile
  split
  · exact Function.update_self _ _ _
  · exact kept

/-- The part of the state that an update reads and writes. -/
def opened : CConfigFile where
  configJSON := store.configJSON
  baseJSON := store.baseJSON
  updatePending := store.updatePending
  publishedFile := (store.files store.fileURL).getD []

theorem opened_saveConfigFile :
    (saveConfigFile library disk store).opened =
      CConfigFile.saveConfigFile library disk.opens store.opened := by
  obtain ⟨files, written, saved⟩ := @saveConfigFile_eq library disk store
  have contents := @saveConfigFile_files_fileURL library disk store
  rw [saved] at contents ⊢
  unfold CConfigFile.saveConfigFile
  by_cases opens : disk.opens
  · rw [if_pos opens] at contents ⊢
    simp only at contents
    simp only [opened, contents, Option.getD_some]
  · rw [if_neg opens] at contents ⊢
    simp only at contents
    simp only [opened, contents]

/-- On the file that is open, an update does what `CConfigFile.updateJSON` says. -/
theorem opened_updateJSON (jsonString : List Char) :
    (updateJSON library disk store jsonString).1.opened =
      CConfigFile.updateJSON library disk.opens store.opened jsonString := by
  unfold updateJSON CConfigFile.updateJSON
  cases library.parse (removeComments jsonString) with
  | none => rfl
  | some updateJson =>
      simp only [CConfigFile.applyParsedUpdate, opened]
      rcases CConfigFile.applyUpdateJSON store.configJSON updateJson.items with
        ⟨runtime, none | exception⟩
      · rcases CConfigFile.applyUpdateJSON store.baseJSON updateJson.items with
          ⟨base, none | exception⟩
        · exact opened_saveConfigFile disk _
        · rfl
      · rfl

end Saving

end ConfigStore

end DroneEngage
