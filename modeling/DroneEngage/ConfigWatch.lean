import DroneEngage.ConfigOverlay

/-!
# The configuration file under watch

`CConfigFile` remembers the write time its file had when it was read or saved, and
`fileUpdated` compares it with the write time the file has now.  An update by
`updateJSON` is reported as well.  The file and its write time are taken in two steps,
and another program may come in between.  The client is a loop that asks
`fileUpdated` and calls `reloadFile` when it has been told so.
-/

namespace DroneEngage

open CommentRemoval EventRuns

/-- What another program makes of a file, without contents where it is removed. -/
structure FileEdit where
  contents : Option (List Char)
  writeTime : Int

/-- `m_lastWriteTime` beside the other members, and the write times of the files. -/
structure ConfigWatch where
  store : ConfigStore
  writeTimes : String → Int
  lastWriteTime : Int

namespace ConfigWatch

def fresh (files : String → Option (List Char)) (writeTimes : String → Int) : ConfigWatch where
  store := .fresh files
  writeTimes := writeTimes
  lastWriteTime := 0

section Files

variable (watch : ConfigWatch)

/-- What is in the watched file now. -/
def contents : Option (List Char) :=
  watch.store.files watch.store.fileURL

def writeTime : Int :=
  watch.writeTimes watch.store.fileURL

def edited (fileURL : String) (edit : FileEdit) : ConfigWatch :=
  { watch with
    store :=
      { watch.store with files := Function.update watch.store.files fileURL edit.contents }
    writeTimes := Function.update watch.writeTimes fileURL edit.writeTime }

/-- The write time of the watched file is taken, where the file is still there. -/
def stamp : ConfigWatch :=
  if watch.contents.isSome then { watch with lastWriteTime := watch.writeTime } else watch

/-- The write time is taken after another program may have come in between. -/
def stampAfter : Option FileEdit → ConfigWatch
  | none => watch.stamp
  | some edit => (watch.edited watch.store.fileURL edit).stamp

/-- The files that `saveConfigFile` writes. -/
def savedFiles (disk : Disk) (store : ConfigStore) : List String :=
  (if (store.files store.fileURL).isSome && disk.copies then
    [store.fileURL ++ ".bak_" ++ disk.timestamp] else []) ++
  (if disk.opens then [store.fileURL] else [])

/-- What a save that leads to the given store does to the write times. -/
def saved (disk : Disk) (savedAt : Int) (between : Option FileEdit) (store : ConfigStore) :
    ConfigWatch :=
  let written :=
    { watch with
      store := store
      writeTimes := fun name =>
        if name ∈ savedFiles disk watch.store then savedAt else watch.writeTimes name }
  if disk.opens then written.stampAfter between else written

/-- The answer of `fileUpdated`, and what it leaves. -/
def fileUpdated : Bool × ConfigWatch :=
  if watch.store.updatePending then
    (true, { watch with store := { watch.store with updatePending := false } })
  else if watch.store.fileURL = "" then (false, watch)
  else if watch.contents.isNone then (false, watch)
  else if watch.writeTime = watch.lastWriteTime then (false, watch)
  else (true, { watch with lastWriteTime := watch.writeTime })

end Files

section Calls

variable (library : JsonLibrary)

def initConfigFile (watch : ConfigWatch) (fileURL : String) (between : Option FileEdit) :
    Option ConfigWatch :=
  (ConfigStore.initConfigFile library watch.store fileURL).map fun store =>
    { watch with store := store }.stampAfter between

def reloadFile (watch : ConfigWatch) (between : Option FileEdit) : Option ConfigWatch :=
  (ConfigStore.reloadFile library watch.store).map fun store =>
    { watch with store := store }.stampAfter between

def applyLocalOverrides (watch : ConfigWatch) (localJson : Json) : ConfigWatch :=
  { watch with store := watch.store.applyLocalOverrides localJson }

def saveConfigFile (watch : ConfigWatch) (disk : Disk) (savedAt : Int)
    (between : Option FileEdit) : ConfigWatch :=
  watch.saved disk savedAt between (ConfigStore.saveConfigFile library disk watch.store)

/-- The file is saved where no error is reported. -/
def updateJSON (watch : ConfigWatch) (disk : Disk) (savedAt : Int)
    (between : Option FileEdit) (jsonString : List Char) : ConfigWatch :=
  match ConfigStore.updateJSON library disk watch.store jsonString with
  | (store, none) => watch.saved disk savedAt between store
  | (store, some _) => { watch with store := store }

end Calls

section Lemmas

variable {library : JsonLibrary} (watch : ConfigWatch)

theorem stamp_eq : ∃ lastWriteTime,
    watch.stamp = { watch with lastWriteTime := lastWriteTime } ∧
      (watch.contents.isSome → lastWriteTime = watch.writeTime) := by
  unfold stamp
  split
  · exact ⟨_, rfl, fun _ => rfl⟩
  · rename_i gone
    exact ⟨watch.lastWriteTime, rfl, fun there => absurd there gone⟩

@[simp]
theorem stamp_store : watch.stamp.store = watch.store := by
  obtain ⟨lastWriteTime, stamped, -⟩ := watch.stamp_eq
  rw [stamped]

@[simp]
theorem stamp_contents : watch.stamp.contents = watch.contents := by
  rw [contents, stamp_store, contents]

/-- When the write time has been taken, it is that of the file. -/
theorem stamp_lastWriteTime (there : watch.stamp.contents.isSome) :
    watch.stamp.writeTime = watch.stamp.lastWriteTime := by
  obtain ⟨lastWriteTime, stamped, taken⟩ := watch.stamp_eq
  rw [stamp_contents] at there
  rw [stamped]
  exact (taken there).symm

theorem stampAfter_lastWriteTime {between : Option FileEdit}
    (there : (watch.stampAfter between).contents.isSome) :
    (watch.stampAfter between).writeTime = (watch.stampAfter between).lastWriteTime := by
  cases between with
  | none => exact stamp_lastWriteTime _ there
  | some edit => exact stamp_lastWriteTime _ there

/-- Whoever comes in between changes only files. -/
theorem stampAfter_store (between : Option FileEdit) :
    ∃ files, (watch.stampAfter between).store = { watch.store with files := files } := by
  cases between with
  | none => exact ⟨watch.store.files, watch.stamp_store⟩
  | some edit => exact ⟨_, stamp_store _⟩

theorem not_mem_savedFiles (disk : Disk) (store : ConfigStore) (unopened : disk.opens = false) :
    store.fileURL ∉ savedFiles disk store := by
  have other : store.fileURL ≠ store.fileURL ++ ".bak_" ++ disk.timestamp := by
    intro same
    have lengths := congrArg String.length same
    simp only [String.length_append] at lengths
    have suffix : ".bak_".length = 5 := rfl
    omega
  unfold savedFiles
  rw [unopened]
  split <;> simp [other]

/-- A save leaves the write time of the file taken, or the file as it was. -/
theorem saved_lastWriteTime {disk : Disk} {savedAt : Int} {between : Option FileEdit}
    {store : ConfigStore} (same : store.fileURL = watch.store.fileURL) :
    let after := watch.saved disk savedAt between store
    (disk.opens = true ∧ (after.contents.isSome → after.writeTime = after.lastWriteTime)) ∨
      disk.opens = false ∧ after.store = store ∧ after.writeTime = watch.writeTime ∧
        after.lastWriteTime = watch.lastWriteTime := by
  intro after
  cases opens : disk.opens with
  | true =>
      refine .inl ⟨rfl, fun there => ?_⟩
      simp only [after, saved, opens, if_true] at there ⊢
      exact stampAfter_lastWriteTime _ there
  | false =>
      have untouched := not_mem_savedFiles disk watch.store opens
      refine .inr ⟨rfl, ?_, ?_, ?_⟩
      · simp [after, saved, opens]
      · simp [after, saved, opens, writeTime, same, untouched]
      · simp [after, saved, opens]

/-- The answer is that of the pending flag, or of the write times. -/
theorem fileUpdated_eq_true :
    watch.fileUpdated.1 = true ↔ watch.store.updatePending = true ∨
      watch.store.fileURL ≠ "" ∧ watch.contents.isSome ∧
        watch.writeTime ≠ watch.lastWriteTime := by
  unfold fileUpdated
  split
  · simp_all
  split
  · simp_all
  split
  · simp_all
  split
  · simp_all
  · rename_i pending named present changed
    rw [Option.isNone_iff_eq_none, ← ne_eq, Option.ne_none_iff_isSome] at present
    exact iff_of_true rfl (.inr ⟨named, present, changed⟩)

/-- Asking changes the pending flag and the remembered write time at most. -/
theorem fileUpdated_snd : ∃ updatePending lastWriteTime,
    watch.fileUpdated.2 =
      { watch with
        store := { watch.store with updatePending := updatePending }
        lastWriteTime := lastWriteTime } := by
  have unchanged : watch = { watch with
      store := { watch.store with updatePending := watch.store.updatePending }
      lastWriteTime := watch.lastWriteTime } :=
    rfl
  unfold fileUpdated
  split
  · exact ⟨_, _, rfl⟩
  split
  · exact ⟨_, _, unchanged⟩
  split
  · exact ⟨_, _, unchanged⟩
  split
  · exact ⟨_, _, unchanged⟩
  · exact ⟨_, _, rfl⟩

/-- When `fileUpdated` says no, nothing has changed. -/
theorem fileUpdated_of_false (silent : watch.fileUpdated.1 = false) :
    watch.fileUpdated = (false, watch) := by
  unfold fileUpdated at silent ⊢
  split at silent
  · cases silent
  rename_i pending
  rw [if_neg pending]
  split at silent
  · rename_i unnamed
    rw [if_pos unnamed]
  rename_i named
  rw [if_neg named]
  split at silent
  · rename_i gone
    rw [if_pos gone]
  rename_i there
  rw [if_neg there]
  split at silent
  · rename_i same
    rw [if_pos same]
  · cases silent

end Lemmas

end ConfigWatch

/-- The watch in the hands of a client: whether it has been told of a change and has
yet to reload, and how often it was told. -/
structure WatchClient where
  watch : ConfigWatch
  told : Bool
  alarms : Nat

namespace WatchClient

def fresh (files : String → Option (List Char)) (writeTimes : String → Int) :
    WatchClient where
  watch := .fresh files writeTimes
  told := false
  alarms := 0

inductive Call
  | initConfigFile (fileURL : String) (between : Option FileEdit)
  | reloadFile (between : Option FileEdit)
  | fileUpdated
  | applyLocalOverrides (localJson : Json.Document)
  | updateJSON (disk : Disk) (savedAt : Int) (between : Option FileEdit)
      (jsonString : List Char)
  | saveConfigFile (disk : Disk) (savedAt : Int) (between : Option FileEdit)
  /-- another program writes or removes a file -/
  | fileEdited (fileURL : String) (edit : FileEdit)

variable (library : JsonLibrary)

/-- The state after a call; none where the process ended. -/
def step (client : WatchClient) : Call → Option WatchClient
  | .initConfigFile fileURL between =>
      (client.watch.initConfigFile library fileURL between).map fun watch =>
        { client with watch := watch }
  | .reloadFile between =>
      (client.watch.reloadFile library between).map fun watch =>
        { client with watch := watch, told := false }
  | .fileUpdated =>
      match client.watch.fileUpdated with
      | (true, watch) =>
          some { client with watch := watch, told := true, alarms := client.alarms + 1 }
      | (false, watch) => some { client with watch := watch }
  | .applyLocalOverrides localJson =>
      some { client with watch := client.watch.applyLocalOverrides localJson.val }
  | .updateJSON disk savedAt between jsonString =>
      some { client with
        watch := client.watch.updateJSON library disk savedAt between jsonString }
  | .saveConfigFile disk savedAt between =>
      some { client with watch := client.watch.saveConfigFile library disk savedAt between }
  | .fileEdited fileURL edit =>
      some { client with watch := client.watch.edited fileURL edit }

end WatchClient

end DroneEngage
