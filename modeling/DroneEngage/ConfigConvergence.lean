import DroneEngage.ConfigWatch
import Mathlib.Algebra.BigOperators.Group.List.Lemmas

/-!
# Every change of the configuration file is noticed, and none is noticed twice

The client asks `fileUpdated` and reloads when it has been told so.  Other programs may
edit the file at any time but between the reading of the file and of its write time.
As long as `fileUpdated` says no, the runtime configuration is what is in the file with
the local overrides merged over it, and each time it says yes is owed to an update or to
an edit.
-/

namespace DroneEngage.WatchClient

open CommentRemoval EventRuns ConfigStore

variable {library : JsonLibrary} {client next : WatchClient} {call : Call}

/-- The base is what is in the file, or was saved there, and the runtime configuration is
the base with the overrides merged over it. -/
structure Current (library : JsonLibrary) (watch : ConfigWatch) : Prop where
  base : ∃ text, watch.contents = some text ∧
    (library.parse (removeComments text) = some watch.store.baseJSON ∨
      text = watch.store.baseJSON.dump library (some 4))
  runtime : watch.store.configJSON =
    overlay watch.store.baseJSON watch.store.localOverrides

/-- The calls that keep the watch from missing a change. -/
def Noticed (library : JsonLibrary) (client : WatchClient) : Call → Prop
  | .initConfigFile fileURL between =>
      between = none ∧ ∀ document,
        readDocument library client.watch.store fileURL = some document →
          overlay document client.watch.store.localOverrides = document
  | .reloadFile between | .saveConfigFile _ _ between | .updateJSON _ _ between _ =>
      between = none
  -- overrides are emptied only where they said nothing
  | .applyLocalOverrides localJson => localJson.val.isEmpty →
      overlay client.watch.store.baseJSON client.watch.store.localOverrides =
        client.watch.store.baseJSON
  -- the file gets a write time that is not the remembered one
  | .fileEdited fileURL edit => fileURL = client.watch.store.fileURL →
      edit.contents.isSome → edit.writeTime ≠ client.watch.lastWriteTime
  | .fileUpdated => True

/-- What holds along the runs of such calls: what a client that need not reload and is
not about to be told has before it. -/
structure Watched (library : JsonLibrary) (client : WatchClient) : Prop where
  runtime : client.told = false → client.watch.store.updatePending = false →
    client.watch.store.configJSON =
      overlay client.watch.store.baseJSON client.watch.store.localOverrides
  base : client.told = false → client.watch.store.updatePending = false →
    client.watch.store.fileURL ≠ "" →
    client.watch.writeTime = client.watch.lastWriteTime →
    ∀ text, client.watch.contents = some text →
      library.parse (removeComments text) = some client.watch.store.baseJSON ∨
        text = client.watch.store.baseJSON.dump library (some 4)

section Calls

variable {watch : ConfigWatch}

theorem watched_of_read {told : Bool} {alarms : Nat} {document : Json}
    (read : readDocument library watch.store watch.store.fileURL = some document)
    (base : watch.store.baseJSON = document)
    (runtime : watch.store.configJSON = overlay document watch.store.localOverrides) :
    Watched library ⟨watch.stamp, told, alarms⟩ := by
  constructor
  · intro _ _
    simpa only [ConfigWatch.stamp_store, base] using runtime
  · intro _ _ _ _ text there
    obtain ⟨contents, found, parsed⟩ := Option.bind_eq_some_iff.mp read
    rw [ConfigWatch.stamp_contents] at there
    obtain rfl := Option.some.inj (found.symm.trans there)
    rw [ConfigWatch.stamp_store, base]
    exact .inl parsed

/-- A reload keeps the files and leaves nothing pending. -/
theorem reloadFile_eq {store reloaded : ConfigStore}
    (succeeds : ConfigStore.reloadFile library store = some reloaded) :
    ∃ runtime document, reloaded =
      { store with updatePending := false, configJSON := runtime, baseJSON := document } := by
  obtain ⟨document, -, rfl⟩ := Option.map_eq_some_iff.mp succeeds
  dsimp only
  split
  · exact ⟨document, document, rfl⟩
  · obtain ⟨runtime, applied, -⟩ := applyLocalOverrides_eq
      { store with updatePending := false, configJSON := document, baseJSON := document }
      store.localOverrides
    exact ⟨runtime, document, applied⟩

theorem reloadFile_read {store reloaded : ConfigStore}
    (succeeds : ConfigStore.reloadFile library store = some reloaded) :
    reloaded.fileURL = store.fileURL ∧ reloaded.files = store.files := by
  obtain ⟨runtime, document, rfl⟩ := reloadFile_eq succeeds
  exact ⟨rfl, rfl⟩

theorem reloadFile_quiet {store reloaded : ConfigStore}
    (succeeds : ConfigStore.reloadFile library store = some reloaded) :
    reloaded.updatePending = false := by
  obtain ⟨runtime, document, rfl⟩ := reloadFile_eq succeeds
  rfl

/-- A reload makes everything current, whatever it was before. -/
theorem watched_reloadFile {reloaded : ConfigWatch} {told : Bool} {alarms : Nat}
    (succeeds : watch.reloadFile library none = some reloaded) :
    Watched library ⟨reloaded, told, alarms⟩ := by
  obtain ⟨store, stored, rfl⟩ := Option.map_eq_some_iff.mp succeeds
  obtain ⟨document, read, base, overrides, runtime⟩ := reloadFile_eq_some stored
  obtain ⟨named, files⟩ := reloadFile_read stored
  apply @watched_of_read library _ told alarms document
  · simpa only [readDocument, named, files] using read
  · exact base
  · rw [overrides]
    exact runtime

theorem watched_initConfigFile {opened : ConfigWatch} {fileURL : String}
    (succeeds : client.watch.initConfigFile library fileURL none = some opened)
    (noticed : Noticed library client (.initConfigFile fileURL none)) :
    Watched library { client with watch := opened } := by
  obtain ⟨store, stored, rfl⟩ := Option.map_eq_some_iff.mp succeeds
  obtain ⟨document, read, rfl⟩ := Option.map_eq_some_iff.mp stored
  exact watched_of_read read rfl (noticed.2 document read).symm

/-- A save puts the base into the file, or leaves the file as it was. -/
theorem Watched.saveConfigFile (watched : Watched library client) (disk : Disk)
    (savedAt : Int) :
    Watched library
      { client with watch := client.watch.saveConfigFile library disk savedAt none } := by
  obtain ⟨files, written, saved⟩ :=
    @saveConfigFile_eq library disk client.watch.store
  have contents := @saveConfigFile_files_fileURL library disk client.watch.store
  have cases := @ConfigWatch.saved_lastWriteTime client.watch disk savedAt none
    (ConfigStore.saveConfigFile library disk client.watch.store) (by rw [saved])
  have store : (client.watch.saveConfigFile library disk savedAt none).store =
      ConfigStore.saveConfigFile library disk client.watch.store := by
    unfold ConfigWatch.saveConfigFile ConfigWatch.saved
    split
    · exact ConfigWatch.stamp_store _
    · rfl
  have now : (client.watch.saveConfigFile library disk savedAt none).contents =
      if disk.opens then
        some (client.watch.store.baseJSON.dump library (some 4)) else client.watch.contents := by
    rw [ConfigWatch.contents, store]
    rw [saved] at contents ⊢
    exact contents
  rcases cases with ⟨opens, -⟩ | ⟨unopened, -, sameTime, sameLast⟩
  · constructor
    · intro untold quiet
      simp only [store, saved] at quiet ⊢
      exact watched.runtime untold quiet
    · intro _ _ _ _ text there
      simp only [now, opens, if_true, Option.some.injEq] at there
      simp only [store, saved]
      exact .inr there.symm
  · constructor
    · intro untold quiet
      simp only [store, saved] at quiet ⊢
      exact watched.runtime untold quiet
    · intro untold quiet named same text there
      change ConfigWatch.writeTime (client.watch.saved _ _ _ _) =
        ConfigWatch.lastWriteTime (client.watch.saved _ _ _ _) at same
      rw [sameTime, sameLast] at same
      simp only [now, unopened, Bool.false_eq_true, if_false] at there
      simp only [store, saved] at quiet named ⊢
      exact watched.base untold quiet named same text there

theorem Watched.applyLocalOverrides (watched : Watched library client)
    (localJson : Json.Document)
    (noticed : Noticed library client (.applyLocalOverrides localJson)) :
    Watched library
      { client with watch := client.watch.applyLocalOverrides localJson.val } := by
  obtain ⟨runtime, applied, shown⟩ :=
    client.watch.store.applyLocalOverrides_eq localJson.val
  constructor
  · intro untold quiet
    simp only [ConfigWatch.applyLocalOverrides, applied] at quiet ⊢
    rcases shown with shown | ⟨empty, rfl⟩
    · exact shown
    · rw [overlay_of_isEmpty empty, watched.runtime untold quiet]
      exact noticed empty
  · intro untold quiet named same text there
    simp only [ConfigWatch.applyLocalOverrides, applied, ConfigWatch.writeTime,
      ConfigWatch.contents] at quiet named same there ⊢
    exact watched.base untold quiet named same text there

/-- An edit is seen by its write time; where the file is gone, nothing is claimed. -/
theorem Watched.edited (watched : Watched library client) {fileURL : String} {edit : FileEdit}
    (noticed : Noticed library client (.fileEdited fileURL edit)) :
    Watched library { client with watch := client.watch.edited fileURL edit } := by
  constructor
  · exact watched.runtime
  · intro untold quiet named same text there
    simp only [ConfigWatch.edited, ConfigWatch.writeTime, ConfigWatch.contents] at same there
    by_cases other : client.watch.store.fileURL = fileURL
    · subst other
      rw [Function.update_self] at same there
      exact absurd same (noticed rfl (by simp [there]))
    · rw [Function.update_of_ne other] at same there
      exact watched.base untold quiet named same text there

/-- An update leaves the pending flag behind, and the file as it was unless it is
saved. -/
theorem updateJSON_spec (store : ConfigStore) (disk : Disk) (jsonString : List Char) :
    let outcome := ConfigStore.updateJSON library disk store jsonString
    outcome.1.fileURL = store.fileURL ∧ outcome.1.updatePending = true ∧
      (outcome.2 = none → disk.opens = true ∨
        outcome.1.files store.fileURL = store.files store.fileURL) ∧
      (outcome.2 ≠ none → outcome.1.files = store.files) := by
  unfold ConfigStore.updateJSON
  cases library.parse (removeComments jsonString) with
  | none => exact ⟨rfl, rfl, by simp, fun _ => rfl⟩
  | some updateJson =>
      rcases runtimeRun : CConfigFile.applyUpdateJSON store.configJSON updateJson.items with
        ⟨runtime, none | exception⟩
      · rcases baseRun : CConfigFile.applyUpdateJSON store.baseJSON updateJson.items with
          ⟨base, none | exception⟩
        · obtain ⟨files, written, saved⟩ := @saveConfigFile_eq library disk
            { store with updatePending := true, configJSON := runtime, baseJSON := base }
          have contents := @saveConfigFile_files_fileURL library disk
            { store with updatePending := true, configJSON := runtime, baseJSON := base }
          rw [saved] at contents
          simp only [runtimeRun, baseRun, saved]
          refine ⟨trivial, trivial, fun _ => ?_, fun fails => absurd rfl fails⟩
          cases opens : disk.opens with
          | true => exact .inl rfl
          | false =>
              rw [opens] at contents
              exact .inr contents
        · simp [runtimeRun, baseRun]
      · simp [runtimeRun]

theorem saved_store (disk : Disk) (savedAt : Int) (between : Option FileEdit)
    (store : ConfigStore) :
    ∃ files, (watch.saved disk savedAt between store).store = { store with files := files } := by
  unfold ConfigWatch.saved
  split
  · exact ConfigWatch.stampAfter_store _ between
  · exact ⟨store.files, rfl⟩

theorem updatePending_updateJSON (disk : Disk) (savedAt : Int) (between : Option FileEdit)
    (jsonString : List Char) :
    (watch.updateJSON library disk savedAt between jsonString).store.updatePending = true := by
  have spec := @updateJSON_spec library watch.store disk jsonString
  unfold ConfigWatch.updateJSON
  rcases outcome : ConfigStore.updateJSON library disk watch.store jsonString with
    ⟨store, none | error⟩ <;> simp only [outcome] at spec ⊢
  · obtain ⟨files, saved⟩ := @saved_store watch disk savedAt between store
    simp only [saved]
    exact spec.2.1
  · exact spec.2.1

end Calls

theorem Watched.step (watched : Watched library client)
    (stepped : step library client call = some next) (noticed : Noticed library client call) :
    Watched library next := by
  cases call with
  | initConfigFile fileURL between =>
      obtain ⟨opened, succeeds, rfl⟩ := Option.map_eq_some_iff.mp stepped
      obtain rfl := noticed.1
      exact watched_initConfigFile succeeds noticed
  | reloadFile between =>
      obtain ⟨reloaded, succeeds, rfl⟩ := Option.map_eq_some_iff.mp stepped
      obtain rfl := noticed
      exact watched_reloadFile succeeds
  | fileUpdated =>
      rw [WatchClient.step] at stepped
      cases answer : client.watch.fileUpdated.1 with
      | true =>
          -- a client that has been told has nothing to show
          have told : next.told = true := by
            have whole : client.watch.fileUpdated = (true, client.watch.fileUpdated.2) :=
              Prod.ext answer rfl
            rw [whole] at stepped
            rw [← Option.some.inj stepped]
          exact ⟨fun untold => by simp [told] at untold, fun untold => by simp [told] at untold⟩
      | false =>
          rw [client.watch.fileUpdated_of_false answer] at stepped
          rw [← Option.some.inj stepped]
          exact watched
  | applyLocalOverrides localJson =>
      rw [← Option.some.inj stepped]
      exact watched.applyLocalOverrides localJson noticed
  | updateJSON disk savedAt between jsonString =>
      rw [← Option.some.inj stepped]
      have pending := @updatePending_updateJSON library client.watch disk savedAt between
        jsonString
      exact ⟨fun _ quiet => by simp [pending] at quiet,
        fun _ quiet => by simp [pending] at quiet⟩
  | saveConfigFile disk savedAt between =>
      rw [← Option.some.inj stepped]
      obtain rfl := noticed
      exact watched.saveConfigFile disk savedAt
  | fileEdited fileURL edit =>
      rw [← Option.some.inj stepped]
      exact watched.edited noticed

/-- `if (fileUpdated()) reloadFile();` -/
def reloadIfUpdated (library : JsonLibrary) (client : WatchClient) : Option WatchClient :=
  (step library client .fileUpdated).bind fun asked =>
    if client.watch.fileUpdated.1 then step library asked (.reloadFile none) else some asked

section Rounds

variable {files : String → Option (List Char)} {writeTimes : String → Int}
  {calls : List Call}

theorem watched_of_run
    (run : RunWhere (step library) (Noticed library) (fresh files writeTimes) calls client) :
    Watched library client := by
  apply run.invariant (Watched library)
  · constructor
    · intro _ _
      rfl
    · intro _ _ unnamed
      exact absurd rfl unnamed
  · intro _ _ _ _ _ stepped noticed watched
    exact watched.step stepped noticed

theorem fileUpdated_stamped {watch : ConfigWatch}
    (quiet : watch.store.updatePending = false)
    (taken : watch.writeTime = watch.lastWriteTime) : watch.fileUpdated.1 = false := by
  rw [← Bool.not_eq_true, ConfigWatch.fileUpdated_eq_true]
  simp [quiet, taken]

/-- After a reload `fileUpdated` says no. -/
theorem reloadFile_silent {watch reloaded : ConfigWatch} {text : List Char}
    (succeeds : watch.reloadFile library none = some reloaded)
    (there : watch.contents = some text) :
    reloaded.contents = some text ∧ reloaded.store.updatePending = false ∧
      reloaded.writeTime = reloaded.lastWriteTime := by
  obtain ⟨store, stored, rfl⟩ := Option.map_eq_some_iff.mp succeeds
  obtain ⟨named, files⟩ := reloadFile_read stored
  have contents : ConfigWatch.contents { watch with store := store } = some text := by
    rw [ConfigWatch.contents, named, files]
    exact there
  refine ⟨?_, ?_, ?_⟩
  · rw [ConfigWatch.stampAfter, ConfigWatch.stamp_contents, contents]
  · rw [ConfigWatch.stampAfter, ConfigWatch.stamp_store]
    exact reloadFile_quiet stored
  · apply ConfigWatch.stampAfter_lastWriteTime
    rw [ConfigWatch.stampAfter, ConfigWatch.stamp_contents, contents]
    rfl

/-- One round of the client's loop, whatever came before it, brings the configuration up
to date, and there is nothing more to tell. -/
theorem round_current
    (run : RunWhere (step library) (Noticed library) (fresh files writeTimes) calls client)
    (untold : client.told = false) (named : client.watch.store.fileURL ≠ "")
    {text : List Char} (there : client.watch.contents = some text)
    {document : Json} (parsed : library.parse (removeComments text) = some document) :
    ∃ next, reloadIfUpdated library client = some next ∧ Current library next.watch ∧
      next.watch.contents = some text ∧ next.watch.fileUpdated.1 = false := by
  have watched := watched_of_run run
  cases answer : client.watch.fileUpdated.1 with
  | false =>
      refine ⟨client, ?_, ?_, there, answer⟩
      · have asked : step library client .fileUpdated = some client := by
          simp only [step, client.watch.fileUpdated_of_false answer]
        simp [reloadIfUpdated, asked, answer]
      · have silent := answer
        rw [← Bool.not_eq_true, ConfigWatch.fileUpdated_eq_true, not_or] at silent
        obtain ⟨quiet, same⟩ := silent
        simp only [named, there, ne_eq, not_false_eq_true, Option.isSome_some, true_and,
          not_not] at same
        have quiet := eq_false_of_ne_true quiet
        exact ⟨⟨text, there, watched.base untold quiet named same text there⟩,
          watched.runtime untold quiet⟩
  | true =>
      obtain ⟨updatePending, lastWriteTime, asked⟩ := client.watch.fileUpdated_snd
      generalize askedWatch : client.watch.fileUpdated.2 = watch at asked
      have whole : client.watch.fileUpdated = (true, watch) := Prod.ext answer askedWatch
      have contents : watch.contents = some text := by
        rw [asked]
        exact there
      have read : readDocument library watch.store watch.store.fileURL = some document :=
        Option.bind_eq_some_iff.mpr ⟨text, contents, parsed⟩
      obtain ⟨store, stored⟩ : ∃ store,
          ConfigStore.reloadFile library watch.store = some store :=
        ⟨_, Option.map_eq_some_iff.mpr ⟨document, read, rfl⟩⟩
      have succeeds : watch.reloadFile library none =
          some (ConfigWatch.stamp { watch with store := store }) := by
        rw [ConfigWatch.reloadFile, stored]
        rfl
      obtain ⟨after, quiet, taken⟩ := reloadFile_silent succeeds contents
      have current := @watched_reloadFile library watch _ false (client.alarms + 1) succeeds
      have sameName : (ConfigWatch.stamp { watch with store := store }).store.fileURL ≠ "" := by
        rw [ConfigWatch.stamp_store, (reloadFile_read stored).1, asked]
        exact named
      refine ⟨⟨ConfigWatch.stamp { watch with store := store }, false, client.alarms + 1⟩,
        ?_, ⟨⟨text, after, ?_⟩, current.runtime rfl quiet⟩, after,
        fileUpdated_stamped quiet taken⟩
      · simp [reloadIfUpdated, step, whole, succeeds]
      · exact current.base rfl quiet sameName taken text after

/-- The configuration with an override, when another program has written its file anew. -/
theorem round_current_edited :
    ∃ client next : WatchClient,
      client.watch.store.localOverrides.member? "name" = some (.string "b") ∧
      reloadIfUpdated CConfigFile.plainLibrary client = some next ∧
      Current CConfigFile.plainLibrary next.watch ∧
      next.watch.contents =
        some ((CConfigFile.oneString "a/b").dump CConfigFile.plainLibrary (some 4)) ∧
      next.watch.fileUpdated.1 = false := by
  let library := CConfigFile.plainLibrary
  let compact := (CConfigFile.oneString "a/b").dump library none
  let pretty := (CConfigFile.oneString "a/b").dump library (some 4)
  let name : Json.Document :=
    ⟨.object [("name", .string "b")], (Json.WellFormed.string "b").singleton _⟩
  let start := fresh (fun _ => some compact) fun _ => 3
  have opened : RunWhere (step library) (Noticed library) start
      [.initConfigFile "config.json" none] _ := RunWhere.nil.snoc
    (show step library _ (.initConfigFile "config.json" none) = some _ from rfl)
    ⟨rfl, fun _ _ => rfl⟩
  have overridden := opened.snoc
    (show step library _ (.applyLocalOverrides name) = some _ from rfl) fun empty => by
      cases empty
  have edited := overridden.snoc
    (show step library _ (.fileEdited "config.json" ⟨some pretty, 7⟩) = some _ from rfl)
    fun _ _ => by decide
  have parsed : library.parse (removeComments pretty) =
      some (CConfigFile.oneString "a/b") := rfl
  obtain ⟨next, round⟩ := round_current edited rfl (by decide)
    (show _ = some pretty from rfl) parsed
  exact ⟨_, next, rfl, round⟩

end Rounds

section Alarms

variable {watch : ConfigWatch}

/-- `fileUpdated` is about to report another write time. -/
def changed (watch : ConfigWatch) : Bool :=
  watch.store.fileURL ≠ "" && watch.contents.isSome &&
    decide (watch.writeTime ≠ watch.lastWriteTime)

/-- What the client has yet to be told. -/
def owed (watch : ConfigWatch) : Nat :=
  watch.store.updatePending.toNat + (changed watch).toNat

/-- The calls that give something to tell. -/
def Call.gives : Call → Bool
  | .updateJSON .. | .fileEdited .. => true
  | _ => false

theorem changed_of_taken (taken : watch.contents.isSome → watch.writeTime = watch.lastWriteTime) :
    changed watch = false := by
  unfold changed
  cases there : watch.contents.isSome with
  | false => simp
  | true => simp [taken there]

theorem changed_stampAfter (watch : ConfigWatch) (between : Option FileEdit) :
    changed (watch.stampAfter between) = false :=
  changed_of_taken watch.stampAfter_lastWriteTime

/-- A save tells nothing new. -/
theorem changed_saved {disk : Disk} {savedAt : Int} {between : Option FileEdit}
    {store : ConfigStore} (sameName : store.fileURL = watch.store.fileURL)
    (sameFile : disk.opens = false →
      store.files store.fileURL = watch.store.files watch.store.fileURL) :
    (changed (watch.saved disk savedAt between store)).toNat ≤ (changed watch).toNat := by
  rcases @ConfigWatch.saved_lastWriteTime watch disk savedAt between store sameName with
    ⟨-, taken⟩ | ⟨unopened, sameStore, sameTime, sameLast⟩
  · rw [changed_of_taken taken]
    exact Nat.zero_le _
  · apply le_of_eq
    unfold changed
    rw [ConfigWatch.contents, sameStore, sameTime, sameLast, sameName,
      ← sameName, sameFile unopened, sameName]
    rfl

theorem owed_fileUpdated (watch : ConfigWatch) :
    watch.fileUpdated.1.toNat + owed watch.fileUpdated.2 ≤ owed watch := by
  unfold ConfigWatch.fileUpdated
  split
  · rename_i pending
    simp only [owed, pending, Bool.toNat_true, Bool.toNat_false, zero_add]
    exact le_rfl
  split
  · simp
  split
  · simp
  split
  · simp
  · rename_i pending named present changed'
    have there : watch.contents.isSome = true := by
      rwa [Option.isNone_iff_eq_none, ← ne_eq, Option.ne_none_iff_isSome] at present
    have before : changed watch = true := by
      simp [changed, named, there, changed']
    have after : changed { watch with lastWriteTime := watch.writeTime } = false :=
      changed_of_taken fun _ => rfl
    simp only [owed, before, after, Bool.toNat_true, Bool.toNat_false]
    omega

theorem changed_updateJSON (disk : Disk) (savedAt : Int) (between : Option FileEdit)
    (jsonString : List Char) :
    (changed (watch.updateJSON library disk savedAt between jsonString)).toNat ≤
      (changed watch).toNat := by
  have spec := @updateJSON_spec library watch.store disk jsonString
  unfold ConfigWatch.updateJSON
  rcases outcome : ConfigStore.updateJSON library disk watch.store jsonString with
    ⟨store, none | error⟩ <;> simp only [outcome] at spec ⊢ <;>
    obtain ⟨sameName, -, saved, failed⟩ := spec
  · apply changed_saved sameName
    intro unopened
    rw [sameName]
    exact (saved trivial).resolve_left (by simp [unopened])
  · have sameFiles := failed (by simp)
    simp only [changed, ConfigWatch.contents, ConfigWatch.writeTime, sameName, sameFiles]
    exact le_rfl

theorem owed_saveConfigFile (disk : Disk) (savedAt : Int) (between : Option FileEdit) :
    (watch.saveConfigFile library disk savedAt between).store.updatePending =
        watch.store.updatePending ∧
      (changed (watch.saveConfigFile library disk savedAt between)).toNat ≤
        (changed watch).toNat := by
  obtain ⟨files, written, saved⟩ := @saveConfigFile_eq library disk watch.store
  have contents := @saveConfigFile_files_fileURL library disk watch.store
  constructor
  · obtain ⟨filesAfter, after⟩ := @saved_store watch disk savedAt between
      (ConfigStore.saveConfigFile library disk watch.store)
    rw [ConfigWatch.saveConfigFile, after, saved]
  · apply changed_saved
    · rw [saved]
    · intro unopened
      rw [unopened] at contents
      rw [saved] at contents ⊢
      exact contents

/-- What a call tells the client and leaves to tell, was there to tell or is given by
the call. -/
theorem owed_step (stepped : step library client call = some next) :
    next.alarms + owed next.watch ≤
      client.alarms + owed client.watch + (if call.gives then 1 else 0) := by
  cases call with
  | initConfigFile fileURL between =>
      obtain ⟨opened, succeeds, rfl⟩ := Option.map_eq_some_iff.mp stepped
      obtain ⟨store, stored, rfl⟩ := Option.map_eq_some_iff.mp succeeds
      obtain ⟨document, read, rfl⟩ := Option.map_eq_some_iff.mp stored
      obtain ⟨files, left⟩ := ConfigWatch.stampAfter_store
        { client.watch with
          store :=
            { client.watch.store with
              fileURL := fileURL, configJSON := document, baseJSON := document } } between
      simp only [owed, left, changed_stampAfter, Bool.toNat_false]
      omega
  | reloadFile between =>
      obtain ⟨reloaded, succeeds, rfl⟩ := Option.map_eq_some_iff.mp stepped
      obtain ⟨store, stored, rfl⟩ := Option.map_eq_some_iff.mp succeeds
      obtain ⟨files, left⟩ := ConfigWatch.stampAfter_store
        { client.watch with store := store } between
      have quiet : store.updatePending = false := reloadFile_quiet stored
      simp only [owed, left, changed_stampAfter, quiet, Bool.toNat_false]
      omega
  | fileUpdated =>
      have asked := owed_fileUpdated client.watch
      rw [step] at stepped
      rcases answer : client.watch.fileUpdated with ⟨_ | _, watch⟩ <;>
        rw [answer] at stepped asked <;> rw [← Option.some.inj stepped]
      · rw [Bool.toNat_false, zero_add] at asked
        exact Nat.le_add_right_of_le (Nat.add_le_add_left asked client.alarms)
      · rw [Bool.toNat_true] at asked
        dsimp only at asked ⊢
        omega
  | applyLocalOverrides localJson =>
      obtain ⟨runtime, applied, -⟩ :=
        client.watch.store.applyLocalOverrides_eq localJson.val
      have same : owed (client.watch.applyLocalOverrides localJson.val) = owed client.watch := by
        rw [ConfigWatch.applyLocalOverrides, applied]
        rfl
      rw [← Option.some.inj stepped]
      dsimp only
      omega
  | updateJSON disk savedAt between jsonString =>
      have changes := @changed_updateJSON library client.watch disk savedAt between jsonString
      have most := Bool.toNat_le
        (client.watch.updateJSON library disk savedAt between jsonString).store.updatePending
      rw [← Option.some.inj stepped]
      simp only [owed, Call.gives, if_true]
      omega
  | saveConfigFile disk savedAt between =>
      obtain ⟨pending, changes⟩ := @owed_saveConfigFile library client.watch disk savedAt between
      rw [← Option.some.inj stepped]
      simp only [owed, pending]
      omega
  | fileEdited fileURL edit =>
      rw [← Option.some.inj stepped]
      have most := Bool.toNat_le (changed (client.watch.edited fileURL edit))
      simp only [owed, ConfigWatch.edited, Call.gives, if_true] at most ⊢
      omega

/-- `fileUpdated` says yes at most once for each update and each edit: in particular never
for a file that the configuration has saved itself. -/
theorem alarms_le {files : String → Option (List Char)} {writeTimes : String → Int}
    {calls : List Call} (run : Run (step library) (fresh files writeTimes) calls client) :
    client.alarms ≤ calls.countP Call.gives := by
  have all : client.alarms + owed client.watch ≤ calls.countP Call.gives := by
    induction run with
    | nil => exact le_rfl
    | snoc _ stepped ih =>
        have told := owed_step stepped
        rw [List.countP_append, List.countP_singleton]
        omega
  omega

/-- The file goes, cannot be saved, and comes back. -/
def lostAndFound : List Call :=
  [ .initConfigFile "config.json" none, .fileEdited "config.json" ⟨none, 5⟩,
    .saveConfigFile ⟨true, "20260101_000000", false⟩ 6 none,
    .fileEdited "config.json" ⟨some [], 7⟩, .fileUpdated ]

theorem alarms_le_lostAndFound :
    ∃ client : WatchClient, client.alarms = 1 ∧
      client.alarms ≤ lostAndFound.countP Call.gives := by
  let compact := (CConfigFile.oneString "a/b").dump CConfigFile.plainLibrary none
  let start := fresh (fun _ => some compact) fun _ => 3
  have run : Run (step CConfigFile.plainLibrary) start lostAndFound _ := Run.of_foldlM rfl
  exact ⟨_, rfl, alarms_le run⟩

end Alarms

end DroneEngage.WatchClient
