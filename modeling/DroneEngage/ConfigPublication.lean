import DroneEngage.ConfigRoundTrip
import DroneEngage.ConfigStore

/-!
# What is published does not depend on local overrides

The base configuration and the files make up the part of the state that can be
seen from outside.  `applyLocalOverrides` leaves that part alone, and every
other call computes it from that part, as long as no update fails.
-/

namespace DroneEngage

open CommentRemoval EventRuns

namespace ConfigStore

/-- The part of the state that is published. -/
structure Published where
  fileURL : String
  baseJSON : Json
  files : String → Option (List Char)
  written : List (String × List Char)

def published (store : ConfigStore) : Published where
  fileURL := store.fileURL
  baseJSON := store.baseJSON
  files := store.files
  written := store.written

/-- The calls other than `applyLocalOverrides`. -/
def Call.isPublic : Call → Bool
  | .applyLocalOverrides _ => false
  | _ => true

/-- An update in this state does not fail. -/
def UpdateSucceeds (library : JsonLibrary) (store : ConfigStore) : Call → Prop
  | .updateJSON disk jsonString => (updateJSON library disk store jsonString).2 = none
  | _ => True

section Steps

variable {library : JsonLibrary} {store left right : ConfigStore}

theorem published_applyLocalOverrides (localJson : Json) :
    (store.applyLocalOverrides localJson).published = store.published := by
  unfold applyLocalOverrides
  split
  · rfl
  · rfl

theorem published_congr (same : left.published = right.published) :
    left.fileURL = right.fileURL ∧ left.baseJSON = right.baseJSON ∧
      left.files = right.files ∧ left.written = right.written :=
  Published.mk.inj same

theorem readDocument_congr (same : left.published = right.published) (fileURL : String) :
    readDocument library left fileURL = readDocument library right fileURL := by
  obtain ⟨-, -, files, -⟩ := published_congr same
  rw [readDocument, readDocument, files]

theorem published_write (name : String) (contents : List Char)
    (same : left.published = right.published) :
    (left.write name contents).published = (right.write name contents).published := by
  obtain ⟨fileURL, base, files, written⟩ := published_congr same
  simp only [published, write, fileURL, base, files, written]

theorem published_saveConfigFile (disk : Disk) (same : left.published = right.published) :
    (saveConfigFile library disk left).published =
      (saveConfigFile library disk right).published := by
  obtain ⟨fileURL, base, files, written⟩ := published_congr same
  have copied : (left.backUp disk).published = (right.backUp disk).published := by
    unfold backUp
    rw [files, fileURL]
    split
    · split
      · exact published_write _ _ same
      · exact same
    · exact same
  unfold saveConfigFile
  rw [fileURL, base]
  split
  · exact published_write _ _ copied
  · exact copied

theorem published_reloadFile {next : ConfigStore}
    (reloaded : reloadFile library store = some next) :
    ∃ document, readDocument library store store.fileURL = some document ∧
      next.published = { store with configJSON := document, baseJSON := document }.published := by
  obtain ⟨document, read, rfl⟩ := Option.map_eq_some_iff.mp reloaded
  refine ⟨document, read, ?_⟩
  dsimp only
  split
  · rfl
  · exact published_applyLocalOverrides _

/-- An update that does not fail saves the updated base. -/
theorem updateJSON_of_succeeds {disk : Disk} {jsonString : List Char}
    (succeeds : (updateJSON library disk store jsonString).2 = none) :
    ∃ updateJson runtime base,
      library.parse (removeComments jsonString) = some updateJson ∧
      CConfigFile.applyUpdateJSON store.configJSON updateJson.items = (runtime, none) ∧
      CConfigFile.applyUpdateJSON store.baseJSON updateJson.items = (base, none) ∧
      (updateJSON library disk store jsonString).1 = saveConfigFile library disk
        { store with updatePending := true, configJSON := runtime, baseJSON := base } := by
  unfold updateJSON at succeeds ⊢
  cases parsed : library.parse (removeComments jsonString) with
  | none => simp [parsed] at succeeds
  | some updateJson =>
      simp only [parsed] at succeeds ⊢
      rcases appliedRuntime : CConfigFile.applyUpdateJSON store.configJSON updateJson.items with
        ⟨runtime, none | exception⟩
      · simp only [appliedRuntime] at succeeds ⊢
        rcases appliedBase : CConfigFile.applyUpdateJSON store.baseJSON updateJson.items with
          ⟨base, none | exception⟩
        · exact ⟨updateJson, runtime, base, rfl, appliedRuntime, appliedBase, by simp⟩
        · simp [appliedBase] at succeeds
      · simp [appliedRuntime] at succeeds

/-- A call other than `applyLocalOverrides` computes what is published from what
is published, unless it is an update that fails. -/
theorem published_step {call : Call} {leftNext rightNext : ConfigStore}
    (isPublic : call.isPublic) (same : left.published = right.published)
    (leftStep : step library left call = some leftNext)
    (leftSucceeds : UpdateSucceeds library left call)
    (rightStep : step library right call = some rightNext)
    (rightSucceeds : UpdateSucceeds library right call) :
    leftNext.published = rightNext.published := by
  obtain ⟨sameURL, sameBase, sameFiles, sameWritten⟩ := published_congr same
  cases call with
  | initConfigFile fileURL =>
      obtain ⟨document, read, rfl⟩ := Option.map_eq_some_iff.mp leftStep
      obtain ⟨document', read', rfl⟩ := Option.map_eq_some_iff.mp rightStep
      rw [readDocument_congr same, read'] at read
      obtain rfl := Option.some.inj read
      simp only [published, sameFiles, sameWritten]
  | reloadFile =>
      obtain ⟨document, read, leftPublished⟩ := published_reloadFile leftStep
      obtain ⟨document', read', rightPublished⟩ := published_reloadFile rightStep
      rw [readDocument_congr same, sameURL, read'] at read
      obtain rfl := Option.some.inj read
      rw [leftPublished, rightPublished]
      simp only [published, sameURL, sameFiles, sameWritten]
  | applyLocalOverrides localJson => cases isPublic
  | updateJSON disk jsonString =>
      obtain ⟨updateJson, _, base, parsed, _, applied, leftSaved⟩ :=
        updateJSON_of_succeeds leftSucceeds
      obtain ⟨updateJson', _, base', parsed', _, applied', rightSaved⟩ :=
        updateJSON_of_succeeds rightSucceeds
      obtain rfl := Option.some.inj (parsed.symm.trans parsed')
      rw [sameBase, applied'] at applied
      obtain rfl := congrArg Prod.fst applied
      rw [← Option.some.inj leftStep, ← Option.some.inj rightStep, leftSaved, rightSaved]
      apply published_saveConfigFile
      simp only [published, sameURL, sameFiles, sameWritten]
  | saveConfigFile disk =>
      rw [← Option.some.inj leftStep, ← Option.some.inj rightStep]
      exact published_saveConfigFile disk same
  | fileEdited fileURL contents =>
      rw [← Option.some.inj leftStep, ← Option.some.inj rightStep]
      simp only [published, sameURL, sameBase, sameFiles, sameWritten]

end Steps

/-- Two runs that differ only in their calls of `applyLocalOverrides` have the
same base and have written the same contents. -/
theorem localOverrides_not_published (library : JsonLibrary)
    (files : String → Option (List Char)) {leftCalls rightCalls : List Call}
    {left right : ConfigStore}
    (leftRun : RunWhere (step library) (UpdateSucceeds library) (fresh files) leftCalls left)
    (rightRun : RunWhere (step library) (UpdateSucceeds library) (fresh files) rightCalls
      right)
    (sameCalls : leftCalls.filter Call.isPublic = rightCalls.filter Call.isPublic) :
    left.baseJSON = right.baseJSON ∧ left.written = right.written := by
  have samePublished : left.published = right.published := by
    refine leftRun.view_eq ?_ ?_ rightRun rfl sameCalls
    · intro state call next stepped hidden
      cases call with
      | applyLocalOverrides localJson =>
          rw [← Option.some.inj stepped]
          exact published_applyLocalOverrides _
      | _ => cases hidden
    · intro _ _ _ _ _ isPublic same leftStep leftSucceeds rightStep rightSucceeds
      exact published_step isPublic same leftStep leftSucceeds rightStep rightSucceeds
  obtain ⟨-, base, -, written⟩ := published_congr samePublished
  exact ⟨base, written⟩

/-- A saved configuration with an override of its URL, and one without. -/
theorem localOverrides_not_published_url :
    ∃ left right : ConfigStore,
      left.localOverrides.member? "url" = some (.string "b") ∧
      right.localOverrides = .null ∧
      left.baseJSON = right.baseJSON ∧ left.written = right.written := by
  let library := CConfigFile.plainLibrary
  let files : String → Option (List Char) :=
    fun _ => some ((CConfigFile.oneString "a/b").dump library none)
  let save : Call := .saveConfigFile ⟨true, "20260101_000000", true⟩
  let override : Call := .applyLocalOverrides
    ⟨CConfigFile.oneString "b", CConfigFile.wellFormed_oneString "b"⟩
  have started : RunWhere (step library) (UpdateSucceeds library) (fresh files)
      [.initConfigFile "config.json"] _ := RunWhere.nil.snoc rfl trivial
  have overridden : RunWhere (step library) (UpdateSucceeds library) (fresh files)
      ([.initConfigFile "config.json"] ++ [override] ++ [save]) _ :=
    (started.snoc (show step library _ override = some _ from rfl) trivial).snoc
      (show step library _ save = some _ from rfl) trivial
  have plain : RunWhere (step library) (UpdateSucceeds library) (fresh files)
      ([.initConfigFile "config.json"] ++ [save]) _ :=
    started.snoc (show step library _ save = some _ from rfl) trivial
  exact ⟨_, _, rfl, rfl, localOverrides_not_published library files overridden plain rfl⟩

end ConfigStore

end DroneEngage
