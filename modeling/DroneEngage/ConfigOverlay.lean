import DroneEngage.ConfigAtomicity

/-!
# The runtime configuration as base plus overrides

The runtime configuration is meant to be the base with the local overrides
merged over it.  A reload makes it so; the other calls keep it so only under a
condition: overrides that are there must not be lost at an initialisation or
emptied, and an update must not write to a value that they set.
-/

namespace DroneEngage

open CommentRemoval EventRuns

namespace ConfigStore

/-- The base with the overrides merged over it. -/
def overlay (base overrides : Json) : Json :=
  if overrides.isNull || overrides.isEmpty then base else Json.deepMerge base overrides

/-- The runtime configuration is base plus overrides, which is what a reload
makes of the base. -/
def RuntimeIsOverlay (library : JsonLibrary) (store : ConfigStore) : Prop :=
  store.configJSON = overlay store.baseJSON store.localOverrides ∧
    ∀ reloaded, reloadFile library store = some reloaded →
      reloaded.baseJSON = store.baseJSON → reloaded.configJSON = store.configJSON

/-- The update stops at an exception and all it wrote was there already. -/
def FailsWithoutEffect (store : ConfigStore) (updateJson : Json) : Prop :=
  FailsUnchanged updateJson.items store.configJSON ∨
    Applied updateJson.items store.configJSON store.configJSON ∧
      FailsUnchanged updateJson.items store.baseJSON

/-- The calls after which the runtime configuration is still base plus
overrides; the overrides themselves are null or an object. -/
def KeepsOverlay (library : JsonLibrary) (store : ConfigStore) : Call → Prop
  -- the overrides of before say nothing that the file does not say
  | .initConfigFile fileURL =>
      ∀ document, readDocument library store fileURL = some document →
        overlay document store.localOverrides = document
  -- overrides are emptied only where they said nothing
  | .applyLocalOverrides localJson =>
      (localJson.val.isNull ∨ localJson.val.isObject) ∧
        (localJson.val.isEmpty →
          overlay store.baseJSON store.localOverrides = store.baseJSON)
  -- the update goes through in the base and writes to no override
  | .updateJSON _ jsonString =>
      ∀ updateJson, library.parse (removeComments jsonString) = some updateJson →
        FailsWithoutEffect store updateJson ∨
        Applies updateJson.items store.baseJSON ∧
          ∀ entry ∈ updateJson.items,
            CConfigFile.Unshadowed (CConfigFile.entryPath entry.1) entry.2
              store.localOverrides
  | .reloadFile | .saveConfigFile _ | .fileEdited _ _ => True

/-- What holds along the runs whose calls keep the overlay. -/
structure Overlaid (store : ConfigStore) : Prop where
  wellFormedBase : store.baseJSON.WellFormed
  wellFormedOverrides : store.localOverrides.WellFormed
  kind : store.localOverrides.isNull ∨ store.localOverrides.isObject
  runtime : store.configJSON = overlay store.baseJSON store.localOverrides

section Overlay

variable {base result overrides : Json} {entries : List (String × Json)}

theorem Applied.wellFormed (applied : Applied entries base result)
    (wellFormed : base.WellFormed) (wellFormedEntries : ∀ entry ∈ entries, entry.2.WellFormed) :
    result.WellFormed := by
  induction entries generalizing base with
  | nil =>
      obtain rfl := Except.ok.inj applied
      exact wellFormed
  | cons entry rest ih =>
      obtain ⟨updated, assigned, applied⟩ := applied_cons_iff.mp applied
      apply ih applied
      · exact CConfigFile.assignPath_wellFormed wellFormed
          (wellFormedEntries entry List.mem_cons_self) assigned
      · exact fun later member => wellFormedEntries later (List.mem_cons_of_mem entry member)

/-- An update that writes to no override goes through the merge as through the
base. -/
theorem Applied.deepMerge (applied : Applied entries base result)
    (wellFormed : base.WellFormed) (wellFormedEntries : ∀ entry ∈ entries, entry.2.WellFormed)
    (wellFormedOverrides : overrides.WellFormed) (isObject : overrides.isObject)
    (unshadowed : ∀ entry ∈ entries,
      CConfigFile.Unshadowed (CConfigFile.entryPath entry.1) entry.2 overrides) :
    Applied entries (base.deepMerge overrides) (result.deepMerge overrides) := by
  induction entries generalizing base with
  | nil =>
      obtain rfl := Except.ok.inj applied
      rfl
  | cons entry rest ih =>
      obtain ⟨key, value⟩ := entry
      obtain ⟨updated, assigned, applied⟩ := applied_cons_iff.mp applied
      have wellFormedValue := wellFormedEntries _ List.mem_cons_self
      refine applied_cons_iff.mpr ⟨updated.deepMerge overrides, ?_, ?_⟩
      · by_cases empty : CConfigFile.entryPath key = []
        · rw [empty] at assigned ⊢
          obtain rfl := Except.ok.inj assigned
          rfl
        · exact (CConfigFile.assignPath_deepMerge_iff wellFormed wellFormedOverrides isObject
            assigned empty).mpr (unshadowed _ List.mem_cons_self)
      · exact ih applied
          (CConfigFile.assignPath_wellFormed wellFormed wellFormedValue assigned)
          (fun later member => wellFormedEntries later (List.mem_cons_of_mem _ member))
          (fun later member => unshadowed later (List.mem_cons_of_mem _ member))

theorem Applied.overlay (applied : Applied entries base result)
    (wellFormed : base.WellFormed) (wellFormedEntries : ∀ entry ∈ entries, entry.2.WellFormed)
    (wellFormedOverrides : overrides.WellFormed)
    (kind : overrides.isNull ∨ overrides.isObject)
    (unshadowed : ∀ entry ∈ entries,
      CConfigFile.Unshadowed (CConfigFile.entryPath entry.1) entry.2 overrides) :
    Applied entries (overlay base overrides) (overlay result overrides) := by
  unfold ConfigStore.overlay
  split
  · exact applied
  · rename_i present
    rw [Bool.or_eq_true, not_or] at present
    exact applied.deepMerge wellFormed wellFormedEntries wellFormedOverrides
      (kind.resolve_left present.1) unshadowed

end Overlay

section Steps

variable {library : JsonLibrary} {store next : ConfigStore}

theorem applyLocalOverrides_eq (store : ConfigStore) (localJson : Json) :
    ∃ runtime, store.applyLocalOverrides localJson =
        { store with configJSON := runtime, localOverrides := localJson } ∧
      (runtime = overlay store.baseJSON localJson ∨
        localJson.isEmpty ∧ runtime = store.configJSON) := by
  unfold applyLocalOverrides overlay
  split
  · rename_i absent
    refine ⟨store.configJSON, rfl, .inr ⟨?_, rfl⟩⟩
    cases localJson <;> simp_all [Json.isNull, Json.isEmpty]
  · exact ⟨_, rfl, .inl rfl⟩

theorem overlay_of_isEmpty {base overrides : Json} (empty : overrides.isEmpty) :
    overlay base overrides = base := by
  simp [overlay, empty]

/-- A reload puts the runtime configuration right, whatever it was. -/
theorem reloadFile_eq_some (reloaded : reloadFile library store = some next) :
    ∃ document, readDocument library store store.fileURL = some document ∧
      next.baseJSON = document ∧ next.localOverrides = store.localOverrides ∧
      next.configJSON = overlay document store.localOverrides := by
  obtain ⟨document, read, rfl⟩ := Option.map_eq_some_iff.mp reloaded
  refine ⟨document, read, ?_⟩
  dsimp only
  split
  · rename_i null
    exact ⟨rfl, rfl, by simp [overlay, null]⟩
  · obtain ⟨runtime, applied, correct | ⟨empty, kept⟩⟩ := applyLocalOverrides_eq
      { store with updatePending := false, configJSON := document, baseJSON := document }
      store.localOverrides
    · rw [applied]
      exact ⟨rfl, rfl, correct⟩
    · rw [applied, overlay_of_isEmpty empty]
      exact ⟨rfl, rfl, kept⟩

theorem readDocument_wellFormed {fileURL : String} {document : Json}
    (read : readDocument library store fileURL = some document) : document.WellFormed := by
  obtain ⟨contents, -, parsed⟩ := Option.bind_eq_some_iff.mp read
  exact library.parse_wellFormed parsed

/-- An update that fails without effect changes only the pending flag. -/
theorem updateJSON_of_failsWithoutEffect {disk : Disk} {jsonString : List Char}
    (fails : ∀ updateJson, library.parse (removeComments jsonString) = some updateJson →
      FailsWithoutEffect store updateJson) :
    (updateJSON library disk store jsonString).1 = { store with updatePending := true } := by
  unfold updateJSON
  cases parsed : library.parse (removeComments jsonString) with
  | none => rfl
  | some updateJson =>
      rcases fails updateJson parsed with fails | ⟨through, fails⟩
      · obtain ⟨exception, failed⟩ := failsUnchanged_iff.mp fails
        simp only [failed]
      · obtain ⟨exception, failed⟩ := failsUnchanged_iff.mp fails
        rw [applied_iff] at through
        simp only [through, failed]

theorem updateJSON_of_applied {disk : Disk} {jsonString : List Char}
    {updateJson runtime base : Json}
    (parsed : library.parse (removeComments jsonString) = some updateJson)
    (appliedRuntime : Applied updateJson.items store.configJSON runtime)
    (appliedBase : Applied updateJson.items store.baseJSON base) :
    ∃ files written, (updateJSON library disk store jsonString).1 =
      { store with
        updatePending := true, configJSON := runtime, baseJSON := base,
        files := files, written := written } := by
  rw [applied_iff] at appliedRuntime appliedBase
  obtain ⟨files, written, saved⟩ := @saveConfigFile_eq library disk
    { store with updatePending := true, configJSON := runtime, baseJSON := base }
  exact ⟨files, written, by simp only [updateJSON, parsed, appliedRuntime, appliedBase, saved]⟩

theorem Overlaid.updateJSON {disk : Disk} {jsonString : List Char}
    (overlaid : Overlaid store) (keeps : KeepsOverlay library store (.updateJSON disk jsonString)) :
    Overlaid (updateJSON library disk store jsonString).1 := by
  obtain ⟨wellFormedBase, wellFormedOverrides, kind, runtime⟩ := overlaid
  by_cases fails : ∀ updateJson, library.parse (removeComments jsonString) = some updateJson →
      FailsWithoutEffect store updateJson
  · rw [updateJSON_of_failsWithoutEffect fails]
    exact ⟨wellFormedBase, wellFormedOverrides, kind, runtime⟩
  · push Not at fails
    obtain ⟨updateJson, parsed, effective⟩ := fails
    obtain ⟨⟨base, applied⟩, unshadowed⟩ := (keeps updateJson parsed).resolve_left effective
    have wellFormedEntries : ∀ entry ∈ updateJson.items, entry.2.WellFormed :=
      fun _ => (library.parse_wellFormed parsed).items
    have appliedRuntime := applied.overlay wellFormedBase wellFormedEntries
      wellFormedOverrides kind unshadowed
    rw [← runtime] at appliedRuntime
    obtain ⟨files, written, updated⟩ :=
      @updateJSON_of_applied library store disk _ _ _ _ parsed appliedRuntime applied
    rw [updated]
    exact ⟨applied.wellFormed wellFormedBase wellFormedEntries, wellFormedOverrides, kind, rfl⟩

theorem Overlaid.step {call : Call} (overlaid : Overlaid store)
    (stepped : step library store call = some next) (keeps : KeepsOverlay library store call) :
    Overlaid next := by
  obtain ⟨wellFormedBase, wellFormedOverrides, kind, runtime⟩ := id overlaid
  cases call with
  | initConfigFile fileURL =>
      obtain ⟨document, read, rfl⟩ := Option.map_eq_some_iff.mp stepped
      exact ⟨readDocument_wellFormed read, wellFormedOverrides, kind,
        (keeps document read).symm⟩
  | reloadFile =>
      obtain ⟨document, read, base, overrides, reloaded⟩ := reloadFile_eq_some stepped
      refine ⟨base ▸ readDocument_wellFormed read, ?_, ?_, ?_⟩
      · rw [overrides]
        exact wellFormedOverrides
      · rw [overrides]
        exact kind
      · rw [base, overrides, reloaded]
  | applyLocalOverrides localJson =>
      obtain ⟨runtime', applied, shown⟩ := store.applyLocalOverrides_eq localJson.val
      rw [← Option.some.inj stepped, applied]
      refine ⟨wellFormedBase, localJson.property, keeps.1, ?_⟩
      rcases shown with shown | ⟨empty, rfl⟩
      · exact shown
      · rw [overlay_of_isEmpty empty, runtime]
        exact keeps.2 empty
  | updateJSON disk jsonString =>
      rw [← Option.some.inj stepped]
      exact overlaid.updateJSON keeps
  | saveConfigFile disk =>
      obtain ⟨files, written, saved⟩ := @saveConfigFile_eq library disk store
      rw [← Option.some.inj stepped, saved]
      exact ⟨wellFormedBase, wellFormedOverrides, kind, runtime⟩
  | fileEdited fileURL contents =>
      rw [← Option.some.inj stepped]
      exact ⟨wellFormedBase, wellFormedOverrides, kind, runtime⟩

theorem Overlaid.runtimeIsOverlay (overlaid : Overlaid store) :
    RuntimeIsOverlay library store := by
  refine ⟨overlaid.runtime, fun reloaded steps same => ?_⟩
  obtain ⟨document, -, base, -, shown⟩ := reloadFile_eq_some steps
  rw [shown, overlaid.runtime, ← same, base]

end Steps

section Exactness

variable {library : JsonLibrary} {store next : ConfigStore}

theorem unshadowed_of_no_entries {overrides : Json} (empty : overrides.entries = [])
    (path : List String) (value : Json) : CConfigFile.Unshadowed path value overrides := by
  have absent (key : String) : overrides.member? key = none := by
    rw [Json.member?_eq_lookup, empty, List.lookup_nil]
  match path with
  | [] => exact trivial
  | [_] => simp [CConfigFile.Unshadowed, absent]
  | _ :: _ :: _ => simp [CConfigFile.Unshadowed, absent]

/-- An update of one entry that goes through in the base and in the merge writes
to no override, if it leaves the merge. -/
theorem unshadowed_of_overlay {path : List String} {value base updated overrides : Json}
    (wellFormed : base.WellFormed) (wellFormedOverrides : overrides.WellFormed)
    (kind : overrides.isNull ∨ overrides.isObject)
    (assigned : CConfigFile.assignPath path value base = .ok updated)
    (shown : CConfigFile.assignPath path value (overlay base overrides) =
      .ok (overlay updated overrides)) : CConfigFile.Unshadowed path value overrides := by
  by_cases absent : overrides.isNull || overrides.isEmpty
  · refine unshadowed_of_no_entries ?_ path value
    cases overrides <;> simp_all [Json.isNull, Json.isEmpty, Json.entries, Json.isObject]
  · unfold overlay at shown
    rw [if_neg absent, if_neg absent] at shown
    rw [Bool.or_eq_true, not_or] at absent
    by_cases empty : path = []
    · rw [empty]
      exact trivial
    · exact (CConfigFile.assignPath_deepMerge_iff wellFormed wellFormedOverrides
        (kind.resolve_left absent.1) assigned empty).mp shown

section OneEntry

variable {key : String} {value target : Json}

theorem applyUpdateJSON_single {updated : Json}
    (through : CConfigFile.assignPath (CConfigFile.entryPath key) value target = .ok updated) :
    CConfigFile.applyUpdateJSON target [(key, value)] = (updated, none) := by
  rw [CConfigFile.applyUpdateJSON, CConfigFile.applyEntry_eq_assignPath, through]
  rfl

theorem applyUpdateJSON_single_fails {exception : JsonException}
    (fails : CConfigFile.assignPath (CConfigFile.entryPath key) value target =
      .error exception) :
    CConfigFile.applyUpdateJSON target [(key, value)] = (target, some exception) := by
  rw [CConfigFile.applyUpdateJSON, CConfigFile.applyEntry_eq_assignPath, fails]

end OneEntry

/-- An update with one entry that leaves the runtime configuration base plus overrides
fails without effect, or goes through where no override stands in the way. -/
theorem keepsOverlay_of_updateJSON (overlaid : Overlaid store) {disk : Disk}
    {jsonString : List Char}
    (stepped : step library store (.updateJSON disk jsonString) = some next)
    (oneEntry : ∀ updateJson, library.parse (removeComments jsonString) = some updateJson →
      ∃ entry, updateJson.items = [entry])
    (shown : next.configJSON = overlay next.baseJSON next.localOverrides) :
    KeepsOverlay library store (.updateJSON disk jsonString) := by
  obtain ⟨wellFormedBase, wellFormedOverrides, kind, runtime⟩ := overlaid
  intro updateJson parsed
  obtain ⟨⟨key, value⟩, items⟩ := oneEntry updateJson parsed
  cases throughRuntime :
      CConfigFile.assignPath (CConfigFile.entryPath key) value store.configJSON with
  | error exception =>
      refine .inl (.inl (failsUnchanged_iff.mpr ⟨exception, ?_⟩))
      rw [items, applyUpdateJSON_single_fails throughRuntime]
  | ok updatedRuntime =>
      have appliedRuntime : Applied updateJson.items store.configJSON updatedRuntime := by
        rw [items, applied_iff, applyUpdateJSON_single throughRuntime]
      cases throughBase :
          CConfigFile.assignPath (CConfigFile.entryPath key) value store.baseJSON with
      | error exception =>
          have failed : CConfigFile.applyUpdateJSON store.baseJSON updateJson.items =
              (store.baseJSON, some exception) := by
            rw [items, applyUpdateJSON_single_fails throughBase]
          have after := Option.some.inj stepped
          rw [applied_iff] at appliedRuntime
          simp only [updateJSON, parsed, appliedRuntime, failed] at after
          rw [← after, ← runtime] at shown
          refine .inl (.inr ⟨?_, failsUnchanged_iff.mpr ⟨exception, failed⟩⟩)
          rw [applied_iff, appliedRuntime]
          exact congrArg (·, none) shown
      | ok updatedBase =>
          have appliedBase : Applied updateJson.items store.baseJSON updatedBase := by
            rw [items, applied_iff, applyUpdateJSON_single throughBase]
          obtain ⟨files, written, updated⟩ :=
            @updateJSON_of_applied library store disk _ _ _ _ parsed appliedRuntime
              appliedBase
          rw [← Option.some.inj stepped, updated] at shown
          refine .inr ⟨⟨updatedBase, appliedBase⟩, fun entry member => ?_⟩
          rw [items] at member
          rw [List.mem_singleton.mp member]
          apply unshadowed_of_overlay wellFormedBase wellFormedOverrides kind throughBase
          rw [← runtime, throughRuntime]
          exact congrArg Except.ok shown

/-- The condition on a call is exact: where a call leaves the runtime
configuration base plus overrides, it meets the condition.  An update has one
entry here; of several, a later one may repair what an earlier one broke. -/
theorem keepsOverlay_of_step {call : Call} (overlaid : Overlaid store)
    (stepped : step library store call = some next)
    (domain : ∀ localJson : Json.Document, call = .applyLocalOverrides localJson →
      localJson.val.isNull ∨ localJson.val.isObject)
    (oneEntry : ∀ disk jsonString updateJson, call = .updateJSON disk jsonString →
      library.parse (removeComments jsonString) = some updateJson →
      ∃ entry, updateJson.items = [entry])
    (shown : next.configJSON = overlay next.baseJSON next.localOverrides) :
    KeepsOverlay library store call := by
  cases call with
  | initConfigFile fileURL =>
      obtain ⟨document, read, rfl⟩ := Option.map_eq_some_iff.mp stepped
      intro document' read'
      obtain rfl := Option.some.inj (read.symm.trans read')
      exact shown.symm
  | applyLocalOverrides localJson =>
      refine ⟨domain localJson rfl, fun empty => ?_⟩
      have kept : store.applyLocalOverrides localJson.val =
          { store with localOverrides := localJson.val } := by
        unfold applyLocalOverrides
        rw [empty, Bool.or_true, if_pos rfl]
      rw [← Option.some.inj stepped, kept, overlay_of_isEmpty empty] at shown
      rw [← overlaid.runtime]
      exact shown
  | updateJSON disk jsonString =>
      exact keepsOverlay_of_updateJSON overlaid stepped
        (fun updateJson parsed => oneEntry disk jsonString updateJson rfl parsed) shown
  | _ => exact trivial

end Exactness

/-- Along every run of calls that keep the overlay, the runtime configuration is
base plus overrides. -/
theorem runtimeIsOverlay_of_run (library : JsonLibrary) (files : String → Option (List Char))
    {calls : List Call} {store : ConfigStore}
    (run : RunWhere (step library) (KeepsOverlay library) (fresh files) calls store) :
    RuntimeIsOverlay library store := by
  have overlaid : Overlaid store := by
    refine run.invariant Overlaid ⟨.null, .null, .inl rfl, rfl⟩ ?_
    intro _ _ _ _ _ stepped keeps overlaid
    exact overlaid.step stepped keeps
  exact overlaid.runtimeIsOverlay

/-- An override of a name, then an update of the URL. -/
theorem runtimeIsOverlay_of_run_name :
    ∃ store : ConfigStore,
      store.localOverrides.member? "name" = some (.string "b") ∧
      RuntimeIsOverlay CConfigFile.plainLibrary store := by
  let library := CConfigFile.plainLibrary
  let text := (CConfigFile.oneString "a/b").dump library none
  let name : Json.Document :=
    ⟨.object [("name", .string "b")], (Json.WellFormed.string "b").singleton _⟩
  let override : Call := .applyLocalOverrides name
  let update : Call := .updateJSON ⟨true, "20260101_000000", true⟩ text
  have started : RunWhere (step library) (KeepsOverlay library) (fresh fun _ => some text)
      [.initConfigFile "config.json"] _ := RunWhere.nil.snoc
    (show step library _ (.initConfigFile "config.json") = some _ from rfl) fun _ _ => rfl
  have overridden : RunWhere (step library) (KeepsOverlay library) (fresh fun _ => some text)
      ([.initConfigFile "config.json"] ++ [override]) _ :=
    started.snoc (show step library _ override = some _ from rfl) ⟨.inr rfl, nofun⟩
  have keeps (store : ConfigStore) (base : store.baseJSON = CConfigFile.oneString "a/b")
      (overrides : store.localOverrides = name.val) : KeepsOverlay library store update := by
    intro updateJson parsed
    obtain rfl : CConfigFile.oneString "a/b" = updateJson := Option.some.inj parsed
    rw [base, overrides]
    refine .inr ⟨⟨CConfigFile.oneString "a/b", rfl⟩, fun entry member => ?_⟩
    obtain rfl := List.mem_singleton.mp member
    intro shadow found
    cases show (none : Option Json) = some shadow from found
  have updated : RunWhere (step library) (KeepsOverlay library) (fresh fun _ => some text)
      ([.initConfigFile "config.json"] ++ [override] ++ [update]) _ :=
    overridden.snoc (show step library _ update = some _ from rfl) (keeps _ rfl rfl)
  exact ⟨_, rfl, runtimeIsOverlay_of_run library _ updated⟩

/-- Overrides that are taken back stay in the runtime configuration. -/
theorem runtimeIsOverlay_fails :
    ¬ ∀ (library : JsonLibrary) (files : String → Option (List Char)) (calls : List Call)
      (store : ConfigStore),
      (∀ localJson : Json.Document, .applyLocalOverrides localJson ∈ calls →
        localJson.val.isNull ∨ localJson.val.isObject) →
      Run (step library) (fresh files) calls store → RuntimeIsOverlay library store := by
  intro always
  let library := CConfigFile.plainLibrary
  let text := (CConfigFile.oneString "a/b").dump library none
  let override : Call := .applyLocalOverrides
    ⟨CConfigFile.oneString "b", CConfigFile.wellFormed_oneString "b"⟩
  let takeBack : Call := .applyLocalOverrides ⟨.null, .null⟩
  have started : Run (step library) (fresh fun _ => some text)
      [.initConfigFile "config.json"] _ := Run.nil.snoc
    (show step library _ (.initConfigFile "config.json") = some _ from rfl)
  have overridden : Run (step library) (fresh fun _ => some text)
      ([.initConfigFile "config.json"] ++ [override]) _ :=
    started.snoc (show step library _ override = some _ from rfl)
  have takenBack : Run (step library) (fresh fun _ => some text)
      ([.initConfigFile "config.json"] ++ [override] ++ [takeBack]) _ :=
    overridden.snoc (show step library _ takeBack = some _ from rfl)
  have domain : ∀ localJson : Json.Document, Call.applyLocalOverrides localJson ∈
      [.initConfigFile "config.json"] ++ [override] ++ [takeBack] →
      localJson.val.isNull ∨ localJson.val.isObject := by
    intro localJson member
    simp only [List.mem_append, List.mem_singleton, override, takeBack,
      Call.applyLocalOverrides.injEq, reduceCtorEq, false_or] at member
    rcases member with rfl | rfl
    · exact .inr rfl
    · exact .inl rfl
  have runtime := (always library _ _ _ domain takenBack).1
  have url : Json.member? (CConfigFile.oneString "b") "url" =
      Json.member? (CConfigFile.oneString "a/b") "url" := congrArg (Json.member? · "url") runtime
  simp [CConfigFile.oneString, Json.member?] at url

end ConfigStore

end DroneEngage
