import DroneEngage.ConfigRoundTrip
import DroneEngage.ConfigStore

/-!
# Is an update applied as a whole?

`updateJSON` sets the pending flag before it parses, and applies the entries of
an update one by one to the runtime configuration and then to the base.  An
entry that throws ends it where it is.
-/

namespace DroneEngage

open CommentRemoval

namespace ConfigStore

/-- All entries of an update go through, with this result. -/
def Applied (entries : List (String × Json)) (target result : Json) : Prop :=
  entries.foldlM (fun document entry => CConfigFile.applyEntry entry.1 entry.2 document)
    target = Except.ok result

def Applies (entries : List (String × Json)) (target : Json) : Prop :=
  ∃ result, Applied entries target result

/-- Every value that a path meets before its end is an object or null. -/
def PathOpen : List String → Json → Prop
  | [], _ => True
  | [_], target => target = .null ∨ target.isObject
  | part :: next :: rest, target =>
      (target = .null ∨ target.isObject) ∧
        ∀ child, target.member? part = some child → PathOpen (next :: rest) child

/-- The path of an entry leads through a value of another kind, and the entries before it
write what is there already. -/
def FailsUnchanged (entries : List (String × Json)) (target : Json) : Prop :=
  ∃ front entry rest, entries = front ++ entry :: rest ∧ Applied front target target ∧
    ¬ PathOpen (CConfigFile.entryPath entry.1) target

/-- The update is applied to both documents and the base is saved, or an error
is reported and nothing has changed. -/
def UpdatesAtomically (library : JsonLibrary) (disk : Disk) (store : ConfigStore)
    (jsonString : List Char) : Prop :=
  let outcome := updateJSON library disk store jsonString
  (∃ updateJson, library.parse (removeComments jsonString) = some updateJson ∧
    Applied updateJson.items store.configJSON outcome.1.configJSON ∧
    Applied updateJson.items store.baseJSON outcome.1.baseJSON ∧
    outcome.1.files store.fileURL =
      some (outcome.1.baseJSON.dump library (some 4))) ∨
  (outcome.2 ≠ none ∧ outcome.1.configJSON = store.configJSON ∧
    outcome.1.baseJSON = store.baseJSON ∧
    outcome.1.updatePending = store.updatePending ∧ outcome.1.files = store.files)

/-- All entries go through exactly when `applyUpdateJSON` meets no exception. -/
theorem applied_iff {entries : List (String × Json)} {target result : Json} :
    Applied entries target result ↔
      CConfigFile.applyUpdateJSON target entries = (result, none) := by
  induction entries generalizing target with
  | nil =>
      rw [Applied, List.foldlM_nil, CConfigFile.applyUpdateJSON, Prod.mk.injEq]
      simp [pure, Except.pure]
  | cons entry rest ih =>
      obtain ⟨key, value⟩ := entry
      rw [Applied, List.foldlM_cons, CConfigFile.applyUpdateJSON]
      cases applied : CConfigFile.applyEntry key value target with
      | ok updated => exact ih
      | error exception => simp [bind, Except.bind]

theorem applies_iff {entries : List (String × Json)} {target : Json} :
    Applies entries target ↔ (CConfigFile.applyUpdateJSON target entries).2 = none := by
  constructor
  · rintro ⟨result, applied⟩
    rw [applied_iff.mp applied]
  · intro through
    exact ⟨_, applied_iff.mpr (Prod.ext rfl through)⟩

theorem applied_cons_iff {key : String} {value target result : Json}
    {entries : List (String × Json)} :
    Applied ((key, value) :: entries) target result ↔
      ∃ updated, CConfigFile.assignPath (CConfigFile.entryPath key) value target =
        .ok updated ∧ Applied entries updated result := by
  rw [Applied, List.foldlM_cons, CConfigFile.applyEntry_eq_assignPath]
  cases CConfigFile.assignPath (CConfigFile.entryPath key) value target with
  | ok updated => simp [Applied, bind, Except.bind]
  | error exception => simp [bind, Except.bind]

theorem pathOpen_of_null_or_empty {path : List String} {target : Json}
    (kind : target = .null ∨ target = .object []) : PathOpen path target := by
  match path with
  | [] => exact trivial
  | [_] => rcases kind with rfl | rfl <;> simp [PathOpen, Json.isObject]
  | _ :: _ :: _ =>
      rcases kind with rfl | rfl <;> simp [PathOpen, Json.isObject, Json.member?]

/-- An entry goes through exactly when its path is open. -/
theorem assignPath_ok_iff (path : List String) (value target : Json) :
    (∃ updated, CConfigFile.assignPath path value target = .ok updated) ↔
      PathOpen path target := by
  induction path generalizing target with
  | nil => exact iff_of_true ⟨target, rfl⟩ trivial
  | cons part rest ih =>
      cases rest with
      | nil =>
          simp only [CConfigFile.assignPath, Json.assignMember_eq_ok, PathOpen]
          constructor
          · rintro ⟨_, kind, _⟩
            exact kind
          · intro kind
            exact ⟨_, kind, rfl⟩
      | cons next rest =>
          simp only [CConfigFile.assignPath_cons_eq_ok, Json.assignMember_eq_ok, PathOpen]
          have below : (∃ assigned, CConfigFile.assignPath (next :: rest) value
                ((target.member? part).getD (.object [])) = .ok assigned) ↔
              ∀ child, target.member? part = some child → PathOpen (next :: rest) child := by
            rw [ih]
            cases target.member? part with
            | none =>
                refine iff_of_true (pathOpen_of_null_or_empty (.inr rfl)) fun child absent => ?_
                cases absent
            | some child => simp
          rw [← below]
          constructor
          · rintro ⟨_, assigned, through, kind, _⟩
            exact ⟨kind, assigned, through⟩
          · rintro ⟨kind, assigned, through⟩
            exact ⟨_, assigned, through, kind, rfl⟩

/-- An exception ends the update at an entry, after those before it. -/
theorem applyUpdateJSON_error_iff {entries : List (String × Json)} {target result : Json} :
    (∃ exception, CConfigFile.applyUpdateJSON target entries = (result, some exception)) ↔
      ∃ front entry rest, entries = front ++ entry :: rest ∧ Applied front target result ∧
        ¬ PathOpen (CConfigFile.entryPath entry.1) result := by
  induction entries generalizing target with
  | nil => simp [CConfigFile.applyUpdateJSON]
  | cons first others ih =>
      obtain ⟨key, value⟩ := first
      rw [CConfigFile.applyUpdateJSON, CConfigFile.applyEntry_eq_assignPath]
      have isOpen := assignPath_ok_iff (CConfigFile.entryPath key) value target
      constructor
      · rintro ⟨exception, ended⟩
        cases assigned : CConfigFile.assignPath (CConfigFile.entryPath key) value target with
        | error _ =>
            rw [assigned] at ended
            obtain rfl := (Prod.mk.inj ended).1
            refine ⟨[], (key, value), others, rfl, rfl, ?_⟩
            rw [← isOpen, assigned]
            simp
        | ok updated =>
            rw [assigned] at ended
            obtain ⟨front, entry, rest, rfl, applied, blocked⟩ := ih.mp ⟨exception, ended⟩
            exact ⟨(key, value) :: front, entry, rest, rfl,
              applied_cons_iff.mpr ⟨updated, assigned, applied⟩, blocked⟩
      · rintro ⟨front, entry, rest, split, applied, blocked⟩
        cases front with
        | nil =>
            obtain ⟨rfl, -⟩ := List.cons.inj split
            obtain rfl := Except.ok.inj applied
            cases assigned : CConfigFile.assignPath (CConfigFile.entryPath key) value target with
            | error exception => exact ⟨exception, rfl⟩
            | ok updated => exact absurd (isOpen.mp ⟨updated, assigned⟩) blocked
        | cons applied' front =>
            obtain ⟨rfl, rfl⟩ := List.cons.inj split
            obtain ⟨updated, assigned, applied⟩ := applied_cons_iff.mp applied
            rw [assigned]
            exact ih.mpr ⟨front, entry, rest, rfl, applied, blocked⟩

theorem failsUnchanged_iff {entries : List (String × Json)} {target : Json} :
    FailsUnchanged entries target ↔
      ∃ exception, CConfigFile.applyUpdateJSON target entries = (target, some exception) :=
  applyUpdateJSON_error_iff.symm

/-- An update is atomic exactly when it parses and goes through in both
documents, or when the flag was set already and what it did before it failed has
changed nothing. -/
theorem updateJSON_atomic_iff (library : JsonLibrary) (disk : Disk) (opens : disk.opens)
    (store : ConfigStore) (jsonString : List Char) :
    UpdatesAtomically library disk store jsonString ↔
      (∃ updateJson, library.parse (removeComments jsonString) = some updateJson ∧
        Applies updateJson.items store.configJSON ∧
        Applies updateJson.items store.baseJSON) ∨
      (store.updatePending ∧
        ∀ updateJson, library.parse (removeComments jsonString) = some updateJson →
          FailsUnchanged updateJson.items store.configJSON ∨
          (Applied updateJson.items store.configJSON store.configJSON ∧
            FailsUnchanged updateJson.items store.baseJSON)) := by
  unfold UpdatesAtomically updateJSON
  cases parsed : library.parse (removeComments jsonString) with
  | none => simp
  | some updateJson =>
      simp only [Option.some.injEq, exists_eq_left', forall_eq', applies_iff, applied_iff,
        failsUnchanged_iff]
      rcases runtimeResult : CConfigFile.applyUpdateJSON store.configJSON updateJson.items with
        ⟨runtime, none | exception⟩
      · rcases baseResult : CConfigFile.applyUpdateJSON store.baseJSON updateJson.items with
          ⟨base, none | exception⟩
        · obtain ⟨files, written, saved⟩ := @saveConfigFile_eq library disk
            { store with updatePending := true, configJSON := runtime, baseJSON := base }
          have contents := @saveConfigFile_files_fileURL library disk
            { store with updatePending := true, configJSON := runtime, baseJSON := base }
          rw [if_pos opens, saved] at contents
          simp only [saved]
          exact iff_of_true (.inl ⟨trivial, trivial, contents⟩) (.inl ⟨trivial, trivial⟩)
        · simp only
          constructor
          · rintro (⟨-, impossible, -⟩ | ⟨-, runtimeSame, baseSame, pending, -⟩)
            · cases impossible
            · refine .inr ⟨pending.symm, .inr ⟨by rw [runtimeSame], exception, by rw [baseSame]⟩⟩
          · rintro (⟨-, impossible⟩ | ⟨pending, ⟨_, impossible⟩ | ⟨runtimeSame, _, baseSame⟩⟩)
            · cases impossible
            · cases impossible
            · refine .inr ⟨nofun, (Prod.mk.inj runtimeSame).1, (Prod.mk.inj baseSame).1,
                pending.symm, trivial⟩
      · simp only
        constructor
        · rintro (⟨impossible, -⟩ | ⟨-, runtimeSame, -, pending, -⟩)
          · cases impossible
          · exact .inr ⟨pending.symm, .inl ⟨exception, by rw [runtimeSame]⟩⟩
        · rintro (⟨impossible, -⟩ | ⟨pending, ⟨_, runtimeSame⟩ | ⟨impossible, -⟩⟩)
          · cases impossible
          · exact .inr ⟨nofun, (Prod.mk.inj runtimeSame).1, trivial, pending.symm, trivial⟩
          · cases impossible

/-- An update of the URL of a configuration that has one. -/
theorem updateJSON_atomic_iff_url :
    let library := CConfigFile.plainLibrary
    let text := (CConfigFile.oneString "a/b").dump library none
    let disk : Disk := ⟨true, "20260101_000000", true⟩
    let store : ConfigStore :=
      { fresh fun _ => some text with configJSON := CConfigFile.oneString "b" }
    UpdatesAtomically library disk store text := by
  intro library text disk store
  have parsed : library.parse (removeComments text) = some (CConfigFile.oneString "a/b") := rfl
  exact (updateJSON_atomic_iff library disk rfl store text).mpr
    (.inl ⟨_, parsed, ⟨_, rfl⟩, ⟨_, rfl⟩⟩)

/-- An update of `a`, and of a `z.y` that can not be reached where `z` is a number. -/
def blockedUpdate : Json :=
  .object [("a", .numberUnsigned 1), ("z.y", .numberUnsigned 2)]

theorem wellFormed_blockedUpdate : blockedUpdate.WellFormed := by
  refine .object _ ?_ ?_
  · simp [Json.keyBefore, Json.charsBefore]
  · intro entry member
    rcases List.mem_cons.mp member with rfl | last
    · exact .numberUnsigned 1
    · rw [List.mem_singleton.mp last]
      exact .numberUnsigned 2

/-- The first entry is applied to the runtime configuration before the second
one throws. -/
theorem updateJSON_not_atomic :
    ¬ ∀ (library : JsonLibrary) (disk : Disk) (store : ConfigStore) (jsonString : List Char),
      disk.opens → UpdatesAtomically library disk store jsonString := by
  intro always
  let text := "\x7b\"a\":1,\"z.y\":2\x7d".toList
  let library := CConfigFile.oneDocumentLibrary blockedUpdate wellFormed_blockedUpdate text text
  let number : Json := .object [("z", .numberUnsigned 1)]
  let store : ConfigStore :=
    { fresh fun _ => none with fileURL := "config.json", configJSON := number, baseJSON := number }
  have parsed : library.parse (removeComments text) = some blockedUpdate := by rfl
  rcases always library ⟨true, "", true⟩ store text rfl with
    ⟨updateJson, parsed', applied, -⟩ | ⟨-, runtimeSame, -⟩
  · obtain rfl := Option.some.inj (parsed.symm.trans parsed')
    cases applied
  · have members := congrArg (fun document => document.entries.length) runtimeSame
    revert members
    decide

end ConfigStore

end DroneEngage
