import DroneEngage.BusMessages
import DroneEngage.CapabilityAdverts
import DroneEngage.ConfigOverlay
import DroneEngage.MergeLaw
import DroneEngage.RemoteConfig

/-!
# Settings that are made over the bus

The document of a configuration message is dumped, stripped of comments, parsed again and
merged entry by entry into the configuration, which is then written to its file.  What is
found along a path, in the module and after a restart, is what was sent last for it in a
message meant for the module, as long as no string that is sent opens a comment.
-/

namespace DroneEngage

open Capabilities CommentRemoval ConfigStore EventRuns

namespace CConfigFile

section Paths

variable {path rest : List String} {value target updated : Json}

theorem member?_insertMember (key other : String) (value target : Json) :
    (Json.object (Json.insertMember key value target.entries)).member? other =
      if other = key then some value else target.member? other := by
  rw [Json.member?_eq_lookup target, Json.member?, Json.lookup_insertMember]

/-- Below the place that is written lies what is written. -/
theorem valueAt_assignPath_below (nonempty : path ≠ [])
    (assigned : assignPath path value target = .ok updated) :
    Json.valueAt (path ++ rest) updated = Json.valueAt rest value := by
  induction path generalizing target updated with
  | nil => exact absurd rfl nonempty
  | cons part path ih =>
      cases path with
      | nil =>
          obtain ⟨-, rfl⟩ := Json.assignMember_eq_ok.mp assigned
          rw [List.singleton_append, Json.valueAt, member?_insertMember, if_pos rfl,
            Option.bind_some]
      | cons next path =>
          obtain ⟨child, below, written⟩ := assignPath_cons_eq_ok.mp assigned
          obtain ⟨-, rfl⟩ := Json.assignMember_eq_ok.mp written
          rw [List.cons_append, Json.valueAt, member?_insertMember, if_pos rfl,
            Option.bind_some]
          exact ih (List.cons_ne_nil _ _) below

theorem valueAt_getD_member? {key : String} (nonempty : rest ≠ []) :
    Json.valueAt rest ((target.member? key).getD (.object [])) =
      Json.valueAt (key :: rest) target := by
  rw [Json.valueAt]
  cases target.member? key with
  | some child => rfl
  | none =>
      cases rest with
      | nil => exact absurd rfl nonempty
      | cons next rest => rfl

/-- What lies elsewhere is as it was. -/
theorem valueAt_assignPath_apart {other : List String}
    (assigned : assignPath path value target = .ok updated)
    (notBelow : ¬ path <+: other) (notAbove : ¬ other <+: path) :
    Json.valueAt other updated = Json.valueAt other target := by
  induction path generalizing other target updated with
  | nil => exact absurd List.nil_prefix notBelow
  | cons part path ih =>
      cases other with
      | nil => exact absurd List.nil_prefix notAbove
      | cons key other =>
          rw [List.cons_prefix_cons, not_and] at notBelow notAbove
          cases path with
          | nil =>
              obtain ⟨-, rfl⟩ := Json.assignMember_eq_ok.mp assigned
              have elsewhere : key ≠ part := fun same => notBelow same.symm List.nil_prefix
              rw [Json.valueAt, Json.valueAt, member?_insertMember, if_neg elsewhere]
          | cons next path =>
              obtain ⟨child, below, written⟩ := assignPath_cons_eq_ok.mp assigned
              obtain ⟨-, rfl⟩ := Json.assignMember_eq_ok.mp written
              rw [Json.valueAt, member?_insertMember]
              by_cases same : key = part
              · subst same
                rw [if_pos rfl, Option.bind_some, ih below (notBelow rfl) (notAbove rfl)]
                apply valueAt_getD_member?
                rintro rfl
                exact notAbove rfl List.nil_prefix
              · rw [if_neg same, Json.valueAt]

end Paths

/-- What was written last for a path, or for one that it lies below. -/
def lastSent (path : List String) : List (String × Json) → Option (Option Json)
  | [] => none
  | (key, value) :: rest =>
      (lastSent path rest).or
        (if entryPath key ≠ [] ∧ entryPath key <+: path then
          some (Json.valueAt (path.drop (entryPath key).length) value)
        else none)

/-- No entry writes below the path, where it would change a part of what lies there. -/
def WritesNothingBelow (path : List String) (entries : List (String × Json)) : Prop :=
  ∀ entry ∈ entries, path <+: entryPath entry.1 → entryPath entry.1 = path

/-- After an update every path leads to what was written last for it. -/
theorem valueAt_of_applied {path : List String} {entries : List (String × Json)}
    {base result : Json} (applied : Applied entries base result)
    (untouched : WritesNothingBelow path entries) :
    Json.valueAt path result = (lastSent path entries).getD (Json.valueAt path base) := by
  induction entries generalizing base with
  | nil =>
      obtain rfl := Except.ok.inj applied
      rfl
  | cons entry rest ih =>
      obtain ⟨key, value⟩ := entry
      obtain ⟨updated, assigned, further⟩ := applied_cons_iff.mp applied
      rw [WritesNothingBelow, List.forall_mem_cons] at untouched
      rw [ih further untouched.2, lastSent]
      cases lastSent path rest with
      | some found => rfl
      | none =>
          rw [Option.none_or, Option.getD_none]
          by_cases skipped : entryPath key = []
          · rw [skipped] at assigned
            obtain rfl := Except.ok.inj assigned
            rw [if_neg (fun written => written.1 skipped), Option.getD_none]
          by_cases below : entryPath key <+: path
          · rw [if_pos ⟨skipped, below⟩, Option.getD_some]
            obtain ⟨more, rfl⟩ := below
            rw [List.drop_left, valueAt_assignPath_below skipped assigned]
          · rw [if_neg (fun written => below written.2), Option.getD_none]
            apply valueAt_assignPath_apart assigned below
            intro above
            exact below (untouched.1 above ▸ List.prefix_refl _)

end CConfigFile

section Strings

/-- No key and no string of a document opens a comment. -/
def OpensNoComment (document : Json) : Prop :=
  ∀ string ∈ document.strings, ¬ OpensComment string

theorem OpensComment.of_infix {text whole : List Char} (opens : OpensComment text)
    (inside : text <:+: whole) : OpensComment whole := by
  obtain ⟨front, back, rfl⟩ := inside
  have behind : OpensComment (text ++ back) := by
    induction text with
    | nil => exact opens.elim
    | cons c rest ih =>
        rcases opens with ⟨rfl, follows⟩ | later
        · left
          refine ⟨rfl, ?_⟩
          cases rest with
          | nil => simp at follows
          | cons next rest => exact follows
        · exact .inr (ih later)
  induction front with
  | nil => exact behind
  | cons c front ih => exact .inr ih

theorem infix_intercalate {α : Type*} {separator part : List α} {parts : List (List α)}
    (listed : part ∈ parts) : part <:+: List.intercalate separator parts := by
  induction parts with
  | nil => cases listed
  | cons first rest ih =>
      cases rest with
      | nil =>
          rw [List.mem_singleton] at listed
          rw [listed, List.intercalate_singleton]
      | cons next rest =>
          rw [List.intercalate_cons_cons]
          rcases List.mem_cons.mp listed with rfl | later
          · exact ⟨[], separator ++ List.intercalate separator (next :: rest), by simp⟩
          · exact (ih later).trans (List.suffix_append _ _).isInfix

/-- A part of a dotted key is a part of its text. -/
theorem utf8Chars_infix_of_mem_entryPath {key part : String}
    (listed : part ∈ CConfigFile.entryPath key) : utf8Chars part <:+: utf8Chars key := by
  unfold CConfigFile.entryPath at listed
  split at listed
  · obtain ⟨chars, kept, rfl⟩ := List.mem_map.mp listed
    have split := (List.mem_filter.mp kept).1
    obtain ⟨front, back, whole⟩ := @infix_intercalate _ ['.'] _ _ split
    rw [List.intercalate_splitOn] at whole
    have same : key = String.ofList front ++ String.ofList chars ++ String.ofList back := by
      rw [← String.ofList_append, ← String.ofList_append, whole, String.ofList_toList]
    rw [same, utf8Chars_append, utf8Chars_append]
    exact ⟨_, _, rfl⟩
  · rw [List.mem_singleton] at listed
    rw [listed]

theorem mem_stringsOfMembers {members : List (String × Json)} {string : List Char} :
    string ∈ Json.stringsOfMembers members ↔
      ∃ entry ∈ members, string = utf8Chars entry.1 ∨ string ∈ entry.2.strings := by
  induction members with
  | nil => simp [Json.stringsOfMembers]
  | cons entry rest ih =>
      rw [Json.stringsOfMembers, List.mem_cons, List.mem_append, ih, ← or_assoc]
      simp

theorem opensNoComment_object_iff {members : List (String × Json)} :
    OpensNoComment (.object members) ↔
      ∀ entry ∈ members, ¬ OpensComment (utf8Chars entry.1) ∧ OpensNoComment entry.2 := by
  constructor
  · intro clean entry listed
    constructor
    · exact clean _ (mem_stringsOfMembers.mpr ⟨entry, listed, .inl rfl⟩)
    · exact fun string inside =>
        clean string (mem_stringsOfMembers.mpr ⟨entry, listed, .inr inside⟩)
  · intro clean string listed
    obtain ⟨entry, member, rfl | inside⟩ := mem_stringsOfMembers.mp listed
    · exact (clean entry member).1
    · exact (clean entry member).2 string inside

theorem OpensNoComment.entry {document : Json} (clean : OpensNoComment document)
    {entry : String × Json} (listed : entry ∈ document.entries) :
    ¬ OpensComment (utf8Chars entry.1) ∧ OpensNoComment entry.2 := by
  cases document with
  | object members => exact opensNoComment_object_iff.mp clean entry listed
  | _ => cases listed

theorem OpensNoComment.insertMember {target value : Json} {key : String}
    (clean : OpensNoComment target) (cleanKey : ¬ OpensComment (utf8Chars key))
    (cleanValue : OpensNoComment value) :
    OpensNoComment (.object (Json.insertMember key value target.entries)) := by
  apply opensNoComment_object_iff.mpr
  intro entry listed
  rcases Json.mem_insertMember listed with rfl | old
  · exact ⟨cleanKey, cleanValue⟩
  · exact clean.entry old

theorem OpensNoComment.getD_member? {document : Json} (clean : OpensNoComment document)
    (key : String) : OpensNoComment ((document.member? key).getD (.object [])) := by
  rw [Json.member?_eq_lookup]
  cases found : document.entries.lookup key with
  | none => exact opensNoComment_object_iff.mpr (List.forall_mem_nil _)
  | some child =>
      obtain ⟨before, after, split, -⟩ := List.lookup_eq_some_iff.mp found
      exact (@OpensNoComment.entry _ clean (key, child) (by simp [split])).2

theorem OpensNoComment.assignPath {path : List String} {value target updated : Json}
    (clean : OpensNoComment target) (cleanPath : ∀ part ∈ path, ¬ OpensComment (utf8Chars part))
    (cleanValue : OpensNoComment value)
    (assigned : CConfigFile.assignPath path value target = .ok updated) :
    OpensNoComment updated := by
  induction path generalizing target updated with
  | nil =>
      obtain rfl := Except.ok.inj assigned
      exact clean
  | cons part path ih =>
      rw [List.forall_mem_cons] at cleanPath
      cases path with
      | nil =>
          obtain ⟨-, rfl⟩ := Json.assignMember_eq_ok.mp assigned
          exact clean.insertMember cleanPath.1 cleanValue
      | cons next path =>
          obtain ⟨child, below, written⟩ := CConfigFile.assignPath_cons_eq_ok.mp assigned
          obtain ⟨-, rfl⟩ := Json.assignMember_eq_ok.mp written
          exact clean.insertMember cleanPath.1 (ih (clean.getD_member? part) cleanPath.2 below)

/-- An update with clean strings keeps a document clean. -/
theorem OpensNoComment.applied {members : List (String × Json)} {target result : Json}
    (clean : OpensNoComment target) (cleanMembers : OpensNoComment (.object members))
    (applied : Applied members target result) : OpensNoComment result := by
  rw [opensNoComment_object_iff] at cleanMembers
  induction members generalizing target with
  | nil =>
      obtain rfl := Except.ok.inj applied
      exact clean
  | cons entry rest ih =>
      obtain ⟨updated, assigned, further⟩ := applied_cons_iff.mp applied
      rw [List.forall_mem_cons] at cleanMembers
      apply ih _ cleanMembers.2 further
      apply clean.assignPath _ cleanMembers.1.2 assigned
      intro part listed opens
      exact cleanMembers.1.1 (OpensComment.of_infix opens (utf8Chars_infix_of_mem_entryPath listed))

/-- Nothing is removed from the text of a clean document. -/
theorem removeComments_dump {library : JsonLibrary} (plain : library.WritesPlain)
    {pretty : Option Nat} {document : Json} (clean : OpensNoComment document)
    (short : (document.dump library pretty).length < 2 ^ 31) :
    removeComments (document.dump library pretty) = document.dump library pretty := by
  have writing : (JsonLibrary.writing library.dumpFloat).Lawful :=
    ⟨plain, nofun, fun _ parsed => by cases parsed⟩
  have sameText := Json.dump_congr pretty (show library.dumpFloat =
    (JsonLibrary.writing library.dumpFloat).dumpFloat from rfl) document
  apply removeComments_of_not_opensComment short
  rw [sameText, (renders_dump pretty writing document).opensComment_iff]
  rintro ⟨string, listed, opens⟩
  exact clean string listed opens

end Strings

namespace RemoteModule

open RemoteConfig

/-- The document of a message gets into the configuration and its file: its text comes
through the removal of comments and is read as it was sent, no entry meets a value that is
no object on its way, and the file can be opened. -/
structure Lands (library : JsonLibrary) (disk : Disk) (store : ConfigStore)
    (members : List (String × Json)) : Prop where
  clean : OpensNoComment (.object members)
  short : ((Json.object members).dump library none).length < 2 ^ 31
  reads : library.parse ((Json.object members).dump library none) = some (.object members)
  inRuntime : Applies members store.configJSON
  inBase : Applies members store.baseJSON
  opens : disk.opens = true

section Step

variable {library : JsonLibrary} {beyondInt : Double → Int32} {state next : RemoteModule}
  {received : Received}

/-- What an update does whose document gets through. -/
theorem Lands.updateJSON {disk : Disk} {store : ConfigStore} {members : List (String × Json)}
    (lands : Lands library disk store members) (plain : library.WritesPlain) :
    let updated := (store.updateJSON library disk ((Json.object members).dump library none)).1
    Applied members store.configJSON updated.configJSON ∧
      Applied members store.baseJSON updated.baseJSON ∧ updated.fileURL = store.fileURL ∧
      updated.files store.fileURL = some (updated.baseJSON.dump library (some 4)) := by
  obtain ⟨runtime, appliedRuntime⟩ := lands.inRuntime
  obtain ⟨base, appliedBase⟩ := lands.inBase
  have parsed : library.parse (removeComments ((Json.object members).dump library none)) =
      some (.object members) := by
    rw [removeComments_dump plain lands.clean lands.short, lands.reads]
  have through := applied_iff.mp appliedRuntime
  have throughBase := applied_iff.mp appliedBase
  let pending : ConfigStore :=
    { store with updatePending := true, configJSON := runtime, baseJSON := base }
  have saved : (store.updateJSON library disk ((Json.object members).dump library none)).1 =
      saveConfigFile library disk pending := by
    simp only [ConfigStore.updateJSON, parsed, Json.items, through, throughBase, pending]
  obtain ⟨files, written, fields⟩ := @saveConfigFile_eq library disk pending
  have file := @saveConfigFile_files_fileURL library disk pending
  rw [if_pos lands.opens] at file
  rw [saved]
  rw [fields] at file ⊢
  exact ⟨appliedRuntime, appliedBase, rfl, file⟩

/-- The configuration after a call of the handler that ends, which it leaves as it is. -/
def LeavesAlone (store : ConfigStore) (result : ConfigActionResult) : Prop :=
  ∀ after sent updated, result = .done after sent updated → after = store

theorem leavesAlone_done {store : ConfigStore} {sent : List Envelope} {updated : List Json} :
    LeavesAlone store (.done store sent updated) := by
  intro after _ _ same
  cases same
  rfl

theorem leavesAlone_fetchConfigTemplate {moduleKey key : String} {store : ConfigStore}
    {andruavMessage : Json} :
    LeavesAlone store (fetchConfigTemplate library moduleKey store key andruavMessage) := by
  unfold fetchConfigTemplate
  split
  · exact leavesAlone_done
  · split
    · exact leavesAlone_done
    · split
      · nofun
      · exact leavesAlone_done
  · nofun

theorem action_applies {code : UInt64} :
    code.toUInt32.toInt32 = configActionApplyConfig ↔ code.toUInt32 = 1 := by
  constructor
  · exact fun same => congrArg Int32.toUInt32 same
  · intro same
    rw [same]
    rfl

theorem handleConfigAction_of_document {moduleKey : String} {store : ConfigStore} {disk : Disk}
    {andruavMessage cmd : Json} {members : List (String × Json)}
    (document : documentIn moduleKey cmd = some members) :
    handleConfigAction library moduleKey store disk andruavMessage cmd =
      .done (store.updateJSON library disk ((Json.object members).dump library none)).1 []
        [cmd] := by
  unfold documentIn at document
  split at document
  · rename_i code entries action config
    obtain ⟨⟨one, named⟩, same⟩ := Option.ite_none_right_eq_some.mp document
    cases same
    have addressed : (stringField cmd "b").any (· ≠ moduleKey) = false := by
      cases key : stringField cmd "b" <;> simp_all
    have notRestart : code.toUInt32.toInt32 ≠ configActionRestart := by
      rw [action_applies.mpr one]
      decide
    simp only [handleConfigAction, action, addressed, Bool.false_eq_true, if_false,
      if_neg notRestart, if_pos (action_applies.mpr one), applyConfig, config]
  · cases document

theorem leavesAlone_handleConfigAction {moduleKey : String} {store : ConfigStore} {disk : Disk}
    {andruavMessage cmd : Json} (noDocument : documentIn moduleKey cmd = none) :
    LeavesAlone store
      (handleConfigAction library moduleKey store disk andruavMessage cmd) := by
  unfold handleConfigAction
  split
  · rename_i code action
    dsimp only
    split
    · exact leavesAlone_done
    rename_i addressed
    split
    · nofun
    split
    · rename_i apply
      unfold applyConfig
      split
      · rename_i members config
        have named : (stringField cmd "b").all (· = moduleKey) = true := by
          cases key : stringField cmd "b" <;> simp_all
        simp only [documentIn, action, config] at noDocument
        rw [if_pos ⟨action_applies.mp apply, named⟩] at noDocument
        cases noDocument
      · exact leavesAlone_done
    split
    · exact leavesAlone_fetchConfigTemplate
    · exact leavesAlone_done
  · exact leavesAlone_done

/-- A message whose type can be read is an object. -/
theorem subscript_of_getInt {message found : Json} {value : Int32} {key : String}
    (document : subscript message key = .ok found) (kind : found.getInt beyondInt = .ok value)
    (other : String) : subscript message other = .ok ((message.member? other).getD .null) := by
  cases message with
  | null =>
      cases document
      cases kind
  | object members => rfl
  | _ => cases document

theorem afterAction_of_leavesAlone {result : ConfigActionResult}
    (alone : LeavesAlone state.store result) (ended : state.afterAction result = some next) :
    next.moduleKey = state.moduleKey ∧ next.store = state.store := by
  cases result with
  | exited => cases ended
  | threw =>
      cases ended
      exact ⟨rfl, rfl⟩
  | done store sent updated =>
      obtain rfl := alone store sent updated rfl
      cases ended
      exact ⟨rfl, rfl⟩

/-- A message that the module receives either makes settings by `updateJSON`, or it leaves
the configuration alone. -/
theorem receive_cases (stepped : state.receive library beyondInt received = some next) :
    next.moduleKey = state.moduleKey ∧
      (settingsOf beyondInt state.moduleKey received = none ∧ next.store = state.store ∨
        ∃ members, settingsOf beyondInt state.moduleKey received = some members ∧
          next.store = (state.store.updateJSON library received.disk
            ((Json.object members).dump library none)).1) := by
  unfold receive parseMessage at stepped
  unfold settingsOf
  cases document : subscript received.andruavMessage "mt" with
  | error exception =>
      simp only [document, bind, Except.bind] at stepped ⊢
      cases stepped
      exact ⟨rfl, .inl ⟨trivial, rfl⟩⟩
  | ok found =>
      simp only [document, bind, Except.bind] at stepped ⊢
      cases kind : found.getInt beyondInt with
      | error exception =>
          simp only [kind] at stepped ⊢
          cases stepped
          exact ⟨rfl, .inl ⟨trivial, rfl⟩⟩
      | ok messageType =>
          simp only [kind] at stepped ⊢
          by_cases config : messageType = typeConfigAction
          · have notExecute : messageType ≠ typeRemoteExecute := config ▸ by decide
            simp only [if_neg notExecute, parseDefaultCommand,
              subscript_of_getInt document kind "ms", if_pos config] at stepped ⊢
            cases held : received.andruavMessage.member? "ms" with
            | none =>
                rw [held, Option.getD_none] at stepped
                obtain ⟨key, store⟩ :=
                  afterAction_of_leavesAlone (leavesAlone_handleConfigAction rfl) stepped
                exact ⟨key, .inl ⟨rfl, store⟩⟩
            | some cmd =>
                rw [held, Option.getD_some] at stepped
                cases asked : documentIn state.moduleKey cmd with
                | none =>
                    obtain ⟨key, store⟩ :=
                      afterAction_of_leavesAlone (leavesAlone_handleConfigAction asked) stepped
                    exact ⟨key, .inl ⟨(if_pos config).trans asked, store⟩⟩
                | some members =>
                    rw [handleConfigAction_of_document asked] at stepped
                    cases stepped
                    exact ⟨rfl, .inr ⟨members, (if_pos config).trans asked, rfl⟩⟩
          · have alone : next.moduleKey = state.moduleKey ∧ next.store = state.store := by
              by_cases execute : messageType = typeRemoteExecute
              · simp only [if_pos execute] at stepped
                cases stepped
                exact ⟨rfl, rfl⟩
              · simp only [if_neg execute, parseDefaultCommand,
                  subscript_of_getInt document kind "ms", if_neg config] at stepped
                exact afterAction_of_leavesAlone leavesAlone_done stepped
            refine ⟨alone.1, .inl ⟨?_, alone.2⟩⟩
            cases received.andruavMessage.member? "ms" with
            | none => rfl
            | some cmd => exact if_neg config

end Step

section Runs

variable {library : JsonLibrary} {beyondInt : Double → Int32} {start state next : RemoteModule}
  {received : Received} {messages : List Received}

/-- The settings that messages ask a module to make, in order. -/
def settingsSent (beyondInt : Double → Int32) (moduleKey : String) (messages : List Received) :
    List (String × Json) :=
  messages.flatMap fun received => (settingsOf beyondInt moduleKey received).getD []

/-- If a message makes settings, they get into the configuration and its file. -/
def SettingsLand (library : JsonLibrary) (beyondInt : Double → Int32) (state : RemoteModule)
    (received : Received) : Prop :=
  ∀ members, settingsOf beyondInt state.moduleKey received = some members →
    Lands library received.disk state.store members

/-- What has become of the configuration after some settings. -/
structure Configured (library : JsonLibrary) (start : RemoteModule)
    (settings : List (String × Json)) (state : RemoteModule) : Prop where
  sameKey : state.moduleKey = start.moduleKey
  sameFile : state.store.fileURL = start.store.fileURL
  runtime : Applied settings start.store.configJSON state.store.configJSON
  base : Applied settings start.store.baseJSON state.store.baseJSON
  clean : OpensNoComment start.store.baseJSON → OpensNoComment state.store.baseJSON
  file : state.store.files start.store.fileURL =
        some (state.store.baseJSON.dump library (some 4)) ∨
      state.store.files start.store.fileURL = start.store.files start.store.fileURL ∧
        state.store.baseJSON = start.store.baseJSON

theorem Applied.append {first second : List (String × Json)} {target middle result : Json}
    (early : Applied first target middle) (late : Applied second middle result) :
    Applied (first ++ second) target result := by
  unfold Applied at early late ⊢
  rw [List.foldlM_append, early]
  exact late

theorem Configured.receive {settings : List (String × Json)}
    (configured : Configured library start settings state) (plain : library.WritesPlain)
    (stepped : state.receive library beyondInt received = some next)
    (land : SettingsLand library beyondInt state received) :
    Configured library start
      (settings ++ (settingsOf beyondInt start.moduleKey received).getD []) next := by
  obtain ⟨sameKey, ⟨none, same⟩ | ⟨members, made, updated⟩⟩ := receive_cases stepped
  · rw [configured.sameKey] at none
    rw [none, Option.getD_none, List.append_nil]
    constructor
    · exact sameKey.trans configured.sameKey
    all_goals rw [same]
    · exact configured.sameFile
    · exact configured.runtime
    · exact configured.base
    · exact configured.clean
    · exact configured.file
  · have lands := land members made
    obtain ⟨runtime, base, fileURL, file⟩ := lands.updateJSON plain
    rw [← updated] at runtime base fileURL file
    rw [configured.sameKey] at made
    rw [made, Option.getD_some]
    constructor
    · exact sameKey.trans configured.sameKey
    · exact fileURL.trans configured.sameFile
    · exact Applied.append configured.runtime runtime
    · exact Applied.append configured.base base
    · exact fun clean => (configured.clean clean).applied lands.clean base
    · rw [configured.sameFile] at file
      exact .inl file

theorem configured_of_run (plain : library.WritesPlain)
    (run : RunWhere (receive library beyondInt) (SettingsLand library beyondInt) start messages
      state) :
    Configured library start (settingsSent beyondInt start.moduleKey messages) state := by
  induction run with
  | nil => exact ⟨rfl, rfl, rfl, rfl, id, .inr ⟨rfl, rfl⟩⟩
  | snoc earlier stepped land ih =>
      rw [settingsSent, List.flatMap_append, List.flatMap_singleton]
      exact ih.receive plain stepped land

/-- After any run of messages the module has under every path what was sent last for it in a
message meant for this module, and so has a module that is started anew from the file. -/
theorem setting_after_restart (library : JsonLibrary) (plain : library.WritesPlain)
    (beyondInt : Double → Int32) (clean : OpensNoComment start.store.baseJSON)
    (opened : readDocument library start.store start.store.fileURL =
      some start.store.baseJSON)
    (run : RunWhere (receive library beyondInt) (SettingsLand library beyondInt) start messages
      state)
    (short : (state.store.baseJSON.dump library (some 4)).length < 2 ^ 31)
    (reads : library.parse (state.store.baseJSON.dump library (some 4)) =
      some state.store.baseJSON) :
    ∃ restarted,
      initConfigFile library (.fresh state.store.files) state.store.fileURL = some restarted ∧
      ∀ path, CConfigFile.WritesNothingBelow path
          (settingsSent beyondInt start.moduleKey messages) →
        let sent := CConfigFile.lastSent path (settingsSent beyondInt start.moduleKey messages)
        Json.valueAt path state.store.configJSON =
            sent.getD (Json.valueAt path start.store.configJSON) ∧
          Json.valueAt path restarted.configJSON =
            sent.getD (Json.valueAt path start.store.baseJSON) := by
  have configured := configured_of_run plain run
  have found : readDocument library (.fresh state.store.files) state.store.fileURL =
      some state.store.baseJSON := by
    rw [configured.sameFile]
    unfold readDocument ConfigStore.fresh
    rcases configured.file with saved | ⟨untouched, sameBase⟩
    · rw [saved, Option.bind_eq_bind, Option.bind_some,
        removeComments_dump plain (configured.clean clean) short, reads]
    · rw [untouched, sameBase]
      exact opened
  obtain ⟨restarted, opensAgain, document⟩ : ∃ restarted,
      initConfigFile library (.fresh state.store.files) state.store.fileURL = some restarted ∧
        restarted.configJSON = state.store.baseJSON := by
    rw [initConfigFile, found]
    exact ⟨_, rfl, rfl⟩
  refine ⟨restarted, opensAgain, fun path untouched => ⟨?_, ?_⟩⟩
  · exact CConfigFile.valueAt_of_applied configured.runtime untouched
  · rw [document]
    exact CConfigFile.valueAt_of_applied configured.base untouched

/-- A configuration with the address of a camera. -/
def cameraConfig (url : String) : Json :=
  .object [("camera", .object [("url", .string url)]), ("name", .string "front")]

def cameraUpdate : List (String × Json) := [("camera.url", .string "b/2")]

/-- The library on the configuration before and after, and on the update. -/
def settingsLibrary : JsonLibrary where
  parse := fun text =>
    if text = "before".toList then some (cameraConfig "a/1")
    else if text = "\x7b\"camera.url\":\"b/2\"\x7d".toList then some (.object cameraUpdate)
    else if text = (cameraConfig "b/2").dump parsedLibrary (some 4) then some (cameraConfig "b/2")
    else none
  dumpFloat := fun _ => "null".toList
  parse_wellFormed := by
    have config (url : String) : (cameraConfig url).WellFormed := by
      apply Json.WellFormed.object
      · simp only [List.pairwise_cons, List.forall_mem_cons]
        decide
      · simp only [List.forall_mem_cons]
        exact ⟨(Json.WellFormed.string _).singleton _, .string _, List.forall_mem_nil _⟩
    intro text found parsed
    split at parsed
    · exact Option.some.inj parsed ▸ config _
    split at parsed
    · exact Option.some.inj parsed ▸ (Json.WellFormed.string _).singleton _
    split at parsed
    · exact Option.some.inj parsed ▸ config _
    · cases parsed

/-- The configuration message for the module of this key. -/
def updateMessage (moduleKey : String) : Received where
  andruavMessage := .object
    [ ("ms", .object
        [ ("a", .numberUnsigned 1), ("b", .string moduleKey), ("c", .object cameraUpdate) ]),
      ("mt", .numberUnsigned 6525) ]
  fullMessage := []
  disk := { copies := true, timestamp := "t", opens := true }

def cameraModule : RemoteModule where
  moduleKey := "K1"
  store :=
    { ConfigStore.fresh fun name =>
        if name = "config.json" then some "before".toList else none with
      fileURL := "config.json"
      configJSON := cameraConfig "a/1"
      baseJSON := cameraConfig "a/1" }
  sent := []
  updated := []

theorem settingsLibrary_reads_update :
    settingsLibrary.parse ((Json.object cameraUpdate).dump settingsLibrary none) =
      some (.object cameraUpdate) := by
  have text : (Json.object cameraUpdate).dump settingsLibrary none =
      "\x7b\"camera.url\":\"b/2\"\x7d".toList := by
    decide +kernel
  rw [text, settingsLibrary]
  dsimp only
  rw [if_neg (by decide +kernel), if_pos rfl]

theorem settingsLibrary_reads_config :
    settingsLibrary.parse ((cameraConfig "b/2").dump settingsLibrary (some 4)) =
      some (cameraConfig "b/2") := by
  rw [Json.dump_congr (some 4) (show settingsLibrary.dumpFloat = parsedLibrary.dumpFloat from rfl),
    settingsLibrary]
  dsimp only
  rw [if_neg (by decide +kernel), if_neg (by decide +kernel), if_pos rfl]

theorem cameraUpdate_lands (store : ConfigStore)
    (runtime : store.configJSON = cameraConfig "a/1") (base : store.baseJSON = cameraConfig "a/1") :
    Lands settingsLibrary (updateMessage "K1").disk store cameraUpdate := by
  have goesThrough : Applied cameraUpdate (cameraConfig "a/1") (cameraConfig "b/2") := rfl
  constructor
  · unfold OpensNoComment
    decide +kernel
  · decide +kernel
  · exact settingsLibrary_reads_update
  · exact ⟨_, runtime ▸ goesThrough⟩
  · exact ⟨_, base ▸ goesThrough⟩
  · rfl

/-- The second message is for another module. -/
theorem receive_other (state : RemoteModule) (key : state.moduleKey = "K1") :
    state.receive settingsLibrary (fun _ => 0) (updateMessage "K2") =
      some { state with sent := state.sent ++ [], updated := state.updated ++ [] } := by
  have handled : handleConfigAction settingsLibrary state.moduleKey state.store
      (updateMessage "K2").disk (updateMessage "K2").andruavMessage
      (.object [("a", .numberUnsigned 1), ("b", .string "K2"), ("c", .object cameraUpdate)]) =
        .done state.store [] [] := by
    rw [key]
    rfl
  exact congrArg state.afterAction handled

theorem setting_after_restart_camera :
    ∃ (state : RemoteModule) (restarted : ConfigStore),
      RunWhere (receive settingsLibrary fun _ => 0) (SettingsLand settingsLibrary fun _ => 0)
        cameraModule [updateMessage "K1", updateMessage "K2"] state ∧
      initConfigFile settingsLibrary (.fresh state.store.files) state.store.fileURL =
        some restarted ∧
      Json.valueAt ["camera", "url"] restarted.configJSON = some (.string "b/2") := by
  have ours : SettingsLand settingsLibrary (fun _ => 0) cameraModule (updateMessage "K1") := by
    intro members made
    obtain rfl : cameraUpdate = members := Option.some.inj made
    exact cameraUpdate_lands _ rfl rfl
  have taken : (cameraModule.receive settingsLibrary (fun _ => 0) (updateMessage "K1")).isSome :=
    rfl
  obtain ⟨state, stepped⟩ := Option.isSome_iff_exists.mp taken
  have key : state.moduleKey = "K1" := (receive_cases stepped).1
  have others : SettingsLand settingsLibrary (fun _ => 0) state (updateMessage "K2") := by
    intro members made
    rw [key] at made
    cases made
  have plain : settingsLibrary.WritesPlain := by
    have word : ∀ c ∈ "null".toList, c.isAlphanum = true ∨ c ∈ ['+', '-', '.'] :=
      List.forall_iff_forall_mem.1 (by decide)
    exact fun _ => word
  have first := RunWhere.nil.snoc stepped ours
  have base : state.store.baseJSON = cameraConfig "b/2" := by
    have applied : Applied cameraUpdate (cameraConfig "a/1") state.store.baseJSON :=
      (configured_of_run plain first).base
    have goesThrough : Applied cameraUpdate (cameraConfig "a/1") (cameraConfig "b/2") := rfl
    exact Except.ok.inj (applied.symm.trans goesThrough)
  have run := first.snoc (receive_other state key) others
  obtain ⟨restarted, opensAgain, settings⟩ := setting_after_restart settingsLibrary plain
    (fun _ => 0) (by unfold OpensNoComment; decide +kernel) rfl run
    (by rw [base]; decide +kernel) (by rw [base]; exact settingsLibrary_reads_config)
  refine ⟨_, restarted, run, opensAgain, ?_⟩
  apply (settings ["camera", "url"] ?_).2.trans
  · rfl
  · intro entry listed _
    obtain rfl : entry = ("camera.url", .string "b/2") := List.mem_singleton.mp listed
    decide +kernel

end Runs

end RemoteModule

end DroneEngage
