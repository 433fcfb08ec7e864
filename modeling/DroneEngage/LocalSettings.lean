import DroneEngage.EntryRoundTrip
import DroneEngage.LocalConfigReload
import DroneEngage.ReplayCache

/-!
# The local configuration as a store of typed settings

Texts, 32-bit numbers and doubles are set by name and read by name.  Whatever calls have
been made, a getter gives what was set last under the name, in its own type: a number
comes back whole although it is read as an `int`, and a name that was removed, or cleared
with the file, reads as if it had never been set.
-/

namespace DroneEngage.CLocalConfigFile

open EventRuns

/-- What can be set under a name. -/
inductive Setting
  | text (value : String)
  | numeric (value : UInt32)
  | double (value : Double)

def Setting.toJson : Setting → Json
  | .text value => .string (cString value)
  | .numeric value => .numberUnsigned value.toUInt64
  | .double value => .numberFloat value

/-- Both branches of `ModifyNumericField` assign the field. -/
def modifyNumericField (field : String) (newValue : UInt32) (document : Json) :
    Except JsonException Json :=
  if document.contains (cString field) then
    assignField field (.numberUnsigned newValue.toUInt64) document
  else assignField field (.numberUnsigned newValue.toUInt64) document

def modifyDoubleField (field : String) (newValue : Double) (document : Json) :
    Except JsonException Json :=
  if document.contains (cString field) then
    assignField field (.numberFloat newValue) document
  else assignField field (.numberFloat newValue) document

def getStringField (config : CLocalConfigFile) (field : String) :
    Except JsonException String :=
  match config.configJSON.member? (cString field) with
  | none => .ok ""
  | some found => found.getString

/-- A field that is not there reads as `0xffffffff`; one that is there is read as an `int`. -/
def getNumericField (beyondInt : Double → Int32) (config : CLocalConfigFile)
    (field : String) : Except JsonException UInt32 :=
  match config.configJSON.member? (cString field) with
  | none => .ok 0xffffffff
  | some found => (found.getInt beyondInt).map Int32.toUInt32

def getDoubleField (config : CLocalConfigFile) (field : String) : Double :=
  match config.configJSON.member? (cString field) with
  | none => .ofInt 0
  | some found => if found.isNumber then found.toDouble else .ofInt 0

/-- The calls on the local configuration of a module. -/
inductive SettingCall
  | fieldCall (call : FieldCall)
  | modifyNumericField (field : String) (newValue : UInt32)
  | modifyDoubleField (field : String) (newValue : Double)
  | clearFile
  | apply

/-- `clearFile` writes the file whether the last one was parsed or not. -/
def clearFile (library : JsonLibrary) (config : CLocalConfigFile) : CLocalConfigFile :=
  { config with configJSON := .null }.writeFile library config.fileURL

def assigned (config : CLocalConfigFile) : Except JsonException Json → Option CLocalConfigFile
  | .ok document => some { config with configJSON := document }
  | .error _ => none

def settingStep (library : JsonLibrary) (config : CLocalConfigFile) :
    SettingCall → Option CLocalConfigFile
  | .fieldCall call => step config call
  | .modifyNumericField field newValue =>
      config.assigned (CLocalConfigFile.modifyNumericField field newValue config.configJSON)
  | .modifyDoubleField field newValue =>
      config.assigned (CLocalConfigFile.modifyDoubleField field newValue config.configJSON)
  | .clearFile => some (config.clearFile library)
  | .apply => some (config.apply library)

/-- What a call sets the name to, or leaves unset; none where it does not touch it. -/
def SettingCall.sets (key : String) : SettingCall → Option (Option Setting)
  | .fieldCall (.addStringField field value) | .fieldCall (.modifyStringField field value) =>
      if cString field = key then some (some (.text value)) else none
  | .fieldCall (.addNumericField field value) | .modifyNumericField field value =>
      if cString field = key then some (some (.numeric value)) else none
  | .fieldCall (.addDoubleField field value) | .modifyDoubleField field value =>
      if cString field = key then some (some (.double value)) else none
  | .fieldCall (.removeFieldByName field) => if cString field = key then some none else none
  | .clearFile => some none
  | .apply => none

/-- What the last call that touches the name sets it to. -/
def lastSet (key : String) (calls : List SettingCall) : Option (Option Setting) :=
  (calls.filterMap (SettingCall.sets key)).getLast?

/-- What the getters give for a setting, or without one. -/
def Setting.asString : Option Setting → Except JsonException String
  | none => .ok ""
  | some (.text value) => .ok (cString value)
  | some _ => .error .typeMismatch

def Setting.asNumeric (beyondInt : Double → Int32) :
    Option Setting → Except JsonException UInt32
  | none => .ok 0xffffffff
  | some (.text _) => .error .typeMismatch
  | some (.numeric value) => .ok value
  | some (.double value) => .ok (value.toInt32 beyondInt).toUInt32

def Setting.asDouble : Option Setting → Double
  | none => .ofInt 0
  | some (.text _) => .ofInt 0
  | some (.numeric value) => .ofInt value.toNat
  | some (.double value) => value

section Steps

variable {library : JsonLibrary} {config next start : CLocalConfigFile}

/-- An assignment sets the name and leaves all others. -/
theorem member?_assignField {field : String} {value document result : Json}
    (assigned : assignField field value document = .ok result) (key : String) :
    result.isObject ∧ result.member? key =
      if cString field = key then some value else document.member? key := by
  obtain ⟨-, rfl⟩ := Json.assignMember_eq_ok.mp assigned
  refine ⟨rfl, ?_⟩
  rw [Json.member?_eq_lookup, Json.entries_object, Json.lookup_insertMember,
    Json.member?_eq_lookup]
  simp only [eq_comm]

theorem member?_eraseMember (members : List (String × Json)) (erased key : String) :
    ((Json.object members).eraseMember erased).member? key =
      if erased = key then none else (Json.object members).member? key := by
  have kept :=
    Capabilities.InvokeTables.lookup_filter_keys (fun found => found ≠ erased) members key
  have same : ((Json.object members).eraseMember erased).member? key =
      (members.filter fun entry => decide (entry.1 ≠ erased)).lookup key :=
    rfl
  rw [same, kept]
  by_cases here : erased = key
  · simp [here]
  · simp [here, Ne.symm here, Json.member?]

theorem member?_removeFieldByName {document : Json}
    (object : document = .null ∨ document.isObject) (fieldName key : String) :
    (removeFieldByName fieldName document = .null ∨
        (removeFieldByName fieldName document).isObject) ∧
      (removeFieldByName fieldName document).member? key =
        if cString fieldName = key then none else document.member? key := by
  unfold removeFieldByName
  split
  · rename_i present
    rcases object with rfl | object
    · cases present
    · cases document with
      | object members => exact ⟨.inr rfl, member?_eraseMember members _ key⟩
      | _ => cases object
  · rename_i absent
    refine ⟨object, ?_⟩
    split
    · rename_i same
      rw [← same]
      simpa [Json.contains] using absent
    · rfl

/-- The document is an object, or null as after a clearing. -/
def HoldsObject (config : CLocalConfigFile) : Prop :=
  config.configJSON = .null ∨ config.configJSON.isObject

theorem assigned_eq_some {result : Except JsonException Json}
    (stepped : config.assigned result = some next) :
    ∃ document, result = .ok document ∧ next = { config with configJSON := document } := by
  cases result with
  | error exception => cases stepped
  | ok document => exact ⟨document, rfl, (Option.some.inj stepped).symm⟩

theorem assigns_of_assignField {field : String} {value result : Json} {setting : Setting}
    (assigned : assignField field value config.configJSON = .ok result)
    (same : setting.toJson = value) (key : String) :
    (result = .null ∨ result.isObject) ∧
      result.member? key =
        match if cString field = key then some (some setting) else none with
        | some setting => setting.map Setting.toJson
        | none => config.configJSON.member? key := by
  obtain ⟨object, member⟩ := member?_assignField assigned key
  refine ⟨.inr object, ?_⟩
  rw [member]
  split
  · rw [← same]
    rfl
  · rfl

/-- What a call does to a name. -/
theorem settingStep_member? {call : SettingCall} (object : config.HoldsObject)
    (stepped : settingStep library config call = some next) (key : String) :
    next.HoldsObject ∧
      next.configJSON.member? key =
        match call.sets key with
        | some setting => setting.map Setting.toJson
        | none => config.configJSON.member? key := by
  unfold HoldsObject
  cases call with
  | fieldCall call =>
      obtain ⟨document, ran, rfl⟩ := step_eq_some stepped
      cases call with
      | addStringField field value =>
          exact @assigns_of_assignField config _ _ _ (.text value) ran rfl key
      | modifyStringField field newValue =>
          simp only [FieldCall.run, CLocalConfigFile.modifyStringField, ite_self] at ran
          exact @assigns_of_assignField config _ _ _ (.text newValue) ran rfl key
      | addNumericField field value =>
          exact @assigns_of_assignField config _ _ _ (.numeric value) ran rfl key
      | addDoubleField field value =>
          exact @assigns_of_assignField config _ _ _ (.double value) ran rfl key
      | removeFieldByName fieldName =>
          obtain rfl := Except.ok.inj ran
          obtain ⟨objectAfter, member⟩ := member?_removeFieldByName object fieldName key
          refine ⟨objectAfter, member.trans ?_⟩
          simp only [SettingCall.sets]
          split
          · rfl
          · rfl
  | modifyNumericField field newValue =>
      obtain ⟨document, ran, rfl⟩ := assigned_eq_some stepped
      simp only [CLocalConfigFile.modifyNumericField, ite_self] at ran
      exact @assigns_of_assignField config _ _ _ (.numeric newValue) ran rfl key
  | modifyDoubleField field newValue =>
      obtain ⟨document, ran, rfl⟩ := assigned_eq_some stepped
      simp only [CLocalConfigFile.modifyDoubleField, ite_self] at ran
      exact @assigns_of_assignField config _ _ _ (.double newValue) ran rfl key
  | clearFile =>
      rw [← Option.some.inj stepped]
      exact ⟨.inl rfl, rfl⟩
  | apply =>
      rw [← Option.some.inj stepped]
      have same : (config.apply library).configJSON = config.configJSON := by
        unfold CLocalConfigFile.apply
        split
        · rfl
        · rfl
      rw [same]
      exact ⟨object, rfl⟩

/-- After a run a name holds what was set last, or what it held before. -/
theorem member?_of_run {calls : List SettingCall} (object : start.HoldsObject)
    (run : Run (settingStep library) start calls config) :
    config.HoldsObject ∧ ∀ key,
      config.configJSON.member? key =
        match lastSet key calls with
        | some setting => setting.map Setting.toJson
        | none => start.configJSON.member? key := by
  induction run with
  | nil => exact ⟨object, fun key => rfl⟩
  | @snoc events state next call _ stepped ih =>
      obtain ⟨holds, member⟩ := ih
      refine ⟨(settingStep_member? holds stepped "").1, fun key => ?_⟩
      rw [(settingStep_member? holds stepped key).2, lastSet, List.filterMap_append]
      cases touched : call.sets key with
      | none => simpa [touched, lastSet] using member key
      | some setting => simp [touched]

/-- A number above the largest `int` is read as a negative one, and comes back all the
same. -/
theorem getNumericField_toUInt64 (beyondInt : Double → Int32) (value : UInt32) :
    ((Json.numberUnsigned value.toUInt64).getInt beyondInt).map Int32.toUInt32 = .ok value := by
  have back : (Int32.ofNat value.toUInt64.toNat).toUInt32 = value := by
    rw [UInt32.toNat_toUInt64]
    exact UInt32.ofNat_toNat
  exact congrArg Except.ok back

theorem getters_of_member? {field : String} {setting : Option Setting}
    (member : config.configJSON.member? (cString field) = setting.map Setting.toJson) :
    config.getStringField field = Setting.asString setting ∧
      (∀ beyondInt, config.getNumericField beyondInt field =
        Setting.asNumeric beyondInt setting) ∧
      config.getDoubleField field = Setting.asDouble setting := by
  unfold getStringField getNumericField getDoubleField
  rw [member]
  rcases setting with _ | ⟨value | value | value⟩
  · exact ⟨rfl, fun _ => rfl, rfl⟩
  · exact ⟨rfl, fun _ => rfl, rfl⟩
  · refine ⟨rfl, fun beyondInt => getNumericField_toUInt64 beyondInt value, ?_⟩
    exact congrArg (fun number : Nat => Double.ofInt number) (UInt32.toNat_toUInt64 value)
  · exact ⟨rfl, fun _ => rfl, rfl⟩

/-- A getter gives what was set last under the name, however the name goes on behind a
null character. -/
theorem settings_of_run {calls : List SettingCall} (object : start.HoldsObject)
    (run : Run (settingStep library) start calls config) {field : String}
    {setting : Option Setting} (last : lastSet (cString field) calls = some setting) :
    config.getStringField field = Setting.asString setting ∧
      (∀ beyondInt, config.getNumericField beyondInt field =
        Setting.asNumeric beyondInt setting) ∧
      config.getDoubleField field = Setting.asDouble setting := by
  have member := (member?_of_run object run).2 (cString field)
  rw [last] at member
  exact getters_of_member? member

/-- A number is set over a text, a name of the file is removed, and the file is
written. -/
def portCalls : List SettingCall :=
  [ .fieldCall (.addStringField "port" "none"), .modifyNumericField "port" 0xfffffffe,
    .fieldCall (.removeFieldByName "url"), .apply ]

theorem settings_of_run_port :
    ∃ opened config : CLocalConfigFile,
      initConfigFile urlLibrary "local.json" (fresh commented.files) = some opened ∧
      Run (settingStep urlLibrary) opened portCalls config ∧
      config.getStringField "port" = .error .typeMismatch ∧
      (∀ beyondInt, config.getNumericField beyondInt "port" = .ok 0xfffffffe) ∧
      config.getDoubleField "port" = .ofInt 0xfffffffe := by
  have run : Run (settingStep urlLibrary) commented portCalls _ := Run.of_foldlM rfl
  have last : lastSet (cString "port") portCalls = some (some (.numeric 0xfffffffe)) := rfl
  exact ⟨_, _, initConfigFile_commented, run, settings_of_run (.inr rfl) run last⟩

end Steps

end DroneEngage.CLocalConfigFile
