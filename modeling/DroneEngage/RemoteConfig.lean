import DroneEngage.ConfigStore
import DroneEngage.MessageParser

/-!
# Configuration messages

The base class of the message parsers answers the configuration messages of every module:
one restarts the module, one merges a document into its configuration, and one asks for the
template of the configuration.  A message may name the module it is meant for by its key.
-/

namespace DroneEngage

/-- `TYPE_AndruavMessage_Error` -/
def typeError : Int32 := 1008

/-- `TYPE_AndruavMessage_CONFIG_ACTION` -/
def typeConfigAction : Int32 := 6525

/-- `TYPE_AndruavMessage_CONFIG_STATUS` -/
def typeConfigStatus : Int32 := 6526

def configActionRestart : Int32 := 0

def configActionApplyConfig : Int32 := 1

def configRequestFetchConfigTemplate : Int32 := 2

/-- How `handleConfigAction` ends. -/
inductive ConfigActionResult
  /-- `exit(0)` -/
  | exited
  /-- an exception leaves it, before anything has changed -/
  | threw
  /-- with the messages that go out, and the `cmd` of a call of `onConfigUpdated` -/
  | done (store : ConfigStore) (sent : List Envelope) (updated : List Json)

/-- A module with the base class of its parser: its key, its configuration, the messages
that it has sent so, and the calls of `onConfigUpdated`. -/
structure RemoteModule where
  moduleKey : String
  store : ConfigStore
  sent : List Envelope
  updated : List Json

/-- A message that has been parsed, its bytes, and how the file system answers if the
configuration is saved. -/
structure Received where
  andruavMessage : Json
  fullMessage : List UInt8
  disk : Disk

namespace RemoteConfig

section Facade

variable (moduleKey : String)

/-- `CFacade_Base::sendErrorMessage` -/
def sendErrorMessage (targetPartyId : String) (errorNumber infoType notificationType : Int64)
    (description : String) : Envelope where
  moduleKey := moduleKey
  targetPartyId := targetPartyId
  cmd := .object
    [ ("DS", .string description), ("EN", .numberInteger errorNumber),
      ("IT", .numberInteger infoType), ("NT", .numberInteger notificationType) ]
  andruavMessageId := typeError
  internalMessage := false

/-- `CFacade_Base::API_sendConfigTemplate` -/
def sendConfigTemplate (targetPartyId key : String) (template : Json) (reply : Bool) :
    Envelope where
  moduleKey := moduleKey
  targetPartyId := targetPartyId
  cmd := .object
    [ ("R", .boolean reply), ("a", .numberInteger 0), ("b", template), ("k", .string key) ]
  andruavMessageId := typeConfigStatus
  internalMessage := false

end Facade

section Handler

variable (library : JsonLibrary) (moduleKey : String) (store : ConfigStore)

/-- `CONFIG_ACTION_APPLY_CONFIG`; the module is told also when the update failed. -/
def applyConfig (disk : Disk) (cmd : Json) : ConfigActionResult :=
  match cmd.member? "c" with
  | some (.object members) =>
      .done (store.updateJSON library disk ((Json.object members).dump library none)).1 [] [cmd]
  | _ => .done store [] []

/-- `CONFIG_REQUEST_FETCH_CONFIG_TEMPLATE`, with the key that is told -/
def fetchConfigTemplate (key : String) (andruavMessage : Json) : ConfigActionResult :=
  match andruavMessage.member? "sd" with
  | none => .done store [] []
  | some (.string sender) =>
      match store.files "template.json" with
      | none =>
          .done store
            [ sendErrorMessage moduleKey "" 0 7 3 "cannot read template.json",
              sendConfigTemplate moduleKey sender key .null true ] []
      | some contents =>
          match library.parse contents with
          | none => .threw
          | some template => .done store [sendConfigTemplate moduleKey sender key template true] []
  | some _ => .threw

/-- `CAndruavMessageParserBase::handleConfigAction` -/
def handleConfigAction (disk : Disk) (andruavMessage cmd : Json) : ConfigActionResult :=
  match cmd.member? "a" with
  | some (.numberUnsigned code) =>
      let named := stringField cmd "b"
      if named.any (· ≠ moduleKey) then .done store [] []
      else
        let key := named.elim "" fun _ => moduleKey
        let action := code.toUInt32.toInt32
        if action = configActionRestart then .exited
        else if action = configActionApplyConfig then applyConfig library store disk cmd
        else if action = configRequestFetchConfigTemplate then
          fetchConfigTemplate library moduleKey store key andruavMessage
        else .done store [] []
  | _ => .done store [] []

/-- `CAndruavMessageParserBase::parseDefaultCommand` -/
def parseDefaultCommand (disk : Disk) (andruavMessage : Json) (messageType : Int32) :
    ConfigActionResult :=
  match subscript andruavMessage "ms" with
  | .error _ => .threw
  | .ok cmd =>
      if messageType = typeConfigAction then
        handleConfigAction library moduleKey store disk andruavMessage cmd
      else .done store [] []

end Handler

end RemoteConfig

namespace RemoteModule

open RemoteConfig

variable (library : JsonLibrary) (beyondInt : Double → Int32)

/-- The module when the handler has ended; none where the process has. -/
def afterAction (state : RemoteModule) : ConfigActionResult → Option RemoteModule
  | .exited => none
  | .threw => some state
  | .done store sent updated =>
      some
        { state with
          store := store
          sent := state.sent ++ sent
          updated := state.updated ++ updated }

/-- A message through `parseMessage`, up to what each module does with it itself. -/
def receive (state : RemoteModule) (received : Received) : Option RemoteModule :=
  match parseMessage beyondInt received.andruavMessage received.fullMessage with
  | .ok (_, .parseCommand messageType _) =>
      state.afterAction (parseDefaultCommand library state.moduleKey state.store received.disk
        received.andruavMessage messageType)
  | _ => some state

/-- The document that a configuration message of the action 1 asks a module to apply, if it
names no other module. -/
def documentIn (moduleKey : String) (cmd : Json) : Option (List (String × Json)) :=
  match cmd.member? "a", cmd.member? "c" with
  | some (.numberUnsigned code), some (.object members) =>
      if code.toUInt32 = 1 ∧ (stringField cmd "b").all (· = moduleKey) then some members
      else none
  | _, _ => none

/-- The settings that a message asks a module to make. -/
def settingsOf (moduleKey : String) (received : Received) : Option (List (String × Json)) :=
  match (subscript received.andruavMessage "mt").bind (Json.getInt beyondInt),
    received.andruavMessage.member? "ms" with
  | .ok messageType, some cmd =>
      if messageType = typeConfigAction then documentIn moduleKey cmd else none
  | _, _ => none

end RemoteModule

end DroneEngage
