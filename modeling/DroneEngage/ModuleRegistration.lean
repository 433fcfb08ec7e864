import DroneEngage.CapabilityInvoke
import DroneEngage.JsonObjects
import DroneEngage.MessageParser
import DroneEngage.Sha256Padding

/-!
# Registration of a module

A module names itself in an ID message that its client sends again and again.  The first
reply to it tells the party the module belongs to.  The adverts of its capabilities go out
once after that, and later when they are asked for; the ID message carries their hash.

The main thread makes the calls of the interface, and the receive thread takes messages
from the time the transport is started, which is before `init` is done.  Both may make the
ID message anew and look whether the adverts have been sent, and no lock is held around
that: each goes on step by step, and the steps of the other may come in between.  One step
reads or writes the fields that it needs at once.
-/

namespace DroneEngage.ModuleBus

open Capabilities

/-- `TYPE_AndruavModule_ID` -/
def typeModuleId : Int32 := 9100

/-- `TYPE_AndruavMessage_MODULE_CAPABILITIES` -/
def typeModuleCapabilities : Int32 := 6542

/-- `TYPE_AndruavMessage_CAPABILITY_INVOKE` -/
def typeCapabilityInvoke : Int32 := 6543

/-- `TYPE_AndruavMessage_MODULE_STATE` -/
def typeModuleState : Int32 := 6545

/-- `TYPE_AndruavMessage_Sync_EventFire` -/
def typeSyncEventFire : Int32 := 1061

/-- `ENUM_HARDWARE_TYPE` -/
inductive HardwareType
  | undefined
  | cpu
  deriving DecidableEq

def HardwareType.toJson : HardwareType → Json
  | undefined => .numberUnsigned 0
  | cpu => .numberUnsigned 1

/-- The adverts with line breaks between them, as `capAdvertHash` joins them: none goes
before an advert as long as nothing has been written. -/
def joinAdverts (adverts : List (List Char)) : List Char :=
  adverts.foldl
    (fun joined advert => (if joined.isEmpty then joined else joined ++ ['\n']) ++ advert) []

/-- `memory` is what the hash context holds before it is set up. -/
def capAdvertHash (memory : Sha256Ctx (Vector (BitVec 32) 8)) (adverts : List (List Char)) :
    List Char :=
  (sha256Hex memory ((joinAdverts adverts).map fun c => UInt8.ofNat c.toNat)).take 16

/-- What `CModule` keeps, without the tables of the invokes. -/
structure ModuleState where
  moduleClass : String
  moduleId : String
  moduleKey : String
  moduleVersion : String
  messageFilter : Json
  moduleFeatures : List String
  hardwareSerial : String
  hardwareSerialType : HardwareType
  instanceTimeStamp : Int64
  stdinValues : List (String × Json)
  partyId : String
  groupId : String
  capabilityAdverts : List String
  capabilityParsed : List Json
  capabilityHash : String
  capabilitiesSent : Bool
  eventCounter : UInt64
  /-- the transport is started -/
  started : Bool
  initialized : Bool
  /-- `m_OnReceive` is set -/
  forwards : Bool
  /-- the `bFirstReceived` of `onReceive` -/
  firstReceived : Bool
  /-- the ID message of the client -/
  jsonId : Option Json

/-- What a module hands to others: a message to the transport, a document to `m_OnReceive`,
the command of an invoke to the threads that run it. -/
inductive Output
  | message (envelope : Envelope)
  | forwarded (jMsg : Json)
  | invoke (cmd : Json)

/-- What the main thread does next in `setCapabilities`, once the adverts are stored. -/
inductive PublishStage
  | appendHash
  | addRequests
  | addInvokes
  | refresh
  /-- the ID message that has been made is handed to the client -/
  | store (jsonId : Json)
  | check
  | claim
  | send

/-- What the receive thread does next in `onReceive`, once it knows the party. -/
inductive RegisterStage
  | refresh
  | store (jsonId : Json)
  | received
  | check
  | claim
  | send
  | forward

/-- What a thread has done in one step, and what it does next. -/
structure Progress (Stage : Type) where
  state : ModuleState
  outputs : List Output
  next : Option Stage

/-- The document that a thread works on goes along. -/
def Progress.withMessage {Stage : Type} (progress : Progress Stage) (jMsg : Json) :
    Progress (Stage × Json) :=
  ⟨progress.state, progress.outputs, progress.next.map (·, jMsg)⟩

/-- A received document as `onReceive` tells them apart. -/
inductive Route
  | ignored
  /-- an ID message; the second text is missing where it throws -/
  | partyRecord (sd : String) (gr : Option String)
  | capabilityRequest (r : Bool)
  | capabilityInvoke (cmd : Json)
  | other

/-- `strcmp` finds no difference: the texts are the same up to the first null character. -/
def strcmpEqual (left right : String) : Bool :=
  left.toList.takeWhile (· ≠ '\x00') == right.toList.takeWhile (· ≠ '\x00')

section Routing

variable (beyondInt : Double → Int32)

/-- The `f` of an ID message. -/
def routePartyRecord (cmd : Json) : Except JsonException Route :=
  match cmd.member? "f" with
  | none => .ok .ignored
  | some unitIds =>
      match unitIds.member? "sd", unitIds.member? "gr" with
      | some sd, some gr => do
          let partyId ← sd.getString
          .ok (.partyRecord partyId gr.getString.toOption)
      | _, _ => .ok .ignored

def route (jMsg : Json) : Except JsonException Route :=
  match jMsg.member? "mt", jMsg.member? "ty" with
  | some mt, some ty => do
      let routingType ← ty.getString
      if strcmpEqual routingType cmdTypeIntermodule then
        match jMsg.member? "ms" with
        | none => .ok .ignored
        | some cmd => do
            let messageType ← mt.getInt beyondInt
            if messageType = typeModuleId then routePartyRecord cmd
            else if messageType = typeModuleCapabilities then do
              let r ← cmd.value Json.getBoolean "r" false
              .ok (.capabilityRequest r)
            else if messageType = typeCapabilityInvoke then .ok (.capabilityInvoke cmd)
            else .ok .other
      else .ok .other
  | _, _ => .ok .ignored

end Routing

namespace ModuleState

/-- A module before it is defined. -/
def fresh (instanceTimeStamp : Int64) : ModuleState where
  moduleClass := ""
  moduleId := ""
  moduleKey := ""
  moduleVersion := ""
  messageFilter := .null
  moduleFeatures := []
  hardwareSerial := ""
  hardwareSerialType := .undefined
  instanceTimeStamp := instanceTimeStamp
  stdinValues := []
  partyId := ""
  groupId := ""
  capabilityAdverts := []
  capabilityParsed := []
  capabilityHash := ""
  capabilitiesSent := false
  eventCounter := 0
  started := false
  initialized := false
  forwards := false
  firstReceived := false
  jsonId := none

variable (state : ModuleState)

/-- `sendJMSG` to other modules; nothing goes out before the transport is started. -/
def sendJMSG (cmd : Json) (andruavMessageId : Int32) : List Output :=
  if state.started then
    [.message
      { moduleKey := state.moduleKey
        targetPartyId := ""
        cmd := cmd
        andruavMessageId := andruavMessageId
        internalMessage := true }]
  else []

/-- The `ms` of the ID message: an extra field overrides one of the module's own. -/
def idRecord (reSend : Bool) : List (String × Json) :=
  state.stdinValues.foldl (fun ms entry => Json.insertMember entry.1 entry.2 ms)
    [ ("a", .string state.moduleId), ("b", .string state.moduleClass),
      ("c", state.messageFilter), ("d", .array (state.moduleFeatures.map .string)),
      ("e", .string state.moduleKey), ("s", .string state.hardwareSerial),
      ("t", state.hardwareSerialType.toJson), ("u", .numberInteger state.instanceTimeStamp),
      ("v", .string state.moduleVersion), ("z", .boolean reSend) ]

/-- The ID message as it is made from the fields. -/
def createJSONID (reSend : Bool) : Json :=
  .object
    [ ("ms", .object (state.idRecord reSend)),
      ("mt", .numberInteger typeModuleId.toInt64), ("ty", .string cmdTypeIntermodule) ]

/-- `setJsonId` of the client -/
def setJsonId (jsonId : Json) : ModuleState :=
  { state with jsonId := some jsonId }

def appendExtraField (name : String) (ms : Json) : ModuleState :=
  { state with stdinValues := Json.insertMember name ms state.stdinValues }

/-- An entry of the message filter that stands for a type. -/
def isFilterEntry (beyondInt : Double → Int32) (msgId : Int32) (e : Json) : Bool :=
  e.isNumber && (e.getInt beyondInt).toOption == some msgId

/-- The message filter as an array, which it is made where it is none. -/
def filterEntries : List Json :=
  match state.messageFilter with
  | .array entries => entries
  | _ => []

def capAddToFilter (beyondInt : Double → Int32) (msgId : Int32) : ModuleState :=
  { state with
    messageFilter := .array
      (if state.filterEntries.any (isFilterEntry beyondInt msgId) then state.filterEntries
      else state.filterEntries ++ [.numberInteger msgId.toInt64]) }

def sendCapabilities : List Output :=
  state.sendJMSG
    (.object
      [ ("caps", .array (state.capabilityAdverts.map .string)),
        ("ch", .string state.capabilityHash) ])
    typeModuleCapabilities

/-- The adverts as `setCapabilities` takes them over. -/
def storeCapabilities (memory : Sha256Ctx (Vector (BitVec 32) 8)) (adverts : List String)
    (parsed : List Json) : ModuleState :=
  { state with
    capabilityAdverts := adverts
    capabilityParsed := parsed
    capabilityHash := String.ofList (capAdvertHash memory (adverts.map utf8Chars)) }

/-- `CModule::setCapabilities` up to its first lock; adverts that are refused change
nothing. -/
def setCapabilities (library : JsonLibrary) (memory : Sha256Ctx (Vector (BitVec 32) 8))
    (adverts : List String) : ModuleState × Option PublishStage :=
  match Capabilities.setCapabilities library (adverts.map utf8Chars) with
  | .ok (some parsed) => (state.storeCapabilities memory adverts parsed, some .appendHash)
  | _ => (state, none)

/-- The rest of `CModule::setCapabilities`, step by step. -/
def publish (beyondInt : Double → Int32) : PublishStage → Progress PublishStage
  | .appendHash =>
      ⟨state.appendExtraField "ch" (.string state.capabilityHash), [], some .addRequests⟩
  | .addRequests =>
      ⟨state.capAddToFilter beyondInt typeModuleCapabilities, [], some .addInvokes⟩
  | .addInvokes => ⟨state.capAddToFilter beyondInt typeCapabilityInvoke, [], some .refresh⟩
  | .refresh =>
      ⟨state, [], some (if state.initialized then .store (state.createJSONID false) else .check)⟩
  | .store jsonId => ⟨state.setJsonId jsonId, [], some .check⟩
  | .check =>
      ⟨state, [],
        if state.initialized && !state.partyId.isEmpty && !state.capabilitiesSent then
          some .claim
        else none⟩
  | .claim => ⟨{ state with capabilitiesSent := true }, [], some .send⟩
  | .send => ⟨state, state.sendCapabilities, none⟩

def publishState (ns : String) (changed : Json) (full : Bool) : List Output :=
  let members := [("ns", .string ns), ("s", changed)]
  state.sendJMSG
    (.object (if full then ("full", .boolean true) :: members else members)) typeModuleState

/-- The nonce of the next event that is fired. -/
def nextNonce (ms : UInt64) : String :=
  String.ofList (Nat.toDigits 10 ms.toNat ++ '-' ::
    Nat.toDigits 10 (state.eventCounter + 1).toNat)

/-- `CModule::fireEvent`, when the clock shows `ms` -/
def fireEvent (ms : UInt64) (ns ev : String) (payload : Json) : ModuleState × List Output :=
  ({ state with eventCounter := state.eventCounter + 1 },
    state.sendJMSG
      (.object
        [ ("d", .string (ns ++ "." ++ ev)), ("ed", payload),
          ("n", .string (state.nextNonce ms)) ])
      typeSyncEventFire)

def forward (jMsg : Json) : List Output :=
  if state.forwards then [.forwarded jMsg] else []

/-- What the first complete ID message brings about, step by step. -/
def register (jMsg : Json) : RegisterStage → Progress RegisterStage
  -- the communicator is told that it need not send its ID again
  | .refresh => ⟨state, [], some (.store (state.createJSONID false))⟩
  | .store jsonId => ⟨state.setJsonId jsonId, [], some .received⟩
  | .received => ⟨{ state with firstReceived := true }, [], some .check⟩
  | .check =>
      ⟨state, [],
        some (if !state.capabilitiesSent && !state.capabilityAdverts.isEmpty then .claim
          else .forward)⟩
  | .claim => ⟨{ state with capabilitiesSent := true }, [], some .send⟩
  | .send => ⟨state, state.sendCapabilities, some .forward⟩
  | .forward => ⟨state, state.forward jMsg, none⟩

/-- A document that has been read, by its route. -/
def takeRoute (jMsg : Json) : Route → Progress RegisterStage
  | .ignored => ⟨state, [], none⟩
  -- the party is known before the group's name is read
  | .partyRecord sd none => ⟨{ state with partyId := sd }, [], none⟩
  | .partyRecord sd (some gr) =>
      ⟨{ state with partyId := sd, groupId := gr }, [],
        some (if state.firstReceived then .forward else .refresh)⟩
  | .capabilityRequest r => ⟨state, if r then state.sendCapabilities else [], none⟩
  | .capabilityInvoke cmd => ⟨state, [.invoke cmd], none⟩
  | .other => ⟨state, state.forward jMsg, none⟩

/-- `CModule::onReceive` up to the registration: what is no document or makes it throw is
dropped. -/
def onReceive (library : JsonLibrary) (beyondInt : Double → Int32) (message : List Char) :
    Progress (RegisterStage × Json) :=
  match library.parse message with
  | none => ⟨state, [], none⟩
  | some jMsg =>
      match route beyondInt jMsg with
      | .ok taken => (state.takeRoute jMsg taken).withMessage jMsg
      | .error _ => ⟨state, [], none⟩

end ModuleState

/-- A call of the interface by the main thread.  The two parts of `init` are calls of their
own. -/
inductive Call
  | defineModule (moduleClass moduleId moduleKey moduleVersion : String) (messageFilter : Json)
  | addModuleFeatures (feature : String)
  | setHardware (serial : String) (type : HardwareType)
  | setMessageOnReceive
  | appendExtraField (name : String) (ms : Json)
  | setCapabilities (memory : Sha256Ctx (Vector (BitVec 32) 8)) (adverts : List String)
  | startTransport
  | finishInit

/-- A step of a module's threads.  Events and state may be published by any of them. -/
inductive ModuleEvent
  | call (call : Call)
  | publishState (ns : String) (changed : Json) (full : Bool)
  | fireEvent (ms : UInt64) (ns ev : String) (payload : Json)
  | onReceive (message : List Char)
  /-- the main thread goes on with `setCapabilities` -/
  | publish
  /-- the receive thread goes on with the first ID message -/
  | register

namespace ModuleState

variable (library : JsonLibrary) (state : ModuleState)

/-- The main thread does nothing else between the parts of `init`. -/
def mainFree : Bool :=
  !state.started || state.initialized

def permits : Call → Bool
  | .startTransport => !state.started
  | .finishInit => !state.mainFree
  | _ => state.mainFree

def take : Call → ModuleState × Option PublishStage
  | .defineModule moduleClass moduleId moduleKey moduleVersion messageFilter =>
      ({ state with
          moduleClass := moduleClass, moduleId := moduleId, moduleKey := moduleKey
          moduleVersion := moduleVersion, messageFilter := messageFilter }, none)
  | .addModuleFeatures feature =>
      ({ state with moduleFeatures := state.moduleFeatures ++ [feature] }, none)
  | .setHardware serial type =>
      ({ state with hardwareSerial := serial, hardwareSerialType := type }, none)
  | .setMessageOnReceive => ({ state with forwards := true }, none)
  | .appendExtraField name ms => (state.appendExtraField name ms, none)
  | .setCapabilities memory adverts => state.setCapabilities library memory adverts
  | .startTransport => ({ state.setJsonId (state.createJSONID true) with started := true }, none)
  | .finishInit => ({ state with initialized := true }, none)

end ModuleState

/-- A module with what its two threads are about to do, all it has handed on so far, and
the nonces that `fireEvent` returned. -/
structure ModuleRun where
  state : ModuleState
  /-- the main thread is in `setCapabilities` -/
  publishing : Option PublishStage
  /-- the receive thread is in `onReceive`, with the document it has read -/
  registering : Option (RegisterStage × Json)
  outputs : List Output
  nonces : List String

namespace ModuleRun

def fresh (instanceTimeStamp : Int64) : ModuleRun where
  state := .fresh instanceTimeStamp
  publishing := none
  registering := none
  outputs := []
  nonces := []

variable (library : JsonLibrary) (beyondInt : Double → Int32) (run : ModuleRun)

def permits : ModuleEvent → Bool
  | .call call => run.publishing.isNone && run.state.permits call
  | .publishState _ _ _ | .fireEvent _ _ _ _ => true
  | .onReceive _ => run.registering.isNone && run.state.started
  | .publish => run.publishing.isSome
  | .register => run.registering.isSome

def afterPublish (progress : Progress PublishStage) : ModuleRun :=
  { run with
    state := progress.state, publishing := progress.next
    outputs := run.outputs ++ progress.outputs }

def afterRegister (progress : Progress (RegisterStage × Json)) : ModuleRun :=
  { run with
    state := progress.state, registering := progress.next
    outputs := run.outputs ++ progress.outputs }

def advance : ModuleEvent → ModuleRun
  | .call call =>
      { run with
        state := (run.state.take library call).1
        publishing := (run.state.take library call).2 }
  | .publishState ns changed full =>
      { run with outputs := run.outputs ++ run.state.publishState ns changed full }
  | .fireEvent ms ns ev payload =>
      { run with
        state := (run.state.fireEvent ms ns ev payload).1
        outputs := run.outputs ++ (run.state.fireEvent ms ns ev payload).2
        nonces := run.nonces ++ [run.state.nextNonce ms] }
  | .onReceive message => run.afterRegister (run.state.onReceive library beyondInt message)
  | .publish =>
      match run.publishing with
      | none => run
      | some stage => run.afterPublish (run.state.publish beyondInt stage)
  | .register =>
      match run.registering with
      | none => run
      | some (stage, jMsg) =>
          run.afterRegister ((run.state.register jMsg stage).withMessage jMsg)

def step (event : ModuleEvent) : Option ModuleRun :=
  if run.permits event then some (run.advance library beyondInt event) else none

end ModuleRun

end DroneEngage.ModuleBus
