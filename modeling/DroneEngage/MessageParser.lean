import DroneEngage.CpuMonitor
import DroneEngage.JsonReread
import DroneEngage.JsonText

/-!
# Text and binary messages

A module sends a JSON header, and after a binary message's header a zero byte
and the payload.  A receiver appends one more zero byte without knowing which of
the two it has received.  `parseMessage` tells them apart by looking for a closing
brace in the last two bytes.
-/

namespace DroneEngage

def cmdTypeIntermodule : String := "uv"

def cmdCommGroup : String := "g"

def cmdCommIndividual : String := "i"

def andruavProtocolSenderCommServer : String := "_SYS_"

/-- `TYPE_AndruavMessage_RemoteExecute` -/
def typeRemoteExecute : Int32 := 1005

/-- The arguments that `sendJMSG` and `sendBMSG` share, with the key of the
module. -/
structure Envelope where
  moduleKey : String
  targetPartyId : String
  cmd : Json
  andruavMessageId : Int32
  internalMessage : Bool

namespace Envelope

variable (envelope : Envelope)

def msgRoutingType : String :=
  if envelope.internalMessage then cmdTypeIntermodule
  else if envelope.targetPartyId.isEmpty then cmdCommGroup
  else cmdCommIndividual

def fullMessage : Json :=
  .object
    [ ("GU", .string envelope.moduleKey), ("ms", envelope.cmd),
      ("mt", .numberInteger envelope.andruavMessageId.toInt64),
      ("tg", .string envelope.targetPartyId), ("ty", .string envelope.msgRoutingType) ]

def header (library : JsonLibrary) : List UInt8 :=
  (envelope.fullMessage.dump library none).map fun c => UInt8.ofNat c.toNat

/-- The bytes that `sendJMSG` hands to `sendMSG`. -/
def sendJMSG (library : JsonLibrary) : List UInt8 :=
  envelope.header library

/-- The bytes that `sendBMSG` hands to `sendMSG`. -/
def sendBMSG (library : JsonLibrary) (bmsg : List UInt8) : List UInt8 :=
  envelope.header library ++ 0 :: bmsg

end Envelope

/-- A message as a receiver hands it on. -/
def delivered (message : List UInt8) : List UInt8 :=
  message ++ [0]

/-- `validateField` for a field of type `string`. -/
def stringField (message : Json) (key : String) : Option String :=
  match message.member? key with
  | some (.string text) => some text
  | _ => none

/-- `validateField` for a field of type `number_unsigned`, read by `get<int>()` into
a `uint32_t`. -/
def unsignedField (message : Json) (key : String) : Option UInt32 :=
  match message.member? key with
  | some (.numberUnsigned value) => some value.toUInt32
  | _ => none

/-- `andruav_message[key]`, which makes a missing member null. -/
def subscript (message : Json) (key : String) : Except JsonException Json :=
  match message with
  | .null => .ok .null
  | .object members => .ok ((members.lookup key).getD .null)
  | _ => .error .keyIntoNonObject

structure MessageFlags where
  isBinary : Bool
  isSystem : Bool
  isInterModule : Bool
  deriving DecidableEq, Repr

inductive MessageDispatch
  | parseRemoteExecute
  /-- `parseDefaultCommand`, then `parseCommand` -/
  | parseCommand (messageType : Int32) (permission : UInt32)
  deriving DecidableEq, Repr

/-- `m_is_binary` for the bytes of a message: neither of the last two is `\x7d`. -/
def isBinaryMessage (fullMessage : List UInt8) : Bool :=
  !(fullMessage.getD (fullMessage.length - 1) 0 == 125 ||
    fullMessage.getD (fullMessage.length - 2) 0 == 125)

/-- `CAndruavMessageParserBase::parseMessage` -/
def parseMessage (beyondInt : Double → Int32) (andruavMessage : Json)
    (fullMessage : List UInt8) :
    Except JsonException (MessageFlags × MessageDispatch) := do
  let found ← subscript andruavMessage "mt"
  let messageType ← found.getInt beyondInt
  let permission := (unsignedField andruavMessage "p").getD 0
  let flags : MessageFlags :=
    { isBinary := isBinaryMessage fullMessage
      isSystem := stringField andruavMessage "sd" == some andruavProtocolSenderCommServer
      isInterModule := stringField andruavMessage "ty" == some cmdTypeIntermodule }
  if messageType = typeRemoteExecute then .ok (flags, .parseRemoteExecute)
  else .ok (flags, .parseCommand messageType permission)

/-- What a module sends: text, or a payload that is not empty. -/
inductive Sent
  | text
  | binary (bmsg : List UInt8) (nonempty : bmsg ≠ [])

namespace Sent

def isBinary : Sent → Bool
  | text => false
  | binary _ _ => true

def bytes (library : JsonLibrary) (envelope : Envelope) : Sent → List UInt8
  | text => envelope.sendJMSG library
  | binary bmsg _ => envelope.sendBMSG library bmsg

/-- The payload, if there is one, does not end in `\x7d`. -/
def EndsApart : Sent → Prop
  | text => True
  | binary bmsg nonempty => bmsg.getLast nonempty ≠ 125

end Sent

section Bytes

theorem isBinaryMessage_append (front : List UInt8) (secondLast last : UInt8) :
    isBinaryMessage (front ++ [secondLast, last]) = !(last == 125 || secondLast == 125) := by
  have length : (front ++ [secondLast, last]).length = front.length + 2 := by simp
  rw [isBinaryMessage, length]
  simp

theorem isBinaryMessage_delivered (front : List UInt8) (last : UInt8) :
    isBinaryMessage (delivered (front ++ [last])) = (last != 125) := by
  rw [delivered, List.append_assoc]
  exact isBinaryMessage_append front last 0

theorem exists_header_eq (library : JsonLibrary) (envelope : Envelope) :
    ∃ front, envelope.header library = front ++ [125] := by
  rw [Envelope.header, Envelope.fullMessage, Json.dump, Json.dumpAt, bracketed,
    List.map_append]
  exact ⟨_, rfl⟩

end Bytes

theorem stringField_ty (envelope : Envelope) :
    (stringField envelope.fullMessage.reread "ty" == some cmdTypeIntermodule) =
      envelope.internalMessage := by
  have found : stringField envelope.fullMessage.reread "ty" =
      some envelope.msgRoutingType :=
    rfl
  rw [found, Envelope.msgRoutingType]
  cases envelope.internalMessage <;> cases envelope.targetPartyId.isEmpty <;> rfl

theorem getInt_reread (beyondInt : Double → Int32) (value : Int32) :
    (Json.numberInteger value.toInt64).reread.getInt beyondInt = .ok value := by
  rw [Json.reread]
  split
  · exact congrArg Except.ok (Int32.toInt32_toInt64 value)
  · rename_i nonneg
    exact congrArg Except.ok (Json.ofNat_toUInt64 (not_lt.mp nonneg))

/-- What `parseMessage` makes of a message that a module has sent. -/
theorem parseMessage_envelope (beyondInt : Double → Int32) (envelope : Envelope)
    (fullMessage : List UInt8) :
    parseMessage beyondInt envelope.fullMessage.reread fullMessage =
      .ok
        ({ isBinary := isBinaryMessage fullMessage
           isSystem := false
           isInterModule := envelope.internalMessage },
          if envelope.andruavMessageId = typeRemoteExecute then .parseRemoteExecute
          else .parseCommand envelope.andruavMessageId 0) := by
  have messageType : (do
      let found ← subscript envelope.fullMessage.reread "mt"
      found.getInt beyondInt) = .ok envelope.andruavMessageId :=
    getInt_reread beyondInt envelope.andruavMessageId
  have permission : unsignedField envelope.fullMessage.reread "p" = none := rfl
  have sender : stringField envelope.fullMessage.reread "sd" = none := rfl
  rw [parseMessage, ← bind_assoc, messageType]
  simp only [permission, sender, stringField_ty, bind, Except.bind]
  split <;> rfl

theorem isBinaryMessage_sent (library : JsonLibrary) (envelope : Envelope) (sent : Sent) :
    isBinaryMessage (delivered (sent.bytes library envelope)) = sent.isBinary ↔
      sent.EndsApart := by
  cases sent with
  | text =>
      obtain ⟨front, same⟩ := exists_header_eq library envelope
      rw [Sent.bytes, Envelope.sendJMSG, same, isBinaryMessage_delivered]
      exact iff_of_true rfl trivial
  | binary bmsg nonempty =>
      have split : envelope.sendBMSG library bmsg =
          envelope.header library ++ 0 :: bmsg.dropLast ++ [bmsg.getLast nonempty] := by
        rw [List.append_assoc, List.cons_append, List.dropLast_append_getLast]
        rfl
      rw [Sent.bytes, split, isBinaryMessage_delivered, Sent.isBinary, bne_iff_ne,
        Sent.EndsApart]

/-- A message is told apart, by the dispatch on what its own header is parsed to,
exactly if its payload does not end in a closing brace. -/
theorem toldApart_iff (library : JsonLibrary) (beyondInt : Double → Int32)
    (envelope : Envelope) (sent : Sent) :
    (∃ flags dispatch,
      parseMessage beyondInt envelope.fullMessage.reread
        (delivered (sent.bytes library envelope)) = .ok (flags, dispatch) ∧
      flags.isBinary = sent.isBinary) ↔ sent.EndsApart := by
  rw [← isBinaryMessage_sent library envelope sent, parseMessage_envelope]
  constructor
  · rintro ⟨flags, dispatch, same, told⟩
    cases same
    exact told
  · intro told
    exact ⟨_, _, rfl, told⟩

/-- A picture whose last byte is that of a closing brace. -/
def bracePayload : Sent :=
  .binary [255, 216, 125] (List.cons_ne_nil _ _)

/-- Such a picture is taken for text. -/
theorem toldApart_fails :
    ∃ library beyondInt envelope flags dispatch,
      parseMessage beyondInt envelope.fullMessage.reread
        (delivered (bracePayload.bytes library envelope)) = .ok (flags, dispatch) ∧
      flags.isBinary ≠ bracePayload.isBinary := by
  obtain ⟨library⟩ : Nonempty JsonLibrary := ⟨.writing fun _ => []⟩
  obtain ⟨envelope⟩ : Nonempty Envelope := ⟨⟨"camera", "", .object [], 1006, false⟩⟩
  have endsInBrace : ¬ bracePayload.EndsApart := not_not_intro (by decide)
  have mistaken : isBinaryMessage (delivered (bracePayload.bytes library envelope)) ≠
      bracePayload.isBinary := by
    intro told
    exact endsInBrace ((isBinaryMessage_sent library envelope bracePayload).mp told)
  have parsed := parseMessage_envelope (fun _ => 0) envelope
    (delivered (bracePayload.bytes library envelope))
  refine ⟨library, fun _ => 0, envelope, _, _, parsed, ?_⟩
  dsimp only
  exact mistaken

end DroneEngage
