import DroneEngage.DumpedText
import DroneEngage.JsonObjects
import DroneEngage.MessageParser
import DroneEngage.ObservationRoundTrip
import DroneEngage.UnixChunkRoundTrip

/-!
# A message over the bus

A message is a JSON header, with a zero byte and the payload behind it if it is binary.  It
is cut into datagrams, put together again and given a zero byte of its own.  The receiver
parses the header up to the first zero byte.
-/

namespace DroneEngage

open ChunkProtocol DatagramClients KeyedTransducers MessageChunks

def cmdCommSystem : String := "s"

/-- `TYPE_AndruavModule_RemoteExecute` -/
def typeModuleRemoteExecute : Int32 := 9101

/-- What a module hands to `sendMSG`. -/
structure BusMessage where
  members : List (String × Json)
  payload : Option (List UInt8)

namespace BusMessage

/-- `CModule::sendJMSG` -/
def ofJMSG (envelope : Envelope) : BusMessage where
  members := envelope.fullMessage.entries
  payload := none

/-- `CModule::sendBMSG` -/
def ofBMSG (envelope : Envelope) (bmsg : List UInt8) : BusMessage where
  members := envelope.fullMessage.entries
  payload := some bmsg

/-- `CModule::sendSYSMSG` -/
def ofSYSMSG (jmsg : Json) (andruavMessageId : Int32) : BusMessage where
  members :=
    [ ("ms", jmsg), ("mt", .numberInteger andruavMessageId.toInt64),
      ("tg", .string andruavProtocolSenderCommServer), ("ty", .string cmdCommSystem) ]
  payload := none

/-- `CModule::sendMREMSG` -/
def ofMREMSG (moduleKey : String) (commandType : Int32) : BusMessage where
  members :=
    [ ("GU", .string moduleKey),
      ("ms", .object [("C", .numberInteger commandType.toInt64)]),
      ("mt", .numberInteger typeModuleRemoteExecute.toInt64),
      ("ty", .string cmdTypeIntermodule) ]
  payload := none

variable (message : BusMessage)

def document : Json :=
  .object message.members

def header (library : JsonLibrary) : List UInt8 :=
  (message.document.dump library none).map fun c => UInt8.ofNat c.toNat

def bytes (library : JsonLibrary) : List UInt8 :=
  message.header library ++ message.payload.elim [] (0 :: ·)

end BusMessage

/-- A call with which a module sends. -/
inductive ModuleSend
  | jmsg (envelope : Envelope)
  | bmsg (envelope : Envelope) (payload : List UInt8)
  | sysmsg (document : Json) (andruavMessageId : Int32)
  | mremsg (moduleKey : String) (commandType : Int32)

namespace ModuleSend

def message : ModuleSend → BusMessage
  | jmsg envelope => .ofJMSG envelope
  | bmsg envelope payload => .ofBMSG envelope payload
  | sysmsg document andruavMessageId => .ofSYSMSG document andruavMessageId
  | mremsg moduleKey commandType => .ofMREMSG moduleKey commandType

/-- What goes to `sendMSG`. -/
def bytes (library : JsonLibrary) (send : ModuleSend) : List UInt8 :=
  match send with
  | jmsg envelope => envelope.sendJMSG library
  | bmsg envelope payload => envelope.sendBMSG library payload
  | sysmsg _ _ | mremsg _ _ => send.message.bytes library

end ModuleSend

/-- Doubles are written with digits, letters, signs and a point. -/
def JsonLibrary.WritesPlain (library : JsonLibrary) : Prop :=
  ∀ value, ∀ c ∈ library.dumpFloat value, c.isAlphanum = true ∨ c ∈ ['+', '-', '.']

section Bytes

/-- A character that stands for a byte. -/
def IsByte (c : Char) : Prop :=
  c.toNat < 256

theorem isByte_of_isAlphanum {c : Char} (alphanumeric : c.isAlphanum = true) : IsByte c := by
  unfold IsByte
  delta Char.isAlphanum Char.isAlpha Char.isUpper Char.isLower Char.isDigit at alphanumeric
  simp only [Bool.or_eq_true, decide_eq_true_eq, Bool.and_eq_true] at alphanumeric
  have value : c.toNat = c.val.toNat := rfl
  rcases alphanumeric with (⟨-, below⟩ | ⟨-, below⟩) | ⟨-, below⟩
  all_goals
    have below : c.val.toNat ≤ _ := below
    rw [value]
    exact Nat.lt_of_le_of_lt below (by decide)

theorem isByte_ofNat {n : Nat} (small : n < 256) : IsByte (Char.ofNat n) := by
  rw [IsByte, toNat_ofNat_byte small]
  exact small

theorem isByte_utf8Chars (text : String) : ∀ c ∈ utf8Chars text, IsByte c := by
  intro c member
  obtain ⟨byte, -, rfl⟩ := List.mem_map.mp member
  exact isByte_ofNat byte.toNat_lt

theorem isByte_escapeChar {c : Char} (byte : IsByte c) : ∀ d ∈ escapeChar c, IsByte d := by
  intro d member
  rcases escapeChar_cases c with ⟨itself, -, -⟩ | ⟨escaped, -⟩
  · rw [itself, List.mem_singleton] at member
    rwa [member]
  · have all : ∀ d ∈ escapes.flatten, d.toNat < 256 :=
      List.forall_iff_forall_mem.1 (by decide +kernel)
    exact all d (List.mem_flatten_of_mem escaped member)

theorem isByte_quote {text : List Char} (bytes : ∀ c ∈ text, IsByte c) :
    ∀ c ∈ quote text, IsByte c := by
  have mark : IsByte '"' := by
    unfold IsByte
    decide
  intro c member
  simp only [quote, List.cons_append, List.mem_cons, List.mem_append, List.mem_flatMap,
    List.not_mem_nil, or_false] at member
  rcases member with rfl | ⟨d, inText, inEscape⟩ | rfl
  · exact mark
  · exact isByte_escapeChar (bytes d inText) c inEscape
  · exact mark

theorem isByte_intercalate {separator : List Char} {entries : List (List Char)}
    (separated : ∀ c ∈ separator, IsByte c) (bytes : ∀ entry ∈ entries, ∀ c ∈ entry, IsByte c) :
    ∀ c ∈ List.intercalate separator entries, IsByte c := by
  induction entries with
  | nil => simp [List.intercalate]
  | cons first rest ih =>
      rw [List.forall_mem_cons] at bytes
      cases rest with
      | nil => simpa [List.intercalate] using bytes.1
      | cons second rest =>
          rw [List.intercalate_cons_cons]
          intro c member
          rcases List.mem_append.mp member with inFront | behind
          · rcases List.mem_append.mp inFront with inFirst | between
            · exact bytes.1 c inFirst
            · exact separated c between
          · exact ih bytes.2 c behind

theorem isByte_bracketed {opening closing : Char} (isOpening : IsByte opening)
    (isClosing : IsByte closing) {entries : List (List Char)}
    (bytes : ∀ entry ∈ entries, ∀ c ∈ entry, IsByte c) (indent : Nat) :
    ∀ c ∈ bracketed none indent opening closing entries, IsByte c := by
  have comma : ∀ c ∈ [','], IsByte c := by
    simp [IsByte]
  intro c member
  simp only [bracketed, lineBreak, List.append_nil, List.mem_append, List.mem_singleton] at member
  rcases member with (rfl | inside) | rfl
  · exact isOpening
  · exact isByte_intercalate comma bytes c inside
  · exact isClosing

theorem isByte_of_mem_toDigits {c : Char} {value : Nat}
    (member : c ∈ Nat.toDigits 10 value) : IsByte c := by
  have digit := Nat.isDigit_of_mem_toDigits (by decide) (by decide) member
  exact isByte_of_isAlphanum (by simp [Char.isAlphanum, digit])

theorem isByte_word {word : String}
    (member : word ∈ ["null", "true", "false", "[]", "\x7b\x7d"]) :
    ∀ c ∈ word.toList, IsByte c := by
  have all : ∀ c ∈ ["null", "true", "false", "[]", "\x7b\x7d"].flatMap String.toList,
      c.toNat < 256 :=
    List.forall_iff_forall_mem.1 (by decide)
  exact fun c inside => all c (List.mem_flatMap_of_mem member inside)

variable {library : JsonLibrary}

mutual

/-- A document is written in bytes. -/
theorem isByte_dumpAt (plain : library.WritesPlain) : ∀ (indent : Nat) (document : Json),
    ∀ c ∈ document.dumpAt library none indent, IsByte c
  | _, .null => isByte_word (by simp)
  | _, .boolean true => isByte_word (by simp)
  | _, .boolean false => isByte_word (by simp)
  | indent, .numberInteger value => by
      intro c member
      have minus : IsByte '-' := by
        unfold IsByte
        decide
      simp only [Json.dumpAt] at member
      split at member
      · rcases List.mem_cons.mp member with rfl | digit
        · exact minus
        · exact isByte_of_mem_toDigits digit
      · exact isByte_of_mem_toDigits member
  | _, .numberUnsigned _ => fun _ => isByte_of_mem_toDigits
  | _, .numberFloat value => by
      intro c member
      have signs : ∀ sign ∈ ['+', '-', '.'], sign.toNat < 256 :=
        List.forall_iff_forall_mem.1 (by decide)
      rcases plain value c member with alphanumeric | sign
      · exact isByte_of_isAlphanum alphanumeric
      · exact signs c sign
  | _, .string text => isByte_quote (isByte_utf8Chars text)
  | _, .array [] => isByte_word (by simp)
  | indent, .array (first :: rest) => by
      rw [Json.dumpAt]
      exact isByte_bracketed (by simp [IsByte]) (by simp [IsByte])
        (isByte_dumpElements plain _ (first :: rest)) indent
  | _, .object [] => isByte_word (by simp)
  | indent, .object (first :: rest) => by
      rw [Json.dumpAt]
      exact isByte_bracketed (by simp [IsByte]) (by simp [IsByte])
        (isByte_dumpMembers plain _ (first :: rest)) indent

theorem isByte_dumpElements (plain : library.WritesPlain) (indent : Nat) :
    ∀ elements : List Json, ∀ entry ∈ Json.dumpElements library none indent elements,
      ∀ c ∈ entry, IsByte c
  | [] => by simp [Json.dumpElements]
  | first :: rest => by
      rw [Json.dumpElements, List.forall_mem_cons]
      exact ⟨isByte_dumpAt plain indent first, isByte_dumpElements plain indent rest⟩

theorem isByte_dumpMembers (plain : library.WritesPlain) (indent : Nat) :
    ∀ members : List (String × Json), ∀ entry ∈ Json.dumpMembers library none indent members,
      ∀ c ∈ entry, IsByte c
  | [] => by simp [Json.dumpMembers]
  | (key, value) :: rest => by
      rw [Json.dumpMembers, List.forall_mem_cons]
      refine ⟨?_, isByte_dumpMembers plain indent rest⟩
      intro c member
      rcases List.mem_append.mp member with inFront | inValue
      · rcases List.mem_append.mp inFront with inKey | between
        · exact isByte_quote (isByte_utf8Chars key) c inKey
        · rw [keySeparator, List.mem_singleton] at between
          rw [between]
          unfold IsByte
          decide
      · exact isByte_dumpAt plain indent value c inValue

end

end Bytes

section Reading

variable {library : JsonLibrary}

namespace BusMessage

variable (message : BusMessage)

end BusMessage

end Reading

end DroneEngage
