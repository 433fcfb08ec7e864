import DroneEngage.ChunkProtocol
import DroneEngage.KeyedTransducers
import DroneEngage.MessageChunks

/-!
# The UDP and Unix datagram clients

`sendMSG` cuts a message into chunks and sends one datagram for each, and
`InternalReceiverEntry` stores the chunks it receives until the one marked as
the last arrives.  The two transports differ in how the header is written and
read, in what a failed `sendto` leads to, and in whether the stored chunks are
kept apart by source.

Lengths and chunk numbers are `int` in the source.  None of them exceeds the
length of the message, which is an `int` itself, so they are natural numbers
here.
-/

namespace DroneEngage.DatagramClients

open ChunkProtocol KeyedTransducers MessageChunks

/-- The bytes of one datagram, chunk header included. -/
abbrev Datagram := List UInt8

/-- `MAXLINE`, the size of the receive buffer. -/
def maxLine : Nat := 65507

def maxUdpDatabusPacketSize : Int := 0xffff

/-- A UDP client after `init`; the process exits on any other chunk size. -/
structure CUDPClient where
  chunkSize : Nat
  positive : 0 < chunkSize
  belowMaximum : (chunkSize : Int) < maxUdpDatabusPacketSize

def CUDPClient.init (chunkSize : Int) : Option CUDPClient :=
  if tooLarge : chunkSize ≥ maxUdpDatabusPacketSize then none
  else if notPositive : chunkSize ≤ 0 then none
  else some
    { chunkSize := chunkSize.toNat
      positive := by omega
      belowMaximum := by omega }

/-- A Unix datagram client after `init`. -/
structure CUnixDgramClient where
  chunkSize : Nat
  positive : 0 < chunkSize

def CUnixDgramClient.init (chunkSize : Int) : Option CUnixDgramClient :=
  if notPositive : chunkSize ≤ 0 then none
  else some
    { chunkSize := chunkSize.toNat
      positive := by omega }

theorem CUDPClient.init_eq_some_iff {chunkSize : Int} {client : CUDPClient} :
    CUDPClient.init chunkSize = some client ↔ (client.chunkSize : Int) = chunkSize := by
  have positive := client.positive
  have belowMaximum := client.belowMaximum
  unfold CUDPClient.init
  constructor
  · intro accepted
    split at accepted
    · simp at accepted
    · split at accepted
      · simp at accepted
      · obtain rfl := Option.some.inj accepted
        simp
        omega
  · rintro rfl
    rw [dif_neg (by omega), dif_neg (by omega)]
    simp

theorem CUnixDgramClient.init_eq_some_iff {chunkSize : Int}
    {client : CUnixDgramClient} :
    CUnixDgramClient.init chunkSize = some client ↔
      (client.chunkSize : Int) = chunkSize := by
  have positive := client.positive
  unfold CUnixDgramClient.init
  constructor
  · intro accepted
    split at accepted
    · simp at accepted
    · obtain rfl := Option.some.inj accepted
      simp
      omega
  · rintro rfl
    rw [dif_neg (by omega)]
    simp

section Sending

/-- What one `sendto` call returns: the datagram left, the broker socket does
not exist yet (`ENOENT`), or another error. -/
inductive SendtoResult
  | sent
  | noEntry
  | failed
  deriving DecidableEq, Repr

/-- What happens around one call of `sendMSG`: whether the socket is open and
`stop()` has not been called at its start, and for every chunk number and
attempt, what `m_stopped_called` and `sendto` give. -/
structure SendEnvironment where
  ready : Bool
  stopped : Nat → Nat → Bool
  sendto : Nat → Nat → SendtoResult

/-- Nothing stops the call and every datagram leaves. -/
def SendEnvironment.undisturbed : SendEnvironment where
  ready := true
  stopped := fun _ _ => false
  sendto := fun _ _ => .sent

/-- The chunk loop of `sendMSG`.  `attempt` says whether the datagram of a
chunk left in the end; the loop breaks when it did not. -/
def sendLoop {chunkSize : Nat} (positive : 0 < chunkSize)
    (chunkHeader : Nat → Bool → List UInt8) (stopped attempt : Nat → Bool)
    (msg : List UInt8) (remainingLength offset chunkNumber : Nat) :
    List Datagram :=
  if 0 < remainingLength ∧ stopped chunkNumber = false then
    let chunkLength := min chunkSize remainingLength
    let remainingLength' := remainingLength - chunkLength
    let chunkMsg := chunkHeader chunkNumber (remainingLength' = 0) ++
      (msg.drop offset).take chunkLength
    if attempt chunkNumber then
      chunkMsg :: sendLoop positive chunkHeader stopped attempt msg
        remainingLength' (offset + chunkLength) (chunkNumber + 1)
    else []
  else []
termination_by remainingLength

/-- The header as `CUDPClient::sendMSG` writes it in place. -/
def udpChunkHeader (chunkNumber : Nat) (isLastChunk : Bool) : List UInt8 :=
  if isLastChunk then
    [0xFF, 0xFF]
  else
    [UInt8.ofNat (chunkNumber &&& 0xFF), UInt8.ofNat ((chunkNumber >>> 8) &&& 0xFF)]

/-- The header as `CUnixDgramClient::sendMSG` asks for it: the `int` chunk
number is narrowed to `uint16_t` by the call. -/
def unixChunkHeader (chunkNumber : Nat) (isLastChunk : Bool) : List UInt8 :=
  prepareChunkHeader (UInt16.ofNat chunkNumber) isLastChunk

theorem udpChunkHeader_eq_unixChunkHeader : udpChunkHeader = unixChunkHeader := by
  funext chunkNumber isLastChunk
  cases isLastChunk with
  | true => rfl
  | false =>
      have lowByte (number : Nat) :
          UInt8.ofNat (number &&& 0xFF) = UInt8.ofNat number := by
        apply UInt8.toNat_inj.mp
        simp [and_low_byte]
      rw [unixChunkHeader, prepareChunkHeader_ofNat]
      simp only [udpChunkHeader, Bool.false_eq_true, if_false, lowByte,
        Nat.shiftRight_eq_div_pow]

/-- The retries after a first `sendto` of chunk 0 that failed with `ENOENT`. -/
def retrySend (environment : SendEnvironment) (chunkNumber : Nat) :
    Nat → Nat → Bool
  | 0, _ => false
  | retriesLeft + 1, retry =>
      if environment.stopped chunkNumber (retry + 1) then false
      else if environment.sendto chunkNumber (retry + 1) = .sent then true
      else retrySend environment chunkNumber retriesLeft (retry + 1)

def unixAttempt (environment : SendEnvironment) (chunkNumber : Nat) : Bool :=
  match environment.sendto chunkNumber 0 with
  | .sent => true
  | .noEntry =>
      if chunkNumber = 0 then retrySend environment chunkNumber 5 0 else false
  | .failed => false

/-- The datagrams `CUDPClient::sendMSG` sends. -/
def CUDPClient.sendMSG (client : CUDPClient) (environment : SendEnvironment)
    (msg : List UInt8) : List Datagram :=
  if environment.ready then
    sendLoop client.positive udpChunkHeader (environment.stopped · 0)
      (fun chunkNumber => environment.sendto chunkNumber 0 = .sent)
      msg msg.length 0 0
  else []

/-- The datagrams `CUnixDgramClient::sendMSG` sends. -/
def CUnixDgramClient.sendMSG (client : CUnixDgramClient)
    (environment : SendEnvironment) (msg : List UInt8) : List Datagram :=
  if environment.ready then
    sendLoop client.positive unixChunkHeader (environment.stopped · 0)
      (unixAttempt environment) msg msg.length 0 0
  else []

/-- Put the headers on the chunks of a message, numbered from the given chunk
number on, with the end marker on the last one. -/
def encodeChunks : Nat → List (List UInt8) → List Datagram
  | _, [] => []
  | chunkNumber, [chunk] => [unixChunkHeader chunkNumber true ++ chunk]
  | chunkNumber, chunk :: next :: chunks =>
      (unixChunkHeader chunkNumber false ++ chunk) ::
        encodeChunks (chunkNumber + 1) (next :: chunks)

theorem encodeChunks_cons_of_ne_nil {chunks : List (List UInt8)}
    (nonempty : chunks ≠ []) (chunkNumber : Nat) (chunk : List UInt8) :
    encodeChunks chunkNumber (chunk :: chunks) =
      (unixChunkHeader chunkNumber false ++ chunk) ::
        encodeChunks (chunkNumber + 1) chunks := by
  cases chunks with
  | nil => exact (nonempty rfl).elim
  | cons next chunks => rfl

/-- One turn of the chunk loop takes the first of the remaining chunks off. -/
theorem encodeChunks_splitChunks_step {chunkSize : Nat} (positive : 0 < chunkSize)
    {msg : List UInt8} {remainingLength offset : Nat}
    (bound : offset + remainingLength = msg.length)
    (continues : 0 < remainingLength) (chunkNumber : Nat) :
    encodeChunks chunkNumber (splitChunks chunkSize (msg.drop offset)) =
      (unixChunkHeader chunkNumber
          (remainingLength - min chunkSize remainingLength = 0) ++
        (msg.drop offset).take (min chunkSize remainingLength)) ::
        encodeChunks (chunkNumber + 1)
          (splitChunks chunkSize
            (msg.drop (offset + min chunkSize remainingLength))) := by
  have restLength : (msg.drop offset).length = remainingLength := by
    rw [List.length_drop]
    omega
  have nonempty : msg.drop offset ≠ [] := by
    rw [← List.length_pos_iff]
    omega
  by_cases last : remainingLength ≤ chunkSize
  · have noRest : msg.drop (offset + remainingLength) = [] :=
      List.drop_of_length_le (by omega)
    rw [min_eq_right last, splitChunks_of_length_le nonempty (by omega), noRest,
      splitChunks_nil, List.take_of_length_le (by omega)]
    simp [encodeChunks]
  · have moreLeft : splitChunks chunkSize (msg.drop (offset + chunkSize)) ≠ [] := by
      rw [Ne, splitChunks_eq_nil_iff positive, ← Ne, ← List.length_pos_iff,
        List.length_drop]
      omega
    have notLast : decide (remainingLength - chunkSize = 0) = false :=
      decide_eq_false (by omega)
    rw [min_eq_left (by omega), splitChunks_of_ne_nil positive nonempty,
      List.drop_drop, encodeChunks_cons_of_ne_nil moreLeft, notLast]

/-- Undisturbed, the chunk loop sends all the encoded chunks. -/
theorem sendLoop_undisturbed {chunkSize : Nat} (positive : 0 < chunkSize)
    {stopped attempt : Nat → Bool} (running : ∀ number, stopped number = false)
    (leaves : ∀ number, attempt number = true) (msg : List UInt8)
    (remainingLength offset chunkNumber : Nat)
    (bound : offset + remainingLength = msg.length) :
    sendLoop positive unixChunkHeader stopped attempt msg remainingLength offset
        chunkNumber =
      encodeChunks chunkNumber (splitChunks chunkSize (msg.drop offset)) := by
  induction remainingLength using Nat.strong_induction_on
    generalizing offset chunkNumber with
  | _ remainingLength ih =>
      rw [sendLoop]
      by_cases continues : 0 < remainingLength
      · rw [if_pos ⟨continues, running chunkNumber⟩,
          encodeChunks_splitChunks_step positive bound continues]
        dsimp only
        rw [if_pos (leaves chunkNumber), ih _ (by omega) _ _ (by omega)]
      · have atEnd : msg.drop offset = [] := List.drop_of_length_le (by omega)
        rw [if_neg (by simp [continues]), atEnd, splitChunks_nil]
        rfl

theorem CUDPClient.sendMSG_undisturbed (client : CUDPClient) (msg : List UInt8) :
    client.sendMSG .undisturbed msg =
      encodeChunks 0 (splitChunks client.chunkSize msg) := by
  have ready : SendEnvironment.undisturbed.ready = true := rfl
  rw [sendMSG, if_pos ready, udpChunkHeader_eq_unixChunkHeader]
  apply sendLoop_undisturbed client.positive _ _ msg msg.length 0 0 (by omega)
  · exact fun _ => rfl
  · exact fun _ => rfl

theorem CUnixDgramClient.sendMSG_undisturbed (client : CUnixDgramClient)
    (msg : List UInt8) :
    client.sendMSG .undisturbed msg =
      encodeChunks 0 (splitChunks client.chunkSize msg) := by
  have ready : SendEnvironment.undisturbed.ready = true := rfl
  rw [sendMSG, if_pos ready]
  apply sendLoop_undisturbed client.positive _ _ msg msg.length 0 0 (by omega)
  · exact fun _ => rfl
  · exact fun _ => rfl

end Sending

section Receiving

/-- `recvfrom` into the receive buffer: the rest of a longer datagram is
dropped. -/
def recvfrom (datagram : Datagram) : List UInt8 :=
  datagram.take maxLine

/-- What the receiver does with a chunk: chunk number 0 clears what is stored,
the chunk is stored, and the end marker hands everything stored, followed by
one 0 byte, to `onReceive`. -/
def storeChunk (chunkNumber : UInt16) (chunk : List UInt8)
    (receivedChunks : List (List UInt8)) :
    List (List UInt8) × Option (List UInt8) :=
  let chunkVector := (if chunkNumber = 0 then [] else receivedChunks) ++ [chunk]
  if isEndChunk chunkNumber then
    ([], some (reassembleChunks chunkVector ++ [0]))
  else
    (chunkVector, none)

/-- One turn of the receiver loop, over the chunks stored for the source of the
datagram.  Packets of fewer than two bytes are skipped. -/
def receiveDatagram (parseHeader : UInt8 → UInt8 → UInt16)
    (receivedChunks : List (List UInt8)) (datagram : Datagram) :
    List (List UInt8) × Option (List UInt8) :=
  match recvfrom datagram with
  | low :: high :: chunk => storeChunk (parseHeader low high) chunk receivedChunks
  | _ => (receivedChunks, none)

/-- `CUDPClient::InternalReceiverEntry`: the stored chunks after the datagrams,
and the buffers given to `onReceive`. -/
def CUDPClient.internalReceiverEntry (signedness : CharSignedness)
    (receivedChunks : List (List UInt8)) (datagrams : List Datagram) :
    List (List UInt8) × List (List UInt8) :=
  run (receiveDatagram (charChunkNumber signedness)) receivedChunks datagrams

/-- `CUnixDgramClient::InternalReceiverEntry`: the chunks stored for every
source path, a path that is not in the map counting as one without chunks, and
the buffers given to `onReceive`, each with the path of the datagram that
completed it. -/
def CUnixDgramClient.internalReceiverEntry
    (receivedChunksBySource : String → List (List UInt8))
    (datagrams : List (String × Datagram)) :
    (String → List (List UInt8)) × List (String × List UInt8) :=
  run (keyedStep (receiveDatagram parseChunkNumber)) receivedChunksBySource datagrams

end Receiving

end DroneEngage.DatagramClients
