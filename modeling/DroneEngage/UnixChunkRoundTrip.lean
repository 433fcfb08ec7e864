import DroneEngage.UdpChunkRoundTrip
import Mathlib.Data.List.TakeDrop

/-!
# The Unix datagram round trip

The Unix client keeps the stored chunks of every source path apart, so each
sender's messages come back in its own order however the datagrams of several
senders interleave.
-/

namespace DroneEngage.DatagramClients

open ChunkProtocol KeyedTransducers MessageChunks

variable {client : CUnixDgramClient} {msg : List UInt8}

/-- The datagram comes through `recvfrom` whole. -/
def ArrivesWhole (datagram : Datagram) : Prop :=
  recvfrom datagram = datagram

theorem arrivesWhole_header_append {chunkNumber : Nat} {isLastChunk : Bool}
    {chunk : List UInt8} :
    ArrivesWhole (unixChunkHeader chunkNumber isLastChunk ++ chunk) ↔
      FitsBuffer chunk := by
  rw [ArrivesWhole, recvfrom, List.take_eq_self_iff, List.length_append,
    unixChunkHeader, length_prepareChunkHeader, FitsBuffer, Nat.add_comm]

theorem fitsBuffer_of_arrivesWhole {chunks : List (List UInt8)} {chunkNumber : Nat}
    (whole : ∀ datagram ∈ encodeChunks chunkNumber chunks, ArrivesWhole datagram) :
    ∀ chunk ∈ chunks, FitsBuffer chunk := by
  induction chunks generalizing chunkNumber with
  | nil => simp
  | cons chunk chunks ih =>
      by_cases last : chunks = []
      · subst chunks
        simpa [encodeChunks, arrivesWhole_header_append] using whole
      · rw [encodeChunks_cons_of_ne_nil last, List.forall_mem_cons,
          arrivesWhole_header_append] at whole
        exact List.forall_mem_cons.mpr ⟨whole.1, ih whole.2⟩

/-- What the receiver makes of one message from a source with the given stored
chunks: only a message of a single chunk keeps them. -/
theorem run_sendMSG (nonempty : msg ≠ [])
    (atMost : (splitChunks client.chunkSize msg).length ≤ 65536)
    (whole : ∀ datagram ∈ client.sendMSG .undisturbed msg, ArrivesWhole datagram)
    (stored : List (List UInt8)) :
    run (receiveDatagram parseChunkNumber) stored
        (client.sendMSG .undisturbed msg) =
      ([], [(if 2 ≤ (splitChunks client.chunkSize msg).length then []
        else stored.flatten) ++ msg ++ [0]]) := by
  have reads := readsEndMarker_parseChunkNumber
  have flattened := flatten_splitChunks client.positive msg
  rw [CUnixDgramClient.sendMSG_undisturbed] at whole ⊢
  have fits := fitsBuffer_of_arrivesWhole whole
  have middle : ∀ number, 1 ≤ number →
      number + 1 < (splitChunks client.chunkSize msg).length →
      IsMiddle (receivedNumber parseChunkNumber number) :=
    fun number lower upper => isMiddle_parseChunkNumber lower (by omega)
  by_cases severalChunks : 2 ≤ (splitChunks client.chunkSize msg).length
  · rw [run_encodeChunks_of_start reads (by decide) severalChunks fits middle,
      flattened, if_pos severalChunks, List.nil_append]
  · have notNil : splitChunks client.chunkSize msg ≠ [] :=
      (splitChunks_eq_nil_iff client.positive).not.mpr nonempty
    rw [run_encodeChunks_of_middle reads notNil fits 0
      (fun number _ upper => absurd upper (by omega)), List.flatten_append,
      flattened, if_neg severalChunks]

theorem arrivesWhole_of_mem_sendMSG
    (fits : client.chunkSize + chunkHeaderSize ≤ maxLine) :
    ∀ datagram ∈ client.sendMSG .undisturbed msg, ArrivesWhole datagram := by
  have encoded (chunks : List (List UInt8)) (chunkNumber : Nat)
      (chunksFit : ∀ chunk ∈ chunks, FitsBuffer chunk) :
      ∀ datagram ∈ encodeChunks chunkNumber chunks, ArrivesWhole datagram := by
    induction chunks generalizing chunkNumber with
    | nil => simp [encodeChunks]
    | cons chunk chunks ih =>
        rw [List.forall_mem_cons] at chunksFit
        by_cases last : chunks = []
        · subst chunks
          simpa [encodeChunks, arrivesWhole_header_append] using chunksFit.1
        · rw [encodeChunks_cons_of_ne_nil last, List.forall_mem_cons,
            arrivesWhole_header_append]
          exact ⟨chunksFit.1, ih _ chunksFit.2⟩
  rw [CUnixDgramClient.sendMSG_undisturbed]
  exact encoded _ 0 (fun _ => fitsBuffer_of_mem_splitChunks client.positive fits)

/-- A message that meets no stored chunks comes back, and leaves none. -/
theorem run_sendMSG_of_nil (nonempty : msg ≠ [])
    (fits : client.chunkSize + chunkHeaderSize ≤ maxLine)
    (atMost : (splitChunks client.chunkSize msg).length ≤ 65536) :
    run (receiveDatagram parseChunkNumber) [] (client.sendMSG .undisturbed msg) =
      ([], [msg ++ [0]]) := by
  rw [run_sendMSG nonempty atMost (arrivesWhole_of_mem_sendMSG fits)]
  simp

/-- Any interleaving of the datagrams of several senders gives every sender's
messages back, each once, in that sender's order. -/
theorem unix_roundTrip_interleaved {Sender : Type} [DecidableEq Sender]
    {socketPath : Sender → String} (distinct : Function.Injective socketPath)
    {client : Sender → CUnixDgramClient}
    (fits : ∀ sender, (client sender).chunkSize + chunkHeaderSize ≤ maxLine)
    {messages : Sender → List (List UInt8)}
    (nonempty : ∀ sender, ∀ msg ∈ messages sender, msg ≠ [])
    (atMost : ∀ sender, ∀ msg ∈ messages sender,
      (splitChunks (client sender).chunkSize msg).length ≤ 65536)
    {trace : List (Sender × Datagram)}
    (interleaving : IsInterleaving
      (fun sender => (messages sender).flatMap
        ((client sender).sendMSG .undisturbed)) trace) :
    ∃ deliveries : List (Sender × List UInt8),
      IsInterleaving (fun sender => (messages sender).map (· ++ [0])) deliveries ∧
      (CUnixDgramClient.internalReceiverEntry (fun _ => [])
          (trace.map fun entry => (socketPath entry.1, entry.2))).2 =
        deliveries.map fun entry => (socketPath entry.1, entry.2) := by
  refine ⟨_, ?_, keyedRun_map_key distinct (receiveDatagram parseChunkNumber)
    (fun _ => []) trace⟩
  have delivered := isInterleaving_keyedRun (receiveDatagram parseChunkNumber)
    (fun _ => []) interleaving
  intro sender
  have returns : ∀ msg ∈ messages sender,
      run (receiveDatagram parseChunkNumber) []
          ((client sender).sendMSG .undisturbed msg) = ([], [msg ++ [0]]) :=
    fun msg member => run_sendMSG_of_nil (nonempty sender msg member) (fits sender)
      (atMost sender msg member)
  have whole := run_flatMap_of_returns (receiveDatagram parseChunkNumber) []
    ((client sender).sendMSG .undisturbed) (fun msg => [msg ++ [0]])
    (messages sender) returns
  calc
    project sender _ = _ := delivered sender
    _ = (messages sender).flatMap (fun msg => [msg ++ [0]]) := congrArg Prod.snd whole
    _ = (messages sender).map (· ++ [0]) := List.map_eq_flatMap.symm

section TwoByteChunks

/-- A client with the smallest chunk size that a message of three bytes shows
two chunks for. -/
def twoByteClient : CUnixDgramClient := ⟨2, by decide⟩

theorem twoByteClient_sendMSG_three :
    twoByteClient.sendMSG .undisturbed [1, 2, 3] = [[0, 0, 1, 2], [0xFF, 0xFF, 3]] := by
  simp [twoByteClient, CUnixDgramClient.sendMSG_undisturbed, splitChunks, encodeChunks]
  decide

theorem twoByteClient_sendMSG_one :
    twoByteClient.sendMSG .undisturbed [4] = [[0xFF, 0xFF, 4]] := by
  simp [twoByteClient, CUnixDgramClient.sendMSG_undisturbed, splitChunks, encodeChunks]
  decide

end TwoByteChunks

theorem unix_roundTrip_interleaved_twoSenders :
    ∃ deliveries : List (Bool × List UInt8),
      IsInterleaving
        (fun sender => (bif sender then [[1, 2, 3]] else [[4]]).map (· ++ [0]))
        deliveries ∧
      (CUnixDgramClient.internalReceiverEntry (fun _ => [])
          ([(true, [0, 0, 1, 2]), (false, [0xFF, 0xFF, 4]),
            (true, [0xFF, 0xFF, 3])].map
              fun entry => (bif entry.1 then "fcb" else "camera", entry.2))).2 =
        deliveries.map fun entry => (bif entry.1 then "fcb" else "camera", entry.2) := by
  have distinct : Function.Injective fun sender => bif sender then "fcb" else "camera" := by
    intro first second
    cases first <;> cases second <;> simp
  apply unix_roundTrip_interleaved distinct (fun _ => (by decide :
    twoByteClient.chunkSize + chunkHeaderSize ≤ maxLine))
  · decide
  · intro sender msg member
    cases sender <;> simp at member <;> subst msg <;> simp [twoByteClient, splitChunks]
  · intro sender
    cases sender <;>
      simp [project, twoByteClient_sendMSG_three, twoByteClient_sendMSG_one]

end DroneEngage.DatagramClients
