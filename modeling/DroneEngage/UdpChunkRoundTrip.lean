import DroneEngage.ChunkReassembly

/-!
# The UDP chunk round trip

`CUDPClient::InternalReceiverEntry` reads the chunk header from a `char`
buffer.  Over unsigned `char` every message of up to 65536 chunks comes back;
over signed `char` the 256th chunk reads as the last one, so only messages of
up to 256 chunks do.
-/

namespace DroneEngage.DatagramClients

open ChunkProtocol KeyedTransducers MessageChunks

theorem receivedNumber_parseChunkNumber (chunkNumber : Nat) :
    receivedNumber parseChunkNumber chunkNumber = UInt16.ofNat chunkNumber := by
  apply UInt16.toNat_inj.mp
  rw [receivedNumber, toNat_parseChunkNumber]
  simp
  omega

theorem readsEndMarker_parseChunkNumber : ReadsEndMarker parseChunkNumber := by
  unfold ReadsEndMarker
  decide

theorem isMiddle_parseChunkNumber {chunkNumber : Nat} (lower : 1 ≤ chunkNumber)
    (upper : chunkNumber < 65535) :
    IsMiddle (receivedNumber parseChunkNumber chunkNumber) := by
  rw [receivedNumber_parseChunkNumber]
  constructor
  · intro start
    have value := congrArg UInt16.toNat start
    simp at value
    omega
  · intro isEnd
    have value := congrArg UInt16.toNat isEnd
    simp [chunkEndMarker] at value
    omega

theorem readsEndMarker_charChunkNumber (signedness : CharSignedness) :
    ReadsEndMarker (charChunkNumber signedness) := by
  unfold ReadsEndMarker
  cases signedness <;> decide

theorem receivedNumber_charChunkNumber_zero (signedness : CharSignedness) :
    receivedNumber (charChunkNumber signedness) 0 = 0 := by
  cases signedness <;> decide

theorem receivedNumber_charChunkNumber_unsigned (chunkNumber : Nat) :
    receivedNumber (charChunkNumber .unsigned) chunkNumber =
      receivedNumber parseChunkNumber chunkNumber :=
  charChunkNumber_unsigned _ _

theorem receivedNumber_signed_255 :
    receivedNumber (charChunkNumber .signed) 255 = chunkEndMarker := by
  decide

/-- Below 255 the sign of `char` does not matter for what a number stands for. -/
theorem isMiddle_charChunkNumber_of_lt (signedness : CharSignedness)
    {chunkNumber : Nat} (lower : 1 ≤ chunkNumber) (upper : chunkNumber < 255) :
    IsMiddle (receivedNumber (charChunkNumber signedness) chunkNumber) := by
  cases signedness with
  | unsigned =>
      rw [receivedNumber_charChunkNumber_unsigned]
      exact isMiddle_parseChunkNumber lower (by omega)
  | signed =>
      have lowByte : (UInt8.ofNat chunkNumber).toNat = chunkNumber := by
        simp
        omega
      constructor
      · intro start
        have lowZero := ((charChunkNumber_signed_eq_zero_iff _ _).mp start).1
        rw [lowZero] at lowByte
        simp at lowByte
        omega
      · intro isEnd
        have lowAllOnes := (charChunkNumber_signed_eq_end_iff _ _).mp isEnd
        rw [lowAllOnes] at lowByte
        simp at lowByte
        omega

section RoundTrip

variable {client : CUDPClient} {msg : List UInt8}

theorem fitsBuffer_of_mem_splitChunks {chunkSize : Nat} (positive : 0 < chunkSize)
    (fits : chunkSize + chunkHeaderSize ≤ maxLine) {chunk : List UInt8}
    (member : chunk ∈ splitChunks chunkSize msg) : FitsBuffer chunk := by
  have short := length_le_of_mem_splitChunks positive member
  unfold FitsBuffer
  omega

/-- A message whose chunk numbers all read as they were written is delivered
once and whole. -/
theorem udp_delivers_of_middle (signedness : CharSignedness)
    (fits : client.chunkSize + chunkHeaderSize ≤ maxLine) (nonempty : msg ≠ [])
    (middle : ∀ number, 1 ≤ number →
      number + 1 < (splitChunks client.chunkSize msg).length →
      IsMiddle (receivedNumber (charChunkNumber signedness) number)) :
    CUDPClient.internalReceiverEntry signedness []
        (client.sendMSG .undisturbed msg) = ([], [msg ++ [0]]) := by
  have reads := readsEndMarker_charChunkNumber signedness
  have chunksFit : ∀ chunk ∈ splitChunks client.chunkSize msg, FitsBuffer chunk :=
    fun _ => fitsBuffer_of_mem_splitChunks client.positive fits
  have whole := flatten_splitChunks client.positive msg
  rw [CUDPClient.internalReceiverEntry, CUDPClient.sendMSG_undisturbed]
  by_cases severalChunks : 2 ≤ (splitChunks client.chunkSize msg).length
  · rw [run_encodeChunks_of_start reads
      (receivedNumber_charChunkNumber_zero signedness) severalChunks chunksFit
      middle, whole]
  · have notNil : splitChunks client.chunkSize msg ≠ [] :=
      (splitChunks_eq_nil_iff client.positive).not.mpr nonempty
    rw [run_encodeChunks_of_middle reads notNil chunksFit 0
      (fun number _ upper => absurd upper (by omega)), List.nil_append, whole]

/-- Over signed `char`, the 256th chunk of a longer message makes a call of its
own. -/
theorem two_le_length_udp_deliveries_signed
    (long : 256 < (splitChunks client.chunkSize msg).length) :
    2 ≤ (CUDPClient.internalReceiverEntry .signed []
      (client.sendMSG .undisturbed msg)).2.length := by
  rw [CUDPClient.internalReceiverEntry, CUDPClient.sendMSG_undisturbed]
  exact two_le_length_run_encodeChunks (readsEndMarker_charChunkNumber .signed)
    0 255 (by omega) (by omega) receivedNumber_signed_255 []

/-- The round trip over UDP holds exactly for unsigned `char` and, for signed
`char`, for messages of up to 256 chunks. -/
theorem udp_roundTrip_iff (signedness : CharSignedness) {chunkSize : Int}
    (accepted : CUDPClient.init chunkSize = some client)
    (fits : chunkSize + chunkHeaderSize ≤ maxLine) (nonempty : 1 ≤ msg.length)
    (atMost : (splitChunks client.chunkSize msg).length ≤ 65536) :
    (CUDPClient.internalReceiverEntry signedness []
        (client.sendMSG .undisturbed msg)).2 = [msg ++ [0]] ↔
      signedness = .unsigned ∨
        (splitChunks client.chunkSize msg).length ≤ 256 := by
  have sizeEq := CUDPClient.init_eq_some_iff.mp accepted
  have sizeFits : client.chunkSize + chunkHeaderSize ≤ maxLine := by omega
  have notNil : msg ≠ [] := List.length_pos_iff.mp nonempty
  constructor
  · intro delivered
    by_contra otherwise
    push Not at otherwise
    obtain ⟨notUnsigned, long⟩ := otherwise
    have isSigned : signedness = .signed := by
      cases signedness with
      | signed => rfl
      | unsigned => exact (notUnsigned rfl).elim
    subst isSigned
    have calls := two_le_length_udp_deliveries_signed long
    rw [delivered] at calls
    simp at calls
  · intro condition
    have middle : ∀ number, 1 ≤ number →
        number + 1 < (splitChunks client.chunkSize msg).length →
        IsMiddle (receivedNumber (charChunkNumber signedness) number) := by
      intro number lower upper
      rcases condition with rfl | short
      · rw [receivedNumber_charChunkNumber_unsigned]
        exact isMiddle_parseChunkNumber lower (by omega)
      · exact isMiddle_charChunkNumber_of_lt signedness lower (by omega)
    rw [udp_delivers_of_middle signedness sizeFits notNil middle]

theorem udp_roundTrip_iff_threeChunks :
    (CUDPClient.internalReceiverEntry .signed []
        (CUDPClient.sendMSG ⟨2, by decide, by decide⟩ .undisturbed [1, 2, 3, 4, 5])).2 =
      [[1, 2, 3, 4, 5] ++ [0]] := by
  have chunks : (splitChunks 2 [(1 : UInt8), 2, 3, 4, 5]).length = 3 :=
    length_splitChunks (by decide) _
  exact (@udp_roundTrip_iff ⟨2, by decide, by decide⟩ [1, 2, 3, 4, 5] .signed 2 rfl (by decide)
    (by decide) (chunks.trans_le (by decide))).mpr (.inr (chunks.trans_le (by decide)))

/-- Over signed `char` and the chunk size chosen for remote targets, a message
of 376833 bytes, one more than 256 chunks hold, does not come back. -/
theorem udp_roundTrip_signed_fails :
    ∃ client, CUDPClient.init 1472 = some client ∧
      (1472 : Int) + chunkHeaderSize ≤ maxLine ∧
      (splitChunks client.chunkSize (List.replicate 376833 (7 : UInt8))).length ≤
        65536 ∧
      (CUDPClient.internalReceiverEntry .signed []
        (client.sendMSG .undisturbed (List.replicate 376833 7))).2 ≠
          [List.replicate 376833 7 ++ [0]] := by
  have chunkTotal :
      (splitChunks 1472 (List.replicate 376833 (7 : UInt8))).length = 257 := by
    rw [length_splitChunks (by decide), List.length_replicate]
    rfl
  refine ⟨⟨1472, by decide, by decide⟩, rfl, by decide, ?_, ?_⟩
  · rw [chunkTotal]
    decide
  · intro delivered
    have calls := @two_le_length_udp_deliveries_signed
      ⟨1472, by decide, by decide⟩ (List.replicate 376833 7)
      (by rw [chunkTotal]; decide)
    rw [delivered] at calls
    exact Nat.not_succ_le_self 1 calls

end RoundTrip

end DroneEngage.DatagramClients
