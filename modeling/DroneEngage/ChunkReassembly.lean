import DroneEngage.DatagramClients

/-!
# Reassembling the chunks of one message

What the receiver loop makes of the datagrams of one message, for any way of
reading the chunk header: which numbers count as a start, a middle or an end
decides everything.  Both transports use these lemmas with their own reader.
-/

namespace DroneEngage.DatagramClients

open ChunkProtocol KeyedTransducers MessageChunks

variable {parseHeader : UInt8 → UInt8 → UInt16}

/-- The number the receiver reads from the header of a chunk that is not the
last one. -/
def receivedNumber (parseHeader : UInt8 → UInt8 → UInt16) (chunkNumber : Nat) :
    UInt16 :=
  parseHeader (UInt8.ofNat chunkNumber) (UInt8.ofNat (chunkNumber / 256))

/-- The reader recognises the end marker. -/
def ReadsEndMarker (parseHeader : UInt8 → UInt8 → UInt16) : Prop :=
  parseHeader 0xFF 0xFF = chunkEndMarker

/-- The chunk is stored behind the ones before it: it neither clears them nor
ends the message. -/
def IsMiddle (chunkNumber : UInt16) : Prop :=
  chunkNumber ≠ 0 ∧ chunkNumber ≠ chunkEndMarker

/-- The chunk and its header come through `recvfrom` whole. -/
def FitsBuffer (chunk : List UInt8) : Prop :=
  chunk.length + chunkHeaderSize ≤ maxLine

/-- Of any chunk, this much comes through `recvfrom`. -/
def receivedPart (chunk : List UInt8) : List UInt8 :=
  chunk.take (maxLine - chunkHeaderSize)

theorem FitsBuffer.receivedPart_eq {chunk : List UInt8} (fits : FitsBuffer chunk) :
    receivedPart chunk = chunk :=
  List.take_of_length_le (by unfold FitsBuffer at fits; omega)

theorem isEndChunk_iff {chunkNumber : UInt16} :
    isEndChunk chunkNumber = true ↔ chunkNumber = chunkEndMarker := by
  simp [isEndChunk]

theorem storeChunk_start {chunkNumber : UInt16} (start : chunkNumber = 0)
    (chunk : List UInt8) (stored : List (List UInt8)) :
    storeChunk chunkNumber chunk stored = ([chunk], none) := by
  subst start
  rfl

theorem storeChunk_middle {chunkNumber : UInt16} (middle : IsMiddle chunkNumber)
    (chunk : List UInt8) (stored : List (List UInt8)) :
    storeChunk chunkNumber chunk stored = (stored ++ [chunk], none) := by
  have notEnd : isEndChunk chunkNumber = false := by
    rw [Bool.eq_false_iff, Ne, isEndChunk_iff]
    exact middle.2
  simp [storeChunk, middle.1, notEnd]

theorem storeChunk_end {chunkNumber : UInt16} (isEnd : chunkNumber = chunkEndMarker)
    (chunk : List UInt8) (stored : List (List UInt8)) :
    storeChunk chunkNumber chunk stored =
      ([], some ((stored ++ [chunk]).flatten ++ [0])) := by
  have notStart : chunkNumber ≠ 0 := by
    rw [isEnd]
    decide
  simp [storeChunk, notStart, isEndChunk_iff.mpr isEnd]

theorem receiveDatagram_notLast (stored : List (List UInt8)) (chunkNumber : Nat)
    (chunk : List UInt8) :
    receiveDatagram parseHeader stored (unixChunkHeader chunkNumber false ++ chunk) =
      storeChunk (receivedNumber parseHeader chunkNumber) (receivedPart chunk)
        stored := by
  rw [unixChunkHeader, prepareChunkHeader_ofNat]
  rfl

theorem receiveDatagram_last (reads : ReadsEndMarker parseHeader)
    (stored : List (List UInt8)) (chunkNumber : Nat) (chunk : List UInt8) :
    receiveDatagram parseHeader stored (unixChunkHeader chunkNumber true ++ chunk) =
      ([], some ((stored ++ [receivedPart chunk]).flatten ++ [0])) :=
  storeChunk_end reads (receivedPart chunk) stored

/-- From a chunk number on, the datagrams of a message complete what is
stored, as long as none of the numbers before the end is misread. -/
theorem run_encodeChunks_of_middle (reads : ReadsEndMarker parseHeader)
    {chunks : List (List UInt8)} (nonempty : chunks ≠ [])
    (fits : ∀ chunk ∈ chunks, FitsBuffer chunk) (chunkNumber : Nat)
    (middle : ∀ number, chunkNumber ≤ number →
      number + 1 < chunkNumber + chunks.length →
      IsMiddle (receivedNumber parseHeader number))
    (stored : List (List UInt8)) :
    run (receiveDatagram parseHeader) stored (encodeChunks chunkNumber chunks) =
      ([], [(stored ++ chunks).flatten ++ [0]]) := by
  induction chunks generalizing chunkNumber stored with
  | nil => exact (nonempty rfl).elim
  | cons chunk chunks ih =>
      have chunkFits := (fits chunk (by simp)).receivedPart_eq
      by_cases last : chunks = []
      · subst chunks
        simp [encodeChunks, run_cons, receiveDatagram_last reads, chunkFits]
      · have lengthPos := List.length_pos_iff.mpr last
        have firstMiddle : IsMiddle (receivedNumber parseHeader chunkNumber) :=
          middle chunkNumber le_rfl (by simp; omega)
        have rest := ih last (fun other member => fits other (by simp [member]))
          (chunkNumber + 1) (fun number lower upper =>
            middle number (by omega) (by simp only [List.length_cons]; omega))
          (stored ++ [chunk])
        rw [encodeChunks_cons_of_ne_nil last, run_cons, receiveDatagram_notLast,
          storeChunk_middle firstMiddle, chunkFits, rest]
        simp

/-- A message of at least two chunks is received whole whatever is stored, when
its first number reads as the start and the others as middles. -/
theorem run_encodeChunks_of_start (reads : ReadsEndMarker parseHeader)
    (start : receivedNumber parseHeader 0 = 0)
    {chunks : List (List UInt8)} (severalChunks : 2 ≤ chunks.length)
    (fits : ∀ chunk ∈ chunks, FitsBuffer chunk)
    (middle : ∀ number, 1 ≤ number → number + 1 < chunks.length →
      IsMiddle (receivedNumber parseHeader number))
    (stored : List (List UInt8)) :
    run (receiveDatagram parseHeader) stored (encodeChunks 0 chunks) =
      ([], [chunks.flatten ++ [0]]) := by
  cases chunks with
  | nil => simp at severalChunks
  | cons chunk chunks =>
      have nonempty : chunks ≠ [] := by
        rw [← List.length_pos_iff]
        simp only [List.length_cons] at severalChunks
        omega
      have chunkFits := (fits chunk (by simp)).receivedPart_eq
      rw [encodeChunks_cons_of_ne_nil nonempty, run_cons, receiveDatagram_notLast,
        storeChunk_start start, chunkFits,
        run_encodeChunks_of_middle reads nonempty
          (fun other member => fits other (by simp [member])) 1
          (fun number lower upper =>
            middle number lower (by simp only [List.length_cons]; omega))]
      simp

/-- The only chunk of a message completes whatever is stored before it. -/
theorem run_encodeChunks_single (reads : ReadsEndMarker parseHeader)
    (stored : List (List UInt8)) (chunkNumber : Nat) (chunk : List UInt8) :
    run (receiveDatagram parseHeader) stored (encodeChunks chunkNumber [chunk]) =
      ([], [stored.flatten ++ receivedPart chunk ++ [0]]) := by
  simp [encodeChunks, run_cons, receiveDatagram_last reads]

/-- The end of a message makes at least one call, whatever was misread before
it. -/
theorem run_encodeChunks_snd_ne_nil (reads : ReadsEndMarker parseHeader)
    {chunks : List (List UInt8)} (nonempty : chunks ≠ []) (chunkNumber : Nat)
    (stored : List (List UInt8)) :
    (run (receiveDatagram parseHeader) stored (encodeChunks chunkNumber chunks)).2 ≠
      [] := by
  induction chunks generalizing chunkNumber stored with
  | nil => exact (nonempty rfl).elim
  | cons chunk chunks ih =>
      by_cases last : chunks = []
      · subst chunks
        simp [run_encodeChunks_single reads]
      · rw [encodeChunks_cons_of_ne_nil last, run_cons]
        simp [ih last]

/-- A number misread as the end, in front of a chunk that is not the last one,
makes an extra call. -/
theorem two_le_length_run_encodeChunks (reads : ReadsEndMarker parseHeader)
    {chunks : List (List UInt8)} (chunkNumber number : Nat)
    (lower : chunkNumber ≤ number)
    (upper : number + 1 < chunkNumber + chunks.length)
    (misread : receivedNumber parseHeader number = chunkEndMarker)
    (stored : List (List UInt8)) :
    2 ≤ (run (receiveDatagram parseHeader) stored
      (encodeChunks chunkNumber chunks)).2.length := by
  induction chunks generalizing chunkNumber stored with
  | nil =>
      simp at upper
      omega
  | cons chunk chunks ih =>
      have nonempty : chunks ≠ [] := by
        rw [← List.length_pos_iff]
        simp only [List.length_cons] at upper
        omega
      rw [encodeChunks_cons_of_ne_nil nonempty, run_cons, receiveDatagram_notLast]
      by_cases here : number = chunkNumber
      · subst number
        have later := List.length_pos_iff.mpr
          (run_encodeChunks_snd_ne_nil reads nonempty (chunkNumber + 1) [])
        rw [storeChunk_end misread]
        simp
        omega
      · have rest := ih (chunkNumber + 1) (by omega)
          (by simp only [List.length_cons] at upper; omega)
          (storeChunk (receivedNumber parseHeader chunkNumber)
            (receivedPart chunk) stored).1
        simp only [List.length_append]
        omega

end DroneEngage.DatagramClients
