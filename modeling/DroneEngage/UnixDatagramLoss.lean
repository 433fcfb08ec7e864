import DroneEngage.UnixChunkRoundTrip

/-!
# Lost datagrams

The receiver looks at the chunk number only to find the start and the end of a
message, so a message whose other chunks are lost is delivered without them.
This file says exactly which loss patterns are harmless whatever the bytes of
the messages are.  After damage, a message of at least two chunks clears what
its sender left behind; a message of a single chunk carries the end marker
instead of number 0 and clears nothing.
-/

namespace DroneEngage.DatagramClients

open ChunkProtocol KeyedTransducers MessageChunks

/-- The parts of the surviving chunks of a message that reach the receiver. -/
def survivingParts (arrives : Nat → Bool) (chunks : List (List UInt8)) :
    List (List UInt8) :=
  (surviving arrives chunks).map receivedPart

theorem survivingParts_cons (arrives : Nat → Bool) (chunk : List UInt8)
    (chunks : List (List UInt8)) :
    survivingParts arrives (chunk :: chunks) =
      (if arrives 0 then [receivedPart chunk] else []) ++
        survivingParts (fun index => arrives (index + 1)) chunks := by
  unfold survivingParts
  rw [surviving]
  split <;> simp

/-- What the receiver makes of the surviving datagrams from chunk number one
on. -/
theorem run_surviving_encodeChunks {chunks : List (List UInt8)}
    (nonempty : chunks ≠ []) {chunkNumber : Nat} (lower : 1 ≤ chunkNumber)
    (atMost : chunkNumber + chunks.length ≤ 65536) (arrives : Nat → Bool)
    (stored : List (List UInt8)) :
    run (receiveDatagram parseChunkNumber) stored
        (surviving arrives (encodeChunks chunkNumber chunks)) =
      if arrives (chunks.length - 1) then
        ([], [(stored ++ survivingParts arrives chunks).flatten ++ [0]])
      else (stored ++ survivingParts arrives chunks, []) := by
  induction chunks generalizing chunkNumber arrives stored with
  | nil => exact (nonempty rfl).elim
  | cons chunk chunks ih =>
      by_cases last : chunks = []
      · subst chunks
        by_cases arrived : arrives 0 = true <;>
          simp [encodeChunks, surviving, survivingParts, arrived, run_cons,
            receiveDatagram_last readsEndMarker_parseChunkNumber]
      · have lengthPos := List.length_pos_iff.mpr last
        have middle := isMiddle_parseChunkNumber lower
          (by simp only [List.length_cons] at atMost; omega)
        have lastIndex : chunks.length - 1 + 1 = (chunk :: chunks).length - 1 := by
          simp only [List.length_cons]
          omega
        have rest (prior : List (List UInt8)) := ih last (Nat.le_add_left 1 chunkNumber)
          (by simp only [List.length_cons] at atMost; omega)
          (fun index => arrives (index + 1)) prior
        rw [encodeChunks_cons_of_ne_nil last, survivingParts_cons, surviving]
        rw [lastIndex] at rest
        by_cases arrived : arrives 0 = true
        · rw [if_pos arrived, if_pos arrived, run_cons, receiveDatagram_notLast,
            storeChunk_middle middle, rest]
          split <;> simp
        · rw [if_neg arrived, if_neg arrived, rest, List.nil_append]

/-- The stored chunks that a message is put behind: only the first of several
chunks clears them. -/
def keptChunks (arrives : Nat → Bool) (chunks stored : List (List UInt8)) :
    List (List UInt8) :=
  if 2 ≤ chunks.length ∧ arrives 0 = true then [] else stored

/-- What the receiver makes of the surviving datagrams of one message: only the
last one makes a call. -/
theorem run_surviving_sendMSG {client : CUnixDgramClient} {msg : List UInt8}
    (nonempty : msg ≠ [])
    (atMost : (splitChunks client.chunkSize msg).length ≤ 65536)
    (arrives : Nat → Bool) (stored : List (List UInt8)) :
    run (receiveDatagram parseChunkNumber) stored
        (surviving arrives (client.sendMSG .undisturbed msg)) =
      if arrives ((splitChunks client.chunkSize msg).length - 1) then
        ([], [(keptChunks arrives (splitChunks client.chunkSize msg) stored ++
          survivingParts arrives (splitChunks client.chunkSize msg)).flatten ++ [0]])
      else
        (keptChunks arrives (splitChunks client.chunkSize msg) stored ++
          survivingParts arrives (splitChunks client.chunkSize msg), []) := by
  have notNil : splitChunks client.chunkSize msg ≠ [] :=
    (splitChunks_eq_nil_iff client.positive).not.mpr nonempty
  rw [CUnixDgramClient.sendMSG_undisturbed]
  generalize splitChunks client.chunkSize msg = chunks at notNil atMost
  cases chunks with
  | nil => exact (notNil rfl).elim
  | cons chunk chunks =>
      by_cases last : chunks = []
      · subst chunks
        by_cases arrived : arrives 0 = true <;>
          simp [encodeChunks, surviving, survivingParts, keptChunks, arrived,
            run_cons, receiveDatagram_last readsEndMarker_parseChunkNumber]
      · have lengthPos := List.length_pos_iff.mpr last
        have lastIndex : chunks.length - 1 + 1 = (chunk :: chunks).length - 1 := by
          simp only [List.length_cons]
          omega
        have severalChunks : 2 ≤ (chunk :: chunks).length := by
          simp only [List.length_cons]
          omega
        have rest (prior : List (List UInt8)) :=
          run_surviving_encodeChunks last (le_refl 1)
            (by simp only [List.length_cons] at atMost; omega)
            (fun index => arrives (index + 1)) prior
        rw [encodeChunks_cons_of_ne_nil last, survivingParts_cons, surviving]
        rw [lastIndex] at rest
        by_cases arrived : arrives 0 = true
        · have cleared : keptChunks arrives (chunk :: chunks) stored = [] :=
            if_pos ⟨severalChunks, arrived⟩
          rw [if_pos arrived, if_pos arrived, run_cons, receiveDatagram_notLast,
            storeChunk_start (by decide), rest, cleared]
          split <;> simp
        · have kept : keptChunks arrives (chunk :: chunks) stored = stored :=
            if_neg fun clears => arrived clears.2
          rw [if_neg arrived, if_neg arrived, rest, kept, List.nil_append]

theorem survivingParts_of_whole {arrives : Nat → Bool} {chunks : List (List UInt8)}
    (all : ∀ index < chunks.length, arrives index = true)
    (fits : ∀ chunk ∈ chunks, FitsBuffer chunk) :
    survivingParts arrives chunks = chunks := by
  rw [survivingParts, surviving_of_forall all,
    List.map_congr_left fun chunk member => (fits chunk member).receivedPart_eq,
    List.map_id']

/-- Every surviving byte comes from the chunks. -/
theorem mem_of_mem_survivingParts {arrives : Nat → Bool}
    {chunks : List (List UInt8)} {byte : UInt8}
    (member : byte ∈ (survivingParts arrives chunks).flatten) :
    byte ∈ chunks.flatten := by
  obtain ⟨part, partMem, byteMem⟩ := List.mem_flatten.mp member
  obtain ⟨chunk, chunkMem, rfl⟩ := List.mem_map.mp partMem
  exact List.mem_flatten.mpr ⟨chunk,
    (surviving_sublist arrives chunks).subset chunkMem, List.mem_of_mem_take byteMem⟩

theorem length_survivingParts_le (arrives : Nat → Bool) (chunks : List (List UInt8)) :
    (survivingParts arrives chunks).flatten.length ≤ chunks.flatten.length := by
  induction chunks generalizing arrives with
  | nil => simp [survivingParts, surviving]
  | cons chunk chunks ih =>
      have rest := ih (fun index => arrives (index + 1))
      rw [survivingParts_cons]
      split <;> simp [receivedPart] at rest ⊢ <;> omega

/-- A lost or truncated chunk makes the surviving bytes fewer. -/
theorem length_survivingParts_lt {arrives : Nat → Bool} {chunks : List (List UInt8)}
    (nonempty : ∀ chunk ∈ chunks, chunk ≠ [])
    (damaged : ¬ ((∀ index < chunks.length, arrives index = true) ∧
      ∀ chunk ∈ chunks, FitsBuffer chunk)) :
    (survivingParts arrives chunks).flatten.length < chunks.flatten.length := by
  induction chunks generalizing arrives with
  | nil => simp at damaged
  | cons chunk chunks ih =>
      have chunkPos := List.length_pos_iff.mpr (nonempty chunk (by simp))
      have atMost := length_survivingParts_le (fun index => arrives (index + 1)) chunks
      rw [survivingParts_cons]
      by_cases arrived : arrives 0 = true
      · by_cases fits : FitsBuffer chunk
        · have restDamaged : ¬ ((∀ index < chunks.length, arrives (index + 1) = true) ∧
              ∀ other ∈ chunks, FitsBuffer other) := by
            rintro ⟨all, allFit⟩
            apply damaged
            refine ⟨fun index bound => ?_, List.forall_mem_cons.mpr ⟨fits, allFit⟩⟩
            cases index with
            | zero => exact arrived
            | succ index => exact all index (by simpa using bound)
          have rest := ih (fun other member => nonempty other (by simp [member]))
            restDamaged
          simpa [arrived, fits.receivedPart_eq] using rest
        · unfold FitsBuffer at fits
          simp [arrived, receivedPart] at atMost ⊢
          omega
      · simp [arrived] at atMost ⊢
        omega

/-- The datagrams of one sender's messages that survive their losses. -/
def survivingDatagrams (client : CUnixDgramClient) :
    List (List UInt8) → List (Nat → Bool) → List Datagram
  | msg :: messages, arrives :: losses =>
      surviving arrives (client.sendMSG .undisturbed msg) ++
        survivingDatagrams client messages losses
  | _, _ => []

/-- The buffers given to `onReceive` when the sender bound to `path` sends the
messages and only the datagrams with an arriving index survive. -/
def lossyDeliveries (client : CUnixDgramClient) (path : String)
    (messages : List (List UInt8)) (losses : List (Nat → Bool)) :
    List (List UInt8) :=
  (CUnixDgramClient.internalReceiverEntry (fun _ => [])
    ((survivingDatagrams client messages losses).map (Prod.mk path))).2.map Prod.snd

/-- A loss pattern, given with the lengths of the messages, is harmless: when
the last chunk of a message arrives, so do all its other chunks, its datagrams
fit the receive buffer, and a message of a single chunk comes when no chunks
are pending.  `pending` says whether chunks of earlier messages are. -/
def HarmlessLoss (chunkSize : Nat) : Bool → List (Nat × (Nat → Bool)) → Prop
  | _, [] => True
  | pending, (length, arrives) :: pattern =>
      let total := chunkCount chunkSize length
      if 0 < total ∧ arrives (total - 1) = true then
        (∀ index < total, arrives index = true) ∧
          min chunkSize length + chunkHeaderSize ≤ maxLine ∧
          (pending = true → 2 ≤ total) ∧
          HarmlessLoss chunkSize false pattern
      else
        HarmlessLoss chunkSize
          (pending || (List.range total).any arrives) pattern

section Correctness

variable {client : CUnixDgramClient}

theorem splitChunks_fit_iff {msg : List UInt8} (nonempty : msg ≠ []) :
    (∀ chunk ∈ splitChunks client.chunkSize msg, FitsBuffer chunk) ↔
      min client.chunkSize msg.length + chunkHeaderSize ≤ maxLine := by
  constructor
  · intro fits
    have first := fits (msg.take client.chunkSize) (by
      rw [splitChunks_of_ne_nil client.positive nonempty]
      exact List.mem_cons_self)
    rwa [FitsBuffer, List.length_take] at first
  · intro fits chunk member
    have short := length_le_of_mem_splitChunks client.positive member
    unfold FitsBuffer
    omega

theorem survivingParts_flatten_eq_nil_iff {arrives : Nat → Bool}
    {chunks : List (List UInt8)} (nonempty : ∀ chunk ∈ chunks, chunk ≠ []) :
    (survivingParts arrives chunks).flatten = [] ↔
      ∀ index < chunks.length, arrives index = false := by
  rw [← surviving_eq_nil_iff, List.flatten_eq_nil_iff, survivingParts]
  constructor
  · intro empty
    by_contra some
    obtain ⟨chunk, member⟩ := List.exists_mem_of_ne_nil _ some
    have noPart := empty (receivedPart chunk) (List.mem_map_of_mem member)
    have notNil := nonempty chunk ((surviving_sublist arrives chunks).subset member)
    rw [receivedPart, List.take_eq_nil_iff] at noPart
    rcases noPart with noRoom | isNil
    · exact absurd noRoom (by decide)
    · exact notNil isNil
  · intro none
    simp [none]

theorem run_surviving_sendMSG_nil (arrives : Nat → Bool)
    (stored : List (List UInt8)) :
    run (receiveDatagram parseChunkNumber) stored
        (surviving arrives (client.sendMSG .undisturbed [])) = (stored, []) := by
  simp [CUnixDgramClient.sendMSG_undisturbed, encodeChunks, surviving]

/-- The first message of a harmless pattern is delivered whole or not at all,
and what it leaves behind is pending. -/
theorem run_first_of_harmlessLoss {msg : List UInt8} {arrives : Nat → Bool}
    {pattern : List (Nat × (Nat → Bool))} {pending : Bool}
    (atMost : chunkCount client.chunkSize msg.length ≤ 65536)
    (harmless : HarmlessLoss client.chunkSize pending ((msg.length, arrives) :: pattern))
    {stored : List (List UInt8)} (settled : pending = false → stored = []) :
    ∃ pending' : Bool,
      HarmlessLoss client.chunkSize pending' pattern ∧
      (pending' = false →
        (run (receiveDatagram parseChunkNumber) stored
          (surviving arrives (client.sendMSG .undisturbed msg))).1 = []) ∧
      ∀ buffer ∈ (run (receiveDatagram parseChunkNumber) stored
          (surviving arrives (client.sendMSG .undisturbed msg))).2,
        buffer = msg ++ [0] := by
  rw [← length_splitChunks client.positive] at atMost
  rw [HarmlessLoss, ← length_splitChunks client.positive] at harmless
  by_cases empty : msg = []
  · subst msg
    rw [run_surviving_sendMSG_nil]
    exact ⟨pending, by simpa using harmless, settled, by simp⟩
  have totalPos : 0 < (splitChunks client.chunkSize msg).length := by
    rw [List.length_pos_iff, Ne, splitChunks_eq_nil_iff client.positive]
    exact empty
  rw [run_surviving_sendMSG empty atMost]
  by_cases lastArrives :
      arrives ((splitChunks client.chunkSize msg).length - 1) = true
  · rw [if_pos ⟨totalPos, lastArrives⟩] at harmless
    obtain ⟨all, fits, severalIfPending, restHarmless⟩ := harmless
    have nothingKept :
        keptChunks arrives (splitChunks client.chunkSize msg) stored = [] := by
      unfold keptChunks
      split
      · rfl
      · rename_i notCleared
        apply settled
        by_contra isPending
        exact notCleared ⟨severalIfPending (by simpa using isPending), all 0 totalPos⟩
    rw [if_pos lastArrives, nothingKept, List.nil_append,
      survivingParts_of_whole all ((splitChunks_fit_iff empty).mpr fits),
      flatten_splitChunks client.positive]
    exact ⟨false, restHarmless, fun _ => rfl, by simp⟩
  · rw [if_neg (by simp [lastArrives])] at harmless
    refine ⟨_, harmless, fun nothing => ?_, by simp [lastArrives]⟩
    rw [Bool.or_eq_false_iff, List.any_eq_false] at nothing
    have noneSurvive : survivingParts arrives (splitChunks client.chunkSize msg) = [] := by
      rw [survivingParts, List.map_eq_nil_iff, surviving_eq_nil_iff]
      intro index bound
      simpa using nothing.2 index (by simpa using bound)
    rw [if_neg lastArrives, noneSurvive, settled nothing.1, keptChunks]
    simp

/-- Under a harmless loss pattern every delivery is one of the messages. -/
theorem deliveries_of_harmlessLoss {pattern : List (Nat × (Nat → Bool))}
    (atMost : ∀ entry ∈ pattern, chunkCount client.chunkSize entry.1 ≤ 65536)
    {pending : Bool} (harmless : HarmlessLoss client.chunkSize pending pattern)
    {messages : List (List UInt8)}
    (lengths : messages.map List.length = pattern.map Prod.fst)
    {stored : List (List UInt8)} (settled : pending = false → stored = []) :
    ∀ buffer ∈ (run (receiveDatagram parseChunkNumber) stored
        (survivingDatagrams client messages (pattern.map Prod.snd))).2,
      ∃ msg ∈ messages, buffer = msg ++ [0] := by
  induction pattern generalizing pending messages stored with
  | nil => simp [survivingDatagrams]
  | cons entry pattern ih =>
      obtain ⟨length, arrives⟩ := entry
      cases messages with
      | nil => simp at lengths
      | cons msg messages =>
          simp only [List.map_cons, List.cons.injEq] at lengths
          obtain ⟨rfl, restLengths⟩ := lengths
          rw [List.forall_mem_cons] at atMost
          obtain ⟨pending', restHarmless, restSettled, firstCalls⟩ :=
            run_first_of_harmlessLoss atMost.1 harmless settled
          intro buffer made
          rw [List.map_cons, survivingDatagrams, run_append] at made
          rcases List.mem_append.mp made with now | later
          · exact ⟨msg, by simp, firstCalls buffer now⟩
          · obtain ⟨other, member, equal⟩ :=
              ih atMost.2 restHarmless restLengths restSettled buffer later
            exact ⟨other, by simp [member], equal⟩

section Harmful

variable {stored : List (List UInt8)} {arrives : Nat → Bool} {length : Nat}

theorem mem_survivingParts_replicate {byte other : UInt8}
    (member : other ∈ (survivingParts arrives
      (splitChunks client.chunkSize (List.replicate length byte))).flatten) :
    other = byte := by
  have source := mem_of_mem_survivingParts member
  rw [flatten_splitChunks client.positive] at source
  exact List.eq_of_mem_replicate source

theorem mem_flatten_keptChunks {chunks : List (List UInt8)} {byte : UInt8}
    (member : byte ∈ (keptChunks arrives chunks stored).flatten) :
    byte ∈ stored.flatten := by
  unfold keptChunks at member
  split at member
  · simp at member
  · exact member

/-- A message of ones that goes wrong behind stored zeros is delivered as
neither zeros nor itself. -/
theorem run_harmful_first (zeros : ∀ byte ∈ stored.flatten, byte = 0)
    {pending : Bool} (settled : pending = true → stored.flatten ≠ [])
    (atMost : chunkCount client.chunkSize length ≤ 65536)
    (lengthPos : 0 < length)
    (lastArrives : arrives (chunkCount client.chunkSize length - 1) = true)
    (harmful : ¬ ((∀ index < chunkCount client.chunkSize length, arrives index = true) ∧
      min client.chunkSize length + chunkHeaderSize ≤ maxLine ∧
      (pending = true → 2 ≤ chunkCount client.chunkSize length))) :
    ∃ body : List UInt8,
      run (receiveDatagram parseChunkNumber) stored
          (surviving arrives
            (client.sendMSG .undisturbed (List.replicate length 1))) =
        ([], [body ++ [0]]) ∧
      (∀ count, body ≠ List.replicate count 0) ∧ body ≠ List.replicate length 1 := by
  have total := length_splitChunks client.positive (List.replicate length (1 : UInt8))
  have notEmpty : List.replicate length (1 : UInt8) ≠ [] := by
    simp
    omega
  rw [List.length_replicate] at total
  rw [← total] at atMost lastArrives harmful
  have chunksNonempty : ∀ chunk ∈ splitChunks client.chunkSize
      (List.replicate length (1 : UInt8)), chunk ≠ [] :=
    fun _ => ne_nil_of_mem_splitChunks client.positive
  have totalPos : 0 < (splitChunks client.chunkSize
      (List.replicate length (1 : UInt8))).length := by
    rw [total]
    exact chunkCount_pos client.positive lengthPos
  rw [run_surviving_sendMSG notEmpty atMost, if_pos lastArrives]
  refine ⟨_, rfl, fun count isZeros => ?_, fun isWhole => ?_⟩
  · have someParts : (survivingParts arrives (splitChunks client.chunkSize
        (List.replicate length (1 : UInt8)))).flatten ≠ [] := by
      intro none
      have lost := (survivingParts_flatten_eq_nil_iff chunksNonempty).mp none _
        (Nat.sub_one_lt_of_lt totalPos)
      rw [lastArrives] at lost
      contradiction
    obtain ⟨byte, member⟩ := List.exists_mem_of_ne_nil _ someParts
    have isOne := mem_survivingParts_replicate member
    have isZero : byte ∈ List.replicate count (0 : UInt8) := by
      rw [← isZeros, List.flatten_append]
      exact List.mem_append_right _ member
    rw [List.eq_of_mem_replicate isZero] at isOne
    contradiction
  · have nothingKept : (keptChunks arrives (splitChunks client.chunkSize
        (List.replicate length (1 : UInt8))) stored).flatten = [] := by
      by_contra some
      obtain ⟨byte, member⟩ := List.exists_mem_of_ne_nil _ some
      have isZero := zeros byte (mem_flatten_keptChunks member)
      have isOne : byte ∈ List.replicate length (1 : UInt8) := by
        rw [← isWhole, List.flatten_append]
        exact List.mem_append_left _ member
      rw [List.eq_of_mem_replicate isOne] at isZero
      contradiction
    have intact : (∀ index < (splitChunks client.chunkSize
          (List.replicate length (1 : UInt8))).length, arrives index = true) ∧
        ∀ chunk ∈ splitChunks client.chunkSize (List.replicate length (1 : UInt8)),
          FitsBuffer chunk := by
      by_contra damaged
      have fewer := length_survivingParts_lt chunksNonempty damaged
      rw [List.flatten_append, nothingKept, List.nil_append] at isWhole
      rw [isWhole, flatten_splitChunks client.positive] at fewer
      exact lt_irrefl _ fewer
    have fits := (splitChunks_fit_iff notEmpty).mp intact.2
    rw [List.length_replicate] at fits
    refine harmful ⟨intact.1, fits, fun isPending => ?_⟩
    by_contra single
    rw [keptChunks, if_neg fun clears => single clears.1] at nothingKept
    exact settled isPending nothingKept

/-- A message of zeros that makes no call leaves zeros, some exactly when
chunks are pending. -/
theorem run_silent_first (zeros : ∀ byte ∈ stored.flatten, byte = 0)
    {pending : Bool} (settled : pending = true ↔ stored.flatten ≠ [])
    (atMost : chunkCount client.chunkSize length ≤ 65536)
    (silent : ¬ (0 < chunkCount client.chunkSize length ∧
      arrives (chunkCount client.chunkSize length - 1) = true)) :
    ∃ stored' : List (List UInt8),
      run (receiveDatagram parseChunkNumber) stored
          (surviving arrives
            (client.sendMSG .undisturbed (List.replicate length 0))) =
        (stored', []) ∧
      (∀ byte ∈ stored'.flatten, byte = 0) ∧
      ((pending || (List.range (chunkCount client.chunkSize length)).any arrives) =
        true ↔ stored'.flatten ≠ []) := by
  have total := length_splitChunks client.positive (List.replicate length (0 : UInt8))
  rw [List.length_replicate] at total
  rw [← total] at atMost silent ⊢
  by_cases empty : length = 0
  · subst length
    refine ⟨stored, run_surviving_sendMSG_nil arrives stored, zeros, ?_⟩
    simpa using settled
  have notEmpty : List.replicate length (0 : UInt8) ≠ [] := by simpa using empty
  have chunksNonempty : ∀ chunk ∈ splitChunks client.chunkSize
      (List.replicate length (0 : UInt8)), chunk ≠ [] :=
    fun _ => ne_nil_of_mem_splitChunks client.positive
  have totalPos : 0 < (splitChunks client.chunkSize
      (List.replicate length (0 : UInt8))).length := by
    rw [total]
    exact chunkCount_pos client.positive (Nat.pos_of_ne_zero empty)
  have lastLost : ¬ arrives ((splitChunks client.chunkSize
      (List.replicate length (0 : UInt8))).length - 1) = true :=
    fun arrived => silent ⟨totalPos, arrived⟩
  refine ⟨_, by rw [run_surviving_sendMSG notEmpty atMost, if_neg lastLost], ?_, ?_⟩
  · intro byte member
    rw [List.flatten_append] at member
    rcases List.mem_append.mp member with before | now
    · exact zeros byte (mem_flatten_keptChunks before)
    · exact mem_survivingParts_replicate now
  · have noParts := @survivingParts_flatten_eq_nil_iff arrives _ chunksNonempty
    have anyIff : (List.range (splitChunks client.chunkSize
        (List.replicate length (0 : UInt8))).length).any arrives = true ↔
        (survivingParts arrives (splitChunks client.chunkSize
          (List.replicate length (0 : UInt8)))).flatten ≠ [] := by
      rw [Ne, noParts, List.any_eq_true]
      simp
    rw [Bool.or_eq_true, anyIff, List.flatten_append, Ne, Ne, List.append_eq_nil_iff]
    by_cases cleared : arrives 0 = true
    · have someParts : (survivingParts arrives (splitChunks client.chunkSize
          (List.replicate length (0 : UInt8)))).flatten ≠ [] := by
        rw [Ne, noParts]
        intro none
        rw [none 0 totalPos] at cleared
        contradiction
      simp [someParts]
    · have kept : keptChunks arrives (splitChunks client.chunkSize
          (List.replicate length (0 : UInt8))) stored = stored :=
        if_neg fun clears => cleared clears.2
      rw [kept, settled]
      tauto

end Harmful

section Partial

variable {stored stored' calls : List (List UInt8)} {arrives : Nat → Bool} {length : Nat}
  {pattern : List (Nat × (Nat → Bool))}

/-- For some bytes the pattern makes a delivery that is neither zeros nor one of
the messages. -/
def MakesPartialDelivery (client : CUnixDgramClient) (stored : List (List UInt8))
    (pattern : List (Nat × (Nat → Bool))) : Prop :=
  ∃ messages : List (List UInt8),
    messages.map List.length = pattern.map Prod.fst ∧
    ∃ buffer ∈ (run (receiveDatagram parseChunkNumber) stored
        (survivingDatagrams client messages (pattern.map Prod.snd))).2,
      (∀ count, buffer ≠ List.replicate count 0 ++ [0]) ∧
      ∀ msg ∈ messages, buffer ≠ msg ++ [0]

/-- A message of zeros may come before. -/
theorem MakesPartialDelivery.behind
    (first : run (receiveDatagram parseChunkNumber) stored
      (surviving arrives (client.sendMSG .undisturbed (List.replicate length 0))) =
        (stored', calls))
    (rest : MakesPartialDelivery client stored' pattern) :
    MakesPartialDelivery client stored ((length, arrives) :: pattern) := by
  obtain ⟨messages, lengths, buffer, made, notZeros, notOthers⟩ := rest
  refine ⟨List.replicate length 0 :: messages, by simp [lengths], buffer, ?_, notZeros,
    List.forall_mem_cons.mpr ⟨notZeros length, notOthers⟩⟩
  rw [List.map_cons, survivingDatagrams, run_append, first]
  exact List.mem_append_right _ made

/-- The first message goes wrong, made of ones, and zeros come after it. -/
theorem MakesPartialDelivery.here {body : List UInt8}
    (first : run (receiveDatagram parseChunkNumber) stored
      (surviving arrives (client.sendMSG .undisturbed (List.replicate length 1))) =
        ([], [body ++ [0]]))
    (notZeros : ∀ count, body ≠ List.replicate count 0)
    (notWhole : body ≠ List.replicate length 1) :
    MakesPartialDelivery client stored ((length, arrives) :: pattern) := by
  have differs {other : List UInt8} (different : body ≠ other) : body ++ [0] ≠ other ++ [0] :=
    fun equal => different (List.append_cancel_right equal)
  refine ⟨List.replicate length 1 :: pattern.map fun entry => List.replicate entry.1 0, ?_,
    body ++ [0], ?_, fun count => differs (notZeros count),
    List.forall_mem_cons.mpr ⟨differs notWhole, ?_⟩⟩
  · simp [Function.comp_def]
  · rw [List.map_cons, survivingDatagrams, run_append, first]
    exact List.mem_append_left _ (by simp)
  · intro msg member
    obtain ⟨entry, _, rfl⟩ := List.mem_map.mp member
    exact differs (notZeros entry.1)

/-- A loss pattern that is not harmless makes a partial delivery: the message
whose delivery goes wrong is made of ones and all the others of zeros. -/
theorem makesPartialDelivery_of_not_harmlessLoss
    (atMost : ∀ entry ∈ pattern, chunkCount client.chunkSize entry.1 ≤ 65536)
    {pending : Bool} (harmful : ¬ HarmlessLoss client.chunkSize pending pattern)
    (zeros : ∀ byte ∈ stored.flatten, byte = 0)
    (settled : pending = true ↔ stored.flatten ≠ []) :
    MakesPartialDelivery client stored pattern := by
  induction pattern generalizing pending stored with
  | nil => exact (harmful trivial).elim
  | cons entry pattern ih =>
      obtain ⟨length, arrives⟩ := entry
      rw [List.forall_mem_cons] at atMost
      rw [HarmlessLoss] at harmful
      by_cases makesCall : 0 < chunkCount client.chunkSize length ∧
          arrives (chunkCount client.chunkSize length - 1) = true
      · have lengthPos : 0 < length := by
          by_contra zero
          rw [Nat.eq_zero_of_not_pos zero, chunkCount_zero client.positive] at makesCall
          exact lt_irrefl 0 makesCall.1
        rw [if_pos makesCall] at harmful
        by_cases firstHarmless : (∀ index < chunkCount client.chunkSize length,
            arrives index = true) ∧
            min client.chunkSize length + chunkHeaderSize ≤ maxLine ∧
            (pending = true → 2 ≤ chunkCount client.chunkSize length)
        · have total :=
            length_splitChunks client.positive (List.replicate length (0 : UInt8))
          rw [List.length_replicate] at total
          have first := @run_surviving_sendMSG client (List.replicate length 0)
            (by simp; omega) (total ▸ atMost.1) arrives stored
          rw [total, if_pos makesCall.2] at first
          have restHarmful : ¬ HarmlessLoss client.chunkSize false pattern := fun rest =>
            harmful ⟨firstHarmless.1, firstHarmless.2.1, firstHarmless.2.2, rest⟩
          exact .behind first (ih atMost.2 restHarmful (by simp) (by simp))
        · obtain ⟨body, first, notZeros, notWhole⟩ := run_harmful_first zeros
            settled.mp atMost.1 lengthPos makesCall.2 firstHarmless
          exact .here first notZeros notWhole
      · rw [if_neg makesCall] at harmful
        obtain ⟨stored', first, restZeros, restSettled⟩ :=
          run_silent_first zeros settled atMost.1 makesCall
        exact .behind first (ih atMost.2 harmful restZeros restSettled)

end Partial

/-- Whatever the bytes of the messages are, every delivery is one of the
messages, exactly when the loss pattern is harmless. -/
theorem unix_noPartialDelivery_iff (client : CUnixDgramClient) (path : String)
    {pattern : List (Nat × (Nat → Bool))}
    (atMost : ∀ entry ∈ pattern, chunkCount client.chunkSize entry.1 ≤ 65536) :
    (∀ messages : List (List UInt8),
        messages.map List.length = pattern.map Prod.fst →
        ∀ buffer ∈ lossyDeliveries client path messages (pattern.map Prod.snd),
          ∃ msg ∈ messages, buffer = msg ++ [0]) ↔
      HarmlessLoss client.chunkSize false pattern := by
  have outputs (messages : List (List UInt8)) :
      lossyDeliveries client path messages (pattern.map Prod.snd) =
        (run (receiveDatagram parseChunkNumber) []
          (survivingDatagrams client messages (pattern.map Prod.snd))).2 := by
    rw [lossyDeliveries, CUnixDgramClient.internalReceiverEntry, keyedRun_map_mk,
      List.map_map]
    exact List.map_id _
  simp only [outputs]
  constructor
  · intro complete
    by_contra harmful
    obtain ⟨messages, lengths, buffer, made, _, otherwise⟩ :=
      @makesPartialDelivery_of_not_harmlessLoss client [] pattern atMost false harmful
        (by simp) (by simp)
    obtain ⟨msg, member, equal⟩ := complete messages lengths buffer made
    exact otherwise msg member equal
  · intro harmless messages lengths
    exact deliveries_of_harmlessLoss atMost harmless lengths fun _ => rfl

theorem unix_noPartialDelivery_iff_lostChunk :
    lossyDeliveries twoByteClient "fcb" [[1, 2, 3], [4, 5, 6]]
        [fun index => index == 0, fun _ => true] ⊆
      [[1, 2, 3, 0], [4, 5, 6, 0]] := by
  have harmless : HarmlessLoss 2 false [(3, fun index => index == 0), (3, fun _ => true)] := by
    simp [HarmlessLoss, chunkCount, chunkHeaderSize, maxLine]
  have whole := (@unix_noPartialDelivery_iff twoByteClient "fcb"
    [(3, fun index => index == 0), (3, fun _ => true)]
    (by simp [chunkCount, twoByteClient])).mpr harmless
  intro buffer delivered
  obtain ⟨msg, sent, rfl⟩ := whole [[1, 2, 3], [4, 5, 6]] rfl buffer delivered
  simp only [List.mem_cons, List.not_mem_nil, or_false] at sent
  rcases sent with rfl | rfl <;> decide

/-- The middle one of three chunks is lost, and the message is delivered
without it. -/
theorem unix_noPartialDelivery_fails :
    lossyDeliveries twoByteClient "fcb" [[1, 2, 3, 4, 5, 6]] [fun index => index ≠ 1] =
      [[1, 2, 5, 6, 0]] ∧
    (splitChunks twoByteClient.chunkSize [(1 : UInt8), 2, 3, 4, 5, 6]).length ≤ 65536 ∧
    ∀ msg ∈ [[(1 : UInt8), 2, 3, 4, 5, 6]], [1, 2, 5, 6, 0] ≠ msg ++ [0] := by
  refine ⟨?_, by simp [twoByteClient, splitChunks], by decide⟩
  have sent : twoByteClient.sendMSG .undisturbed [1, 2, 3, 4, 5, 6] =
      [[0, 0, 1, 2], [1, 0, 3, 4], [0xFF, 0xFF, 5, 6]] := by
    simp [twoByteClient, CUnixDgramClient.sendMSG_undisturbed, splitChunks, encodeChunks]
    decide
  simp only [lossyDeliveries, survivingDatagrams, sent]
  decide

end Correctness

section Resynchronisation

variable {client : CUnixDgramClient} {msg : List UInt8}

/-- What the receiver makes of one message from a source with the given stored
chunks, whether or not its datagrams fit the receive buffer. -/
theorem run_sendMSG_cut (nonempty : msg ≠ [])
    (atMost : (splitChunks client.chunkSize msg).length ≤ 65536)
    (stored : List (List UInt8)) :
    run (receiveDatagram parseChunkNumber) stored (client.sendMSG .undisturbed msg) =
      ([], [(if 2 ≤ (splitChunks client.chunkSize msg).length then [] else stored.flatten) ++
        (survivingParts (fun _ => true) (splitChunks client.chunkSize msg)).flatten ++ [0]]) := by
  have received := run_surviving_sendMSG nonempty atMost (fun _ => true) stored
  rw [surviving_of_forall fun _ _ => rfl, if_pos rfl, List.flatten_append] at received
  rw [received, keptChunks]
  split <;> rename_i several <;> simp only [and_true] at several <;> simp [several]

theorem length_cut_lt (cut : ¬ ∀ chunk ∈ splitChunks client.chunkSize msg, FitsBuffer chunk) :
    (survivingParts (fun _ => true) (splitChunks client.chunkSize msg)).flatten.length <
      msg.length := by
  have shorter := @length_survivingParts_lt (fun _ => true) (splitChunks client.chunkSize msg)
    (fun _ member => ne_nil_of_mem_splitChunks client.positive member) fun whole => cut whole.2
  rwa [flatten_splitChunks client.positive] at shorter

theorem survivingParts_single (single : (splitChunks client.chunkSize msg).length < 2)
    (nonempty : msg ≠ []) :
    (survivingParts (fun _ => true) (splitChunks client.chunkSize msg)).flatten =
      receivedPart msg := by
  have notNil : splitChunks client.chunkSize msg ≠ [] :=
    (splitChunks_eq_nil_iff client.positive).not.mpr nonempty
  have flattened := flatten_splitChunks client.positive msg
  match cut : splitChunks client.chunkSize msg with
  | [] => exact absurd cut notNil
  | [chunk] =>
      rw [cut] at flattened
      rw [← flattened]
      simp [survivingParts, surviving]
  | _ :: _ :: _ =>
      rw [cut, List.length_cons, List.length_cons] at single
      omega

/-- Whatever chunks are stored for a source, the message that follows is delivered as it
is exactly when its datagrams fit the receive buffer and it has at least two chunks or
nothing was left over.  A cut message of one chunk comes out whole only where what is
left over makes up for what is cut. -/
theorem unix_resynchronises_iff (nonempty : msg ≠ [])
    (atMost : (splitChunks client.chunkSize msg).length ≤ 65536)
    (receivedChunksBySource : String → List (List UInt8)) {path : String}
    {trace : List (String × Datagram)}
    (arrives : project path trace = client.sendMSG .undisturbed msg) :
    project path
        (CUnixDgramClient.internalReceiverEntry receivedChunksBySource trace).2 =
        [msg ++ [0]] ↔
      (min client.chunkSize msg.length + chunkHeaderSize ≤ maxLine ∧
        (2 ≤ (splitChunks client.chunkSize msg).length ∨
          (receivedChunksBySource path).flatten = [])) ∨
      (maxLine < min client.chunkSize msg.length + chunkHeaderSize ∧
        (splitChunks client.chunkSize msg).length < 2 ∧
        (receivedChunksBySource path).flatten ++ msg.take (maxLine - chunkHeaderSize) =
          msg) := by
  rw [CUnixDgramClient.internalReceiverEntry, project_keyedRun, arrives,
    run_sendMSG_cut nonempty atMost]
  have fitsIff := @splitChunks_fit_iff client msg nonempty
  by_cases fits : min client.chunkSize msg.length + chunkHeaderSize ≤ maxLine
  · rw [survivingParts_of_whole (fun _ _ => rfl) (fitsIff.mpr fits),
      flatten_splitChunks client.positive]
    by_cases severalChunks : 2 ≤ (splitChunks client.chunkSize msg).length <;>
      simp [severalChunks, fits]
  · have cut := length_cut_lt (fitsIff.not.mpr fits)
    by_cases severalChunks : 2 ≤ (splitChunks client.chunkSize msg).length
    · rw [if_pos severalChunks, List.nil_append]
      refine iff_of_false (fun whole => ?_) ?_
      · have same := List.append_cancel_right (List.singleton_inj.mp whole)
        exact absurd (congrArg List.length same) (Nat.ne_of_lt cut)
      · rintro (⟨fit, -⟩ | ⟨-, single, -⟩)
        · exact fits fit
        · exact absurd severalChunks (Nat.not_le.mpr single)
    · have single := Nat.not_le.mp severalChunks
      rw [if_neg severalChunks, survivingParts_single single nonempty, receivedPart]
      simp only [fits, severalChunks, Nat.not_le.mp fits, single, false_and, true_and, false_or,
        List.singleton_inj, List.append_cancel_right_eq]

theorem unix_resynchronises_iff_twoChunks :
    project "fcb" (CUnixDgramClient.internalReceiverEntry (fun _ => [[9]])
        [("fcb", [0, 0, 1, 2]), ("fcb", [0xFF, 0xFF, 3])]).2 =
      [[1, 2, 3] ++ [0]] := by
  have twoChunks : (splitChunks twoByteClient.chunkSize [(1 : UInt8), 2, 3]).length = 2 := by
    simp [twoByteClient, splitChunks]
  refine (@unix_resynchronises_iff twoByteClient [1, 2, 3] (by decide) (by omega)
    (fun _ => [[9]]) "fcb" _ ?_).mpr (.inl ⟨by decide, .inl (by omega)⟩)
  rw [twoByteClient_sendMSG_three]
  decide

/-- A two-chunk message whose second `sendto` fails leaves its first chunk
behind, and the next message, of one chunk, is delivered with it in front. -/
theorem unix_resynchronises_fails :
    (CUnixDgramClient.internalReceiverEntry (fun _ => [])
      ((twoByteClient.sendMSG
            { ready := true
              stopped := fun _ _ => false
              sendto := fun chunkNumber _ =>
                if chunkNumber = 0 then .sent else .failed } [1, 2, 3] ++
          twoByteClient.sendMSG .undisturbed [4]).map (Prod.mk "fcb"))).2 =
      [("fcb", [1, 2, 4, 0])] ∧
    (splitChunks twoByteClient.chunkSize [(4 : UInt8)]).length ≤ 65536 ∧
    [("fcb", [1, 2, 4, 0])] ≠ [("fcb", [(4 : UInt8)] ++ [0])] := by
  refine ⟨?_, ?_, by decide⟩
  · rw [twoByteClient_sendMSG_one]
    simp [CUnixDgramClient.sendMSG, sendLoop, twoByteClient, unixAttempt]
    decide
  · simp [twoByteClient, splitChunks]

end Resynchronisation

end DroneEngage.DatagramClients
