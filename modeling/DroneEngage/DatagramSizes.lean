import DroneEngage.DatagramClients

/-!
# How long the datagrams are

A datagram is its chunk and two bytes of header, and no datagram of a message is longer
than the first.  The chunk sizes that the clients accept, and the one that a module
takes for a remote target, leave no place for the header.
-/

namespace DroneEngage.DatagramClients

open ChunkProtocol

section Loop

variable {chunkSize : Nat} {positive : 0 < chunkSize} {chunkHeader : Nat → Bool → List UInt8}
  {stopped attempt : Nat → Bool} {msg : List UInt8} {remainingLength offset chunkNumber : Nat}

/-- The datagrams that the chunk loop builds and hands to `sendto`, the one that does not
leave included. -/
def buildLoop (positive : 0 < chunkSize) (chunkHeader : Nat → Bool → List UInt8)
    (stopped attempt : Nat → Bool) (msg : List UInt8)
    (remainingLength offset chunkNumber : Nat) : List Datagram :=
  if 0 < remainingLength ∧ stopped chunkNumber = false then
    let chunkLength := min chunkSize remainingLength
    let remainingLength' := remainingLength - chunkLength
    let chunkMsg := chunkHeader chunkNumber (remainingLength' = 0) ++
      (msg.drop offset).take chunkLength
    chunkMsg ::
      if attempt chunkNumber then
        buildLoop positive chunkHeader stopped attempt msg
          remainingLength' (offset + chunkLength) (chunkNumber + 1)
      else []
  else []
termination_by remainingLength

/-- The datagrams that leave are the first of those that are built. -/
theorem sendLoop_prefix_buildLoop :
    sendLoop positive chunkHeader stopped attempt msg remainingLength offset chunkNumber <+:
      buildLoop positive chunkHeader stopped attempt msg remainingLength offset chunkNumber := by
  induction remainingLength using Nat.strong_induction_on generalizing offset chunkNumber with
  | _ remainingLength ih =>
      rw [sendLoop, buildLoop]
      split
      · dsimp only
        split
        · rw [List.prefix_cons_inj]
          exact ih _ (by omega)
        · exact List.nil_prefix
      · exact List.nil_prefix

/-- The first datagram takes a whole chunk, or all that there is. -/
theorem length_chunkMsg (bound : offset + remainingLength = msg.length) {header : List UInt8}
    (twoBytes : header.length = 2) :
    (header ++ (msg.drop offset).take (min chunkSize remainingLength)).length =
      min chunkSize remainingLength + 2 := by
  rw [List.length_append, List.length_take, List.length_drop, twoBytes]
  omega

theorem length_le_of_mem_buildLoop
    (twoBytes : ∀ number isLastChunk, (chunkHeader number isLastChunk).length = 2)
    (bound : offset + remainingLength = msg.length) {datagram : Datagram}
    (built : datagram ∈ buildLoop positive chunkHeader stopped attempt msg remainingLength offset
      chunkNumber) :
    datagram.length ≤ min chunkSize remainingLength + 2 := by
  induction remainingLength using Nat.strong_induction_on generalizing offset chunkNumber with
  | _ remainingLength ih =>
      rw [buildLoop] at built
      split at built
      · rcases List.mem_cons.mp built with rfl | later
        · exact (length_chunkMsg bound (twoBytes _ _)).le
        · split at later
          · have shorter := ih _ (by omega) (by omega) later
            omega
          · cases later
      · cases built

theorem buildLoop_fits_iff
    (twoBytes : ∀ number isLastChunk, (chunkHeader number isLastChunk).length = 2)
    (bound : offset + remainingLength = msg.length) (limit : Nat) :
    (∀ datagram ∈ buildLoop positive chunkHeader stopped attempt msg remainingLength offset
        chunkNumber, datagram.length ≤ limit) ↔
      remainingLength = 0 ∨ stopped chunkNumber = true ∨
        min chunkSize remainingLength + 2 ≤ limit := by
  constructor
  · intro fits
    rw [buildLoop] at fits
    split at fits
    · have first := fits _ List.mem_cons_self
      rw [length_chunkMsg bound (twoBytes _ _)] at first
      exact .inr (.inr first)
    · rename_i ended
      rw [not_and_or, Nat.not_lt, Nat.le_zero, Bool.not_eq_false] at ended
      exact ended.imp_right .inl
  · rintro (nothing | halted | room) datagram built
    · rw [buildLoop, if_neg (by simp [nothing])] at built
      cases built
    · rw [buildLoop, if_neg (by simp [halted])] at built
      cases built
    · exact (length_le_of_mem_buildLoop twoBytes bound built).trans room

theorem sendLoop_fits_iff
    (twoBytes : ∀ number isLastChunk, (chunkHeader number isLastChunk).length = 2)
    (bound : offset + remainingLength = msg.length) (limit : Nat) :
    (∀ datagram ∈ sendLoop positive chunkHeader stopped attempt msg remainingLength offset
        chunkNumber, datagram.length ≤ limit) ↔
      remainingLength = 0 ∨ stopped chunkNumber = true ∨ attempt chunkNumber = false ∨
        min chunkSize remainingLength + 2 ≤ limit := by
  constructor
  · intro fits
    rw [sendLoop] at fits
    split at fits
    · cases attempted : attempt chunkNumber with
      | false => exact .inr (.inr (.inl rfl))
      | true =>
          dsimp only at fits
          rw [if_pos attempted] at fits
          have first := fits _ List.mem_cons_self
          rw [length_chunkMsg bound (twoBytes _ _)] at first
          exact .inr (.inr (.inr first))
    · rename_i ended
      rw [not_and_or, Nat.not_lt, Nat.le_zero, Bool.not_eq_false] at ended
      exact ended.imp_right .inl
  · rintro (nothing | halted | failed | room) datagram sent
    · rw [sendLoop, if_neg (by simp [nothing])] at sent
      cases sent
    · rw [sendLoop, if_neg (by simp [halted])] at sent
      cases sent
    · rw [sendLoop] at sent
      split at sent
      · dsimp only at sent
        rw [if_neg (by simp [failed])] at sent
        cases sent
      · cases sent
    · have built := sendLoop_prefix_buildLoop.subset sent
      exact (length_le_of_mem_buildLoop twoBytes bound built).trans room

end Loop

theorem length_unixChunkHeader (chunkNumber : Nat) (isLastChunk : Bool) :
    (unixChunkHeader chunkNumber isLastChunk).length = 2 :=
  length_prepareChunkHeader _ _

theorem length_udpChunkHeader (chunkNumber : Nat) (isLastChunk : Bool) :
    (udpChunkHeader chunkNumber isLastChunk).length = 2 := by
  rw [udpChunkHeader_eq_unixChunkHeader]
  exact length_unixChunkHeader chunkNumber isLastChunk

variable (environment : SendEnvironment) (msg : List UInt8)

/-- The datagrams that `CUDPClient::sendMSG` builds. -/
def CUDPClient.builtDatagrams (client : CUDPClient) : List Datagram :=
  if environment.ready then
    buildLoop client.positive udpChunkHeader (environment.stopped · 0)
      (fun chunkNumber => environment.sendto chunkNumber 0 = .sent)
      msg msg.length 0 0
  else []

/-- The datagrams that `CUnixDgramClient::sendMSG` builds. -/
def CUnixDgramClient.builtDatagrams (client : CUnixDgramClient) : List Datagram :=
  if environment.ready then
    buildLoop client.positive unixChunkHeader (environment.stopped · 0)
      (unixAttempt environment) msg msg.length 0 0
  else []

theorem CUDPClient.sendMSG_prefix_builtDatagrams (client : CUDPClient) :
    client.sendMSG environment msg <+: client.builtDatagrams environment msg := by
  unfold sendMSG builtDatagrams
  split
  · exact sendLoop_prefix_buildLoop
  · exact List.nil_prefix

theorem CUnixDgramClient.sendMSG_prefix_builtDatagrams (client : CUnixDgramClient) :
    client.sendMSG environment msg <+: client.builtDatagrams environment msg := by
  unfold sendMSG builtDatagrams
  split
  · exact sendLoop_prefix_buildLoop
  · exact List.nil_prefix

/-- No datagram is built, or the first one and with it all others leave place for the
header within a limit. -/
def LeavesRoom (chunkSize limit : Nat) : Prop :=
  environment.ready = false ∨ environment.stopped 0 0 = true ∨
    min chunkSize msg.length + 2 ≤ limit

theorem CUDPClient.forall_builtDatagrams_iff (client : CUDPClient) (limit : Nat) :
    (∀ datagram ∈ client.builtDatagrams environment msg, datagram.length ≤ limit) ↔
      msg = [] ∨ LeavesRoom environment msg client.chunkSize limit := by
  unfold builtDatagrams LeavesRoom
  cases environment.ready with
  | false => simp
  | true =>
      rw [if_pos rfl, buildLoop_fits_iff length_udpChunkHeader (by omega)]
      simp

theorem CUnixDgramClient.forall_builtDatagrams_iff (client : CUnixDgramClient) (limit : Nat) :
    (∀ datagram ∈ client.builtDatagrams environment msg, datagram.length ≤ limit) ↔
      msg = [] ∨ LeavesRoom environment msg client.chunkSize limit := by
  unfold builtDatagrams LeavesRoom
  cases environment.ready with
  | false => simp
  | true =>
      rw [if_pos rfl, buildLoop_fits_iff length_unixChunkHeader (by omega)]
      simp

/-- Nothing is built, or the chunk size or the message leaves place for the header in the
receive buffer. -/
def FitsWithHeader (chunkSize : Int) : Prop :=
  environment.ready = false ∨ environment.stopped 0 0 = true ∨
    min chunkSize msg.length ≤ 65505

theorem leavesRoom_iff_fitsWithHeader {chunkSize : Nat} :
    msg = [] ∨ LeavesRoom environment msg chunkSize maxLine ↔
      FitsWithHeader environment msg chunkSize := by
  have room : min chunkSize msg.length + 2 ≤ maxLine ↔
      min (chunkSize : Int) msg.length ≤ 65505 := by
    unfold maxLine
    omega
  unfold LeavesRoom FitsWithHeader
  rw [room]
  refine ⟨fun fits => fits.elim (fun nothing => ?_) id, .inr⟩
  rw [nothing]
  exact .inr (.inr (by simp))

/-- The datagrams of either client fit the receive buffer exactly where the chunk size or
the message leaves place for the header. -/
theorem builtDatagrams_fit_iff (chunkSize : Int) :
    (∀ client, CUDPClient.init chunkSize = some client →
      ((∀ datagram ∈ client.builtDatagrams environment msg, datagram.length ≤ maxLine) ↔
        FitsWithHeader environment msg chunkSize)) ∧
    ∀ client, CUnixDgramClient.init chunkSize = some client →
      ((∀ datagram ∈ client.builtDatagrams environment msg, datagram.length ≤ maxLine) ↔
        FitsWithHeader environment msg chunkSize) := by
  constructor
  · intro client accepted
    rw [← CUDPClient.init_eq_some_iff.mp accepted, client.forall_builtDatagrams_iff,
      leavesRoom_iff_fitsWithHeader]
  · intro client accepted
    rw [← CUnixDgramClient.init_eq_some_iff.mp accepted, client.forall_builtDatagrams_iff,
      leavesRoom_iff_fitsWithHeader]

/-- The largest chunk size that a UDP client accepts makes a datagram of one byte too
many. -/
theorem builtDatagrams_fit_fails :
    ¬ ∀ (chunkSize : Int) (environment : SendEnvironment) (msg : List UInt8),
      (∀ client, CUDPClient.init chunkSize = some client →
        ∀ datagram ∈ client.builtDatagrams environment msg, datagram.length ≤ maxLine) ∧
      ∀ client, CUnixDgramClient.init chunkSize = some client →
        ∀ datagram ∈ client.builtDatagrams environment msg, datagram.length ≤ maxLine := by
  intro always
  let client : CUDPClient := ⟨65534, by decide, by decide⟩
  have accepted : CUDPClient.init 65534 = some client := CUDPClient.init_eq_some_iff.mpr rfl
  have fits := (always 65534 .undisturbed (List.replicate 65506 0)).1 client accepted
  rw [client.forall_builtDatagrams_iff, leavesRoom_iff_fitsWithHeader, FitsWithHeader,
    List.length_replicate] at fits
  rcases fits with impossible | impossible | long
  · cases impossible
  · cases impossible
  · change min 65534 65506 ≤ (65505 : Int) at long
    omega

end DroneEngage.DatagramClients
