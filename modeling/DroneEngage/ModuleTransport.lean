import DroneEngage.DatagramSizes

/-!
# The transport of a module

`CModule::init` chooses a chunk size where none is configured, and one of the two
clients.  For a remote target the chunk size is the whole payload of a packet, and the
header of a chunk comes on top.
-/

namespace DroneEngage

open DatagramClients

def defaultUdpDatabusPacketSize : Int := 8192

/-- `SAFE_REMOTE_UDP_PAYLOAD`, what a packet of 1500 bytes holds. -/
def safeRemoteUdpPayload : Nat := 1472

/-- The size of `sun_path` in a Unix socket address. -/
def sunPathSize : Nat := 108

/-- `str_tolower`, which changes ASCII letters. -/
def strTolower (s : String) : String :=
  .ofList (s.toList.map Char.toLower)

def isLocalhost (ip : String) : Bool :=
  let ipLower := strTolower ip
  ipLower = "127.0.0.1" || ipLower = "::1" || ipLower = "localhost"

/-- What the board gives for Unix sockets: the directory that `getUnixSocketBaseDir` finds,
empty if there is none, and whether the client can bind its socket. -/
structure UnixSockets where
  baseDir : String
  binds : Bool

/-- The client that a module sends through. -/
inductive Transport
  | udp (client : CUDPClient)
  | unix (client : CUnixDgramClient)

structure ModuleIdentity where
  moduleId : String
  moduleKey : String

namespace CModule

/-- The chunk size, where none is configured. -/
def autoChunkSize (targetIP : String) (chunkSize : Int) : Int :=
  if chunkSize ≤ 0 then
    if isLocalhost targetIP then defaultUdpDatabusPacketSize else safeRemoteUdpPayload
  else chunkSize

/-- Whether the paths of the sockets can be used. -/
def usablePaths (identity : ModuleIdentity) (baseDir : String) : Bool :=
  let brokerSocketPath := baseDir ++ "/de_comm_broker.sock"
  let ownSocketPath :=
    baseDir ++ "/de_comm_" ++ identity.moduleId ++ "_" ++ identity.moduleKey ++ ".sock"
  !baseDir.isEmpty && brokerSocketPath.utf8ByteSize < sunPathSize &&
    ownSocketPath.utf8ByteSize < sunPathSize

/-- The transport after `init`; the process exits where the client refuses the chunk
size. -/
def init (identity : ModuleIdentity) (sockets : UnixSockets) (targetIP : String)
    (chunkSize : Int) (useUnixSocket : Bool) : Option Transport := do
  let chunkSize := autoChunkSize targetIP chunkSize
  if useUnixSocket && isLocalhost targetIP && usablePaths identity sockets.baseDir then
    let client ← CUnixDgramClient.init chunkSize
    if sockets.binds then return .unix client
    -- the bus falls back to UDP
    else return .udp (← CUDPClient.init chunkSize)
  else return .udp (← CUDPClient.init chunkSize)

variable {identity : ModuleIdentity} {sockets : UnixSockets} {targetIP : String}
  {chunkSize : Int} {useUnixSocket : Bool}

/-- The client for a remote target without a configured chunk size. -/
def remoteClient : CUDPClient where
  chunkSize := safeRemoteUdpPayload
  positive := by decide
  belowMaximum := by decide

theorem init_remote (remote : isLocalhost targetIP = false) (auto : chunkSize ≤ 0) :
    init identity sockets targetIP chunkSize useUnixSocket = some (.udp remoteClient) := by
  have accepted : CUDPClient.init safeRemoteUdpPayload = some remoteClient :=
    CUDPClient.init_eq_some_iff.mpr rfl
  simp [init, autoChunkSize, remote, auto, accepted]

theorem sendMSG_remoteClient_fits_iff (environment : SendEnvironment) (msg : List UInt8) :
    (∀ datagram ∈ remoteClient.sendMSG environment msg,
      datagram.length ≤ safeRemoteUdpPayload) ↔
        environment.ready = false ∨ environment.stopped 0 0 = true ∨
          environment.sendto 0 0 ≠ .sent ∨ msg.length ≤ 1470 := by
  have room : min remoteClient.chunkSize msg.length + 2 ≤ safeRemoteUdpPayload ↔
      msg.length ≤ 1470 := by
    have size : remoteClient.chunkSize = safeRemoteUdpPayload := rfl
    rw [size, safeRemoteUdpPayload]
    omega
  unfold CUDPClient.sendMSG
  cases environment.ready with
  | false => simp
  | true =>
      rw [if_pos rfl, sendLoop_fits_iff length_udpChunkHeader (by omega), room]
      simp only [List.length_eq_zero_iff, decide_eq_false_iff_not]
      constructor
      · rintro (nothing | fits)
        · rw [nothing]
          exact .inr (.inr (.inr (by simp)))
        · exact .inr fits
      · rintro (impossible | fits)
        · cases impossible
        · exact .inr fits

/-- With a chunk size of its own choice a module sends no datagram that is longer than a
packet, exactly for messages that leave place for the header in one. -/
theorem init_remote_fits_iff (identity : ModuleIdentity) (sockets : UnixSockets)
    (useUnixSocket : Bool) (remote : isLocalhost targetIP = false) (auto : chunkSize ≤ 0) :
    ∃ client, init identity sockets targetIP chunkSize useUnixSocket = some (.udp client) ∧
      ∀ (environment : SendEnvironment) (msg : List UInt8),
        (∀ datagram ∈ client.sendMSG environment msg, datagram.length ≤ safeRemoteUdpPayload) ↔
          environment.ready = false ∨ environment.stopped 0 0 = true ∨
            environment.sendto 0 0 ≠ .sent ∨ msg.length ≤ 1470 :=
  ⟨remoteClient, init_remote remote auto, sendMSG_remoteClient_fits_iff⟩

def remoteIdentity : ModuleIdentity := ⟨"camera", "k1"⟩

theorem init_remote_fits_iff_camera :
    ∃ client, init remoteIdentity ⟨"", false⟩ "192.168.1.10" 0 true = some (.udp client) ∧
      ∀ (environment : SendEnvironment) (msg : List UInt8), msg.length ≤ 1470 →
        ∀ datagram ∈ client.sendMSG environment msg, datagram.length ≤ safeRemoteUdpPayload := by
  obtain ⟨client, made, fits⟩ :=
    @init_remote_fits_iff "192.168.1.10" 0 remoteIdentity ⟨"", false⟩ true (by decide) (by decide)
  exact ⟨client, made, fun environment msg short =>
    (fits environment msg).mpr (.inr (.inr (.inr short)))⟩

/-- A message of 1471 bytes makes a datagram of 1473. -/
theorem init_remote_fits_fails :
    ¬ ∀ (identity : ModuleIdentity) (sockets : UnixSockets) (targetIP : String)
      (chunkSize : Int) (useUnixSocket : Bool) (client : CUDPClient)
      (environment : SendEnvironment) (msg : List UInt8),
      isLocalhost targetIP = false → chunkSize ≤ 0 →
        init identity sockets targetIP chunkSize useUnixSocket = some (.udp client) →
          ∀ datagram ∈ client.sendMSG environment msg,
            datagram.length ≤ safeRemoteUdpPayload := by
  intro always
  have remote : isLocalhost "192.168.1.10" = false := by decide
  have accepted : init remoteIdentity ⟨"", false⟩ "192.168.1.10" 0 true =
      some (.udp remoteClient) := init_remote remote (by decide)
  have fits := (sendMSG_remoteClient_fits_iff .undisturbed (List.replicate 1471 0)).mp
    (always _ _ _ _ _ _ _ _ remote (by decide) accepted)
  rw [List.length_replicate] at fits
  rcases fits with impossible | impossible | impossible | long
  · cases impossible
  · cases impossible
  · exact impossible rfl
  · omega

end CModule

end DroneEngage
