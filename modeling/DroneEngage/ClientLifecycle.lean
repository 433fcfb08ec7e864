import DroneEngage.EventRuns
import DroneEngage.Mutexes
import Mathlib.Logic.Function.Basic

/-!
# Stopping a client while others send

Any number of threads may be in `sendMSG` when `stop` is called.  `m_lock` is held for all
chunks of a message, and `stop` takes it to close the socket and to free the addresses.
Each access to what the threads share is a step of its own here.
-/

namespace DroneEngage.ClientLifecycle

open EventRuns Mutexes

/-- Where a thread is in `sendMSG`, with the chunks that are left. -/
inductive SendPc
  | away
  /-- `m_stopped_called` was not set -/
  | waiting (chunks : Nat)
  /-- has `m_lock`, before the second check -/
  | entered (chunks : Nat)
  | looping (chunks : Nat)
  | sending (chunks : Nat)
  /-- a thread of the client that is done -/
  | ended
  deriving DecidableEq

def SendPc.holds : SendPc → Bool
  | entered _ | looping _ | sending _ => true
  | _ => false

/-- The parts of `stop`. -/
inductive StopPart
  | closeSocket
  | joinThreads
  | freeAddresses
  deriving DecidableEq

/-- Where the main thread is in `stop`, with the parts that follow. -/
inductive StopPc
  | away
  | next (parts : List StopPart)
  /-- has `m_lock`, before the check of the socket -/
  | closing (parts : List StopPart)
  /-- the socket is closed, and `m_SocketFD` not reset -/
  | closed (parts : List StopPart)
  | freeing (parts : List StopPart)
  | freed (parts : List StopPart)
  deriving DecidableEq

def StopPc.holds : StopPc → Bool
  | closing _ | closed _ | freeing _ | freed _ => true
  | _ => false

inductive Party
  | sender (thread : Nat)
  | stopper
  deriving DecidableEq

/-- What is done to the socket and the addresses, and whether they are there. -/
inductive Effect
  | sendto (valid : Bool) (stopped : Bool)
  | close (valid : Bool)
  | free (valid : Bool)
  deriving DecidableEq

def Effect.valid : Effect → Bool
  | sendto valid _ | close valid | free valid => valid

/-- A chunk that is sent although `stop` has been called. -/
def Effect.isLate : Effect → Bool
  | sendto _ stopped => stopped
  | _ => false

/-- What a `sendto` leads to: the next chunk, another try, or the end of the message. -/
inductive Attempt
  | sent
  | again
  | failed
  deriving DecidableEq

/-- The client and its threads. -/
structure ClientState where
  /-- `m_stopped_called` -/
  stopped : Bool
  /-- the client's own threads have been started and not joined -/
  started : Bool
  lock : Option Party
  /-- `m_SocketFD` is not -1 -/
  socketFd : Bool
  socketOpen : Bool
  /-- `m_CommunicatorModuleAddress` is not null -/
  address : Bool
  addressLive : Bool
  senders : Nat → SendPc
  stopper : StopPc
  effects : List Effect

inductive ThreadEvent
  | call (thread chunks : Nat)
  | lock (thread : Nat)
  | recheck (thread : Nat)
  | loop (thread : Nat)
  | attempt (thread : Nat) (outcome : Attempt)
  | finish (thread : Nat)
  | stop
  | stopStep
  deriving DecidableEq

/-- The client's own threads, which `stop` joins, and the parts of `stop` for each value of
`m_starrted`. -/
structure ClientCode where
  own : List Nat
  stopParts : Bool → List StopPart

/-- `CUDPClient`, with the threads 0 and 1 to receive and to send the ID. -/
def udpCode : ClientCode where
  own := [0, 1]
  stopParts _ := [.closeSocket, .joinThreads, .freeAddresses]

/-- `CUnixDgramClient`, which keeps its addresses. -/
def unixCode : ClientCode where
  own := [0, 1]
  stopParts started := if started then [.joinThreads, .closeSocket] else []

namespace ClientState

/-- A client that has been started. -/
def fresh : ClientState where
  stopped := false
  started := true
  lock := none
  socketFd := true
  socketOpen := true
  address := true
  addressLive := true
  senders _ := .away
  stopper := .away
  effects := []

variable (state : ClientState)

def moveSender (thread : Nat) (pc : SendPc) : ClientState :=
  { state with senders := Function.update state.senders thread pc }

/-- A thread leaves `sendMSG` and returns the lock. -/
def leaveSend (thread : Nat) : ClientState :=
  { state.moveSender thread .away with lock := none }

/-- `stop` returns the lock and goes on to its next part. -/
def leaveStop (parts : List StopPart) : ClientState :=
  { state with lock := none, stopper := .next parts }

/-- `stop` goes on. -/
def stopStep (code : ClientCode) : Option ClientState :=
  match state.stopper with
  | .away => none
  | .next [] => some { state with stopper := .away }
  | .next (.closeSocket :: parts) =>
      if state.lock = none then
        some { state with lock := some .stopper, stopper := .closing parts }
      else none
  | .next (.joinThreads :: parts) =>
      if state.started && !(code.own.all fun thread => state.senders thread = .ended) then none
      else some { state with started := false, stopper := .next parts }
  | .next (.freeAddresses :: parts) =>
      if state.lock = none then
        some { state with lock := some .stopper, stopper := .freeing parts }
      else none
  | .closing parts =>
      if state.socketFd then
        some
          { state with
            socketOpen := false
            effects := state.effects ++ [.close state.socketOpen]
            stopper := .closed parts }
      else some (state.leaveStop parts)
  | .closed parts => some { state.leaveStop parts with socketFd := false }
  | .freeing parts =>
      if state.address then
        some
          { state with
            addressLive := false
            effects := state.effects ++ [.free state.addressLive]
            stopper := .freed parts }
      else some (state.leaveStop parts)
  | .freed parts => some { state.leaveStop parts with address := false }

def step (code : ClientCode) : ThreadEvent → Option ClientState
  | .call thread chunks =>
      if state.senders thread = .away then
        if state.stopped then some state
        else some (state.moveSender thread (.waiting chunks))
      else none
  | .lock thread =>
      match state.senders thread with
      | .waiting chunks =>
          if state.lock = none then
            some
              { state.moveSender thread (.entered chunks) with lock := some (.sender thread) }
          else none
      | _ => none
  | .recheck thread =>
      match state.senders thread with
      | .entered chunks =>
          if state.stopped || !state.socketFd || !state.address then
            some (state.leaveSend thread)
          else some (state.moveSender thread (.looping chunks))
      | _ => none
  | .loop thread =>
      match state.senders thread with
      | .looping chunks =>
          if 0 < chunks ∧ state.stopped = false then
            some (state.moveSender thread (.sending chunks))
          else some (state.leaveSend thread)
      | _ => none
  | .attempt thread outcome =>
      match state.senders thread with
      | .sending chunks =>
          let sent :=
            { state with
              effects := state.effects ++
                [Effect.sendto (state.socketOpen && state.addressLive) state.stopped] }
          match outcome with
          | .sent => some (sent.moveSender thread (.looping (chunks - 1)))
          | .again => some (sent.moveSender thread (.looping chunks))
          | .failed => some (sent.leaveSend thread)
      | _ => none
  | .finish thread =>
      if thread ∈ code.own ∧ state.senders thread = .away ∧ state.stopped = true then
        some (state.moveSender thread .ended)
      else none
  | .stop =>
      if state.stopper = .away then
        some
          { state with stopped := true, stopper := .next (code.stopParts state.started) }
      else none
  | .stopStep => state.stopStep code

end ClientState

end DroneEngage.ClientLifecycle
