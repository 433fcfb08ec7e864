import DroneEngage.CapabilityAdverts
import DroneEngage.EventRuns

/-!
# Invoking a capability

One receive thread runs `handleCapabilityInvoke` for each message, and every
invoke that passes its checks gets a manager thread.  The threads share the
tables guarded by `m_cap_lock`; each critical section is one step here, with
the thread's own computation up to the next one.  When a handler is called,
returns or runs out of time is left to the schedule.
-/

namespace DroneEngage.Capabilities

/-- `setCapabilities`: the parsed adverts, if each is small enough, parses and is
valid. -/
def setCapabilities (library : JsonLibrary) :
    List (List Char) → Except JsonException (Option (List Json))
  | [] => .ok (some [])
  | text :: rest =>
      if capAdvertMaxBytes < text.length then .ok none
      else
        match library.parse text with
        | none => .ok none
        | some advert =>
            match capValidateAdvert library advert with
            | .valid => do
                let more ← setCapabilities library rest
                .ok (more.map (advert :: ·))
            | .invalid _ => .ok none
            | .threw exception => .error exception

/-- What `handleCapabilityInvoke` reads from a message. -/
structure InvokeRequest where
  id : String
  ns : String
  act : String
  given : Json
  deadlineS : Double

def tenSeconds : Double := Double.ofInt 10

/-- The deadline of a message, ten seconds when absent or not positive. -/
def readDeadline (cmd : Json) : Double :=
  match (cmd.member? "dl").filter Json.isNumber with
  | some deadline =>
      if deadline.toDouble.lt (Double.ofInt 0) || deadline.toDouble.eq (Double.ofInt 0) then
        tenSeconds
      else deadline.toDouble
  | none => tenSeconds

def readInvoke (cmd : Json) : Except JsonException InvokeRequest := do
  let id ← cmd.value Json.getString "id" ""
  let ns ← cmd.value Json.getString "ns" ""
  let act ← cmd.value Json.getString "act" ""
  .ok
    { id := id
      ns := ns
      act := act
      given := ((cmd.member? "p").filter Json.isObject).getD (.object [])
      deadlineS := readDeadline cmd }

/-- The arguments a handler is called with, and its deadline. -/
structure HandlerCall where
  id : String
  ns : String
  act : String
  params : Json
  deadlineS : Double

/-- The loop over the adverts: the first with the namespace decides.  The result
is the action and its current name. -/
def resolveAction (ns act : String) :
    List Json → Except JsonException (Option (Json × String))
  | [] => .ok none
  | advert :: rest => do
      let name ← advert.value Json.getString "ns" ""
      if name = ns then do
        match ← capFindAction advert act with
        | some action => do
            let canonical ← capCanonicalAction advert act
            .ok (some (action, canonical))
        | none => .ok none
      else resolveAction ns act rest

/-- The parameter schema of an action, empty when it has none. -/
def paramsSchema (action : Json) : Json :=
  (action.member? "params").getD (.object [])

/-- The parameters checked against the action and its defaults filled in: the
call of the handler, or the error that `fail` reports. -/
def checkCall (library : JsonLibrary) (hasHandler : Bool) (request : InvokeRequest)
    (action : Json) (act : String) : Except JsonException (Except String HandlerCall) := do
  let (errors, filled) ← capCheckParams library (paramsSchema action) request.given
  if !errors.isEmpty then .ok (.error ("invalid params: " ++ joined "; " errors))
  else if !hasHandler then .ok (.error "no invoke handler")
  else
    .ok (.ok
      { id := request.id
        ns := request.ns
        act := act
        params := filled
        deadlineS := request.deadlineS })

/-- From the lookup of the action to the dispatch. -/
def prepareCall (library : JsonLibrary) (adverts : List Json) (hasHandler : Bool)
    (request : InvokeRequest) : Except JsonException (Except String HandlerCall) := do
  match ← resolveAction request.ns request.act adverts with
  | none => .ok (.error ("unknown action " ++ request.ns ++ "." ++ request.act))
  | some (action, act) => checkCall library hasHandler request action act

/-- The tables of invokes: `m_invoke_inflight`, `m_invoke_results` and
`m_invoke_order`. -/
structure InvokeTables where
  inflight : List String
  results : List (String × Json)
  order : List String

namespace InvokeTables

def empty : InvokeTables := ⟨[], [], []⟩

/-- `m_invoke_inflight.insert(id)`, for an id that is not in the set. -/
def insertInflight (tables : InvokeTables) (id : String) : InvokeTables :=
  { tables with inflight := id :: tables.inflight }

/-- `m_invoke_inflight.erase(id)` -/
def eraseInflight (tables : InvokeTables) (id : String) : InvokeTables :=
  { tables with inflight := tables.inflight.filter fun other => other != id }

/-- Drop the oldest results until 64 are left. -/
def evict : List String → List (String × Json) → List String × List (String × Json)
  | [], results => ([], results)
  | front :: rest, results =>
      if 64 < (front :: rest).length then
        evict rest (results.filter fun entry => entry.1 != front)
      else (front :: rest, results)

def cacheInvokeResult (tables : InvokeTables) (id : String) (result : Json) :
    InvokeTables :=
  let order :=
    if (tables.results.lookup id).isNone then tables.order ++ [id] else tables.order
  let kept := evict order (Json.insertMember id result tables.results)
  { tables with order := kept.1, results := kept.2 }

end InvokeTables

/-- The body that `fail` and the timeout branch send. -/
def failureBody (id err : String) : Json :=
  Json.ofMembers [("id", .string id), ("ok", .boolean false), ("err", .string err)]

/-- How a handler ends. -/
inductive HandlerOutcome
  | returned (data : Json) (err : String)
  | threw (what : String)

/-- The result the worker builds, with the id the manager adds. -/
def resultBody (id : String) : HandlerOutcome → Json
  | .returned data err =>
      if err.isEmpty then
        Json.ofMembers [("ok", .boolean true), ("data", data), ("id", .string id)]
      else
        Json.ofMembers [("ok", .boolean false), ("err", .string err), ("id", .string id)]
  | .threw what =>
      Json.ofMembers
        [ ("ok", .boolean false), ("err", .string ("handler exception: " ++ what)),
          ("id", .string id) ]

/-- Where a manager thread is.  After `erased` its id is in neither table until
the result is cached. -/
inductive ManagerPhase
  | waiting
  | erased (result : Json)
  | cached (result : Json)
  | finished (result : Json)

/-- A manager thread, and whether its worker has called the handler. -/
structure Manager where
  call : HandlerCall
  handlerStarted : Bool
  phase : ManagerPhase

/-- Where the receive thread is inside `handleCapabilityInvoke`. -/
inductive Receiver
  | idle
  /-- the id is registered, the action not looked up yet -/
  | registered (request : InvokeRequest)
  /-- `fail`, before its critical section -/
  | failing (id err : String)
  /-- `fail`, before `cacheInvokeResult` -/
  | failed (id : String) (result : Json)
  /-- `fail`, before `sendInvokeResult` -/
  | answering (id : String) (result : Json)
  /-- `runInvokeOnWorker` -/
  | dispatching (call : HandlerCall)

/-- The module with its threads, the handler calls made so far and the results
sent so far. -/
structure InvokeSystem where
  adverts : List Json
  hasHandler : Bool
  tables : InvokeTables
  receiver : Receiver
  managers : List Manager
  started : List HandlerCall
  sent : List (String × Json)

def InvokeSystem.init (adverts : List Json) (hasHandler : Bool) : InvokeSystem where
  adverts := adverts
  hasHandler := hasHandler
  tables := .empty
  receiver := .idle
  managers := []
  started := []
  sent := []

/-- One step of some thread. -/
inductive InvokeEvent
  /-- a message arrives: its fields are read and its id is looked for -/
  | deliver (cmd : Json)
  /-- the receive thread goes on; `threadCreated` is what `std::thread` does -/
  | receive (threadCreated : Bool)
  | startHandler (index : Nat)
  | handlerReady (index : Nat) (outcome : HandlerOutcome)
  | handlerTimeout (index : Nat)
  | cacheResult (index : Nat)
  | sendResult (index : Nat)

namespace InvokeSystem

/-- The critical section in which an id is found or registered. -/
def register (system : InvokeSystem) (request : InvokeRequest) : InvokeSystem :=
  if request.id.isEmpty then system
  else
    match system.tables.results.lookup request.id with
    -- idempotent replay
    | some result => { system with sent := system.sent ++ [(request.id, result)] }
    | none =>
        if request.id ∈ system.tables.inflight then system
        else
          { system with
            tables := system.tables.insertInflight request.id
            receiver := .registered request }

/-- A message arrives.  An exception of the accessors is caught by `onReceive`. -/
def deliver (system : InvokeSystem) (cmd : Json) : Option InvokeSystem :=
  match system.receiver with
  | .idle =>
      match readInvoke cmd with
      | .ok request => some (system.register request)
      | .error _ => some system
  | _ => none

/-- The next step of the receive thread inside `handleCapabilityInvoke`. -/
def receive (library : JsonLibrary) (system : InvokeSystem) (threadCreated : Bool) :
    Option InvokeSystem :=
  match system.receiver with
  | .idle => none
  | .registered request =>
      match prepareCall library system.adverts system.hasHandler request with
      | .ok (.ok call) => some { system with receiver := .dispatching call }
      | .ok (.error err) => some { system with receiver := .failing request.id err }
      -- caught by `onReceive`; the id stays registered
      | .error _ => some { system with receiver := .idle }
  | .failing id err =>
      some
        { system with
          tables := system.tables.eraseInflight id
          receiver := .failed id (failureBody id err) }
  | .failed id result =>
      some
        { system with
          tables := system.tables.cacheInvokeResult id result
          receiver := .answering id result }
  | .answering id result =>
      some { system with sent := system.sent ++ [(id, result)], receiver := .idle }
  | .dispatching call =>
      if threadCreated then
        some
          { system with
            managers := system.managers ++ [⟨call, false, .waiting⟩]
            receiver := .idle }
      else some { system with receiver := .idle }

/-- A manager thread after the change of its own record. -/
def setManager (system : InvokeSystem) (index : Nat) (manager : Manager) :
    InvokeSystem :=
  { system with managers := system.managers.set index manager }

/-- The worker of a manager thread calls the handler. -/
def startHandler (system : InvokeSystem) (index : Nat) : Option InvokeSystem :=
  match system.managers[index]? with
  | some ⟨call, false, phase⟩ =>
      some
        { system.setManager index ⟨call, true, phase⟩ with
          started := system.started ++ [call] }
  | _ => none

/-- `wait_for` ends: the id is erased and the manager holds its result. -/
def eraseId (system : InvokeSystem) (index : Nat) (manager : Manager) (result : Json) :
    InvokeSystem :=
  { system.setManager index { manager with phase := .erased result } with
    tables := system.tables.eraseInflight manager.call.id }

def handlerReady (system : InvokeSystem) (index : Nat) (outcome : HandlerOutcome) :
    Option InvokeSystem :=
  match system.managers[index]? with
  | some ⟨call, true, .waiting⟩ =>
      some (system.eraseId index ⟨call, true, .waiting⟩ (resultBody call.id outcome))
  | _ => none

def handlerTimeout (system : InvokeSystem) (index : Nat) : Option InvokeSystem :=
  match system.managers[index]? with
  | some ⟨call, handlerStarted, .waiting⟩ =>
      some (system.eraseId index ⟨call, handlerStarted, .waiting⟩
        (failureBody call.id "timeout"))
  | _ => none

def cacheResult (system : InvokeSystem) (index : Nat) : Option InvokeSystem :=
  match system.managers[index]? with
  | some ⟨call, handlerStarted, .erased result⟩ =>
      some
        { system.setManager index ⟨call, handlerStarted, .cached result⟩ with
          tables := system.tables.cacheInvokeResult call.id result }
  | _ => none

def sendResult (system : InvokeSystem) (index : Nat) : Option InvokeSystem :=
  match system.managers[index]? with
  | some ⟨call, handlerStarted, .cached result⟩ =>
      some
        { system.setManager index ⟨call, handlerStarted, .finished result⟩ with
          sent := system.sent ++ [(call.id, result)] }
  | _ => none

/-- One step of the system; none when the thread is not at such a step. -/
def step (library : JsonLibrary) (system : InvokeSystem) :
    InvokeEvent → Option InvokeSystem
  | .deliver cmd => system.deliver cmd
  | .receive threadCreated => system.receive library threadCreated
  | .startHandler index => system.startHandler index
  | .handlerReady index outcome => system.handlerReady index outcome
  | .handlerTimeout index => system.handlerTimeout index
  | .cacheResult index => system.cacheResult index
  | .sendResult index => system.sendResult index

/-- The runs of the module from a state. -/
abbrev Run (library : JsonLibrary) : InvokeSystem → List InvokeEvent → InvokeSystem → Prop :=
  EventRuns.Run (step library)

end InvokeSystem

end DroneEngage.Capabilities
