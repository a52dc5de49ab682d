import Loon.Lib.Machine
import Loon.Client.Registry

set_option autoImplicit false

/-!
# The client as a whole

`ClientImpl` of the C++ client over all its connections: the calls of its users, the callbacks of the
websocket and the manager thread. A step is what one thread does while it holds the lock of the client
(`ClientImpl.step`). The lock is released in two places: `internal_stop` gives it up around
`m_conn->stop()`, and `wait_until_ready` while it waits.

* `internalStart`, `finishInternalStop`, `resetConnectionState`: starting and stopping;
* `registerContent`, `waitUntilReady`, `wake`: a call that waits for the connection to be ready;
* `onWebsocketOpen`, `onWebsocketClose`, `onWebsocketMessage`: the callbacks;
* `managerIteration`, `managerResume`: one pass of `manager_loop`, and its rest if the pass stops the
  connection.

When the websocket calls back is left open, as is what the clock reads. `on_request` sends an empty
response without the lock of the client, but with the one of the request table (`responding`); what
clears that table waits meanwhile. Three lists record what the client did: the calls of
`m_conn->start()`, the calls of its users' callbacks, and the handles it returned.
-/

namespace Loon

/-- The options that the manager reads; durations are in milliseconds, `min_cache_duration` is in
seconds. -/
structure ClientOptions where
  reconnectDelay : Option Int64
  maxReconnectDelay : Option Int64
  disconnectAfterIdle : Option Int64
  automaticIdling : Bool
  minCacheDuration : Option Int64
  deriving DecidableEq, Repr

/-- `with_reconnect`. -/
def ClientOptions.withReconnect (o : ClientOptions) : Bool := o.reconnectDelay.isSome

/-- What `register_content` and `wait_until_ready` throw. -/
inductive CallException where
  | content (e : ClientException)
  | clientNotStarted (message : String)
  | clientNotConnected (message : String)
  | timeout (message : String)
  deriving DecidableEq, Repr

/-- Why a call waits until the client is ready. -/
inductive Purpose where
  | register (source : ContentSource) (info : ContentInfo)
  | ready
  deriving DecidableEq, Repr

/-- Where a call of `register_content` or `wait_until_ready` is. -/
inductive CallPoint where
  | idle
  | connection (purpose : Purpose)
  | hello (purpose : Purpose)
  | returned (handle : Option ℕ)
  | threw (e : CallException)
  deriving DecidableEq, Repr

inductive ManagerAction where
  | nothing
  | restart
  | fail
  deriving DecidableEq, Repr

/-- Where the manager thread is: in the wait of its loop, in `m_conn->stop()` on behalf of one of
three callers, or past the loop. -/
inductive ManagerPoint where
  | waiting
  | idleStop
  | internalRestart
  | internalStopAndReset
  | returned
  deriving DecidableEq, Repr

/-- How far the destructor has come. -/
inductive DestructorPoint where
  | notCalled
  | internalStop
  | stopped
  deriving DecidableEq, Repr

/-- The callbacks of the user. -/
inductive ClientCallback where
  | ready
  | disconnect
  | failed
  deriving DecidableEq, Repr

/-- The return of a handle from `register_content`, and whether it is in `m_content` then. -/
structure HandleReturn where
  call : ℕ
  handle : ℕ
  inContent : Bool
  deriving DecidableEq, Repr

/-- What the websocket may receive. A request is refused if its id is in use or if there were too
many; `cacheDuration` is the one of the constraints. -/
inductive WebsocketMessage where
  | unparsable
  | hello (constraints : Option (Constraints × UInt32))
  | request (path : String) (refused : Bool)
  | success
  | requestClosed
  | close
  | unrecognized
  deriving DecidableEq, Repr

structure ClientImpl where
  started : Bool
  connected : Bool
  connecting : Bool
  hello : Option Constraints
  registry : Registry
  responding : Bool
  calls : ℕ → CallPoint
  /-- How many calls of `stop` are in `m_conn->stop()`. -/
  stopping : ℕ
  destructor : DestructorPoint
  managerAction : ManagerAction
  trackIdling : Option Bool
  queueReconnect : Option Bool
  stopManagerLoop : Bool
  idleWaiting : Bool
  reconnectAttempt : UInt64
  reconnectDelay : Int64
  /-- The manager thread with its two local variables; `none` is the last time point there is. -/
  manager : ManagerPoint
  idleTimePoint : Option Int
  reconnectTimePoint : Option Int
  /-- The values of `m_started` at the calls of `m_conn->start()`. -/
  connStarts : List Bool
  callbacks : List ClientCallback
  returns : List HandleReturn

/-- What happens in the client. A call has a number; the thread of a failed send is the websocket's
or the serve thread of a handle. -/
inductive ClientImplEvent where
  | start
  | stop
  | stopped
  | idle (state : Bool)
  | registerContent (call : ℕ) (source : Option ContentSource) (info : ContentInfo)
  | waitUntilReady (call : ℕ)
  | wake (call : ℕ) (timedOut : Bool)
  | unregisterContent (handle : ContentHandle)
  | onUnregistered (h : ℕ)
  | websocketOpen
  | websocketClose
  | websocketMessage (m : WebsocketMessage)
  | sent
  | sendFailed (thread : Option ℕ)
  | manager (now : Int)
  | managerResume
  | destroy
  | destroyStopped
  | destroyLoop
  deriving DecidableEq, Repr

namespace ClientImpl

/-- The client after its constructor. -/
def init : ClientImpl where
  started := false
  connected := false
  connecting := false
  hello := none
  registry := .init
  responding := false
  calls _ := .idle
  stopping := 0
  destructor := .notCalled
  managerAction := .nothing
  trackIdling := none
  queueReconnect := none
  stopManagerLoop := false
  idleWaiting := false
  reconnectAttempt := 0
  reconnectDelay := 0
  manager := .waiting
  idleTimePoint := none
  reconnectTimePoint := none
  connStarts := []
  callbacks := []
  returns := []

variable (o : ClientOptions) (s : ClientImpl)

def setIdle (state : Bool) : ClientImpl := { s with trackIdling := some state }

def updateConnected (state : Bool) : ClientImpl := { s with connected := state, connecting := false }

def resetReconnectDelay : ClientImpl := { s with reconnectAttempt := 0, reconnectDelay := 0 }

/-! ## Starting and stopping -/

def internalStart : ClientImpl :=
  { s with connecting := true, connStarts := s.connStarts ++ [s.started] }

def ensureStarted : ClientImpl := if !s.connected && !s.connecting then s.internalStart else s

def resetConnectionState : ClientImpl := { s with registry := s.registry.reset, hello := none }

/-- `internal_stop` after `m_conn->stop()`. -/
def finishInternalStop : ClientImpl :=
  let s := s.resetConnectionState.setIdle false
  let s := if o.withReconnect then { s with queueReconnect := some false }.resetReconnectDelay else s
  { s with managerAction := .nothing }

def start : ClientImpl :=
  let s := s.setIdle false
  if s.started then s.ensureStarted else { s with started := true }.internalStart

/-- `stop` up to `m_conn->stop()`. -/
def stop : ClientImpl :=
  if !s.started then s else { s with started := false, stopping := s.stopping + 1 }

def restart : ClientImpl :=
  match s.managerAction with
  | .nothing => { s with managerAction := .restart }
  | .restart => s
  | .fail => s

def fail : ClientImpl := { s with managerAction := .fail }

/-! ## Calls that wait until the client is ready -/

/-- `m_content.empty()`. -/
def contentEmpty : Bool := s.registry.content.entries.isEmpty

def setCall (i : ℕ) (point : CallPoint) : ClientImpl :=
  { s with calls := Function.update s.calls i point }

/-- The scope guard of `register_content`. -/
def leaveCall (purpose : Purpose) : ClientImpl :=
  match purpose with
  | .register _ _ => s.setIdle s.contentEmpty
  | .ready => s

def throwCall (i : ℕ) (purpose : Purpose) (e : CallException) : ClientImpl :=
  (s.setCall i (.threw e)).leaveCall purpose

/-- The rest of a call once the client is ready, with the constraints of the server. -/
def finishCall (i : ℕ) (purpose : Purpose) (k : Constraints) : ClientImpl :=
  match purpose with
  | .ready => s.setCall i (.returned none)
  | .register source info =>
    match Client.checkContentConstraints k source info with
    | .error e => s.throwCall i purpose (.content e)
    | .ok _ =>
      let registry := s.registry.register info.path
      let h := s.registry.created
      let result : HandleReturn := ⟨i, h, registry.content.lookup info.path = some h⟩
      let s := { s with registry := registry, returns := s.returns ++ [result] }
      (s.setCall i (.returned (some h))).leaveCall purpose

/-- `wait_until_ready` after its second wait. -/
def afterHello (i : ℕ) (purpose : Purpose) : ClientImpl :=
  if !s.connected then
    s.throwCall i purpose (.clientNotConnected "the client is not connected")
  else
    match s.hello with
    | none => s.throwCall i purpose (.timeout "did not receive initial server message in time")
    | some k => s.finishCall i purpose k

/-- `wait_until_ready` from its second wait on, which does not wait if the predicate holds. -/
def awaitHello (i : ℕ) (purpose : Purpose) : ClientImpl :=
  if !s.connected || s.hello.isSome then s.afterHello i purpose
  else s.setCall i (.hello purpose)

/-- `wait_until_ready`, with `wait_until_connected`. -/
def waitUntilReady (i : ℕ) (purpose : Purpose) : ClientImpl :=
  if s.started && s.connected && s.hello.isSome then s.afterHello i purpose
  else if !s.started then
    s.throwCall i purpose (.clientNotStarted "the client must be started")
  else
    let s := s.ensureStarted
    if !s.connecting || s.connected then s.awaitHello i purpose
    else s.setCall i (.connection purpose)

/-- A waiting call has the lock again; nothing happens if it has to go on waiting. -/
def wake (i : ℕ) (timedOut : Bool) : Option ClientImpl :=
  match s.calls i with
  | .connection purpose =>
    if !s.connecting || s.connected then some (s.awaitHello i purpose)
    else if timedOut then
      some (s.throwCall i purpose (.clientNotConnected "the client is not connected"))
    else none
  | .hello purpose =>
    if !s.connected || s.hello.isSome || timedOut then some (s.afterHello i purpose) else none
  | _ => none

def registerContent (i : ℕ) (source : Option ContentSource) (info : ContentInfo) : ClientImpl :=
  match source with
  | none =>
    s.setCall i (.threw (.content (.malformedContent "the content handle cannot be null")))
  | some source =>
    if source.size = 0 then
      s.setCall i (.threw (.content (.malformedContent "the content cannot have a size of zero")))
    else
      let s := s.setIdle false
      if info.path ∈ s.registry.content then
        s.throwCall i (.register source info) (.content (.pathAlreadyRegistered
          "content under this path is already registered with this client"))
      else s.waitUntilReady i (.register source info)

/-! ## Handles -/

/-- `unregister_content` of a handle of this client. -/
def unregister (h : ℕ) : ClientImpl :=
  let s := { s with registry := s.registry.unregisterContent h }
  if s.contentEmpty && o.automaticIdling then s.setIdle true else s

def unregisterContent : ContentHandle → Except ClientException ClientImpl
  | .null => .error (.malformedContent "the content handle cannot be null")
  | .foreign => .error (.malformedContent "the content handle has the wrong type")
  | .internal h => .ok (s.unregister o h)

def isRegistered : ContentHandle → Except ClientException Bool
  | .null => .error (.malformedContent "the content handle cannot be null")
  | .foreign => .error (.malformedContent "the content handle has the wrong type")
  | .internal h => .ok (s.registry.isRegistered h)

/-! ## Callbacks of the websocket -/

def onWebsocketOpen : ClientImpl :=
  let s := s.updateConnected true
  if o.withReconnect then s.resetReconnectDelay else s

def onWebsocketClose : ClientImpl :=
  let wasIdling := s.idleWaiting
  let callbacks :=
    if s.connected && s.hello.isSome then s.callbacks ++ [.disconnect] else s.callbacks
  let s := { (s.updateConnected false).resetConnectionState.setIdle false with
    callbacks := callbacks }
  if s.started && o.withReconnect && !wasIdling then { s with queueReconnect := some true } else s

/-- The end of `on_hello`, when all checks have passed. -/
def acceptHello (k : Constraints) : ClientImpl :=
  let s := { s with hello := some k, callbacks := s.callbacks ++ [.ready] }
  if s.contentEmpty && o.automaticIdling then s.setIdle true else s

def onHello (constraints : Option (Constraints × UInt32)) : ClientImpl :=
  match constraints with
  | none => s.fail
  | some (k, cacheDuration) =>
    -- A server without a cache has no minimum that the client may ask for.
    if o.minCacheDuration.any fun min =>
        cacheDuration = 0 || (cacheDuration.toNat : Int) < min.toInt then s.fail
    else s.acceptHello o k

def onRequest (path : String) (refused : Bool) : ClientImpl :=
  if refused then s.restart
  else if path ∈ s.registry.content then s
  else { s with responding := true }

/-- `on_websocket_message`; what is about a request waits for the lock of the request table. -/
def onWebsocketMessage : WebsocketMessage → Option ClientImpl
  | .unparsable => some s.restart
  | .hello constraints => some (if s.hello.isSome then s.fail else s.onHello o constraints)
  | .request path refused =>
    if s.hello.isNone then some s.fail
    else if s.responding then none
    else some (s.onRequest path refused)
  | .success => if s.hello.isNone then some s.fail else if s.responding then none else some s
  | .requestClosed => if s.hello.isNone then some s.fail else if s.responding then none else some s
  | .close => some (if s.hello.isNone then s.fail else s.restart)
  | .unrecognized => some (if s.hello.isNone then s.fail else s.restart)

/-- A send that fails asks for a restart. The sending thread is the one of the websocket, or a serve
thread that was given a request. -/
def sendFailed : Option ℕ → Option ClientImpl
  | none => if s.responding then some { s.restart with responding := false } else none
  | some h => if h ∈ s.registry.contents then some s.restart else none

/-! ## The manager thread -/

/-- `next_reconnect_delay`; the counter may wrap around, and the sum of two delays may overflow. -/
def nextReconnectDelay : ClientImpl :=
  let attempt := s.reconnectAttempt + 1
  let delay :=
    if attempt = 1 then 0
    else if attempt = 2 then o.reconnectDelay.getD 1000
    else if 2 < attempt then
      match o.maxReconnectDelay with
      | none => s.reconnectDelay
      | some maxDelay =>
        let next := min maxDelay (2 * s.reconnectDelay)
        o.reconnectDelay.elim next fun delay => max delay next
    else s.reconnectDelay
  { s with reconnectAttempt := attempt, reconnectDelay := delay }

/-- The head of the loop. -/
def loopHead : ClientImpl :=
  { s with
    manager := .waiting
    reconnectTimePoint := if s.reconnectAttempt = 0 then none else s.reconnectTimePoint }

/-- `now >= time_point`. -/
def expired (now : Int) (timePoint : Option Int) : Bool := timePoint.any fun t => decide (t ≤ now)

/-- The condition that the loop waits for. -/
def managerCondition (now : Int) : Bool :=
  s.stopManagerLoop || s.trackIdling.isSome || (s.idleWaiting && expired now s.idleTimePoint) ||
    s.managerAction ≠ .nothing || s.queueReconnect.isSome ||
    (0 < s.reconnectAttempt && expired now s.reconnectTimePoint) ||
    (s.reconnectAttempt = 0 && s.reconnectTimePoint.isSome)

/-- The wait is over also if one of the time points has passed. -/
def managerWakes (now : Int) : Bool :=
  s.managerCondition now || expired now s.idleTimePoint || expired now s.reconnectTimePoint

/-- The branch of the loop for `m_track_idling`. -/
def managerTracksIdling (now : Int) (doTrack : Bool) : ClientImpl :=
  let s := { s with trackIdling := none }
  if !doTrack || !s.started || !s.connected then
    { s with idleTimePoint := none, idleWaiting := false }
  else if s.idleWaiting then s
  else
    match o.disconnectAfterIdle with
    | none => s
    | some duration => { s with idleTimePoint := some (now + duration.toInt), idleWaiting := true }

/-- The branch of the loop for `m_queue_reconnect`. -/
def managerQueues (now : Int) (doQueue : Bool) : ClientImpl :=
  let s := { s with queueReconnect := none, reconnectTimePoint := none }
  if doQueue then
    let s := s.nextReconnectDelay o
    { s with reconnectTimePoint := some (now + s.reconnectDelay.toInt) }
  else s

/-- One pass of the loop, from the end of its wait to the next wait or to `m_conn->stop()`. -/
def managerIteration (now : Int) : Option ClientImpl :=
  if s.manager ≠ .waiting || !s.managerWakes now then none
  else if s.stopManagerLoop then some { s with manager := .returned }
  else
    match s.trackIdling with
    | some doTrack => some (s.managerTracksIdling o now doTrack).loopHead
    | none =>
      if s.idleWaiting && expired now s.idleTimePoint then some { s with manager := .idleStop }
      else
        match s.managerAction with
        | .restart => some { s with manager := .internalRestart }
        | .fail => some { s with manager := .internalStopAndReset }
        | .nothing =>
          match s.queueReconnect with
          | some doQueue => some (s.managerQueues o now doQueue).loopHead
          | none =>
            if 0 < s.reconnectAttempt && expired now s.reconnectTimePoint then
              some { s.internalStart with reconnectTimePoint := none }.loopHead
            else some s.loopHead

/-- The rest of a pass that stopped the connection. -/
def managerResume : Option ClientImpl :=
  match s.manager with
  | .idleStop =>
    some { s.finishInternalStop o with idleTimePoint := none, idleWaiting := false }.loopHead
  | .internalRestart => some { (s.finishInternalStop o).internalStart with
      managerAction := .nothing }.loopHead
  | .internalStopAndReset =>
    let s := { s.finishInternalStop o with started := false }
    some { s with
      callbacks := s.callbacks ++ [ClientCallback.failed]
      managerAction := .nothing }.loopHead
  | _ => none

/-- One step of the client; `none` if the event cannot happen. -/
def step (s : ClientImpl) : ClientImplEvent → Option ClientImpl
  | .start => some s.start
  | .stop => some s.stop
  | .stopped =>
    if s.stopping = 0 ∨ s.responding then none
    else some { s.finishInternalStop o with stopping := s.stopping - 1 }
  | .idle state => some (s.setIdle state)
  | .registerContent call source info =>
    if s.calls call = .idle then some (s.registerContent call source info) else none
  | .waitUntilReady call =>
    if s.calls call = .idle then some (s.waitUntilReady call .ready) else none
  | .wake call timedOut => s.wake call timedOut
  | .unregisterContent handle =>
    if handle.made s.registry.created then
      match s.unregisterContent o handle with
      | .error _ => some s
      | .ok s => some s
    else none
  | .onUnregistered h =>
    if h < s.registry.created then some { s with registry := s.registry.onUnregistered h }
    else none
  | .websocketOpen => some (s.onWebsocketOpen o)
  | .websocketClose => if s.responding then none else some (s.onWebsocketClose o)
  | .websocketMessage m => s.onWebsocketMessage o m
  | .sent => if s.responding then some { s with responding := false } else none
  | .sendFailed thread => s.sendFailed thread
  | .manager now => s.managerIteration o now
  | .managerResume => if s.responding then none else s.managerResume o
  | .destroy =>
    if s.destructor = .notCalled then some { s with destructor := .internalStop } else none
  | .destroyStopped =>
    if s.destructor = .internalStop ∧ !s.responding then
      some { s.finishInternalStop o with destructor := .stopped }
    else none
  | .destroyLoop =>
    if s.destructor = .stopped then some { s with stopManagerLoop := true } else none

/-- The client with the options `o`. -/
def machine : Machine ClientImpl ClientImplEvent := ⟨init, step o⟩

end ClientImpl

/-! ## Sample runs -/

/-- A client that reconnects after a second. -/
def sampleOptions : ClientOptions where
  reconnectDelay := some 1000
  maxReconnectDelay := none
  disconnectAfterIdle := none
  automaticIdling := false
  minCacheDuration := none

/-- The client after the events `es`. -/
def clientAfter (es : List ClientImplEvent) : ClientImpl :=
  ((ClientImpl.machine sampleOptions).run .init es).getD .init

end Loon
