import Loon.Lib.LockOrder

set_option autoImplicit false

/-!
# The locks of the C++ client

What every function of the client, of the request handlers, of the content handles, of the shared
clients and of the websocket client does with mutexes and threads, in the order of the source; the
data, and with it the conditions of branches and loops, is left out. There is one wrapped client
with any number of shared clients, content handles, and threads that use them.

A wait on a condition variable gives its mutex up and takes it again (`waitOn`), except for the wait
in `exit_gracefully`, which is for the end of another thread: `serving i` is the lock that the serve
thread `i` has until it sets `m_done`. The destructor of a request handler joins this thread; it
runs when the last reference to the handle goes away, which `m_content` gives up only behind
`exit_gracefully`. So the thread is behind its loop then, where it has `exiting i`. Callbacks of the
user do not call back into the library, and the websocket library takes no lock of its own that it
would keep while it calls back. No lock is taken under the mutexes of logging and of
`rtc_global_init`, which are left out.
-/

namespace Loon

/-- The three callbacks of a client. -/
inductive CallbackKind where
  | ready
  | disconnect
  | failed
  deriving DecidableEq

/-- The three counters of `SharedClientState`. -/
inductive CounterKind where
  | refs
  | started
  | idling
  deriving DecidableEq

/-- The mutexes, and what stands for the end of a thread. -/
inductive Lock where
  /-- `SharedClientImpl::m_mutex` -/
  | shared (j : ℕ)
  /-- The manager thread has not ended. -/
  | managing
  /-- `ClientImpl::m_mutex` -/
  | client
  /-- The serve thread has not set `m_done`. -/
  | serving (i : ℕ)
  /-- `ClientImpl::m_request_mutex` -/
  | requests
  /-- `InternalContentHandle::m_mutex` -/
  | handle (i : ℕ)
  /-- `RequestHandler::m_mutex_low`, `m_mutex_next` and `m_mutex` -/
  | low (i : ℕ)
  | next (i : ℕ)
  | data (i : ℕ)
  /-- `ClientImpl::m_write_mutex` -/
  | write
  /-- `m_buffer_mutex` of the websocket client -/
  | buffer
  /-- The serve thread has set `m_done`, but has not ended. -/
  | exiting (i : ℕ)
  /-- `SharedReferenceCounter::m_mutex` -/
  | counter (c : CounterKind)
  /-- `ClientCallbackMap::m_mutex` -/
  | maps (c : CallbackKind)
  /-- `CallbackMap::m_mutex` -/
  | callbacks (c : CallbackKind)
  deriving DecidableEq

inductive ClientThread where
  | user (k : ℕ)
  /-- A thread on which the websocket library calls back. -/
  | websocket (k : ℕ)
  | manager
  | serve (i : ℕ)
  deriving DecidableEq

/-- What a function does with locks. -/
abbrev LockProgram := LockCmd Lock ClientThread

namespace Locks

open LockCmd

/-! ## The websocket client -/

/-- `on_buffered_amount_low` -/
def onBufferedAmountLow : LockProgram := guard .buffer .skip

/-- `buffered_send` -/
def bufferedSend : LockProgram := guard .buffer (oneOf [waitOn .buffer])

/-! ## Request handlers -/

/-- `ClientImpl::send` -/
def send : LockProgram := guard .write (oneOf [bufferedSend])

/-- `mutex_lock_high_priority` in front of `c`. -/
def highPriority (i : ℕ) (c : LockProgram) : LockProgram :=
  .seq (.acquire (.next i)) (.seq (.acquire (.data i)) (.seq (.release (.next i))
    (.seq c (.release (.data i)))))

/-- `RequestHandler::send_message_low_priority` -/
def sendMessageLowPriority (i : ℕ) : LockProgram := guard (.low i) (highPriority i send)

/-- `RequestHandler::serve_request` -/
def serveRequest (i : ℕ) : LockProgram := guard (.data i) .skip

/-- `RequestHandler::cancel_request` -/
def cancelRequest (i : ℕ) : LockProgram := highPriority i (oneOf [send])

/-- `RequestHandler::spawn_serve_thread` -/
def spawnServeThread (i : ℕ) : LockProgram := guard (.data i) (oneOf [.start (.serve i)])

/-- `m_cv_done.wait` -/
def waitDone (i : ℕ) : LockProgram :=
  oneOf [.seq (.release (.data i)) (.seq (.await (.serving i)) (.acquire (.data i)))]

/-- `RequestHandler::exit_gracefully` -/
def exitGracefully (i : ℕ) : LockProgram :=
  .seq (highPriority i .skip) (oneOf [guard (.data i) (waitDone i)])

/-- `RequestHandler::~RequestHandler` -/
def destroyHandler (i : ℕ) : LockProgram :=
  .seq (guard (.data i) .skip) (oneOf [.await (.exiting i)])

/-- A reference to the content handle `i` goes away. -/
def drop (i : ℕ) : LockProgram := oneOf [destroyHandler i]

/-! ## Content handles -/

/-- `InternalContentHandle::on_served`, `on_unregistered`, `served` and `unregistered` -/
def handleCall (i : ℕ) : LockProgram := guard (.handle i) .skip

/-- `ClientImpl::call_served_callback` for a request to the handle `i`. -/
def callServedCallback (i : ℕ) (erase : LockProgram) : LockProgram :=
  oneOf [.seq (handleCall i) erase]

/-- `ClientImpl::response_sent`, on the serve thread `i`: the handle is in `m_content`. -/
def responseSent (i : ℕ) : LockProgram := guard .requests (oneOf [callServedCallback i .skip])

/-! ## The serve thread -/

/-- `unlock_send_low_priority` in `serve`. -/
def unlockSendLowPriority (i : ℕ) : LockProgram :=
  .seq (.release (.data i)) (.seq (sendMessageLowPriority i) (.acquire (.data i)))

/-- The head of the loop: the `CloseResponse` message of a request that was cancelled, and the wait
for a request. -/
def serveNext (i : ℕ) : LockProgram := .seq (oneOf [send]) (waitOn (.data i))

/-- The header and the chunks. -/
def serveContent (i : ℕ) : LockProgram :=
  .seq (unlockSendLowPriority i) (.loop (unlockSendLowPriority i))

/-- `serve_request.callback()` -/
def serveCallback (i : ℕ) : LockProgram :=
  oneOf [.seq (.release (.data i)) (.seq (responseSent i) (.acquire (.data i)))]

/-- `RequestHandler::serve`: whole iterations, and one that returns after one of its sends or waits;
then `m_done` is set, and the thread ends. -/
def serve (i : ℕ) : LockProgram :=
  .seq (.acquire (.data i))
    (.seq (.loop (.seq (serveNext i) (.seq (serveContent i) (serveCallback i))))
    (.seq (.seq (oneOf [send]) (oneOf [.seq (waitOn (.data i)) (oneOf [serveContent i])]))
    (.seq (.acquire (.exiting i)) (.seq (.release (.serving i)) (.seq (.release (.data i))
    (.release (.exiting i)))))))

/-! ## The client -/

/-- `CallbackMap::execute`, `set` and `get` -/
def callbackMap (c : CallbackKind) : LockProgram := guard (.callbacks c) .skip

/-- `ClientImpl::reset_connection_state` -/
def resetConnectionState : LockProgram :=
  .seq (.loop (.any fun i => .seq (exitGracefully i) (handleCall i)))
    (.seq (.loop (.any drop)) (guard .requests (.loop (.any drop))))

/-- `ClientImpl::on_websocket_open` -/
def onWebsocketOpen : LockProgram := guard .client .skip

/-- `ClientImpl::on_websocket_close` -/
def onWebsocketClose : LockProgram :=
  guard .client (.seq resetConnectionState (oneOf [callbackMap .disconnect]))

/-- `BaseClient::stop`, which may call back. -/
def connStop : LockProgram := .seq (oneOf [onBufferedAmountLow]) (oneOf [onWebsocketClose])

/-- `ClientImpl::internal_stop`, with the lock of the caller. -/
def internalStop : LockProgram :=
  .seq (.release .client) (.seq connStop (.seq (.acquire .client) resetConnectionState))

/-- `ClientImpl::on_hello` -/
def onHello : LockProgram := oneOf [callbackMap .ready]

/-- `ClientImpl::on_success` -/
def onSuccess : LockProgram :=
  guard .requests (oneOf [.any fun i => callServedCallback i (drop i)])

/-- `ClientImpl::on_request_closed` -/
def onRequestClosed : LockProgram :=
  guard .requests (oneOf [.any fun i => .seq (cancelRequest i) (drop i)])

/-- `ClientImpl::on_request`, up to the end of the scope of the lock `lock` of the caller: it gives
this lock up before it sends an empty response. -/
def onRequest : LockProgram :=
  .seq (.acquire .requests)
    (.choice (.seq (oneOf [.any serveRequest]) (.seq (.release .requests) (.release .client)))
      (.seq (.release .client) (.seq send (.release .requests))))

/-- `ClientImpl::on_websocket_message` -/
def onWebsocketMessage : LockProgram :=
  .seq (.acquire .client)
    (.choice (.seq (oneOf [onHello, onSuccess, onRequestClosed]) (.release .client)) onRequest)

/-- `ClientImpl::manager_loop` -/
def managerLoop : LockProgram :=
  guard .client (.loop (.seq (waitOn .client)
    (oneOf [internalStop, .seq internalStop (oneOf [callbackMap .failed])])))

/-- `started`, `idle`, `start`, `content`, `is_registered`, `on_ready`, `on_disconnect` and
`on_failed` of the client. -/
def clientCall : LockProgram := guard .client .skip

/-- `ClientImpl::stop` -/
def clientStop : LockProgram := guard .client (oneOf [internalStop])

/-- `ClientImpl::wait_until_ready` -/
def waitUntilReady : LockProgram := guard .client (oneOf [waitOn .client])

/-- `ClientImpl::register_content` -/
def registerContent : LockProgram :=
  guard .client (oneOf [.seq (waitOn .client) (oneOf [.any spawnServeThread])])

/-- `ClientImpl::unregister_content` -/
def unregisterContent (i : ℕ) : LockProgram :=
  guard .client (oneOf [.seq (handleCall i) (.seq (exitGracefully i) (drop i))])

/-- `ClientImpl::ClientImpl` -/
def clientCreate : LockProgram := .start .manager

/-- `ClientImpl::~ClientImpl` -/
def clientDestroy : LockProgram :=
  .seq (guard .client internalStop) (.seq (guard .client .skip) (.await .managing))

/-! ## Shared clients -/

/-- `SharedReferenceCounter::add`, `remove`, `count` and `erase_references` -/
def counterCall (c : CounterKind) : LockProgram := guard (.counter c) .skip

/-- `ClientCallbackMap::get` and `erase` -/
def mapsCall (c : CallbackKind) : LockProgram := guard (.maps c) .skip

/-- `ClientCallbackMap::call` -/
def callbackCall (c : CallbackKind) : LockProgram := .seq (mapsCall c) (oneOf [callbackMap c])

/-- `SharedClientImpl::on_ready`, `on_disconnect` and `on_failed` -/
def sharedSetCallback (j : ℕ) (c : CallbackKind) : LockProgram :=
  guard (.shared j) (.seq (mapsCall c) (callbackMap c))

def internalResetIdling : LockProgram := oneOf [counterCall .idling]

def internalUnregisterContent : LockProgram :=
  .loop (.any fun i => .seq (unregisterContent i) (drop i))

/-- `SharedClientImpl::start` -/
def sharedStart (j : ℕ) : LockProgram :=
  guard (.shared j) (.seq internalResetIdling (.choice clientCall
    (all [clientCall, counterCall .started, clientCall,
      oneOf [.seq waitUntilReady (oneOf [callbackCall .ready])]])))

/-- `SharedClientImpl::stop` -/
def sharedStop (j : ℕ) : LockProgram :=
  guard (.shared j) (.seq internalResetIdling (.seq internalUnregisterContent
    (oneOf [.seq (counterCall .started) (oneOf [clientStop, callbackCall .disconnect])])))

/-- `SharedClientImpl::started` -/
def sharedStarted (j : ℕ) : LockProgram := guard (.shared j) (oneOf [clientCall])

/-- `SharedClientImpl::idle` -/
def sharedIdle (j : ℕ) : LockProgram :=
  guard (.shared j) (.seq (oneOf [clientCall]) (oneOf
    [all [counterCall .idling, counterCall .started, counterCall .idling, oneOf [clientCall]]]))

/-- `SharedClientImpl::wait_until_ready` -/
def sharedWaitUntilReady (j : ℕ) : LockProgram := guard (.shared j) (oneOf [waitUntilReady])

/-- `SharedClientImpl::register_content` -/
def sharedRegisterContent (j : ℕ) : LockProgram := guard (.shared j) registerContent

/-- `SharedClientImpl::unregister_content` -/
def sharedUnregisterContent (j : ℕ) : LockProgram :=
  guard (.shared j) (oneOf [.any fun i => .seq (unregisterContent i) (drop i)])

/-- `SharedClientImpl::content` and `is_registered` -/
def sharedContent (j : ℕ) : LockProgram :=
  guard (.shared j) (.seq clientCall (.seq (.loop (.seq clientCall (oneOf [.any drop])))
    (.loop (.any drop))))

/-- `SharedClientState::add` -/
def stateAdd : LockProgram :=
  all [counterCall .refs, mapsCall .ready, clientCall, mapsCall .disconnect, clientCall,
    mapsCall .failed, clientCall]

/-- `SharedClientState::remove` -/
def stateRemove : LockProgram :=
  .seq (all [counterCall .refs, counterCall .started, counterCall .refs, counterCall .idling,
    counterCall .refs, counterCall .refs])
    (oneOf [all [clientCall, clientCall, clientCall, mapsCall .ready, mapsCall .disconnect,
      mapsCall .failed, counterCall .started, counterCall .idling,
      counterCall .refs, counterCall .started, counterCall .idling, mapsCall .ready,
      mapsCall .disconnect, mapsCall .failed]])

/-- `SharedClientImpl::SharedClientImpl` -/
def sharedCreate : LockProgram :=
  .seq stateAdd (all [mapsCall .ready, callbackMap .ready, mapsCall .disconnect,
    callbackMap .disconnect])

/-- `SharedClientImpl::~SharedClientImpl`, which may drop the wrapped client. -/
def sharedDestroy (j : ℕ) : LockProgram :=
  .seq (sharedStop j) (.seq stateRemove (oneOf [clientDestroy]))

/-! ## The threads -/

/-- The calls of a user, on the shared client `j` and the content handle `i`. -/
def userCall (i j : ℕ) : LockProgram :=
  oneOf [clientCreate, clientDestroy, clientCall, clientStop, waitUntilReady, registerContent,
    unregisterContent i, handleCall i, drop i, sharedCreate, sharedDestroy j, sharedStart j,
    sharedStop j, sharedStarted j, sharedIdle j, sharedWaitUntilReady j, sharedRegisterContent j,
    sharedUnregisterContent j, sharedContent j, sharedSetCallback j .ready,
    sharedSetCallback j .disconnect, sharedSetCallback j .failed]

/-- The calls of the websocket library. -/
def websocketCall : LockProgram :=
  oneOf [onWebsocketOpen, onWebsocketClose, onWebsocketMessage, onBufferedAmountLow]

def body : ClientThread → LockProgram
  | .user _ => .loop (.any fun i => .any fun j => userCall i j)
  | .websocket _ => .loop websocketCall
  | .manager => .seq managerLoop (.release .managing)
  | .serve i => serve i

/-- What a thread has from its start on. -/
def alive : ClientThread → Option Lock
  | .manager => some .managing
  | .serve i => some (.serving i)
  | _ => none

/-- **The lock order.** -/
def rank : Lock → ℕ
  | .shared _ => 0
  | .managing => 0
  | .client => 1
  | .serving _ => 2
  | .requests => 3
  | .handle _ => 4
  | .low _ => 5
  | .next _ => 6
  | .data _ => 7
  | .write => 8
  | .buffer => 9
  | .exiting _ => 10
  | .counter _ => 11
  | .maps _ => 12
  | .callbacks _ => 13

end Locks

/-- **The threads of the C++ client.** -/
def clientThreads : LockSystem Lock ClientThread where
  rank := Locks.rank
  body := Locks.body
  alive := Locks.alive
  initial
    | .user _ | .websocket _ => true
    | _ => false
  alive_inj t u l ht hu := by
    cases t <;> cases u <;> simp only [Locks.alive, reduceCtorEq, Option.some.injEq] at ht hu
    · rfl
    · rw [← ht] at hu
      cases hu
    · rw [← ht] at hu
      cases hu
    · rw [← ht] at hu
      cases hu
      rfl
  alive_initial t ht := by
    cases t with
    | user | websocket => rfl
    | manager | serve => cases ht

end Loon
