import Loon.Server.Messages

set_option autoImplicit false

/-!
# The request handler of the client

`RequestHandler` of the C++ client: the queue of requests for one registered content and the thread
that serves them (`serve`), with the calls that other threads make while it runs (`serveRequest`,
`cancelRequest`, `exitGracefully`).

The serve thread holds the lock of the handler except where it sends a header or a chunk and where it
runs the callback. So a step of `serve` is what happens between two of these points: `header` and
`chunk` are the points before a send, `headerSent` and `chunkSent` those after it, when the lock has
to be taken again, and any call of another thread falls between two steps.

A step sends one message at most; whether that succeeds comes with the step. After a send that failed
the serve thread returns as soon as it has the lock again, so this is one step: meanwhile the handler
is as it was before the send.

A request carries the number of the `Request` message it came with, which the program does not have:
request ids may be used again, these numbers are not.
-/

namespace Loon

/-- What the methods of a `ContentSource` return; `data` is what the stream supplies from its
beginning on. -/
structure ContentSource where
  contentType : String
  size : UInt64
  data : Bytes
  deriving DecidableEq, Repr

structure ContentInfo where
  path : String
  maxCacheDuration : Option UInt32
  attachmentFilename : Option String
  deriving DecidableEq, Repr

/-- `ServeRequest`; the callback is determined by the id. -/
structure ServeRequest where
  origin : ℕ
  id : UInt64
  deriving DecidableEq, Repr

/-- A message on the way to the server, with the number of the request it answers. -/
structure Outgoing where
  origin : ℕ
  data : ClientData
  deriving DecidableEq, Repr

/-- Where the serve thread is. -/
inductive ServePoint where
  | waiting
  | header (r : ServeRequest)
  | headerSent (r : ServeRequest)
  | chunk (r : ServeRequest) (sequence : UInt64) (total : ℕ) (data stream : Bytes)
  | chunkSent (r : ServeRequest) (sequence : UInt64) (total : ℕ) (stream : Bytes)
  | callback (r : ServeRequest) (total : ℕ)
  | called (r : ServeRequest) (total : ℕ)
  | done
  deriving DecidableEq, Repr

/-- The request the serve thread works on. -/
def ServePoint.request : ServePoint → Option ServeRequest
  | .waiting => none
  | .header r => some r
  | .headerSent r => some r
  | .chunk r _ _ _ _ => some r
  | .chunkSent r _ _ _ => some r
  | .callback r _ => some r
  | .called r _ => some r
  | .done => none

/-- The thread is about to send the header or a chunk. -/
def ServePoint.sends : ServePoint → Bool
  | .header _ => true
  | .chunk _ _ _ _ _ => true
  | _ => false

/-- The request whose callback the next step runs. -/
def ServePoint.calls : ServePoint → Option ServeRequest
  | .callback r _ => some r
  | _ => none

/-- The request whose callback was run. -/
def ServePoint.reported : ServePoint → Option ServeRequest
  | .called r _ => some r
  | _ => none

/-- It is too late to keep the callback from being run. -/
def ServePoint.late : ServePoint → Bool
  | .callback _ _ => true
  | .called _ _ => true
  | _ => false

structure RequestHandler where
  source : ContentSource
  info : ContentInfo
  pendingRequests : List ServeRequest
  handlingRequestId : Option UInt64
  cancelHandlingRequest : Bool
  stop : Bool
  point : ServePoint
  deriving DecidableEq, Repr

/-- A handler whose serve thread has just been spawned. -/
def newRequestHandler (source : ContentSource) (info : ContentInfo) : RequestHandler where
  source := source
  info := info
  pendingRequests := []
  handlingRequestId := none
  cancelHandlingRequest := false
  stop := false
  point := .waiting

namespace RequestHandler

variable (h : RequestHandler)

/-- `m_done`. -/
def isDone : Bool := h.point = .done

/-- The header that answers `r`. -/
def contentHeader (r : ServeRequest) : ContentHeader where
  requestId := r.id
  contentType := h.source.contentType
  contentSize := h.source.size
  maxCacheDuration := h.info.maxCacheDuration
  filename := h.info.attachmentFilename

/-- The serve loop returns. -/
def leave : RequestHandler := { h with handlingRequestId := none, point := .done }

/-- The wait for requests: it is over at once if there is one, or if the handler is stopped. -/
def await : RequestHandler :=
  if h.stop then h.leave
  else
    match h.pendingRequests with
    | [] => { h with point := .waiting }
    | r :: rs => { h with pendingRequests := rs, handlingRequestId := some r.id, point := .header r }

/-- The close of the response to `r`, if it was cancelled. -/
def closing (r : ServeRequest) : List Outgoing :=
  match h.handlingRequestId with
  | some id => if h.cancelHandlingRequest then [⟨r.origin, .closeResponse ⟨id⟩⟩] else []
  | none => []

/-- The top of the loop after the iteration for `r`. -/
def nextIteration (r : ServeRequest) (sent : Bool) : RequestHandler × List Outgoing :=
  (if sent ∨ h.closing r = [] then
      { h with handlingRequestId := none, cancelHandlingRequest := false }.await
    else h.leave,
    h.closing r)

/-- The end of an iteration that sent `total` bytes. -/
def finish (r : ServeRequest) (total : ℕ) (sent : Bool) : RequestHandler × List Outgoing :=
  -- A complete response need not be cancelled any more.
  if total = h.source.size.toNat then { h with cancelHandlingRequest := false }.nextIteration r sent
  else h.nextIteration r sent

/-- The head of the chunk loop. A read at the end of the stream returns nothing; so does the loop
condition after a read that was cut short. -/
def readChunk (chunkSize : UInt64) (r : ServeRequest) (sequence : UInt64) (total : ℕ)
    (stream : Bytes) : RequestHandler :=
  let data := stream.take chunkSize.toNat
  if data = [] then { h with point := .callback r total }
  else { h with point := .chunk r sequence total data (stream.drop chunkSize.toNat) }

/-- One step of `serve`, with what it gives to `send_message`; none if the thread waits or has
returned. -/
def serve (chunkSize : UInt64) (sent : Bool) : Option (RequestHandler × List Outgoing) :=
  match h.point with
  | .waiting => if h.stop ∨ h.pendingRequests ≠ [] then some (h.await, []) else none
  | .header r =>
    some (if sent then { h with point := .headerSent r } else h.leave,
      [⟨r.origin, .contentHeader (h.contentHeader r)⟩])
  | .headerSent r =>
    if h.cancelHandlingRequest then some (h.nextIteration r sent)
    else if h.stop then some (h.leave, [])
    else some (h.readChunk chunkSize r 0 0 h.source.data, [])
  | .chunk r sequence total data stream =>
    some (if sent then { h with point := .chunkSent r (sequence + 1) (total + data.length) stream }
        else h.leave,
      [⟨r.origin, .contentChunk ⟨r.id, sequence, data⟩⟩])
  | .chunkSent r sequence total stream =>
    if h.cancelHandlingRequest then some (h.finish r total sent)
    else if h.stop then some (h.leave, [])
    else some (h.readChunk chunkSize r sequence total stream, [])
  | .callback r total => some ({ h with point := .called r total }, [])
  | .called r total => some (h.finish r total sent)
  | .done => none

def serveRequest (request : ServeRequest) : RequestHandler :=
  if h.isDone then h else { h with pendingRequests := h.pendingRequests ++ [request] }

/-- `cancel_request`, with what it gives to `send_message`. It returns after that in any case. -/
def cancelRequest (requestId : UInt64) : RequestHandler × List Outgoing :=
  if h.isDone then (h, [])
  else if h.handlingRequestId = some requestId then ({ h with cancelHandlingRequest := true }, [])
  else
    match h.pendingRequests.find? (·.id = requestId) with
    | none => (h, [])
    | some r => ({ h with pendingRequests := h.pendingRequests.eraseP (·.id = requestId) },
        [⟨r.origin, .closeResponse ⟨requestId⟩⟩])

/-- `exitGracefully` up to the wait for the serve thread. -/
def exitGracefully : Except String RequestHandler :=
  if h.isDone then .ok h
  else if h.stop then .error "request handle is already destroyed"
  else .ok { h with
    cancelHandlingRequest := h.handlingRequestId.isSome || h.cancelHandlingRequest
    stop := true }

end RequestHandler

/-! ## What the server receives -/

/-- What is sent of the messages that were given to `send_message`. -/
def delivered (sent : Bool) (out : List Outgoing) : List Outgoing := if sent then out else []

@[simp] theorem delivered_true (out : List Outgoing) : delivered true out = out := rfl

@[simp] theorem delivered_false (out : List Outgoing) : delivered false out = [] := rfl

@[simp] theorem delivered_nil (sent : Bool) : delivered sent [] = [] := by
  cases sent <;> rfl

theorem mem_of_mem_delivered {sent : Bool} {out : List Outgoing} {m : Outgoing}
    (h : m ∈ delivered sent out) : m ∈ out := by
  cases sent with
  | true => exact h
  | false => cases h

/-- The messages for the request `p`. -/
def about (p : ℕ) (l : List Outgoing) : List ClientData :=
  (l.filter (·.origin = p)).map Outgoing.data

@[simp] theorem about_nil (p : ℕ) : about p [] = [] := rfl

@[simp] theorem about_append (p : ℕ) (l l' : List Outgoing) :
    about p (l ++ l') = about p l ++ about p l' := by
  simp [about]

theorem about_cons_self {p : ℕ} {x : Outgoing} (h : x.origin = p) (l : List Outgoing) :
    about p (x :: l) = x.data :: about p l := by
  simp [about, h]

theorem about_cons_ne {p : ℕ} {x : Outgoing} (h : x.origin ≠ p) (l : List Outgoing) :
    about p (x :: l) = about p l := by
  simp [about, h]

end Loon
