import Loon.Server.History

set_option autoImplicit false

/-!
# The goroutines of a connection

`system` runs the protocol loop together with the goroutines that share its channels: the chunk
discarder, one `serve` handler for each forwarded request with its calls of `Request.Close`, and the
goroutine that calls `Request.Success`.

The loop is split where the others can tell: it waits in front of a full chunk channel
(`LoopPc.sending`), and it closes `completed` (`completing`) before it closes the chunk channel
(`draining`). Everything else that the loop does between two selects is one step, as in `protocol`.
The unbuffered channels `discardChunks`, `triggerClose` and `triggerSuccess` are rendezvous: one step
of both sides. The reply on `outErr` is part of it, because the caller waits for nothing else.

Outcomes of `net/http` and of the content type checks are in the events.
-/

namespace Loon

/-- Where the protocol goroutine is. -/
inductive LoopPc where
  /-- At a select, or returned. -/
  | select
  /-- In `response.write`. -/
  | sending (w : PendingWrite)
  /-- In `completeRequest`, after the last chunk was sent. -/
  | completing (p : Ptr)
  /-- In `response.done`, after `completed` was closed. -/
  | draining (p : Ptr)
  deriving DecidableEq, Repr

/-- Where the discarder is; in its inner loop it holds the channels of a request. -/
inductive Discarder where
  | idle
  | serving (p : Ptr)
  | exited
  deriving DecidableEq, Repr

/-- Where a call of `Request.Close` is. -/
inductive CloseCall where
  | checkClosed
  | checkDone
  | checkCompleted
  | readResponse
  | offerDiscard
  | offerTrigger
  deriving DecidableEq, Repr

/-- Where the call of `Request.Success` is. -/
inductive SuccessCall where
  | checkDone
  | checkClosed
  | offerTrigger
  | returned (err : Option ApiError)
  deriving DecidableEq, Repr

/-- The status codes `serve` writes. -/
inductive Status where
  | ok
  | notFound
  | notAcceptable
  | internalServerError
  | gatewayTimeout
  deriving DecidableEq, Repr

/-- What follows a call of `Close`: the deferred call ends `serve`; an earlier one is followed by a
status, if one is still to be written, and by the deferred call. -/
inductive After where
  | returns
  | defers (status : Option Status)
  deriving DecidableEq, Repr

/-- Where a `serve` handler is. -/
inductive ServePc where
  /-- At the select on the response and `Closed`. -/
  | waiting
  /-- With a response, in front of the content type checks. -/
  | answered (header : ContentHeader)
  /-- At the select of the forwarding loop. -/
  | forwarding
  /-- In `w.Write`. -/
  | writing (chunk : Bytes)
  /-- In `request.Close`. -/
  | closing (call : CloseCall) (message : String) (after : After)
  | finished
  deriving DecidableEq, Repr

/-- A `serve` handler. -/
structure Handler where
  pc : ServePc
  status : Option Status
  /-- The content written to the HTTP response. -/
  body : Bytes
  /-- The variable `written`. -/
  written : UInt64
  /-- The goroutine of `request.Success()`, once it was started. -/
  success : Option SuccessCall
  deriving DecidableEq, Repr

namespace Handler

def start : Handler where
  pc := .waiting
  status := none
  body := []
  written := 0
  success := none

variable (h : Handler)

/-- `request.Close(message)`. -/
def callClose (message : String) (after : After) : Handler :=
  { h with pc := .closing .checkClosed message after }

/-- `return`, which runs the deferred `request.Close`. -/
def leave : Handler := h.callClose "request closed" .returns

/-- `request.Close` returned. -/
def closeReturned (after : After) : Handler :=
  match after with
  | .returns => { h with pc := .finished }
  | .defers status => { h with status := status.or h.status }.leave

/-- The call of `Success` goes on at `call`. -/
def succeedAt (call : SuccessCall) : Handler := { h with success := some call }

/-- The call of `Close` goes on at `call`. -/
def closeAt (call : CloseCall) (message : String) (after : After) : Handler :=
  { h with pc := .closing call message after }

end Handler

/-- The outcome of the content type checks of `serve`. -/
inductive Acceptance where
  | invalidType
  | notAcceptable
  | acceptable
  deriving DecidableEq, Repr

/-- What a waiting call of `Close` may see instead of a rendezvous. -/
inductive Signal where
  | completed
  | closed
  | done
  deriving DecidableEq, Repr

/-- The steps of a handler. -/
inductive ServeEvent where
  | takeResponse
  | seesClosed
  | checkAccept (a : Acceptance)
  | takeChunk
  | wrote
  | writeFails (n : ℕ)
  | closeStep
  | closeSees (signal : Signal)
  | closeTrigger (now : Time) (sendOk : Bool)
  | successStep
  | successSees (signal : Signal)
  | successTrigger (sendOk : Bool)
  deriving DecidableEq, Repr

/-- The goroutines of a connection. -/
structure Sys where
  core : St
  pc : LoopPc
  discarder : Discarder
  handlers : Ptr → Option Handler

/-- The steps of the goroutines. -/
inductive SysEvent where
  /-- The loop receives a client message. -/
  | recv (message : ClientMessage) (now : Time)
  /-- The loop gets past the send of a chunk. -/
  | write
  | complete
  | drain
  | forwardRequest (path : String) (now : Time) (sendOk : Bool)
  | countRequests
  | timeout (now : Time) (visits : List Visit)
  | ret (order : List UInt64)
  /-- The write pump closes `done`. -/
  | disconnect
  /-- The discarder receives from `discardChunks`, in a rendezvous with the `Close` of `p`. -/
  | discardStart (p : Ptr)
  | discardTake
  | discardStop
  | discardExit
  | serve (p : Ptr) (e : ServeEvent)
  deriving DecidableEq, Repr

namespace Sys

def init : Sys where
  core := St.init
  pc := .select
  discarder := .idle
  handlers := fun _ => none

variable (s : Sys)

def setHandler (p : Ptr) (h : Handler) : Sys :=
  { s with handlers := Function.update s.handlers p (some h) }

/-- The signal is there for the request `p`. -/
def signalled (p : Ptr) : Signal → Bool
  | .completed => (s.core.objs p).isCompleted
  | .closed => (s.core.objs p).isClosed
  | .done => s.core.done

/-- Store the request object `p`. -/
def putObj (p : Ptr) (r : Request) : Sys := { s with core := s.core.put p r }

/-- The loop is back at its head. -/
def atTop (core : St) : Sys := { s with core := core.top, pc := .select }

end Sys

/-- The chunk channel of the request is full. -/
def Request.chunksFull (r : Request) : Bool := r.response.elim false fun rsp => rsp.chunks.full

section System

variable {ext : Externals} (cfg : Config ext)

/-- A step of the handler `h` of the request `p`. -/
def serveStep (s : Sys) (p : Ptr) (h : Handler) : ServeEvent → Option (Except Panic Sys)
  | .takeResponse =>
    match h.pc, (s.core.objs p).pendingResponse.recv with
    | .waiting, some (o, c) =>
      let s := s.putObj p { s.core.objs p with pendingResponse := c }
      match o with
      -- a nil interface; `reflect` panics and the deferred call runs
      | none => some (.ok (s.setHandler p h.leave))
      | some none => some (.ok (s.setHandler p { h with status := some .notFound }.leave))
      | some (some header) => some (.ok (s.setHandler p { h with pc := .answered header }))
    | _, _ => none
  | .seesClosed =>
    if (s.core.objs p).isClosed then
      match h.pc with
      | .waiting => some (.ok (s.setHandler p { h with status := some .gatewayTimeout }.leave))
      | .forwarding => some (.ok (s.setHandler p h.leave))
      | _ => none
    else none
  | .checkAccept a =>
    match h.pc with
    | .answered _ =>
      match a with
      | .invalidType => some (.ok (s.setHandler p (h.callClose
          "unexpected invalid response content type" (.defers (some .internalServerError)))))
      | .notAcceptable => some (.ok (s.setHandler p (h.callClose
          "response content type not accepted by HTTP client" (.defers (some .notAcceptable)))))
      | .acceptable => some (.ok (s.setHandler p { h with status := some .ok, pc := .forwarding }))
    | _ => none
  | .takeChunk =>
    match h.pc, (s.core.objs p).response with
    | .forwarding, some rsp =>
      match rsp.chunks.recv with
      | none => none
      | some (some chunk, c) =>
        let s := s.putObj p { s.core.objs p with response := some { rsp with chunks := c } }
        some (.ok (s.setHandler p { h with pc := .writing chunk }))
      | some (none, _) =>
        if h.written ≠ rsp.header.contentSize then
          some (.ok (s.setHandler p (h.callClose
            "fatal: forwarded less/more data than expected" (.defers none))))
        else some (.ok (s.setHandler p (h.succeedAt .checkDone).leave))
    | _, _ => none
  | .wrote =>
    match h.pc with
    | .writing chunk => some (.ok (s.setHandler p { h with
        body := h.body ++ chunk, written := h.written + .ofNat chunk.length, pc := .forwarding }))
    | _ => none
  | .writeFails n =>
    match h.pc with
    | .writing chunk =>
      if n ≤ chunk.length then
        some (.ok (s.setHandler p ({ h with body := h.body ++ chunk.take n }.callClose
          "failed to forward response" (.defers none))))
      else none
    | _ => none
  | .closeStep =>
    match h.pc with
    | .closing .checkClosed message after =>
      some (.ok (s.setHandler p (if (s.core.objs p).isClosed then h.closeReturned after
        else h.closeAt .checkDone message after)))
    | .closing .checkDone message after =>
      some (.ok (s.setHandler p (if s.core.done then h.closeReturned after
        else h.closeAt .checkCompleted message after)))
    | .closing .checkCompleted message after =>
      some (.ok (s.setHandler p (if (s.core.objs p).isCompleted then h.closeReturned after
        else h.closeAt .readResponse message after)))
    | .closing .readResponse message after =>
      some (.ok (s.setHandler p (if (s.core.objs p).hasResponse then
          h.closeAt .offerDiscard message after
        else h.closeAt .offerTrigger message after)))
    | _ => none
  | .closeSees signal =>
    if s.signalled p signal then
      match h.pc with
      | .closing .offerDiscard _ after => some (.ok (s.setHandler p (h.closeReturned after)))
      | .closing .offerTrigger _ after => some (.ok (s.setHandler p (h.closeReturned after)))
      | _ => none
    else none
  | .closeTrigger now sendOk =>
    match h.pc, s.pc with
    | .closing .offerTrigger message after, .select =>
      (step cfg s.core (.triggerClose p message now sendOk)).map fun c =>
        c.map fun core => { s with core }.setHandler p (h.closeReturned after)
    | _, _ => none
  | .successStep =>
    match h.success with
    | some .checkDone => some (.ok (s.setHandler p (h.succeedAt
        (if s.core.done then .returned (some .clientClosed) else .checkClosed))))
    | some .checkClosed => some (.ok (s.setHandler p (h.succeedAt
        (if (s.core.objs p).isClosed then .returned (some .requestClosed) else .offerTrigger))))
    | _ => none
  | .successSees signal =>
    match h.success, signal with
    | some .offerTrigger, .closed =>
      if s.signalled p .closed then
        some (.ok (s.setHandler p (h.succeedAt (.returned (some .requestClosed)))))
      else none
    | some .offerTrigger, .done =>
      if s.signalled p .done then
        some (.ok (s.setHandler p (h.succeedAt (.returned (some .clientClosed)))))
      else none
    | _, _ => none
  | .successTrigger sendOk =>
    match h.success, s.pc with
    | some .offerTrigger, .select =>
      (step cfg s.core (.triggerSuccess p sendOk)).map fun c => c.map fun core =>
        { s with core }.setHandler p (h.succeedAt (.returned (sendSuccess s.core p sendOk).2))
    | _, _ => none

/-- The loop in front of a client message. -/
def recvStep (s : Sys) (message : ClientMessage) (now : Time) : Option (Except Panic Sys) :=
  match message.data with
  | some (.contentChunk chunk) =>
    if s.core.phase = .loop then
      match beginChunk cfg s.core chunk now with
      | .error e => some (.error e)
      | .ok (.inl core) => some (.ok (s.atTop core))
      | .ok (.inr (core, w)) => some (.ok { s with core, pc := .sending w })
    else none
  | _ => (step cfg s.core (.recv message now)).map fun c => c.map fun core => { s with core }

/-- `response.write` of the chunk `w`; it waits while the channel is full. -/
def writeStep (s : Sys) (w : PendingWrite) : Option (Except Panic Sys) :=
  if (s.core.objs w.ptr).isClosed then
    -- nothing is sent, and the last chunk deletes the request
    some ((finishChunk s.core w).map s.atTop)
  else if (s.core.objs w.ptr).chunksFull then none
  else
    some (((s.core.objs w.ptr).write w.data).map fun request =>
      let core := s.core.put w.ptr request
      if w.last then { s with core, pc := .completing w.ptr } else s.atTop core)

/-- `completeRequest` up to the closing of the chunk channel. -/
def completeStep (s : Sys) (p : Ptr) : Except Panic Sys :=
  let request := s.core.objs p
  if request.isCompleted then .error .requestAlreadyCompleted
  else if request.isClosed then .ok (s.atTop (s.core.deleteRequest request))
  else request.complete.map fun request =>
    { s with core := s.core.put p request, pc := .draining p }

/-- An event of the protocol loop at its select. -/
def loopStep (s : Sys) (e : Event) : Option (Except Panic Sys) :=
  if s.pc = .select then
    (step cfg s.core e).map fun c => c.map fun core => { s with core }
  else none

/-- One step of a goroutine; `none` if it cannot be taken. -/
def sysStep (s : Sys) : SysEvent → Option (Except Panic Sys)
  | .recv message now => if s.pc = .select then recvStep cfg s message now else none
  | .write =>
    match s.pc with
    | .sending w => writeStep s w
    | _ => none
  | .complete =>
    match s.pc with
    | .completing p => some (completeStep s p)
    | _ => none
  | .drain =>
    match s.pc with
    | .draining p =>
      some ((s.core.objs p).done.map fun request => s.atTop (s.core.put p request))
    | _ => none
  | .forwardRequest path now sendOk =>
    if s.pc = .select ∧ s.core.phase = .loop then
      (sendRequest s.core path now sendOk).map fun (core, result) =>
        match result with
        | .ok p => .ok ({ s with core := core.top }.setHandler p .start)
        | .error _ => .ok { s with core := core.top }
    else none
  | .countRequests => loopStep cfg s .countRequests
  | .timeout now visits => loopStep cfg s (.timeout now visits)
  | .ret order => loopStep cfg s (.ret order)
  | .disconnect => some (.ok { s with core := { s.core with done := true } })
  | .discardStart p =>
    match s.discarder, s.handlers p with
    | .idle, some h =>
      match h.pc with
      | .closing .offerDiscard message after =>
        some (.ok ({ s with discarder := .serving p }.setHandler p
          (h.closeAt .offerTrigger message after)))
      | _ => none
    | _, _ => none
  | .discardTake =>
    match s.discarder with
    | .serving p =>
      match (s.core.objs p).response with
      | none => none
      | some rsp => rsp.chunks.recv.map fun (_, c) =>
        .ok (s.putObj p { s.core.objs p with response := some { rsp with chunks := c } })
    | _ => none
  | .discardStop =>
    match s.discarder with
    | .serving p =>
      if (s.core.objs p).isClosed then some (.ok { s with discarder := .idle }) else none
    | _ => none
  | .discardExit =>
    if s.discarder = .idle ∧ s.core.done = true then some (.ok { s with discarder := .exited })
    else none
  | .serve p e =>
    match s.handlers p with
    | some h => serveStep cfg s p h e
    | none => none

/-- **The machine of a connection.** -/
def system : Machine (Except Panic Sys) SysEvent where
  init := .ok Sys.init
  step c e :=
    match c with
    | .ok s => sysStep cfg s e
    | .error _ => none

end System

end Loon
