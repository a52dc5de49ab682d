import Loon.Lib.Machine
import Loon.Server.Request

set_option autoImplicit false

/-!
# The protocol loop

`clientImpl.protocol` as a machine. The loop owns the request map and every request in it; request
objects are kept in a heap (`objs`), because callers hold on to them after they left the map, and
`created` counts them.

A handler runs to its end between two selects. What the source leaves to its surroundings is in the
event: clock readings, the iteration order of the map, and whether `sendMessage` found room on the
send channel (`sendOk`) or saw `done` closed. A send that fails means that `done` is closed, so it
sets `done`. `c.close` returns only after `done` was closed, so it sets `done` too and records the
`Close` it asked for in `fault`; the loop head then sees `done` and leaves.

`leaving` is the loop head after `done` was closed, from where the loop can only return; in `loop`
the second select may still take any ready case after `done` was closed.
-/

namespace Loon

/-- A reference to a request object. -/
abbrev Ptr := ℕ

/-- The errors of the client API. -/
inductive ApiError where
  | clientClosed
  | requestDeleted
  | requestClosed
  | requestCompleted
  | requestNotCompleted
  deriving DecidableEq, Repr

/-- Where the protocol goroutine is. -/
inductive Phase where
  | loop
  | leaving
  | returned
  deriving DecidableEq, Repr

/-- The state of a client connection that the protocol loop reads and writes. -/
structure St where
  requests : Finmap fun _ : UInt64 => Ptr
  objs : Ptr → Request
  created : ℕ
  nextRequest : UInt64
  /-- Everything enqueued on the send channel, in order. -/
  send : List ServerMessage
  done : Bool
  /-- The `Close` the protocol loop asked for. -/
  fault : Option Close
  phase : Phase

namespace St

/-- The state in which `Run` starts the loop. -/
def init : St where
  requests := ∅
  objs := fun _ => newRequest 0 "" 0
  created := 0
  nextRequest := 0
  send := []
  done := false
  fault := none
  phase := .loop

variable (s : St)

/-- Store the request object `p`. -/
def put (p : Ptr) (r : Request) : St := { s with objs := Function.update s.objs p r }

/-- `clientImpl.close`. -/
def close (reason : CloseReason) (message : String) : St :=
  { s with done := true, fault := some { reason, message } }

/-- Put `message` on the send channel. -/
def enqueue (message : ServerMessage) : St := { s with send := s.send ++ [message] }

def sendMessage (message : ServerMessage) (sendOk : Bool) : St × Bool :=
  if sendOk then (s.enqueue message, true) else ({ s with done := true }, false)

def deleteRequest (request : Request) : St :=
  { s with requests := s.requests.erase request.id }

/-- Back to the loop head, which leaves the loop once `done` is closed. -/
def top : St := if s.done then { s with phase := .leaving } else s

end St

/-- The id loop of `sendRequest`: `nextRequestID` until an id is not in use. -/
def freshID (requests : Finmap fun _ : UInt64 => Ptr) : ℕ → UInt64 → Option UInt64
  | 0, _ => none
  | fuel + 1, nextRequest =>
    if nextRequest + 1 ∉ requests then some (nextRequest + 1)
    else freshID requests fuel (nextRequest + 1)

/-- `sendRequest`; no result means that the id loop does not end, which takes a map that holds
every id. -/
def sendRequest (s : St) (path : String) (now : Time) (sendOk : Bool) :
    Option (St × Except ApiError Ptr) :=
  (freshID s.requests (s.requests.keys.card + 1) s.nextRequest).map fun id =>
    let p := s.created
    let s := { s.put p (newRequest id path now) with
      requests := s.requests.insert id p, created := p + 1, nextRequest := id }
    let (s, ok) := s.sendMessage (.request id path) sendOk
    if ok then (s, .ok p) else (s, .error .clientClosed)

def sendSuccess (s : St) (p : Ptr) (sendOk : Bool) : St × Option ApiError :=
  match s.requests.lookup (s.objs p).id with
  | none => (s, some .requestDeleted)
  | some q =>
    let request := s.objs q
    if request.isClosed then (s, some .requestClosed)
    else if !request.isCompleted then (s, some .requestNotCompleted)
    else
      let (s, ok) := s.sendMessage (.success request.id) sendOk
      if !ok then (s, some .clientClosed) else (s.deleteRequest request, none)

def closeRequest (s : St) (p : Ptr) (message : String) (now : Time) (sendOk : Bool) :
    Except Panic (St × Option ApiError) :=
  match s.requests.lookup (s.objs p).id with
  | none => .ok (s, some .requestDeleted)
  | some q =>
    let request := s.objs q
    if request.isClosed then .ok (s, none)
    else if request.isCompleted then .ok (s, some .requestCompleted)
    else
      let (s, ok) := s.sendMessage (.requestClosed request.id message) sendOk
      if !ok then .ok (s, some .clientClosed)
      else do
        let request ← (request.resetTimeout now).close
        .ok (s.put q request, none)

def completeRequest (s : St) (p : Ptr) : Except Panic St :=
  let request := s.objs p
  if request.isCompleted then .error .requestAlreadyCompleted
  else if request.isClosed then .ok (s.deleteRequest request)
  else do
    let request ← request.complete
    let request ← request.done
    .ok (s.put p request)

/-- "[#%d]" of the source's error texts. -/
def tag (id : UInt64) : String := " [#" ++ toString id ++ "]"

def onCloseResponse (s : St) (info : CloseResponse) : Except Panic St :=
  match s.requests.lookup info.requestId with
  | none => .ok (s.close .invalidRequestId
      ("Closed response for unknown request ID " ++ toString info.requestId))
  | some p =>
    let request := s.objs p
    if !request.hasResponse then
      .ok (s.close .invalidClientMessage
        ("Must receive a response before closing it" ++ tag request.id))
    else if request.isCompleted then
      .ok (s.close .invalidClientMessage
        ("Cannot close a response that is already completed" ++ tag request.id))
    else do
      let request ← request.close
      .ok ((s.put p request).deleteRequest request)

def onEmptyResponse (s : St) (response : EmptyResponse) : Except Panic St :=
  match s.requests.lookup response.requestId with
  | none => .ok (s.close .invalidRequestId
      ("Response for unknown request ID " ++ toString response.requestId))
  | some p =>
    let request := s.objs p
    if request.id ≠ response.requestId then .error .inconsistentRequestIDs
    else if request.hasResponse then
      .ok (s.close .invalidClientMessage
        ("Already received a response for this request" ++ tag request.id))
    else do
      let request ← request.provideResponse none
      let s ← completeRequest (s.put p request) p
      .ok (s.deleteRequest request)

section Handlers

variable {ext : Externals} (cfg : Config ext)

/-- The media type without its parameters. -/
def baseContentType (contentType : String) : String :=
  String.ofList (contentType.toList.takeWhile (· ≠ ';'))

def onContentHeader (s : St) (header : ContentHeader) (now : Time) : Except Panic St :=
  match s.requests.lookup header.requestId with
  | none => .ok (s.close .invalidRequestId
      ("Response for unknown request ID " ++ toString header.requestId))
  | some p =>
    let request := s.objs p
    if request.id ≠ header.requestId then .error .inconsistentRequestIDs
    else if request.hasResponse then
      .ok (s.close .invalidClientMessage
        ("Already received a response for this request" ++ tag request.id))
    else if header.contentSize > cfg.options.constraints.maxContentSize then
      .ok (s.close .invalidContentSize
        ("Content size exceeds allowed maximum content size" ++ tag request.id))
    else if header.contentSize = 0 then
      .ok (s.close .invalidContentSize ("Content size cannot be zero" ++ tag request.id))
    else if header.filename = some "" then
      .ok (s.close .invalidFilename ("The filename length may not be zero" ++ tag request.id))
    else if baseContentType header.contentType ∉ cfg.options.constraints.acceptedContentTypes then
      .ok (s.close .forbiddenContentType
        ("The given content type is forbidden" ++ tag request.id))
    else do
      let response := newResponse header cfg.bufferSize
      let request ← (request.resetTimeout now).provideResponse (some response)
      let s := s.put p request
      -- The source repeats the size test here; a zero size was rejected above.
      if header.contentSize = 0 then do
        let request ← request.write []
        completeRequest (s.put p request) p
      else .ok s

/-- A chunk that passed its checks and is about to be written. -/
structure PendingWrite where
  ptr : Ptr
  data : Bytes
  last : Bool
  deriving DecidableEq, Repr

/-- `onContentChunk` up to the write to the chunk channel: the connection is closed (`inl`), or the
chunk is to be written (`inr`). -/
def beginChunk (s : St) (chunk : ContentChunk) (now : Time) : Except Panic (St ⊕ St × PendingWrite) :=
  match s.requests.lookup chunk.requestId with
  | none => .ok (.inl (s.close .invalidRequestId
      ("Content chunk for unknown request ID " ++ toString chunk.requestId)))
  | some p =>
    let request := s.objs p
    if request.id ≠ chunk.requestId then .error .inconsistentRequestIDs
    else if !request.hasResponse then
      .ok (.inl (s.close .invalidClientMessage
        ("Must receive a content header before any chunks" ++ tag chunk.requestId)))
    else if request.isCompleted then
      .ok (.inl (s.close .invalidClientMessage
        ("Request has already been completed" ++ tag chunk.requestId)))
    else
      match request.response with
      | none => .error .storedResponseNil
      | some response => do
        let (expected, response) ← response.nextChunkInfo cfg.chunkSize
        let request := { request with response := some response }
        if chunk.sequence ≠ expected.sequence then
          .ok (.inl ((s.put p request).close .contentChunkOutOfSequence
            ("Content chunk out of sequence, expected sequence number " ++
              toString expected.sequence ++ ", got " ++ toString chunk.sequence ++
              tag chunk.requestId)))
        -- A slice length converts to `uint64` without loss.
        else if chunk.data.length ≠ expected.size.toNat then
          .ok (.inl ((s.put p request).close .invalidChunkSize
            ("Unexpected content chunk size, expected " ++ toString expected.size ++
              " bytes, got " ++ toString chunk.data.length ++ tag chunk.requestId)))
        else
          .ok (.inr (s.put p (request.resetTimeout now),
            { ptr := p, data := chunk.data, last := expected.last }))

/-- `onContentChunk` from the write to the chunk channel on. -/
def finishChunk (s : St) (w : PendingWrite) : Except Panic St := do
  let request ← (s.objs w.ptr).write w.data
  let s := s.put w.ptr request
  if w.last then completeRequest s w.ptr else .ok s

def onContentChunk (s : St) (chunk : ContentChunk) (now : Time) : Except Panic St := do
  match ← beginChunk cfg s chunk now with
  | .inl s => .ok s
  | .inr (s, w) => finishChunk s w

/-- The dispatch of a client message. -/
def dispatch (s : St) (message : ClientMessage) (now : Time) : Except Panic St :=
  match message.data with
  | some (.emptyResponse m) => onEmptyResponse s m
  | some (.contentHeader m) => onContentHeader cfg s m now
  | some (.contentChunk m) => onContentChunk cfg s m now
  | some (.closeResponse m) => onCloseResponse s m
  | none => .error .unknownClientMessageType

/-- One iteration of the timeout sweep: the id it visits, and the outcome of `sendMessage` and the
clock reading in case the request is closed there. -/
structure Visit where
  id : UInt64
  sendOk : Bool
  now : Time
  deriving DecidableEq, Repr

/-- The loop of `checkTimeouts`. -/
def checkTimeouts (now : Time) : St → List Visit → Except Panic St
  | s, [] => .ok s
  | s, v :: vs =>
    match s.requests.lookup v.id with
    | none => checkTimeouts now s vs
    | some p =>
      let request := s.objs p
      if now - request.lastUpdated < cfg.options.intervals.clientTimeout then
        checkTimeouts now s vs
      else if request.isClosed then
        .ok (s.close .timedOut
          ("Response for closed request was not closed in time" ++ tag request.id))
      else if request.isCompleted then checkTimeouts now (s.deleteRequest request) vs
      else do
        let (s, _) ← closeRequest s p "request timed out" v.now v.sendOk
        checkTimeouts now s vs

/-- The loop of the deferred function: close every request that is still in the map. -/
def closeAll : St → List UInt64 → Except Panic St
  | s, [] => .ok s
  | s, id :: ids =>
    match s.requests.lookup id with
    | none => closeAll s ids
    | some p => do
      let request ← (s.objs p).close
      closeAll (s.put p request) ids

/-- The events of a connection: one per case of the select, the `done` signal, the return of the
loop, and the receives of a consumer on the channels of a request. -/
inductive Event where
  | recv (message : ClientMessage) (now : Time)
  | forwardRequest (path : String) (now : Time) (sendOk : Bool)
  | triggerSuccess (request : Ptr) (sendOk : Bool)
  | triggerClose (request : Ptr) (message : String) (now : Time) (sendOk : Bool)
  | countRequests
  | timeout (now : Time) (visits : List Visit)
  | done
  | ret (order : List UInt64)
  | takeResponse (request : Ptr)
  | takeChunk (request : Ptr)
  deriving DecidableEq, Repr

/-- `ids` lists the keys of the map, each once: an iteration order. -/
def Enumerates (s : St) (ids : List UInt64) : Prop := ids.Nodup ∧ ids.toFinset = s.requests.keys

instance (s : St) (ids : List UInt64) : Decidable (Enumerates s ids) :=
  inferInstanceAs (Decidable (_ ∧ _))

/-- A consumer receives from the response channel. -/
def takeResponse (s : St) (p : Ptr) : Option St :=
  (s.objs p).pendingResponse.recv.map fun (_, c) => s.put p { s.objs p with pendingResponse := c }

/-- A consumer receives from the chunk channel. -/
def takeChunk (s : St) (p : Ptr) : Option St :=
  (s.objs p).response.bind fun response =>
    response.chunks.recv.map fun (_, c) =>
      s.put p { s.objs p with response := some { response with chunks := c } }

/-- One step of the connection; `none` if the event cannot happen. -/
def step (s : St) : Event → Option (Except Panic St)
  | .recv message now =>
    if s.phase = .loop then some ((dispatch cfg s message now).map St.top) else none
  | .forwardRequest path now sendOk =>
    if s.phase = .loop then
      (sendRequest s path now sendOk).map fun result => .ok result.1.top
    else none
  | .triggerSuccess p sendOk =>
    if s.phase = .loop ∧ p < s.created then some (.ok (sendSuccess s p sendOk).1.top) else none
  | .triggerClose p message now sendOk =>
    if s.phase = .loop ∧ p < s.created then
      some ((closeRequest s p message now sendOk).map fun result => result.1.top)
    else none
  | .countRequests => if s.phase = .loop then some (.ok s.top) else none
  | .timeout now visits =>
    if s.phase = .loop ∧ Enumerates s (visits.map Visit.id) then
      some ((checkTimeouts cfg now s visits).map St.top)
    else none
  | .done => some (.ok { s with done := true })
  | .ret order =>
    if s.phase ≠ .returned ∧ s.done = true ∧ Enumerates s order then
      some ((closeAll s order).map fun s => { s with requests := ∅, phase := .returned })
    else none
  | .takeResponse p => if p < s.created then (takeResponse s p).map .ok else none
  | .takeChunk p => if p < s.created then (takeChunk s p).map .ok else none

/-- **The protocol machine.** A panic ends the process, so it is a final state. -/
def protocol : Machine (Except Panic St) Event where
  init := .ok St.init
  step c e :=
    match c with
    | .ok s => step cfg s e
    | .error _ => none

end Handlers

end Loon
