import Loon.Client.RequestHandler

set_option autoImplicit false

/-!
# The client

`ClientImpl` of the C++ client within one connection: the registered contents with their request
handlers, the table of requests, and the threads that work on them (`Client.step`): the websocket
thread with the server's messages, the threads that register and unregister content, and the serve
thread of every handler.

Two places hold a lock across a step. `unregister_content` keeps the lock of the client until the
serve thread has returned, so no message is handled and nothing is registered meanwhile
(`unregistering`). `on_request` sends an empty response after it has released that lock, but still
holds the lock of the request table (`responding`).

`check_request_limit` reads the clock, so its result comes with the event, as does that of the send if
the event sends something. A restart is carried out by the manager thread some time after it was asked
for (`restart`); until then the connection goes on.
-/

namespace Loon

/-- The constraints of the `Hello` message. -/
structure Constraints where
  chunkSize : UInt64
  maxContentSize : UInt64
  acceptedContentTypes : List String
  deriving DecidableEq, Repr

/-- The exceptions of `register_content`. -/
inductive ClientException where
  | malformedContent (message : String)
  | pathAlreadyRegistered (message : String)
  | unacceptableContent (message : String)
  deriving DecidableEq, Repr

structure Client where
  /-- `m_content`, with the number of the handler for a path. -/
  content : String → Option ℕ
  handlers : ℕ → RequestHandler
  /-- How many handlers there are. -/
  registered : ℕ
  /-- `m_requests`: the handler, and whether one half of the completion was seen. -/
  requests : UInt64 → Option (ℕ × Bool)
  /-- The path that is being unregistered. -/
  unregistering : Option String
  /-- The request whose empty response is about to be sent. -/
  responding : Option ServeRequest
  /-- The calls of `served`, with the handler and the id. -/
  served : List (ℕ × UInt64)
  /-- A restart was asked for. -/
  restart : Bool
  /-- How many `Request` messages were handled. -/
  seen : ℕ

/-- What happens in the client. -/
inductive ClientEvent where
  | message (m : ServerMessage) (limited sent : Bool)
  | emptyResponse (sent : Bool)
  | register (source : ContentSource) (info : ContentInfo)
  | unregister (path : String)
  | unregistered
  | serve (i : ℕ) (sent : Bool)
  deriving DecidableEq, Repr

/-- A source that is registered supplies exactly as many bytes as it announces. -/
def ClientEvent.Exact : ClientEvent → Prop
  | .register source _ => source.data.length = source.size.toNat
  | _ => True

namespace Client

/-- The client after the `Hello` message. -/
def init : Client where
  content _ := none
  handlers _ := newRequestHandler ⟨"", 0, []⟩ ⟨"", none, none⟩
  registered := 0
  requests _ := none
  unregistering := none
  responding := none
  served := []
  restart := false
  seen := 0

variable (k : Constraints) (c : Client)

/-- `send`, of one message at most: if it fails a restart is asked for. -/
def send (out : List Outgoing) (sent : Bool) : Client × List Outgoing :=
  if sent ∨ out = [] then (c, out) else ({ c with restart := true }, [])

/-- Store the handler `i`. -/
def put (i : ℕ) (h : RequestHandler) : Client := { c with handlers := Function.update c.handlers i h }

def checkContentConstraints (source : ContentSource) (info : ContentInfo) :
    Except ClientException Unit :=
  if source.size > k.maxContentSize then
    .error (.unacceptableContent ("content of this size is not accepted by the server: " ++
      toString source.size ++ " bytes"))
  else if String.ofList (source.contentType.toList.takeWhile (· ≠ ';')) ∉ k.acceptedContentTypes then
    .error (.unacceptableContent "the content type is not accepted by the server")
  else if info.attachmentFilename = some "" then
    .error (.unacceptableContent "the attachment filename may not be empty")
  else .ok ()

def registerContent (source : ContentSource) (info : ContentInfo) :
    Except ClientException Client :=
  if source.size = 0 then .error (.malformedContent "the content cannot have a size of zero")
  else if (c.content info.path).isSome then
    .error (.pathAlreadyRegistered "content under this path is already registered with this client")
  else do
    checkContentConstraints k source info
    .ok { c.put c.registered (newRequestHandler source info) with
      content := Function.update c.content info.path (some c.registered)
      registered := c.registered + 1 }

/-- `unregister_content` up to the wait for the serve thread. An exception of `exit_gracefully`
leaves the content registered. -/
def unregisterContent (path : String) : Client :=
  match c.content path with
  | none => c
  | some i =>
    match (c.handlers i).exitGracefully with
    | .error _ => c
    | .ok h => { c.put i h with unregistering := some path }

/-- `unregister_content` once the serve thread has returned. -/
def contentUnregistered : Option Client :=
  c.unregistering.bind fun path =>
    (c.content path).bind fun i =>
      if (c.handlers i).isDone then
        some { c with content := Function.update c.content path none, unregistering := none }
      else none

def onRequest (id : UInt64) (path : String) (limited : Bool) : Client :=
  let request : ServeRequest := ⟨c.seen, id⟩
  let c := { c with seen := c.seen + 1 }
  if (c.requests id).isSome then { c with restart := true }
  else if limited then { c with restart := true }
  else
    match c.content path with
    | none => { c with responding := some request }
    | some i =>
      { c.put i ((c.handlers i).serveRequest request) with
        requests := Function.update c.requests id (some (i, false)) }

/-- `call_served_callback` of the entry for `id`, if there is one: `response_sent` and `on_success`
only report a missing entry. -/
def callServedCallback (id : UInt64) : Client :=
  match c.requests id with
  | none => c
  | some (i, false) => { c with requests := Function.update c.requests id (some (i, true)) }
  | some (i, true) =>
    { c with served := c.served ++ [(i, id)], requests := Function.update c.requests id none }

def responseSent (id : UInt64) : Client := c.callServedCallback id

def onSuccess (id : UInt64) : Client := c.callServedCallback id

def onRequestClosed (id : UInt64) (sent : Bool) : Client × List Outgoing :=
  match c.requests id with
  | none => (c, [])
  | some (i, _) =>
    let (h, out) := (c.handlers i).cancelRequest id
    { c.put i h with requests := Function.update c.requests id none }.send out sent

/-- `handle_message`, for the messages after `Hello`. -/
def handleMessage (m : ServerMessage) (limited sent : Bool) : Client × List Outgoing :=
  match m with
  | .request id path => (c.onRequest id path limited, [])
  | .success id => (c.onSuccess id, [])
  | .requestClosed id _ => c.onRequestClosed id sent

/-- One step of the serve thread of the handler `i`; its callback is `response_sent`. -/
def serveStep (i : ℕ) (sent : Bool) : Option (Client × List Outgoing) :=
  ((c.handlers i).serve k.chunkSize sent).bind fun (h, out) =>
    match (c.handlers i).point with
    | .callback r _ =>
      if c.responding.isSome then none else some ((c.put i h).responseSent r.id, out)
    | _ => some ((c.put i h).send out sent)

/-- One step of the client, with what it sends; `none` if the event cannot happen. -/
def step : ClientEvent → Option (Client × List Outgoing)
  | .message m limited sent =>
    if c.unregistering.isNone ∧ c.responding.isNone then some (c.handleMessage m limited sent)
    else none
  | .emptyResponse sent => c.responding.map fun r =>
      { c with responding := none }.send [⟨r.origin, .emptyResponse ⟨r.id⟩⟩] sent
  | .register source info =>
    if c.unregistering.isNone then
      match c.registerContent k source info with
      | .error _ => some (c, [])
      | .ok c => some (c, [])
    else none
  | .unregister path =>
    if c.unregistering.isNone then some (c.unregisterContent path, []) else none
  | .unregistered => c.contentUnregistered.map fun c => (c, [])
  | .serve i sent => if i < c.registered then c.serveStep k i sent else none

end Client

end Loon
