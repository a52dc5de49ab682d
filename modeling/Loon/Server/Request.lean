import Loon.Lib.Chan
import Loon.Lib.Chunking
import Loon.Server.Config

set_option autoImplicit false

/-!
# Requests and responses

`internalRequest` and `internalResponse`: the channels a caller of the client API holds, and the
methods through which the protocol loop changes them. A method that can panic returns `Except Panic`;
the panics are the source's own `panic` statements and the run-time panics of its channels.

A response lives in its request, so the value that travels on `pendingResponse` is the header the
caller gets to see: `some header` for a response, `none` for the nil response of an `EmptyResponse`.
-/

namespace Loon

/-- The panics of the protocol loop. -/
inductive Panic where
  /-- `provideResponse`: "response already provided". -/
  | responseAlreadyProvided
  /-- `complete`: "the request has already been completed". -/
  | alreadyCompleted
  /-- `complete`: "cannot complete a closed request". -/
  | completeClosed
  /-- `nextChunkInfo`: "already received everything". -/
  | alreadyReceivedEverything
  /-- "inconsistent request IDs". -/
  | inconsistentRequestIDs
  /-- `onContentChunk`: "stored response cannot be nil". -/
  | storedResponseNil
  /-- `completeRequest`: "request already completed". -/
  | requestAlreadyCompleted
  /-- `protocol`: "unknown client message type". -/
  | unknownClientMessageType
  /-- A channel operation panicked. -/
  | runtime (e : ChanPanic)
  deriving DecidableEq, Repr

/-- `internalResponse`. -/
structure Response where
  header : ContentHeader
  chunkSequence : UInt64
  chunks : Chan Bytes
  deriving DecidableEq, Repr

/-- `internalRequest`. -/
structure Request where
  id : UInt64
  path : String
  pendingResponse : Chan (Option ContentHeader)
  response : Option Response
  lastUpdated : Time
  completed : Chan Unit
  closed : Chan Unit
  deriving DecidableEq, Repr

def newRequest (id : UInt64) (path : String) (now : Time) : Request where
  id := id
  path := path
  pendingResponse := .make 1
  response := none
  lastUpdated := now
  completed := .make 0
  closed := .make 0

def newResponse (header : ContentHeader) (bufferSize : ℕ) : Response where
  header := header
  chunkSequence := 0
  chunks := .make bufferSize

/-- What `nextChunkInfo` announces about the chunk it expects. -/
structure ChunkInfo where
  sequence : UInt64
  size : UInt64
  last : Bool
  deriving DecidableEq, Repr

namespace Request

variable (r : Request)

def isClosed : Bool := r.closed.closed

def isCompleted : Bool := r.completed.closed

def hasResponse : Bool := r.response.isSome

def resetTimeout (now : Time) : Request :=
  if !r.isClosed then { r with lastUpdated := now } else r

def provideResponse (response : Option Response) : Except Panic Request :=
  if r.response.isSome then .error .responseAlreadyProvided
  else
    let r := { r with response := response }
    if !r.isClosed then do
      let c ← (r.pendingResponse.send (response.map Response.header)).mapError .runtime
      let c ← c.close.mapError .runtime
      .ok { r with pendingResponse := c }
    else .ok r

/-- `internalRequest.close`. -/
def close : Except Panic Request :=
  if r.isCompleted then .ok r
  else if r.isClosed then .ok r
  else do
    let c ← r.closed.close.mapError .runtime
    .ok { r with closed := c }

/-- `internalRequest.complete`. -/
def complete : Except Panic Request :=
  if r.isCompleted then .error .alreadyCompleted
  else if r.isClosed then .error .completeClosed
  else do
    let c ← r.completed.close.mapError .runtime
    .ok { r with completed := c }

/-- `internalResponse.write` of the request's response. -/
def write (chunk : Bytes) : Except Panic Request :=
  match r.response with
  | none => .ok r
  | some response =>
    if !r.isClosed then do
      let c ← (response.chunks.send chunk).mapError .runtime
      .ok { r with response := some { response with chunks := c } }
    else .ok r

/-- `internalResponse.done` of the request's response. -/
def done : Except Panic Request :=
  match r.response with
  | none => .ok r
  | some response =>
    if !r.isClosed then do
      let c ← response.chunks.close.mapError .runtime
      .ok { r with response := some { response with chunks := c } }
    else .ok r

end Request

/-- `internalResponse.nextChunkInfo`, with the response after its sequence number was advanced. The
arithmetic is that of `uint64`. -/
def Response.nextChunkInfo (r : Response) (chunkSize : UInt64) :
    Except Panic (ChunkInfo × Response) :=
  let total := r.header.contentSize
  let received := r.chunkSequence * chunkSize
  if received ≥ total then .error .alreadyReceivedEverything
  else
    let size := min (total - received) chunkSize
    .ok ({ sequence := r.chunkSequence, size := size, last := received + size = total },
      { r with chunkSequence := r.chunkSequence + 1 })

/-! ## The methods where they do not panic -/

namespace Request

variable {r : Request}

/-- The request with `h` on its response channel, which is then closed. -/
def filled (r : Request) (h : Option ContentHeader) : Request :=
  { r with pendingResponse :=
      { r.pendingResponse with buffer := r.pendingResponse.buffer ++ [h], closed := true } }

/-- The request with its `closed` channel closed. -/
def markClosed (r : Request) : Request := { r with closed := { r.closed with closed := true } }

/-- The request with its `completed` channel closed. -/
def markCompleted (r : Request) : Request :=
  { r with completed := { r.completed with closed := true } }

theorem provideResponse_open {response : Option Response} (hr : r.response = none)
    (hc : r.isClosed = false) (hp : r.pendingResponse.closed = false) :
    r.provideResponse response =
      .ok ({ r with response := response }.filled (response.map Response.header)) := by
  unfold isClosed at hc
  simp [provideResponse, isClosed, hr, hc, Chan.send, Chan.close, hp, filled, Except.mapError,
    bind, Except.bind]

theorem provideResponse_closed {response : Option Response} (hr : r.response = none)
    (hc : r.isClosed = true) :
    r.provideResponse response = .ok { r with response := response } := by
  unfold isClosed at hc
  simp [provideResponse, isClosed, hr, hc]

theorem close_open (hc : r.isClosed = false) (hd : r.isCompleted = false) :
    r.close = .ok r.markClosed := by
  have hc' : r.closed.closed = false := hc
  simp [close, hc, hd, Chan.close, hc', markClosed, Except.mapError, bind, Except.bind]

theorem close_settled (h : r.isCompleted = true ∨ r.isClosed = true) : r.close = .ok r := by
  unfold close
  rcases h with h | h
  · rw [if_pos h]
  · rw [if_pos h, ite_self]

/-- **`close` never panics**, and settles the request. -/
theorem close_eq : r.close = .ok r ∧ (r.isCompleted = true ∨ r.isClosed = true) ∨
    r.close = .ok r.markClosed ∧ r.isCompleted = false ∧ r.isClosed = false := by
  cases hd : r.isCompleted
  · cases hc : r.isClosed
    · exact .inr ⟨close_open hc hd, rfl, rfl⟩
    · exact .inl ⟨close_settled (.inr hc), .inr rfl⟩
  · exact .inl ⟨close_settled (.inl hd), .inl rfl⟩

theorem complete_open (hc : r.isClosed = false) (hd : r.isCompleted = false) :
    r.complete = .ok r.markCompleted := by
  have hd' : r.completed.closed = false := hd
  simp [complete, hc, hd, Chan.close, hd', markCompleted, Except.mapError, bind, Except.bind]

/-- The request with `chunk` on its chunk channel. -/
def written (r : Request) (chunk : Bytes) : Request :=
  { r with response := r.response.map fun response =>
      { response with chunks := { response.chunks with buffer := response.chunks.buffer ++ [chunk] } } }

/-- The request with its chunk channel closed. -/
def drained (r : Request) : Request :=
  { r with response := r.response.map fun response =>
      { response with chunks := { response.chunks with closed := true } } }

theorem write_open {response : Response} (hr : r.response = some response)
    (hc : r.isClosed = false) (ho : response.chunks.closed = false) (chunk : Bytes) :
    r.write chunk = .ok (r.written chunk) := by
  simp [write, written, hr, hc, Chan.send, ho, Except.mapError, bind, Except.bind]

theorem write_closed (hc : r.isClosed = true) (chunk : Bytes) : r.write chunk = .ok r := by
  cases hr : r.response <;> simp [write, hr, hc]

theorem done_open {response : Response} (hr : r.response = some response)
    (hc : r.isClosed = false) (ho : response.chunks.closed = false) : r.done = .ok r.drained := by
  simp [done, drained, hr, hc, Chan.close, ho, Except.mapError, bind, Except.bind]

theorem done_nil (hr : r.response = none) : r.done = .ok r := by
  simp [done, hr]

end Request

open Chunking in
/-- **The expected chunk, over the natural numbers.** While fewer than all bytes were announced the
`uint64` product does not wrap, the expected size is what is missing, at most a chunk, and the chunk
is the last one exactly if it reaches the content size. -/
theorem Response.nextChunkInfo_eq {r : Response} {chunkSize : UInt64}
    (h : r.chunkSequence.toNat * chunkSize.toNat < r.header.contentSize.toNat) :
    ∃ size : UInt64, size.toNat = min (r.header.contentSize.toNat -
        r.chunkSequence.toNat * chunkSize.toNat) chunkSize.toNat ∧
      r.nextChunkInfo chunkSize = .ok (
        { sequence := r.chunkSequence, size := size,
          last := decide (r.chunkSequence.toNat * chunkSize.toNat + size.toNat =
            r.header.contentSize.toNat) },
        { r with chunkSequence := r.chunkSequence + 1 }) := by
  have hN := r.header.contentSize.toNat_lt
  have hm := toNat_offset h
  have hlt : ¬ r.chunkSequence * chunkSize ≥ r.header.contentSize := by
    rw [ge_iff_le, UInt64.le_iff_toNat_le, hm]; omega
  set size := min (r.header.contentSize - r.chunkSequence * chunkSize) chunkSize with hsize
  have hmin : size.toNat = min (r.header.contentSize.toNat -
      r.chunkSequence.toNat * chunkSize.toNat) chunkSize.toNat := by
    rw [hsize, toNat_min, toNat_missing h]
  have hadd : (r.chunkSequence * chunkSize + size).toNat =
      r.chunkSequence.toNat * chunkSize.toNat + size.toNat := by
    rw [UInt64.toNat_add, hm]; exact Nat.mod_eq_of_lt (by omega)
  refine ⟨size, hmin, ?_⟩
  unfold nextChunkInfo
  rw [if_neg hlt, ← hadd]
  simp only [← hsize, UInt64.toNat_inj]

end Loon
