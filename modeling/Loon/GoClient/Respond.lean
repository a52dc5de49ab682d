import Loon.Lib.Machine
import Loon.Server.Messages

set_option autoImplicit false

/-!
# Responses of the Go client

`respond` of `pkg/client/client.go` with the goroutine it starts. The goroutine closes the channel
`cancel` once a cancellation comes in on the channel of the handle; `respond` looks at `cancel` before
each chunk and once more in its deferred function, and closes it itself when something fails. Steps of
the two fall between each other in any order.

* `readAtLeast`: `io.ReadAtLeast`, from what the calls of `Read` return;
* `Respond`, `Respond.step`, `Respond.helperStep`: a call of `respond` and its goroutine;
* `responding`: both with the client they belong to.
-/

namespace Loon.GoClient

/-- `pb.Request`. -/
structure Request where
  id : UInt64
  path : String
  deriving DecidableEq, Repr

/-- A string of Go as `proto.Marshal` sees it: a text, or `none` where the bytes are not valid UTF-8,
which it refuses. -/
abbrev GoString := Option String

/-- What a response is made of: what the source returns, the information of the handle, the chunk size
of the server's `Hello`, and the size of the largest slice that the Go runtime makes. -/
structure Content where
  contentType : GoString
  size : UInt64
  attachmentFilename : Option GoString
  maxCacheDuration : UInt32
  chunkSize : UInt64
  maxAlloc : ℕ
  deriving DecidableEq, Repr

namespace Content

variable (c : Content)

/-- The filename as it is marshalled, if it can be. -/
def filename : Option (Option String) :=
  match c.attachmentFilename with
  | none => some none
  | some filename => filename.map some

/-- The header as it is marshalled, if it can be. -/
def header (request : Request) : Option ContentHeader := do
  let contentType ← c.contentType
  let filename ← c.filename
  return {
    requestId := request.id
    contentType := contentType
    contentSize := c.size
    maxCacheDuration := some c.maxCacheDuration
    filename := filename }

/-- `toRead`, the size of the chunk with the number `sequence`. -/
def toRead (sequence : UInt64) : UInt64 := min c.chunkSize (c.size - sequence * c.chunkSize)

/-- `make([]byte, chunkSize)` gives a slice: its length is an `int`, and the runtime makes it. -/
def Makes : Prop := c.chunkSize.toNat < 2 ^ 63 ∧ c.chunkSize.toNat ≤ c.maxAlloc

instance : Decidable c.Makes := inferInstanceAs (Decidable (_ ∧ _))

/-- The number of chunks of a whole response. -/
def chunks : ℕ := (c.size.toNat + c.chunkSize.toNat - 1) / c.chunkSize.toNat

end Content

/-! ## Reading -/

/-- An error of `Read`: `io.EOF` itself, another error that wraps it, `io.ErrUnexpectedEOF`, or one
that has nothing to do with the end of the data. -/
inductive ReadError where
  | eof
  | wrapsEof
  | unexpectedEof
  | other
  deriving DecidableEq, Repr

/-- `errors.Is(err, io.EOF)`. -/
def ReadError.isEof : ReadError → Bool
  | .eof => true
  | .wrapsEof => true
  | .unexpectedEof => false
  | .other => false

/-- What a call of `Read` returns. -/
structure ReadResult where
  bytes : Bytes
  err : Option ReadError
  deriving DecidableEq, Repr

/-- `io.ReadAtLeast` into a buffer of size `cap` that holds `buf`, when the calls of `Read` return
`results`; `none` if it would not make exactly these calls. -/
def readAtLeast (cap min : ℕ) : Bytes → List ReadResult → Option (Except ReadError Bytes)
  | buf, [] => if min ≤ buf.length then some (.ok buf) else none
  | buf, r :: results =>
    if min ≤ buf.length ∨ cap < buf.length + r.bytes.length then none
    else
      match r.err with
      | none => readAtLeast cap min (buf ++ r.bytes) results
      | some err =>
        if results ≠ [] then none
        else if min ≤ buf.length + r.bytes.length then some (.ok (buf ++ r.bytes))
        -- only `io.EOF` itself is replaced
        else if buf ++ r.bytes ≠ [] ∧ err = .eof then some (.error .unexpectedEof)
        else some (.error err)

/-! ## A call of `respond` -/

/-- Where `respond` is: at the step that comes next. -/
inductive RespondPoint where
  | data
  | header
  | loop (sequence : UInt64)
  | read (sequence : UInt64)
  | chunk (sequence : UInt64) (data : Bytes)
  | closeCancel
  | closeDone
  | checkCancel
  | closeResponse
  | returned
  | panicked
  deriving DecidableEq, Repr

/-- Where the goroutine of `respond` is: in its `select`, about to close `cancel`, past that, or past
one of the other cases. -/
inductive Helper where
  | waiting
  | closing
  | closed
  | exited
  deriving DecidableEq, Repr

/-- A call of `respond`: how often `cancel` was closed, whether `done` is, and what was sent. The run
remembers whether an error branch was taken and whether a `select` has found `cancel` closed. -/
structure Respond where
  point : RespondPoint
  helper : Helper
  cancel : ℕ
  done : Bool
  sent : List ClientData
  failed : Bool
  observed : Bool
  deriving DecidableEq, Repr

namespace Respond

def init : Respond where
  point := .data
  helper := .waiting
  cancel := 0
  done := false
  sent := []
  failed := false
  observed := false

variable (s : Respond)

/-- A channel was closed twice, or a slice could not be made. -/
def panicked : Bool := 1 < s.cancel || s.point = .panicked

/-- An error branch. -/
def fail : Respond := { s with point := .closeCancel, failed := true }

/-- `write` with the check of its error, for a message that can be marshalled. -/
def write (clientDone : Bool) (m : ClientData) (then' : RespondPoint) : Respond :=
  if clientDone then s.fail else { s with sent := s.sent ++ [m], point := then' }

/-- `Data` returns. -/
def dataReturns (ok : Bool) : Option Respond :=
  if s.point = .data then some (if ok then { s with point := .header } else s.fail) else none

/-- What `respond` does with the result of a read. -/
def afterRead (sequence toRead : UInt64) : Except ReadError Bytes → Respond
  | .ok buf => { s with point := .chunk sequence (buf.take toRead.toNat) }
  | .error err => if err.isEof then { s with point := .closeDone } else s.fail

/-- The reads of a chunk return. -/
def readReturns (c : Content) (results : List ReadResult) : Option Respond :=
  match s.point with
  | .read sequence =>
    (readAtLeast c.chunkSize.toNat (c.toRead sequence).toNat [] results).map
      (s.afterRead sequence (c.toRead sequence))
  | _ => none

/-- The other steps. The slice of a chunk's size is made after the header is sent. -/
def step (c : Content) (request : Request) (clientDone : Bool) : Option Respond :=
  match s.point with
  | .header =>
    some <| match c.header request with
      | none => s.fail
      | some header =>
        s.write clientDone (.contentHeader header)
          (if c.Makes then .loop 0 else .panicked)
  | .loop sequence =>
    some <|
      if c.size ≤ sequence * c.chunkSize then { s with point := .closeDone }
      else if 0 < s.cancel then { s with point := .closeDone, observed := true }
      else { s with point := .read sequence }
  | .chunk sequence data =>
    some (s.write clientDone (.contentChunk ⟨request.id, sequence, data⟩) (.loop (sequence + 1)))
  | .closeCancel => some { s with cancel := s.cancel + 1, point := .closeDone }
  | .closeDone => some { s with done := true, point := .checkCancel }
  | .checkCancel =>
    some <|
      if 0 < s.cancel then { s with point := .closeResponse, observed := true }
      else { s with point := .returned }
  | .closeResponse =>
    some { s with
      sent := if clientDone then s.sent else s.sent ++ [.closeResponse ⟨request.id⟩]
      point := .returned }
  | _ => none

/-- The goroutine receives from the channel of the handle. -/
def token : Option Respond :=
  if s.helper = .waiting then some { s with helper := .closing } else none

/-- The other steps of the goroutine. -/
def helperStep (clientDone : Bool) : Option Respond :=
  match s.helper with
  | .waiting => if s.done || clientDone then some { s with helper := .exited } else none
  | .closing => some { s with cancel := s.cancel + 1, helper := .closed }
  | _ => none

/-- The goroutine has received a cancellation. -/
def TokenTaken : Prop := s.helper = .closing ∨ s.helper = .closed

end Respond

/-- A call of `respond` in its client. -/
structure Responding where
  respond : Respond
  clientDone : Bool
  deriving DecidableEq, Repr

/-- The steps of `respond`, of its goroutine, and the end of the client. -/
inductive RespondEvent where
  | data (ok : Bool)
  | read (results : List ReadResult)
  | step
  | token
  | helper
  | clientDone
  deriving DecidableEq, Repr

namespace Responding

def init : Responding := ⟨.init, false⟩

/-- What an event does to the call. -/
def respondNext (c : Content) (request : Request) (s : Responding) : RespondEvent → Option Respond
  | .data ok => s.respond.dataReturns ok
  | .read results => s.respond.readReturns c results
  | .step => s.respond.step c request s.clientDone
  | .token => s.respond.token
  | .helper => s.respond.helperStep s.clientDone
  | .clientDone => some s.respond

def next (c : Content) (request : Request) (s : Responding) (e : RespondEvent) :
    Option Responding :=
  if s.respond.panicked then none
  else (s.respondNext c request e).map fun r => ⟨r, s.clientDone || e = .clientDone⟩

end Responding

/-- One call of `respond`. -/
def responding (c : Content) (request : Request) : Machine Responding RespondEvent :=
  ⟨.init, Responding.next c request⟩

/-- Three bytes in chunks of two. -/
def threeBytes : Content where
  contentType := some "text/plain"
  size := 3
  attachmentFilename := none
  maxCacheDuration := 0
  chunkSize := 2
  maxAlloc := 2 ^ 48

end Loon.GoClient
