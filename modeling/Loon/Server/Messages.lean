import Mathlib.Data.Finmap

set_option autoImplicit false

/-!
# Protocol messages

The messages of `api/messages.proto` that the server's protocol loop reads and writes. A
`ClientMessage` carries its payload in a oneof, which is unset in a message without a known field.
Numbers keep their 64-bit type; a byte string is a list of bytes.
-/

namespace Loon

/-- `bytes` and `[]byte`. -/
abbrev Bytes := List UInt8

/-- An instant or a duration, in nanoseconds. -/
abbrev Time := ℤ

structure EmptyResponse where
  requestId : UInt64
  deriving DecidableEq, Repr

structure ContentHeader where
  requestId : UInt64
  contentType : String
  contentSize : UInt64
  maxCacheDuration : Option UInt32
  filename : Option String
  deriving DecidableEq, Repr

structure ContentChunk where
  requestId : UInt64
  sequence : UInt64
  data : Bytes
  deriving DecidableEq, Repr

structure CloseResponse where
  requestId : UInt64
  deriving DecidableEq, Repr

/-- The oneof of a client message. -/
inductive ClientData where
  | emptyResponse (m : EmptyResponse)
  | contentHeader (m : ContentHeader)
  | contentChunk (m : ContentChunk)
  | closeResponse (m : CloseResponse)
  deriving DecidableEq, Repr

/-- The request a client message is about. -/
def ClientData.requestId : ClientData → UInt64
  | .emptyResponse m => m.requestId
  | .contentHeader m => m.requestId
  | .contentChunk m => m.requestId
  | .closeResponse m => m.requestId

structure ClientMessage where
  data : Option ClientData
  deriving DecidableEq, Repr

/-- `Close.Reason`. -/
inductive CloseReason where
  | unspecified
  | closed
  | error
  | invalidClientMessage
  | invalidRequestId
  | forbiddenContentType
  | invalidContentSize
  | contentChunkOutOfSequence
  | invalidChunkSize
  | invalidFilename
  | timedOut
  deriving DecidableEq, Repr

structure Close where
  reason : CloseReason
  message : String
  deriving DecidableEq, Repr

/-- The server messages the protocol loop enqueues. `Hello` is queued before the loop starts and
`Close` travels on a channel of its own. -/
inductive ServerMessage where
  | request (id : UInt64) (path : String)
  | success (requestId : UInt64)
  | requestClosed (requestId : UInt64) (message : String)
  deriving DecidableEq, Repr

/-- The request a server message is about. -/
def ServerMessage.requestId : ServerMessage → UInt64
  | .request id _ => id
  | .success id => id
  | .requestClosed id _ => id

/-- The id of a `Request` message. -/
def ServerMessage.newId : ServerMessage → Option UInt64
  | .request id _ => some id
  | _ => none

/-- The id of a `Success` message. -/
def ServerMessage.successId : ServerMessage → Option UInt64
  | .success id => some id
  | _ => none

/-- The id of a `RequestClosed` message. -/
def ServerMessage.closedId : ServerMessage → Option UInt64
  | .requestClosed id _ => some id
  | _ => none

end Loon
