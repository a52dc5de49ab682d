import Loon.Client.Client
import Loon.Server.Protocol

set_option autoImplicit false

/-!
# The client and the server on one connection

The client and the protocol loop of the server, joined by two channels that keep the order of their
messages. What the server sends is the log of its send channel, of which the client has handled the
first `delivered` messages; what the client sends waits in `toServer` until the protocol loop takes
it.

A step of `link` is a step of one of the two sides; the two that cross a channel are `recv`, the
receipt of the next client message by the protocol loop, and `deliver`, the handling of the next
server message by the client. A message whose send fails is not put into the channel. `received` is
the list of the messages the protocol loop has taken so far; nothing reads it.
-/

namespace Loon

structure Link where
  server : Except Panic St
  client : Client
  delivered : ℕ
  toServer : List Outgoing
  received : List Outgoing

inductive LinkEvent where
  | recv (now : Time)
  | deliver (limited sent : Bool)
  | server (e : Event)
  | client (e : ClientEvent)
  deriving DecidableEq, Repr

/-- The protocol loop reads its messages from the channel only. -/
def Event.isRecv : Event → Bool
  | .recv _ _ => true
  | _ => false

/-- The client reads its messages from the channel only. -/
def ClientEvent.isMessage : ClientEvent → Bool
  | .message _ _ _ => true
  | _ => false

/-- A source that is registered supplies exactly as many bytes as it announces. -/
def LinkEvent.Exact : LinkEvent → Prop
  | .client e => e.Exact
  | _ => True

variable {ext : Externals} (cfg : Config ext)

/-- The constraints the server announces. -/
def Config.hello : Constraints where
  chunkSize := cfg.options.constraints.chunkSize
  maxContentSize := cfg.options.constraints.maxContentSize
  acceptedContentTypes := cfg.options.constraints.acceptedContentTypes

namespace Link

/-- The connection right after the `Hello` message. -/
def init : Link where
  server := .ok St.init
  client := Client.init
  delivered := 0
  toServer := []
  received := []

variable (n : Link)

/-- The next message for the client. -/
def nextMessage : Option ServerMessage :=
  match n.server with
  | .ok s => s.send[n.delivered]?
  | .error _ => none

/-- The client side after a step that sent `out`. -/
def clientStep (result : Client × List Outgoing) : Link :=
  { n with client := result.1, toServer := n.toServer ++ result.2 }

/-- The protocol loop takes the next message. -/
def recv (now : Time) : Option Link :=
  match n.toServer with
  | [] => none
  | x :: rest =>
    ((protocol cfg).step n.server (.recv ⟨some x.data⟩ now)).map fun server =>
      { n with server := server, toServer := rest, received := n.received ++ [x] }

/-- The client handles the next message. -/
def deliver (limited sent : Bool) : Option Link :=
  n.nextMessage.bind fun m =>
    (n.client.step cfg.hello (.message m limited sent)).map fun result =>
      { n.clientStep result with delivered := n.delivered + 1 }

def step : LinkEvent → Option Link
  | .recv now => n.recv cfg now
  | .deliver limited sent => n.deliver cfg limited sent
  | .server e =>
    if e.isRecv then none
    else ((protocol cfg).step n.server e).map fun server => { n with server := server }
  | .client e =>
    if e.isMessage then none else (n.client.step cfg.hello e).map n.clientStep

end Link

/-- **The machine of a connection.** -/
def link : Machine Link LinkEvent where
  init := Link.init
  step n e := n.step cfg e

end Loon
