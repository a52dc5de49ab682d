import Loon.Server.History
import Loon.Server.Mac
import Loon.Server.ReadPump

set_option autoImplicit false

/-!
# The write pump

What goes out on a connection: `writePump` beside the read pump and the protocol loop. `Hello` waits
on the channel `send` before the pumps start, and everything the loop enqueues comes behind it; a
`Close` is handed over on the channel `stop`, by whoever closes the client. The select of the pump
takes any ready case, so its choice is the event; whether a write succeeds is in the event too. The
capacity of `send` only delays the loop and is left out here.

* `WireInv`: what is written is the front of the queue, with a `Close` behind it if one was written;
* **`hello_first_close_last`**: it starts with `Hello` if no `Close` is taken from `stop` and written
  before `Hello` was taken from `send`;
* **`close_overtakes_hello`**: otherwise the `Close` is the first and only message.
-/

namespace Loon

/-- The messages of a connection. -/
inductive WireMessage where
  | hello (hello : Hello)
  | message (message : ServerMessage)
  | close (close : Close)

def WireMessage.isHello : WireMessage → Bool
  | .hello _ => true
  | _ => false

def WireMessage.isClose : WireMessage → Bool
  | .close _ => true
  | _ => false

/-- A connection with its write pump. -/
structure Wire where
  conn : Conn
  /-- How many messages the write pump received from `send`. -/
  taken : ℕ
  /-- What it wrote to the websocket. -/
  written : List WireMessage
  /-- The write pump has not returned. -/
  writing : Bool

/-- The steps: one of the read pump or the protocol loop, and one for each case of the select, with
the outcome of the write. -/
inductive WireEvent where
  | conn (e : ConnEvent)
  | send (ok : Bool)
  | stop (message : Option Close) (ok : Bool)
  | ping (ok : Bool)

namespace Wire

def init : Wire where
  conn := Conn.init
  taken := 0
  written := []
  writing := true

variable (w : Wire)

/-- Everything that was enqueued on `send`. -/
def queue (hello : Hello) : List WireMessage :=
  .hello hello :: w.conn.core.send.map .message

/-- The write pump returns, and `done` is closed. -/
def leave : Wire :=
  { w with conn := { w.conn with core := { w.conn.core with done := true } }, writing := false }

/-- The iteration of `writePump` that takes a message from `send`. -/
def takeSend (hello : Hello) (ok : Bool) : Option Wire :=
  ((w.queue hello)[w.taken]?).map fun message =>
    let w := { w with taken := w.taken + 1 }
    if ok then { w with written := w.written ++ [message] } else w.leave

/-- The iteration that takes from `stop`; an error of the write is ignored. -/
def takeStop (message : Option Close) (ok : Bool) : Wire :=
  let w := w.leave
  match message with
  | some close => if ok then { w with written := w.written ++ [.close close] } else w
  | none => w

end Wire

section WritePump

variable {ext : Externals} (cfg : Config ext) (unmarshal : Bytes → Except String ClientMessage)
  (hello : Hello)

def wireStep (w : Wire) : WireEvent → Option (Except Panic Wire)
  | .conn e => (connStep cfg unmarshal w.conn e).map fun c => c.map fun k => { w with conn := k }
  | .send ok => if w.writing then (w.takeSend hello ok).map .ok else none
  | .stop message ok => if w.writing then some (.ok (w.takeStop message ok)) else none
  | .ping ok => if w.writing then some (.ok (if ok then w else w.leave)) else none

/-- **The machine of a connection** with both pumps and the loop. -/
def wire : Machine (Except Panic Wire) WireEvent where
  init := .ok Wire.init
  step c e :=
    match c with
    | .ok w => wireStep cfg unmarshal hello w e
    | .error _ => none

/-- A `Close` is written only after `Hello` was taken from `send`. -/
def HelloTaken : Except Panic Wire → WireEvent → Prop
  | .ok w, .stop (some _) true => 0 < w.taken
  | _, _ => True

/-- The order of messages that a client relies on. -/
def HelloFirstCloseLast (l : List WireMessage) : Prop :=
  l = [] ∨ (l.head? = some (.hello hello) ∧ l.countP WireMessage.isHello = 1 ∧
    ∀ i (hi : i < l.length), l[i].isClose = true → i + 1 = l.length)

/-! ## The queue -/

variable {cfg unmarshal hello} {w w' : Wire}

theorem Wire.take_queue_of_isPrefix {n : ℕ} (h : w.conn.core.send <+: w'.conn.core.send)
    (hn : n ≤ (w.queue hello).length) : (w'.queue hello).take n = (w.queue hello).take n := by
  obtain ⟨l, hl⟩ := h
  have hq : w'.queue hello = w.queue hello ++ l.map .message := by
    simp only [Wire.queue, ← hl, List.map_append, List.cons_append]
  rw [hq, List.take_append_of_le_length hn]

theorem Wire.length_queue_le (h : w.conn.core.send <+: w'.conn.core.send) :
    (w.queue hello).length ≤ (w'.queue hello).length := by
  simp only [Wire.queue, List.length_cons, List.length_map]
  exact Nat.succ_le_succ h.length_le

/-! ## The invariant -/

variable (cfg hello) in
/-- What has been written is the front of the queue, with at most a `Close` behind it. -/
structure WireInv (w : Wire) : Prop where
  core : Inv cfg w.conn.core
  bound : w.taken ≤ (w.queue hello).length
  front : w.writing = true → w.written = (w.queue hello).take w.taken
  shape : ∃ n ≤ (w.queue hello).length, w.written = (w.queue hello).take n ∨
    (0 < n ∧ ∃ close, w.written = (w.queue hello).take n ++ [.close close])

theorem wireInv_init : WireInv cfg hello Wire.init where
  core := inv_init cfg
  bound := Nat.zero_le _
  front _ := rfl
  shape := ⟨0, Nat.zero_le _, .inl rfl⟩

theorem WireInv.conn (h : WireInv cfg hello w) {k : Conn} (hk : Inv cfg k.core)
    (hs : w.conn.core.send <+: k.core.send) : WireInv cfg hello { w with conn := k } := by
  have htake : ∀ n ≤ (w.queue hello).length,
      (Wire.queue { w with conn := k } hello).take n = (w.queue hello).take n :=
    fun n hn => Wire.take_queue_of_isPrefix hs hn
  have hlen : (w.queue hello).length ≤ (Wire.queue { w with conn := k } hello).length :=
    Wire.length_queue_le hs
  refine ⟨hk, h.bound.trans hlen, fun hw => ?_, ?_⟩
  · rw [htake _ h.bound]
    exact h.front hw
  · obtain ⟨n, hn, hshape⟩ := h.shape
    refine ⟨n, hn.trans hlen, ?_⟩
    rw [htake n hn]
    exact hshape

theorem WireInv.leave (h : WireInv cfg hello w) : WireInv cfg hello w.leave where
  core := h.core.setDone
  bound := h.bound
  front hw := by cases hw
  shape := h.shape

theorem WireInv.takeSend (h : WireInv cfg hello w) (hw : w.writing = true) {ok : Bool}
    (hs : w.takeSend hello ok = some w') : WireInv cfg hello w' := by
  obtain ⟨m, hm, rfl⟩ := Option.map_eq_some_iff.mp hs
  have hlt : w.taken < (w.queue hello).length := (List.getElem?_eq_some_iff.mp hm).1
  cases ok with
  | false => exact ⟨h.core.setDone, hlt, fun hw' => (by cases hw'), h.shape⟩
  | true =>
    have htake : (w.queue hello).take (w.taken + 1) = w.written ++ [m] := by
      rw [List.take_add_one, hm, h.front hw]
      rfl
    exact ⟨h.core, hlt, fun _ => htake.symm, w.taken + 1, hlt, .inl htake.symm⟩

theorem WireInv.takeStop (h : WireInv cfg hello w) (hw : w.writing = true) {message : Option Close}
    {ok : Bool} (hC : HelloTaken (.ok w) (.stop message ok)) :
    WireInv cfg hello (w.takeStop message ok) := by
  cases message with
  | none => exact h.leave
  | some close =>
    cases ok with
    | false => exact h.leave
    | true =>
      refine ⟨h.leave.core, h.bound, fun hw' => (by cases hw'), w.taken, h.bound,
        .inr ⟨hC, close, ?_⟩⟩
      show w.written ++ [.close close] = _
      rw [h.front hw]
      rfl

/-- **What one step keeps.** -/
theorem WireInv.step (h : WireInv cfg hello w) {e : WireEvent} (hC : HelloTaken (.ok w) e)
    (hs : wireStep cfg unmarshal hello w e = some (.ok w')) : WireInv cfg hello w' := by
  cases e with
  | conn e =>
    obtain ⟨c, hc, he⟩ := Option.map_eq_some_iff.mp hs
    rcases connStep_spec h.core hc with ⟨k, rfl, hk, hg, -⟩ | ⟨rfl, -⟩
    · cases he
      exact h.conn hk hg.send
    · cases he
  | send ok =>
    simp only [wireStep] at hs
    split_ifs at hs with hw
    obtain ⟨w₁, hw₁, he⟩ := Option.map_eq_some_iff.mp hs
    cases he
    exact h.takeSend hw hw₁
  | stop message ok =>
    simp only [wireStep] at hs
    split_ifs at hs with hw
    cases hs
    exact h.takeStop hw hC
  | ping ok =>
    simp only [wireStep] at hs
    split_ifs at hs with hw hok
    · cases hs
      exact h
    · cases hs
      exact h.leave

/-! ## The order on the wire -/

theorem countP_isHello_map (l : List ServerMessage) :
    (l.map WireMessage.message).countP WireMessage.isHello = 0 := by
  rw [List.countP_eq_zero]
  rintro _ hm
  obtain ⟨m, -, rfl⟩ := List.mem_map.mp hm
  exact Bool.false_ne_true

theorem isClose_cons_map (l : List ServerMessage) {m : WireMessage}
    (hm : m ∈ .hello hello :: l.map WireMessage.message) : m.isClose = false := by
  rcases List.mem_cons.mp hm with rfl | hm
  · rfl
  · obtain ⟨x, -, rfl⟩ := List.mem_map.mp hm
    rfl

theorem helloFirstCloseLast_front (l : List ServerMessage) :
    HelloFirstCloseLast hello (.hello hello :: l.map .message) := by
  refine .inr ⟨rfl, ?_, fun i hi hc => ?_⟩
  · rw [List.countP_cons, countP_isHello_map]
    rfl
  · rw [isClose_cons_map l (List.getElem_mem hi)] at hc
    cases hc

theorem helloFirstCloseLast_close (l : List ServerMessage) (close : Close) :
    HelloFirstCloseLast hello (.hello hello :: l.map .message ++ [.close close]) := by
  refine .inr ⟨rfl, ?_, fun i hi hc => ?_⟩
  · rw [List.countP_append, List.countP_cons, countP_isHello_map]
    rfl
  · -- before the last place there are no closes
    by_contra hlast
    have hlt : i < (WireMessage.hello hello :: l.map WireMessage.message).length := by
      rw [List.length_append, List.length_singleton] at hi hlast
      omega
    rw [List.getElem_append_left hlt, isClose_cons_map l (List.getElem_mem hlt)] at hc
    cases hc

variable (hello w) in
theorem take_succ_queue (n : ℕ) :
    ∃ l : List ServerMessage, (w.queue hello).take (n + 1) = .hello hello :: l.map .message := by
  refine ⟨w.conn.core.send.take n, ?_⟩
  rw [Wire.queue, List.take_succ_cons, List.map_take]

theorem WireInv.order (h : WireInv cfg hello w) : HelloFirstCloseLast hello w.written := by
  obtain ⟨n, -, hn | ⟨hpos, close, hn⟩⟩ := h.shape
  · rw [hn]
    cases n with
    | zero => exact .inl rfl
    | succ n =>
      obtain ⟨l, hl⟩ := take_succ_queue hello w n
      rw [hl]
      exact helloFirstCloseLast_front l
  · obtain ⟨n, rfl⟩ := Nat.exists_eq_succ_of_ne_zero hpos.ne'
    obtain ⟨l, hl⟩ := take_succ_queue hello w n
    rw [hn, hl]
    exact helloFirstCloseLast_close l close

/-- **`Hello` first, `Close` last**, on every run on which no `Close` is taken and written before
`Hello` was taken. -/
theorem hello_first_close_last {es : List WireEvent}
    (hC : (wire cfg unmarshal hello).Along HelloTaken (.ok Wire.init) es)
    (h : (wire cfg unmarshal hello).run (.ok Wire.init) es = some (.ok w)) :
    HelloFirstCloseLast hello w.written := by
  suffices H : ∀ w₁, (.ok w : Except Panic Wire) = .ok w₁ → WireInv cfg hello w₁ from
    (H w rfl).order
  refine Machine.Along.inv (M := wire cfg unmarshal hello)
    (P := fun c => ∀ w, c = .ok w → WireInv cfg hello w) ?_ ?_ hC h
  · rintro (_ | w₁) e c hP hC hs w₂ rfl
    · cases hs
    · exact (hP w₁ rfl).step hC hs
  · rintro w₁ ⟨⟩
    exact wireInv_init

end WritePump

/-! ## Sample runs -/

def sampleWire : Machine (Except Panic Wire) WireEvent :=
  wire sampleConfig sampleUnmarshal (sampleIdentity.hello sampleConfig.options)

/-- The connection after the run of `es`. -/
def wireAfter (es : List WireEvent) : Wire :=
  match sampleWire.run (.ok Wire.init) es with
  | some (.ok w) => w
  | _ => Wire.init

/-- The `Close` of `Client.Close`. -/
def closedByServer : Close := ⟨.closed, "Connection was closed by the server"⟩

/-- A request is forwarded, `Hello` is written, and the client is closed. -/
def closedAfterHello : List WireEvent :=
  [.conn (.other (.forwardRequest "a" 0 true)), .send true, .ping true,
    .stop (some closedByServer) true]

theorem hello_first_close_last_closedAfterHello :
    HelloFirstCloseLast (sampleIdentity.hello sampleConfig.options)
      (wireAfter closedAfterHello).written := by
  have hrun : sampleWire.run (.ok Wire.init) closedAfterHello =
      some (.ok (wireAfter closedAfterHello)) := rfl
  refine hello_first_close_last ?_ hrun
  refine ⟨trivial, ?_⟩
  rintro _ ⟨⟩
  refine ⟨trivial, ?_⟩
  rintro _ ⟨⟩
  refine ⟨trivial, ?_⟩
  rintro _ ⟨⟩
  exact ⟨Nat.zero_lt_one, fun _ _ => trivial⟩

/-- `Client.Close` is called while `Hello` waits on `send`, and the select takes the case of
`stop`. -/
theorem close_overtakes_hello :
    sampleWire.run (.ok Wire.init) [.stop (some closedByServer) true] =
      some (.ok (wireAfter [.stop (some closedByServer) true])) ∧
    (wireAfter [.stop (some closedByServer) true]).written = [.close closedByServer] ∧
    ¬ HelloFirstCloseLast (sampleIdentity.hello sampleConfig.options)
      (wireAfter [.stop (some closedByServer) true]).written := by
  refine ⟨rfl, rfl, ?_⟩
  rintro (h | ⟨h, -⟩)
  · cases h
  · cases h

end Loon
