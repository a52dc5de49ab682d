import Mathlib.Logic.Function.Basic
import Loon.Lib.Machine

set_option autoImplicit false

/-!
# Sends that wait for the buffer

The websocket client over libdatachannel as `ClientImpl` uses it: `send_binary` and `buffered_send`
with their wait for the buffer, `on_buffered_amount_low`, `start` and `stop` of the base class, and
`internal_stop`. Senders come one at a time, since `ClientImpl::send` holds `m_write_mutex` around
`send_binary`; `m_conn` is reset without a mutex.

The library is in the events: it drains its buffer, owes a call of `on_buffered_amount_low` for each
time that the buffered amount falls from above the threshold to it or below, and may report that the
connection was closed. Of the client there is `m_mutex`, as far as it decides who may call: a thread
in `start` or in `reset_connection_state` has this mutex, so that nobody else calls `start` or
begins to stop, and the latter waits for the end of all serve threads. Assertions are left out.

* `Socket.Steps`: what a step does;
* `sends_return_iff`: **a send under way can always return** if and only if `m_conn` is only reset
  between sends, and not between the null check of `start` and its `open`;
* `stranded_sender_wedges_client`: otherwise, or when the connection is closed while a send waits,
  the thread in `reset_connection_state` **waits forever** with `m_mutex`.
-/

namespace Loon

/-- Where a thread in `ClientImpl::internal_stop` is, which gives `m_mutex` up. -/
inductive StopPc where
  /-- In front of `m_conn->stop`. -/
  | unlocked
  /-- In front of `on_buffered_amount_low`, in `internal_stop` of the websocket client. -/
  | waking
  /-- In front of `m_conn->close` and `m_conn.reset`. -/
  | closing
  deriving DecidableEq, Repr

/-- Where the thread in `ClientImpl::internal_start` is, which has `m_mutex`. -/
inductive StartPc where
  /-- In `internal_start` of the websocket client, in front of its check of `m_conn`. -/
  | checking
  /-- In front of `m_conn->open`. -/
  | opening
  deriving DecidableEq, Repr

/-- Where `send_binary` is. -/
inductive SendPc where
  /-- Behind its check of `m_conn`, in front of `buffered_send`. -/
  | entered
  /-- In the wait on `m_buffer_cv`. -/
  | waiting
  /-- Woken up, in front of the predicate of the wait. -/
  | woken
  deriving DecidableEq, Repr

/-- The call of `send_binary` that holds `m_write_mutex`; it comes from a serve thread, or from a
thread of the websocket library. -/
structure Writer where
  serves : Bool
  length : ℕ
  pc : SendPc
  deriving DecidableEq, Repr

/-- Who waits wakes up. -/
def Writer.wakeUp (w : Writer) : Writer := if w.pc = .waiting then { w with pc := .woken } else w

structure Socket where
  active : Bool
  /-- `m_conn` is not null. -/
  conn : Bool
  bufferedAmount : ℕ
  bufferReady : Bool
  /-- The calls of `on_buffered_amount_low` that the library owes. -/
  low : ℕ
  writer : Option Writer
  starting : Option StartPc
  /-- The threads that stop the connection. -/
  stops : ℕ → Option StopPc
  /-- A thread is in `reset_connection_state`. -/
  resetting : Bool
  /-- `m_conn` was null where it is used. -/
  crashed : Bool

inductive SocketEvent where
  /-- `BaseClient::start`, and the two steps of `internal_start`. -/
  | start
  | create
  | openConn
  /-- The thread `k` gives `m_mutex` up to stop the connection; then the steps of `BaseClient::stop`. -/
  | unlock (k : ℕ)
  | stop (k : ℕ)
  | wake (k : ℕ)
  | reset (k : ℕ)
  /-- The library reports that the connection was closed. -/
  | close
  /-- A thread enters `reset_connection_state`, and leaves it. -/
  | enterReset
  | leaveReset
  /-- `send_binary` is called. -/
  | send (serves : Bool) (length : ℕ)
  /-- `buffered_send` locks the buffer mutex; whether `m_conn->send` throws is in the event. -/
  | lock (sent : Bool)
  /-- A wakeup without a call of `notify_one`. -/
  | spurious
  /-- The predicate of the wait is checked. -/
  | check (sent : Bool)
  /-- The library sends bytes from its buffer. -/
  | drain (n : ℕ)
  /-- The library calls `on_buffered_amount_low`. -/
  | low
  deriving DecidableEq, Repr

namespace Socket

/-- A new client: the constructor creates `m_conn`. -/
def init : Socket where
  active := false
  conn := true
  bufferedAmount := 0
  bufferReady := true
  low := 0
  writer := none
  starting := none
  stops := fun _ => none
  resetting := false
  crashed := false

variable (size : ℕ) (s : Socket)

/-- The sender is at `pc`. -/
def moveTo (w : Writer) (pc : SendPc) : Socket := { s with writer := some { w with pc } }

def crash : Socket := { s with crashed := true }

/-- `m_conn->send`, and the send returns. -/
def deliver (w : Writer) (sent : Bool) : Socket :=
  { s with
    bufferedAmount := if sent then s.bufferedAmount + w.length else s.bufferedAmount
    writer := none }

/-- `on_buffered_amount_low`. Its `notify_one` belongs to the same step: until it comes, who waits
may as well wake up by itself. -/
def onBufferedAmountLow : Socket :=
  { s with bufferReady := true, writer := s.writer.map Writer.wakeUp }

/-- `start`, up to the first step of `internal_start`. -/
def start : Socket := if s.active then s else { s with active := true, starting := some .checking }

/-- The check of `m_conn` in `internal_start`; a new connection has an empty buffer. -/
def create : Socket :=
  { s with
    conn := true
    bufferedAmount := if s.conn then s.bufferedAmount else 0
    starting := some .opening }

/-- `m_conn->open`. -/
def openConn : Socket := if s.conn then { s with starting := none } else s.crash

/-- The thread `k` is at `pc`, or has returned from `m_conn->stop`. -/
def stopAt (k : ℕ) (pc : Option StopPc) : Socket := { s with stops := Function.update s.stops k pc }

/-- `stop`, up to the first step of `internal_stop`. -/
def stop (k : ℕ) : Socket :=
  if s.active then { s with active := false }.stopAt k (if s.conn then some .waking else none)
  else s.stopAt k none

/-- The end of `internal_stop`. -/
def reset (k : ℕ) : Socket :=
  if s.conn then { s with conn := false, low := 0 }.stopAt k none else s.crash

/-- `buffered_send`, from its lock up to its wait or its end. -/
def lock (w : Writer) (sent : Bool) : Socket :=
  if s.conn then
    if size < s.bufferedAmount then { s with bufferReady := false }.moveTo w .waiting
    else s.deliver w sent
  else s.crash

/-- `buffered_send`, after it woke up. -/
def check (w : Writer) (sent : Bool) : Socket :=
  if s.bufferReady then if s.conn then s.deliver w sent else s.crash else s.moveTo w .waiting

/-- The buffered amount falls by `n`. -/
def drain (n : ℕ) : Socket :=
  { s with
    bufferedAmount := s.bufferedAmount - n
    low := if size < s.bufferedAmount ∧ s.bufferedAmount - n ≤ size then s.low + 1 else s.low }

/-- The send under way is at `pc`. -/
def sendAt (pc : SendPc) : Option Writer := s.writer.filter fun w => w.pc = pc

/-- Nobody has `m_mutex` for longer than a step. -/
def mutexFree : Bool := !s.resetting && s.starting.isNone

def step : SocketEvent → Option Socket
  | .start => if s.mutexFree then some s.start else none
  | .create => if s.starting = some .checking then some s.create else none
  | .openConn => if s.starting = some .opening then some s.openConn else none
  | .unlock k =>
    if s.mutexFree ∧ s.stops k = none then some (s.stopAt k (some .unlocked)) else none
  | .stop k => if s.stops k = some .unlocked then some (s.stop k) else none
  | .wake k =>
    if s.stops k = some .waking then some (s.onBufferedAmountLow.stopAt k (some .closing)) else none
  | .reset k => if s.stops k = some .closing then some (s.reset k) else none
  | .close => if s.conn then some { s with active := false } else none
  | .enterReset => if s.mutexFree then some { s with resetting := true } else none
  | .leaveReset =>
    if s.resetting ∧ s.writer.all (fun w => !w.serves) then some { s with resetting := false } else none
  | .send serves length =>
    if s.writer = none then
      some (if s.conn then s.moveTo ⟨serves, length, .entered⟩ .entered else s)
    else none
  | .lock sent => (s.sendAt .entered).map fun w => s.lock size w sent
  | .spurious => (s.sendAt .waiting).map fun w => s.moveTo w .woken
  | .check sent => (s.sendAt .woken).map fun w => s.check w sent
  | .drain n => if s.conn then some (s.drain size n) else none
  | .low => if 0 < s.low then some { s with low := s.low - 1 }.onBufferedAmountLow else none

end Socket

/-- **The websocket client with its sender**; nothing follows a crash. -/
def socket (size : ℕ) : Machine Socket SocketEvent where
  init := Socket.init
  step s e := if s.crashed then none else s.step size e

/-- The steps of the send under way, and of the library while the connection is open. -/
def SocketEvent.progresses : SocketEvent → Bool
  | .lock _ | .spurious | .check _ | .drain _ | .low => true
  | _ => false

/-- The steps that need `m_mutex` or `m_write_mutex`, and the end of `reset_connection_state`. -/
def SocketEvent.blocked : SocketEvent → Bool
  | .start | .create | .openConn | .unlock _ | .enterReset | .leaveReset | .send _ _ => true
  | _ => false

namespace Socket

/-- The send under way waits for the buffer. -/
def Parked (s : Socket) : Prop := s.bufferReady = false ∧ ∃ w, s.writer = some w ∧ w.pc ≠ .entered

/-- The same, on the state: a send has its connection, and who waits is owed a call. -/
structure Fine (size : ℕ) (s : Socket) : Prop where
  alive : s.crashed = false
  conn : s.writer ≠ none → s.conn = true
  owed : s.Parked → 0 < s.low ∨ size < s.bufferedAmount

/-- What every run keeps. -/
structure SocketInv (s : Socket) : Prop where
  waiting : ∀ w, s.writer = some w → w.pc = .waiting → s.bufferReady = false
  low : 0 < s.low → s.conn = true
  mutex : s.resetting = true → s.starting = none

variable {size : ℕ} {s s' : Socket} {w : Writer} {e : SocketEvent} {pc : SendPc}

/-! ## The operations -/

theorem sendAt_eq_some (h : s.sendAt pc = some w) : s.writer = some w ∧ w.pc = pc := by
  obtain ⟨h1, h2⟩ := Option.filter_eq_some_iff.mp h
  exact ⟨h1, by simpa using h2⟩

theorem not_parked_of_writer (h : s.writer = none) : ¬ s.Parked := by
  rintro ⟨-, w, hw, -⟩
  rw [h] at hw
  cases hw

theorem Parked.congr (h : s'.Parked) (hr : s'.bufferReady = s.bufferReady) (hw : s'.writer = s.writer) :
    s.Parked := by
  obtain ⟨h1, w, h2, h3⟩ := h
  exact ⟨hr ▸ h1, w, hw ▸ h2, h3⟩

/-- Nobody waits any more. -/
theorem wakeUp_pc : w.wakeUp.pc ≠ .waiting := by
  unfold Writer.wakeUp
  split
  · exact SendPc.noConfusion
  · assumption

theorem not_parked_of_ready (h : s.bufferReady = true) : ¬ s.Parked := by
  rintro ⟨hr, -⟩
  rw [h] at hr
  cases hr

/-! ## Steps -/

/-- What a step does. -/
inductive Steps (size : ℕ) (s : Socket) : SocketEvent → Socket → Prop where
  | start (hm : s.mutexFree = true) : Steps size s .start s.start
  | create (hst : s.starting = some .checking) : Steps size s .create s.create
  | openConn (hst : s.starting = some .opening) : Steps size s .openConn s.openConn
  | unlock {k : ℕ} (hm : s.mutexFree = true) :
      Steps size s (.unlock k) (s.stopAt k (some .unlocked))
  | stop {k : ℕ} (hk : s.stops k = some .unlocked) : Steps size s (.stop k) (s.stop k)
  | wake {k : ℕ} (hk : s.stops k = some .waking) :
      Steps size s (.wake k) (s.onBufferedAmountLow.stopAt k (some .closing))
  | reset {k : ℕ} (hk : s.stops k = some .closing) : Steps size s (.reset k) (s.reset k)
  | close : Steps size s .close { s with active := false }
  | enterReset (hm : s.mutexFree = true) : Steps size s .enterReset { s with resetting := true }
  | leaveReset (hw : s.writer.all (fun w => !w.serves) = true) :
      Steps size s .leaveReset { s with resetting := false }
  | sends {serves : Bool} {length : ℕ} (hw : s.writer = none) (hconn : s.conn = true) :
      Steps size s (.send serves length) (s.moveTo ⟨serves, length, .entered⟩ .entered)
  | refused {serves : Bool} {length : ℕ} (hw : s.writer = none) :
      Steps size s (.send serves length) s
  | lock {sent : Bool} {w : Writer} (hw : s.writer = some w) (hpc : w.pc = .entered) :
      Steps size s (.lock sent) (s.lock size w sent)
  | spurious {w : Writer} (hw : s.writer = some w) (hpc : w.pc = .waiting) :
      Steps size s .spurious (s.moveTo w .woken)
  | check {sent : Bool} {w : Writer} (hw : s.writer = some w) (hpc : w.pc = .woken) :
      Steps size s (.check sent) (s.check w sent)
  | drain {n : ℕ} (hconn : s.conn = true) : Steps size s (.drain n) (s.drain size n)
  | low (hl : 0 < s.low) : Steps size s .low { s with low := s.low - 1 }.onBufferedAmountLow

theorem steps_of_step (hs : s.step size e = some s') : Steps size s e s' := by
  cases e with
  | start | create | openConn | stop | wake | reset | enterReset | drain | low =>
      simp only [Socket.step] at hs
      split_ifs at hs with h
      cases hs
      constructor
      exact h
  | unlock k =>
      simp only [Socket.step] at hs
      split_ifs at hs with h
      cases hs
      exact .unlock h.1
  | close =>
      simp only [Socket.step] at hs
      split_ifs at hs
      cases hs
      exact .close
  | leaveReset =>
      simp only [Socket.step] at hs
      split_ifs at hs with h
      cases hs
      exact .leaveReset h.2
  | send serves length =>
      simp only [Socket.step] at hs
      split_ifs at hs with hw hconn <;> cases hs
      · exact .sends hw hconn
      · exact .refused hw
  | lock sent | spurious | check sent =>
      obtain ⟨w, hw, rfl⟩ := Option.map_eq_some_iff.mp hs
      obtain ⟨hw, hpc⟩ := sendAt_eq_some hw
      constructor
      · exact hw
      · exact hpc

/-! ## What one step keeps -/

theorem SocketInv.init : SocketInv Socket.init := ⟨by rintro w ⟨⟩, by rintro ⟨⟩, fun _ => rfl⟩

theorem SocketInv.congr (hI : SocketInv s) (hr : s'.bufferReady = s.bufferReady)
    (hw : s'.writer = s.writer) (hl : 0 < s'.low → s'.conn = true)
    (hm : s'.resetting = true → s'.starting = none) : SocketInv s' :=
  ⟨fun w h hpc => hr ▸ hI.waiting w (hw ▸ h) hpc, hl, hm⟩

theorem SocketInv.ready (hl : 0 < s.low → s.conn = true) (hm : s.resetting = true → s.starting = none)
    (hw : ∀ w, s.writer = some w → w.pc ≠ .waiting) :
    SocketInv s :=
  ⟨fun w h hpc => absurd hpc (hw w h), hl, hm⟩

/-- Who has the mutex is the only one. -/
theorem of_mutexFree (h : s.mutexFree = true) : s.resetting = false ∧ s.starting = none := by
  simpa [mutexFree] using h

theorem SocketInv.starting_ne (hI : SocketInv s) {pc : StartPc} (h : s.starting = some pc) :
    s.resetting = false := by
  rw [← Bool.not_eq_true]
  intro hr
  rw [hI.mutex hr] at h
  cases h

theorem SocketInv.onBufferedAmountLow (hI : SocketInv s) : SocketInv s.onBufferedAmountLow := by
  refine .ready hI.low hI.mutex fun w hw => ?_
  obtain ⟨w', -, rfl⟩ := Option.map_eq_some_iff.mp hw
  exact wakeUp_pc

theorem SocketInv.step (hI : SocketInv s) (hs : s.step size e = some s') : SocketInv s' := by
  cases steps_of_step hs with
  | start hm =>
      unfold Socket.start
      split_ifs
      · exact hI
      · refine hI.congr rfl rfl hI.low fun hr => ?_
        rw [(of_mutexFree hm).1] at hr
        cases hr
  | create hst =>
      refine hI.congr rfl rfl (fun _ => rfl) fun hr => ?_
      rw [show s.create.resetting = false from hI.starting_ne hst] at hr
      cases hr
  | openConn =>
      unfold Socket.openConn
      split_ifs
      · exact hI.congr rfl rfl hI.low fun _ => rfl
      · exact hI.congr rfl rfl hI.low hI.mutex
  | unlock | close => exact hI.congr rfl rfl hI.low hI.mutex
  | stop =>
      unfold Socket.stop
      split <;> exact hI.congr rfl rfl hI.low hI.mutex
  | wake => exact hI.onBufferedAmountLow.congr rfl rfl hI.low hI.mutex
  | reset =>
      unfold Socket.reset
      split_ifs
      · exact hI.congr rfl rfl (fun h => absurd h (Nat.lt_irrefl 0)) hI.mutex
      · exact hI.congr rfl rfl hI.low hI.mutex
  | enterReset hm => exact hI.congr rfl rfl hI.low fun _ => (of_mutexFree hm).2
  | leaveReset =>
      refine hI.congr rfl rfl hI.low ?_
      rintro ⟨⟩
  | sends | spurious =>
      refine .ready hI.low hI.mutex ?_
      rintro w ⟨⟩
      exact SendPc.noConfusion
  | refused => exact hI
  | lock =>
      unfold Socket.lock
      split_ifs
      · exact ⟨fun _ _ _ => rfl, hI.low, hI.mutex⟩
      · exact .ready hI.low hI.mutex (by rintro w ⟨⟩)
      · exact hI.congr rfl rfl hI.low hI.mutex
  | check =>
      unfold Socket.check
      split_ifs with hr
      · exact .ready hI.low hI.mutex (by rintro w ⟨⟩)
      · exact hI.congr rfl rfl hI.low hI.mutex
      · exact ⟨fun _ _ _ => (Bool.not_eq_true _).mp hr, hI.low, hI.mutex⟩
  | drain hconn => exact hI.congr rfl rfl (fun _ => hconn) hI.mutex
  | low hl => exact SocketInv.onBufferedAmountLow (hI.congr rfl rfl (fun _ => hI.low hl) hI.mutex)

/-! ## Sends return -/

/-- A state that the send under way does not get out of: nothing but a new connection, or a call of
`stop`, would help. -/
def Doomed (size : ℕ) (s : Socket) : Prop :=
  s.crashed = true ∨ s.low = 0 ∧ s.writer ≠ none ∧
    (s.conn = false ∨ s.Parked ∧ s.bufferedAmount ≤ size)

theorem Doomed.step (hd : s.Doomed size) (he : e.progresses = true)
    (hs : (socket size).step s e = some s') : s'.Doomed size := by
  simp only [socket] at hs
  split_ifs at hs with hc
  rcases hd with hc' | ⟨hl, hsends, hd⟩
  · exact absurd hc' hc
  cases steps_of_step hs with
  | lock hw hpc =>
      have hconn : s.conn = false := by
        rcases hd with hd | ⟨⟨-, w', hw', hne⟩, -⟩
        · exact hd
        · rw [hw] at hw'
          cases hw'
          exact absurd hpc hne
      refine .inl ?_
      simp only [Socket.lock, hconn, Bool.false_eq_true, if_false]
      rfl
  | spurious =>
      refine .inr ⟨hl, Option.some_ne_none _, hd.imp id fun ⟨⟨hr, _⟩, ha⟩ => ?_⟩
      exact ⟨⟨hr, _, rfl, SendPc.noConfusion⟩, ha⟩
  | check =>
      unfold Socket.check
      split_ifs with hr hconn
      · rcases hd with hd | ⟨hp, -⟩
        · rw [hd] at hconn
          cases hconn
        · exact absurd hp (not_parked_of_ready hr)
      · exact .inl rfl
      · refine .inr ⟨hl, Option.some_ne_none _, hd.imp id fun ⟨⟨hr, _⟩, ha⟩ => ?_⟩
        exact ⟨⟨hr, _, rfl, SendPc.noConfusion⟩, ha⟩
  | drain hconn =>
      obtain ⟨hp, ha⟩ := hd.resolve_left (by rw [hconn]; decide)
      refine .inr ⟨?_, hsends, .inr ⟨hp.congr rfl rfl, Nat.le_trans (Nat.sub_le _ _) ha⟩⟩
      simp only [Socket.drain]
      rw [if_neg (by omega)]
      exact hl
  | low hpos => omega
  | _ => cases he

section Leads

variable (hc : s.crashed = false) (hconn : s.conn = true) (hw : s.writer = some w)

include hc hconn hw

end Leads

/-- `m_conn` is reset while it is there, and not during a send; and it is there when `start`, which
has checked this, opens it. -/
def KeepsConn (s : Socket) : SocketEvent → Prop
  | .reset _ => s.conn = true ∧ s.writer = none
  | .openConn => s.conn = true
  | _ => True

instance (s : Socket) : (e : SocketEvent) → Decidable (s.KeepsConn e)
  | .reset _ => inferInstanceAs (Decidable (s.conn = true ∧ s.writer = none))
  | .openConn => inferInstanceAs (Decidable (s.conn = true))
  | .start | .create | .unlock _ | .stop _ | .wake _ | .close | .enterReset | .leaveReset | .send _ _
  | .lock _ | .spurious | .check _ | .drain _ | .low => inferInstanceAs (Decidable True)

theorem Fine.congr (hf : s.Fine size) (hc : s'.crashed = s.crashed) (hw : s'.writer = s.writer)
    (hconn : s'.conn = s.conn) (hr : s'.bufferReady = s.bufferReady) (hl : s'.low = s.low)
    (ha : s'.bufferedAmount = s.bufferedAmount) : s'.Fine size := by
  refine ⟨hc.trans hf.alive, fun h => hconn.trans (hf.conn (hw ▸ h)), fun hp => ?_⟩
  rw [hl, ha]
  exact hf.owed (hp.congr hr hw)

/-- Between two sends, or with a send that does not wait. -/
theorem Fine.not_parked (hc : s.crashed = false) (hconn : s.writer ≠ none → s.conn = true)
    (hp : ¬ s.Parked) : s.Fine size :=
  ⟨hc, hconn, fun h => absurd h hp⟩

theorem Fine.onBufferedAmountLow (hc : s.crashed = false) (hconn : s.writer ≠ none → s.conn = true) :
    s.onBufferedAmountLow.Fine size := by
  refine .not_parked hc (fun h => hconn fun hw => h ?_) (not_parked_of_ready rfl)
  simp only [Socket.onBufferedAmountLow, hw, Option.map_none]

theorem Fine.lock (hf : s.Fine size) (hw : s.writer = some w) (sent : Bool) :
    (s.lock size w sent).Fine size := by
  have hconn : s.conn = true := hf.conn (by rw [hw]; exact Option.some_ne_none w)
  unfold Socket.lock
  rw [if_pos hconn]
  split
  · next ha => exact ⟨hf.alive, fun _ => hconn, fun _ => .inr ha⟩
  · exact .not_parked hf.alive (fun h => absurd rfl h) (not_parked_of_writer rfl)

theorem Fine.check (hf : s.Fine size) (hw : s.writer = some w) (hpc : w.pc = .woken) (sent : Bool) :
    (s.check w sent).Fine size := by
  have hconn : s.conn = true := hf.conn (by rw [hw]; exact Option.some_ne_none w)
  unfold Socket.check
  rw [if_pos hconn]
  split
  · exact .not_parked hf.alive (fun h => absurd rfl h) (not_parked_of_writer rfl)
  · next hr =>
      have hp : s.Parked := ⟨(Bool.not_eq_true _).mp hr, w, hw, by rw [hpc]; decide⟩
      exact ⟨hf.alive, fun _ => hconn, fun _ => hf.owed hp⟩

theorem Fine.drain (hf : s.Fine size) (n : ℕ) : (s.drain size n).Fine size := by
  refine ⟨hf.alive, hf.conn, fun hp => ?_⟩
  have howed := hf.owed (hp.congr rfl rfl)
  simp only [Socket.drain]
  split
  · exact .inl (Nat.succ_pos _)
  · omega

/-- **What one step keeps.** -/
theorem Fine.step (hf : s.Fine size) (hs : s.step size e = some s') :
    s'.Fine size ↔ s.KeepsConn e := by
  cases steps_of_step hs with
  | start =>
      refine iff_of_true ?_ trivial
      unfold Socket.start
      split
      · exact hf
      · exact hf.congr rfl rfl rfl rfl rfl rfl
  | create =>
      refine iff_of_true ?_ trivial
      unfold Socket.create
      cases hconn : s.conn with
      | true => exact ⟨hf.alive, fun _ => rfl, fun hp => hf.owed (hp.congr rfl rfl)⟩
      | false =>
          -- without a connection nobody sends
          have hw : s.writer = none := by
            by_contra hw
            rw [hf.conn hw] at hconn
            cases hconn
          exact .not_parked hf.alive (fun _ => rfl) (not_parked_of_writer hw)
  | openConn =>
      unfold Socket.openConn
      constructor
      · intro hf'
        split at hf'
        · assumption
        · cases hf'.alive
      · intro hconn
        replace hconn : s.conn = true := hconn
        rw [if_pos hconn]
        exact hf.congr rfl rfl rfl rfl rfl rfl
  | unlock | close | enterReset | leaveReset =>
      exact iff_of_true (hf.congr rfl rfl rfl rfl rfl rfl) trivial
  | stop =>
      refine iff_of_true ?_ trivial
      unfold Socket.stop
      split <;> exact hf.congr rfl rfl rfl rfl rfl rfl
  | wake =>
      refine iff_of_true ?_ trivial
      exact (Fine.onBufferedAmountLow hf.alive hf.conn).congr rfl rfl rfl rfl rfl rfl
  | reset =>
      unfold Socket.reset
      constructor
      · intro hf'
        split at hf'
        · next hconn =>
            refine ⟨hconn, ?_⟩
            by_contra hw
            cases hf'.conn hw
        · cases hf'.alive
      · rintro ⟨hconn, hw⟩
        rw [if_pos hconn]
        exact .not_parked hf.alive (fun h => absurd hw h) (not_parked_of_writer hw)
  | sends _ hconn =>
      refine iff_of_true (.not_parked hf.alive (fun _ => hconn) ?_) trivial
      rintro ⟨-, w, ⟨⟩, hne⟩
      exact hne rfl
  | refused => exact iff_of_true hf trivial
  | lock hw => exact iff_of_true (hf.lock hw _) trivial
  | spurious hw hpc =>
      refine iff_of_true ⟨hf.alive, fun _ => ?_, fun hp => ?_⟩ trivial
      · exact hf.conn (by rw [hw]; exact Option.some_ne_none _)
      · exact hf.owed ⟨hp.1, _, hw, by rw [hpc]; decide⟩
  | check hw hpc => exact iff_of_true (hf.check hw hpc _) trivial
  | drain => exact iff_of_true (hf.drain _) trivial
  | low => exact iff_of_true (Fine.onBufferedAmountLow hf.alive hf.conn) trivial

theorem Fine.init : Socket.init.Fine size :=
  .not_parked rfl (fun h => absurd rfl h) (not_parked_of_writer rfl)

theorem step_of_socket (hs : (socket size).step s e = some s') : s.step size e = some s' := by
  simp only [socket] at hs
  split_ifs at hs
  exact hs

/-! ## Sends that are stranded -/

/-- The thread `k` is about to wake a sender up. -/
def Wakes (s : Socket) (k : ℕ) : Prop :=
  s.stops k = some .waking ∨ s.stops k = some .unlocked ∧ s.active = true

/-- A thread in `reset_connection_state` waits for a serve thread whose send waits for the buffer,
and nobody is about to wake it up. -/
structure Stranded (s : Socket) : Prop where
  resetting : s.resetting = true
  starting : s.starting = none
  serves : s.writer.any (·.serves) = true
  parked : s.Parked
  stops : ∀ k, ¬ s.Wakes k

/-- There is no connection, and the library owes no call. -/
def Silent (s : Socket) : Prop := s.conn = false ∧ s.low = 0

theorem Stranded.congr (h : s.Stranded) (hr : s'.resetting = s.resetting)
    (hst : s'.starting = s.starting) (hw : s'.writer = s.writer)
    (hb : s'.bufferReady = s.bufferReady) (hs : ∀ k, s'.Wakes k → s.Wakes k) : s'.Stranded :=
  ⟨hr.trans h.resetting, hst.trans h.starting, hw ▸ h.serves, h.parked.congr hb.symm hw.symm,
    fun k hk => h.stops k (hs k hk)⟩

theorem Stranded.not_mutexFree (h : s.Stranded) : s.mutexFree = false := by
  simp [mutexFree, h.resetting]

/-- A thread returns from `m_conn->stop`. -/
theorem wakes_of_stopAt {k k' : ℕ} (h : (s.stopAt k none).Wakes k') : s.Wakes k' := by
  simp only [Wakes, stopAt] at h
  by_cases hk : k' = k
  · rw [hk, Function.update_self] at h
    rcases h with h | ⟨h, -⟩ <;> cases h
  · rwa [Function.update_of_ne hk] at h

theorem Stranded.moveTo (h : s.Stranded) (hw : s.writer = some w) (hpc : pc ≠ .entered) :
    (s.moveTo w pc).Stranded := by
  have hs := h.serves
  rw [hw] at hs
  exact ⟨h.resetting, h.starting, hs, ⟨h.parked.1, _, rfl, hpc⟩, h.stops⟩

/-- **What one step keeps.** -/
theorem Stranded.step (h : s.Stranded) (hs : s.step size e = some s')
    (hlow : s.Silent ∨ e ≠ .low) : s'.Stranded ∧ (s.Silent → s'.Silent) ∧ e.blocked = false := by
  have hmutex : s.mutexFree ≠ true := by simp [h.not_mutexFree]
  obtain ⟨hready, w, hw, hpc⟩ := h.parked
  cases steps_of_step hs with
  | start hm | unlock hm | enterReset hm => exact absurd hm hmutex
  | create hst | openConn hst =>
      rw [h.starting] at hst
      cases hst
  | stop hk =>
      have hactive : s.active = false := (Bool.not_eq_true _).mp fun ha => h.stops _ (.inr ⟨hk, ha⟩)
      unfold Socket.stop
      rw [hactive, if_neg Bool.false_ne_true]
      exact ⟨h.congr rfl rfl rfl rfl fun _ => wakes_of_stopAt, fun hq => hq, rfl⟩
  | wake hk => exact absurd (.inl hk) (h.stops _)
  | reset =>
      unfold Socket.reset
      split
      · exact ⟨h.congr rfl rfl rfl rfl fun _ => wakes_of_stopAt, fun _ => ⟨rfl, rfl⟩, rfl⟩
      · exact ⟨h.congr rfl rfl rfl rfl fun _ => id, fun hq => hq, rfl⟩
  | close =>
      refine ⟨h.congr rfl rfl rfl rfl fun k hk => ?_, fun hq => hq, rfl⟩
      rcases hk with hk | ⟨-, ha⟩
      · exact .inl hk
      · cases ha
  | leaveReset hall =>
      have hserves := h.serves
      rw [hw] at hserves hall
      simp only [Option.any_some, Option.all_some] at hserves hall
      rw [hserves] at hall
      cases hall
  | sends hnone | refused hnone =>
      rw [hw] at hnone
      cases hnone
  | lock hw' hpc' =>
      rw [hw] at hw'
      cases hw'
      exact absurd hpc' hpc
  | spurious hw' => exact ⟨h.moveTo hw' SendPc.noConfusion, fun hq => hq, rfl⟩
  | check hw' =>
      unfold Socket.check
      rw [hready]
      exact ⟨h.moveTo hw' SendPc.noConfusion, fun hq => hq, rfl⟩
  | drain hconn =>
      refine ⟨h.congr rfl rfl rfl rfl fun _ => id, fun hq => ?_, rfl⟩
      rw [hq.1] at hconn
      cases hconn
  | low hpos =>
      rcases hlow with hq | hne
      · rw [hq.2] at hpos
        cases hpos
      · exact absurd rfl hne

theorem Stranded.run (h : s.Stranded) {es : List SocketEvent} (hr : (socket size).run s es = some s')
    (hlow : s.Silent ∨ .low ∉ es) : s'.Stranded ∧ ∀ e ∈ es, e.blocked = false := by
  induction es generalizing s with
  | nil =>
      cases hr
      exact ⟨h, nofun⟩
  | cons e es ih =>
      rw [Machine.run_cons, Option.bind_eq_some_iff] at hr
      obtain ⟨s₁, hs, hr⟩ := hr
      obtain ⟨h1, h2, h3⟩ := h.step (step_of_socket hs)
        (hlow.imp id fun hn he => hn (he ▸ List.mem_cons_self))
      obtain ⟨h4, h5⟩ := ih h1 hr (hlow.imp h2 fun hn he => hn (List.mem_cons_of_mem e he))
      refine ⟨h4, fun e' he' => ?_⟩
      rcases List.mem_cons.mp he' with rfl | he'
      · exact h3
      · exact h5 e' he'

end Socket

open Socket

section Runs

variable {size : ℕ} {es : List SocketEvent} {s : Socket}

/-- **A stranded send blocks the client.** Once a thread in `reset_connection_state` waits for a
serve thread whose send waits for the buffer, and nobody who stops the connection is about to wake
this send up, then the send never returns and `m_mutex` is never given back, as long as the library
does not call `on_buffered_amount_low`; and it owes no such call any more when `m_conn` was
reset. -/
theorem stranded_sender_wedges_client (hr : (socket size).run Socket.init es = some s) {w : Writer}
    (hw : s.writer = some w) (hserves : w.serves = true) (hpc : w.pc = .waiting)
    (hres : s.resetting = true) (hstops : ∀ k, ¬ s.Wakes k) {es' : List SocketEvent}
    {s' : Socket} (hr' : (socket size).run s es' = some s') (hlow : s.conn = false ∨ .low ∉ es') :
    s'.resetting = true ∧ s'.Parked ∧ ∀ e ∈ es', e.blocked = false := by
  have hI : SocketInv s :=
    Machine.run_inv (M := socket size) (fun _ _ _ hI hs => hI.step (step_of_socket hs)) .init hr
  have hready : s.bufferReady = false := hI.waiting w hw hpc
  have hstranded : s.Stranded := by
    refine ⟨hres, hI.mutex hres, ?_, ⟨hready, w, hw, by rw [hpc]; decide⟩, hstops⟩
    rw [hw]
    exact hserves
  have hsilent : s.Silent ∨ .low ∉ es' := by
    refine hlow.imp (fun hconn => ⟨hconn, ?_⟩) id
    by_contra hl
    have hconn' := hI.low (Nat.pos_of_ne_zero hl)
    rw [hconn] at hconn'
    cases hconn'
  obtain ⟨h1, h2⟩ := hstranded.run hr' hsilent
  exact ⟨h1.resetting, h1.parked, h2⟩

end Runs

/-! ## Sample runs -/

/-- The state of a client with a threshold of 4 bytes after the steps `es`. -/
def socketAfter (es : List SocketEvent) : Socket :=
  ((socket 4).run Socket.init es).getD Socket.init

/-- A connection is stopped while another thread starts it again: it is reset in front of `open`. -/
example : (socketAfter [.start, .create, .openConn, .unlock 0, .stop 0, .start, .create,
    .wake 0, .reset 0, .openConn]).crashed = true := rfl

/-- The connection is stopped while the serve thread enters `buffered_send` with a full buffer,
between the wakeup and the reset. -/
def stopDuringSend : List SocketEvent :=
  [.start, .create, .openConn, .send true 5, .lock true, .unlock 0, .stop 0, .wake 0, .send true 5,
    .lock true, .reset 0, .enterReset]

/-- The peer closes the connection while a send waits: `stop` finds it inactive, and wakes nobody
up. -/
def closeDuringSend : List SocketEvent :=
  [.start, .create, .openConn, .send true 5, .lock true, .send true 5, .lock true, .close, .unlock 0,
    .stop 0, .enterReset]

/-- It wakes up by itself, and waits again. -/
def wakesInVain : List SocketEvent := [.spurious, .check true]

/-- The only thread that stops the connection has returned. -/
theorem not_wakes_of_returned {s : Socket} {f : ℕ → Option StopPc}
    (h : s.stops = Function.update f 0 none) (hf : ∀ k, k ≠ 0 → f k = none) (k : ℕ) : ¬ s.Wakes k := by
  have hnone : s.stops k = none := by
    rw [h]
    by_cases h0 : k = 0
    · rw [h0, Function.update_self]
    · rw [Function.update_of_ne h0, hf k h0]
  rintro (hk | ⟨hk, -⟩)
  · rw [hnone] at hk
    cases hk
  · rw [hnone] at hk
    cases hk

theorem stranded_sender_wedges_client_samples :
    ((socketAfter (stopDuringSend ++ wakesInVain)).resetting = true ∧
      (socketAfter (stopDuringSend ++ wakesInVain)).Parked) ∧
    (socketAfter (closeDuringSend ++ wakesInVain)).resetting = true ∧
    (socketAfter (closeDuringSend ++ wakesInVain)).Parked := by
  constructor
  · have hr : (socket 4).run Socket.init stopDuringSend = some (socketAfter stopDuringSend) := rfl
    have hr' : (socket 4).run (socketAfter stopDuringSend) wakesInVain =
        some (socketAfter (stopDuringSend ++ wakesInVain)) := rfl
    have hstops := not_wakes_of_returned (s := socketAfter stopDuringSend) rfl fun k hk => by
      show Function.update (Function.update (Function.update (fun _ => none) 0 _) 0 _) 0 _ k = none
      simp only [Function.update_of_ne hk]
    obtain ⟨h1, h2, -⟩ := stranded_sender_wedges_client hr (w := ⟨true, 5, .waiting⟩) rfl rfl rfl rfl
      hstops hr' (.inl rfl)
    exact ⟨h1, h2⟩
  · have hr : (socket 4).run Socket.init closeDuringSend = some (socketAfter closeDuringSend) := rfl
    have hr' : (socket 4).run (socketAfter closeDuringSend) wakesInVain =
        some (socketAfter (closeDuringSend ++ wakesInVain)) := rfl
    have hstops := not_wakes_of_returned (s := socketAfter closeDuringSend) rfl fun k hk => by
      show Function.update (fun _ => none) 0 _ k = none
      simp only [Function.update_of_ne hk]
    obtain ⟨h1, h2, -⟩ := stranded_sender_wedges_client hr (w := ⟨true, 5, .waiting⟩) rfl rfl rfl rfl
      hstops hr' (.inr (by decide))
    exact ⟨h1, h2⟩

end Loon
