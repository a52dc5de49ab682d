import Mathlib.Data.List.Basic

set_option autoImplicit false

/-!
# Channels

A channel of Go's language specification, with the values it has carried: what was received is kept
in `taken`, what waits in the buffer in `buffer`, so that `sent = taken ++ buffer` is everything
ever put on the channel, in order.

Sending on a closed channel and closing a closed channel are run-time panics. Blocking is left to
the machine that uses the channel: it asks `full` before a `send`, and `recv` answers `none` where a
receiver would wait.
-/

/-- The run-time panics of channel operations. -/
inductive ChanPanic where
  | sendOnClosedChannel
  | closeOfClosedChannel
  deriving DecidableEq, Repr

/-- A buffered channel with its history. -/
structure Chan (α : Type) where
  cap : ℕ
  taken : List α
  buffer : List α
  closed : Bool
  deriving DecidableEq, Repr

namespace Chan

variable {α : Type}

/-- `make(chan α, cap)`. -/
def make (cap : ℕ) : Chan α := { cap, taken := [], buffer := [], closed := false }

/-- Everything ever sent, in order. -/
def sent (c : Chan α) : List α := c.taken ++ c.buffer

/-- A send would block. -/
def full (c : Chan α) : Bool := c.cap ≤ c.buffer.length

/-- `c <- a`. -/
def send (c : Chan α) (a : α) : Except ChanPanic (Chan α) :=
  if c.closed then .error .sendOnClosedChannel else .ok { c with buffer := c.buffer ++ [a] }

/-- `close(c)`. -/
def close (c : Chan α) : Except ChanPanic (Chan α) :=
  if c.closed then .error .closeOfClosedChannel else .ok { c with closed := true }

/-- `a, ok := <-c`: the value with the channel after it, `none` in place of the value once the
channel is closed and drained; `none` altogether if the receiver blocks. -/
def recv (c : Chan α) : Option (Option α × Chan α) :=
  match c.buffer with
  | a :: rest => some (some a, { c with taken := c.taken ++ [a], buffer := rest })
  | [] => if c.closed then some (none, c) else none

@[simp] theorem sent_make (cap : ℕ) : (make cap : Chan α).sent = [] := rfl
@[simp] theorem closed_make (cap : ℕ) : (make cap : Chan α).closed = false := rfl

@[simp] theorem sent_push (c : Chan α) (a : α) :
    ({ c with buffer := c.buffer ++ [a] } : Chan α).sent = c.sent ++ [a] := by
  simp [sent]

@[simp] theorem sent_closed (c : Chan α) (b : Bool) :
    ({ c with closed := b } : Chan α).sent = c.sent := rfl

/-- What a receive does: it takes the head of the buffer, or reports the end of the channel. -/
theorem recv_cases {c c' : Chan α} {o : Option α} (h : c.recv = some (o, c')) :
    (∃ a rest, c.buffer = a :: rest ∧ o = some a ∧
      c' = { c with taken := c.taken ++ [a], buffer := rest }) ∨
    (c.buffer = [] ∧ c.closed = true ∧ o = none ∧ c' = c) := by
  unfold recv at h
  split at h
  · rename_i a rest hb
    cases h
    exact .inl ⟨a, rest, hb, rfl, rfl⟩
  · rename_i hb
    split at h
    · rename_i hc
      cases h
      exact .inr ⟨hb, hc, rfl, rfl⟩
    · cases h

/-- The channel after a receive. -/
def pop (c : Chan α) : Chan α :=
  { c with taken := c.taken ++ c.buffer.take 1, buffer := c.buffer.drop 1 }

@[simp] theorem sent_pop (c : Chan α) : c.pop.sent = c.sent := by
  simp only [sent, pop, List.append_assoc, List.take_append_drop]

theorem recv_eq_pop {c c' : Chan α} {o : Option α} (h : c.recv = some (o, c')) : c' = c.pop := by
  obtain ⟨a, rest, hb, -, rfl⟩ | ⟨hb, -, -, rfl⟩ := recv_cases h
  · simp [pop, hb]
  · cases c'
    simp_all [pop]

/-- The channel with everything it carried put back. -/
def unread (c : Chan α) : Chan α := { c with taken := [], buffer := c.sent }

theorem unread_of_recv {c c' : Chan α} {o : Option α} (h : c.recv = some (o, c')) :
    c'.unread = c.unread := by
  rw [recv_eq_pop h, unread, unread, sent_pop]
  rfl

end Chan
