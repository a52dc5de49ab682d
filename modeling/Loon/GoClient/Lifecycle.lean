import Mathlib.Algebra.Order.Ring.Nat
import Mathlib.Data.List.Dedup
import Loon.GoClient.Registration

set_option autoImplicit false

/-!
# The life of the Go client

`Run`, `Close` and the two pumps of `pkg/client/client.go` from the call of `Run` to its end. The
steps of `goClient` are taken here together with the goroutine that they need: a message is handed
over, and a handle is registered or unregistered, while the write pump is at its `select`. Both
pumps report an error before they leave, and so does `Close`; `lastErr` has room for one.

* `Life`, `lifecycle`: the client as a machine;
* `Life.Steps`: what a step does;
* `lifecycle_refines`: a run of `lifecycle` is one of `goClient`;
* `LifeInv`: who has left, and what was reported;
* **`run_returns_first_report`**: `Run` returns the first error that was reported, and only when both
  pumps have returned;
* **`sources_closed_once`**: the source of every handle is closed once, when the handle is
  unregistered or when the client ends.
-/

namespace Loon.GoClient

/-- Why the read pump leaves its loop. -/
inductive ReadFailure where
  | failed (err : String)
  | unexpectedHello
  | connectionClosed (message reason : String)
  | unexpectedMessage
  deriving DecidableEq, Repr

/-- What is reported to `Run`. -/
inductive RunError where
  | clientClosed
  | write (err : String)
  | read (failure : ReadFailure)
  deriving DecidableEq, Repr

/-- Where the write pump is: in its `select`, in a write to the connection, about to close `done`,
about to close the sources of the handles `rest`, or past its deferred function. -/
inductive WritePoint where
  | select
  | writing
  | leaving
  | closing (rest : List ℕ)
  | returned
  deriving DecidableEq, Repr

/-- The read pump is in its loop, in the `select` of its deferred function, or past it. -/
inductive ReadEnd where
  | looping
  | stopping
  | returned
  deriving DecidableEq, Repr

/-- A call of `Close` has reported its error and is in its `select`, or has returned. -/
inductive ClosePoint where
  | idle
  | stopping
  | returned
  deriving DecidableEq, Repr

/-- The client with its pumps, the calls of `Close` and the result of `Run`. -/
structure Life where
  client : Client
  writePump : WritePoint
  readEnd : ReadEnd
  lastErr : Option RunError
  closes : ℕ → ClosePoint
  result : Option RunError

/-- The steps: those of the client; a write to the connection returns or fails; a ping; `Close` is
called, stops the write pump, or returns because of `done`; the read pump fails, and its deferred
function likewise; the steps of the deferred function of the write pump; `Run` returns. -/
inductive LifeEvent where
  | client (e : ClientEvent)
  | wrote
  | writeFails (err : String)
  | ping
  | close (call : ℕ)
  | closeStops (call : ℕ)
  | closeReturns (call : ℕ)
  | readFails (failure : ReadFailure)
  | readStops
  | readReturns
  | closeDone
  | closeSource (handle : ℕ)
  | writeReturns
  | runReturns
  deriving DecidableEq, Repr

/-- How many messages were handed over to the write pump. -/
def Client.posted (s : Client) : ℕ :=
  s.sent.length + (s.calls.map fun call => call.respond.sent.length).sum

/-- The handles in `content`. -/
def Client.registered (s : Client) : List ℕ := (List.range s.handles.length).filter s.content

namespace Life

def init : Life where
  client := .init
  writePump := .select
  readEnd := .looping
  lastErr := none
  closes _ := .idle
  result := none

variable (s : Life)

/-- `report`, which drops an error if there is one already. -/
def report (err : RunError) : Life := { s with lastErr := s.lastErr.or (some err) }

/-- A step of the client. -/
def clientStep (e : ClientEvent) : Option Life :=
  if e = .done ∨ e = .leave then none
  else (s.client.next e).bind fun c =>
    if Client.entersTables e then
      if s.writePump = .select then some { s with client := c } else none
    else if s.client.posted < c.posted then
      if s.writePump = .select then some { s with client := c, writePump := .writing } else none
    else some { s with client := c }

/-- The read pump fails, unless the client is closed already. -/
def readFails (failure : ReadFailure) : Option Life :=
  if s.readEnd = .looping then
    (s.client.next .leave).map fun c =>
      { if s.client.done then s else s.report (.read failure) with client := c, readEnd := .stopping }
  else none

/-- `close(c.done)`, where the deferred function of the write pump begins. -/
def closeDone : Option Life :=
  if s.writePump = .leaving then
    (s.client.next .done).map fun c => { s with client := c, writePump := .closing c.registered }
  else none

/-- The deferred function closes the sources in any order. -/
def closeSource (i : ℕ) : Option Life :=
  match s.writePump with
  | .closing rest => if i ∈ rest then some { s with writePump := .closing (rest.erase i) } else none
  | _ => none

/-- A step of the client, before a panic. -/
def step : LifeEvent → Option Life
  | .client e => s.clientStep e
  | .wrote => if s.writePump = .writing then some { s with writePump := .select } else none
  | .writeFails err =>
    if s.writePump = .writing then some { s.report (.write err) with writePump := .leaving } else none
  | .ping => if s.writePump = .select then some { s with writePump := .writing } else none
  | .close j =>
    if s.closes j = .idle then
      some { s.report .clientClosed with closes := Function.update s.closes j .stopping }
    else none
  | .closeStops j =>
    if s.closes j = .stopping ∧ s.writePump = .select then
      some { s with closes := Function.update s.closes j .returned, writePump := .leaving }
    else none
  | .closeReturns j =>
    if s.closes j = .stopping ∧ s.client.done = true then
      some { s with closes := Function.update s.closes j .returned }
    else none
  | .readFails failure => s.readFails failure
  | .readStops =>
    if s.readEnd = .stopping ∧ s.writePump = .select then
      some { s with readEnd := .returned, writePump := .leaving }
    else none
  | .readReturns =>
    if s.readEnd = .stopping ∧ s.client.done = true then some { s with readEnd := .returned } else none
  | .closeDone => s.closeDone
  | .closeSource i => s.closeSource i
  | .writeReturns =>
    if s.writePump = .closing [] then some { s with writePump := .returned } else none
  | .runReturns =>
    if s.writePump = .returned ∧ s.readEnd = .returned ∧ s.result = none then
      s.lastErr.map fun err => { s with lastErr := none, result := some err }
    else none

/-- Nothing happens after a panic. -/
def next (e : LifeEvent) : Option Life := if s.client.panicked then none else s.step e

end Life

/-- The Go client, from the call of `Run` on. -/
def lifecycle : Machine Life LifeEvent := ⟨.init, Life.next⟩

/-! ## What a step does -/

namespace WritePoint

/-- The write pump has left its loop. -/
def Left : WritePoint → Prop
  | .select => False
  | .writing => False
  | .leaving => True
  | .closing _ => True
  | .returned => True

/-- `done` is closed. -/
def Past : WritePoint → Prop
  | .closing _ => True
  | .returned => True
  | _ => False

end WritePoint

namespace Life

/-- **What a step does.** -/
inductive Steps (s : Life) : LifeEvent → Life → Prop where
  | client {e : ClientEvent} {c : Client} {w : WritePoint} (hdone : e ≠ .done) (hleave : e ≠ .leave)
      (hc : s.client.next e = some c) (hw : w = s.writePump ∨ s.writePump = .select ∧ w = .writing)
      (ht : Client.entersTables e = true → s.writePump = .select) :
      Steps s (.client e) { s with client := c, writePump := w }
  | wrote (hw : s.writePump = .writing) : Steps s .wrote { s with writePump := .select }
  | writeFails (err : String) (hw : s.writePump = .writing) :
      Steps s (.writeFails err) { s.report (.write err) with writePump := .leaving }
  | ping (hw : s.writePump = .select) : Steps s .ping { s with writePump := .writing }
  | close {j : ℕ} (hj : s.closes j = .idle) : Steps s (.close j)
      { s.report .clientClosed with closes := Function.update s.closes j .stopping }
  | closeStops {j : ℕ} (hj : s.closes j = .stopping) (hw : s.writePump = .select) :
      Steps s (.closeStops j)
        { s with closes := Function.update s.closes j .returned, writePump := .leaving }
  | closeReturns {j : ℕ} (hj : s.closes j = .stopping) (hd : s.client.done = true) :
      Steps s (.closeReturns j) { s with closes := Function.update s.closes j .returned }
  | readFails (failure : ReadFailure) {c : Client} (hr : s.readEnd = .looping)
      (hc : s.client.next .leave = some c) : Steps s (.readFails failure)
        { if s.client.done then s else s.report (.read failure) with
          client := c, readEnd := .stopping }
  | readStops (hr : s.readEnd = .stopping) (hw : s.writePump = .select) :
      Steps s .readStops { s with readEnd := .returned, writePump := .leaving }
  | readReturns (hr : s.readEnd = .stopping) (hd : s.client.done = true) :
      Steps s .readReturns { s with readEnd := .returned }
  | closeDone {c : Client} (hw : s.writePump = .leaving) (hc : s.client.next .done = some c) :
      Steps s .closeDone { s with client := c, writePump := .closing c.registered }
  | closeSource {i : ℕ} {rest : List ℕ} (hw : s.writePump = .closing rest) (hi : i ∈ rest) :
      Steps s (.closeSource i) { s with writePump := .closing (rest.erase i) }
  | writeReturns (hw : s.writePump = .closing []) :
      Steps s .writeReturns { s with writePump := .returned }
  | runReturns {err : RunError} (hw : s.writePump = .returned) (hr : s.readEnd = .returned)
      (hresult : s.result = none) (herr : s.lastErr = some err) :
      Steps s .runReturns { s with lastErr := none, result := some err }

variable {s s' : Life} {e : LifeEvent}

theorem steps_clientStep {e : ClientEvent} (hs : s.clientStep e = some s') :
    s.Steps (.client e) s' := by
  unfold clientStep at hs
  split at hs
  · cases hs
  rename_i hne
  obtain ⟨hdone, hleave⟩ := not_or.mp hne
  obtain ⟨c, hc, hs⟩ := Option.bind_eq_some_iff.mp hs
  split at hs
  · split at hs <;> cases hs
    rename_i ht hw
    exact .client hdone hleave hc (.inl rfl) fun _ => hw
  rename_i ht
  split at hs
  · split at hs <;> cases hs
    rename_i hw
    exact .client hdone hleave hc (.inr ⟨hw, rfl⟩) fun ht' => absurd ht' ht
  · cases hs
    exact .client hdone hleave hc (.inl rfl) fun ht' => absurd ht' ht

/-- **Inversion of a step.** -/
theorem steps_of_next (hs : s.next e = some s') : s.client.panicked = false ∧ s.Steps e s' := by
  unfold next at hs
  split at hs
  · cases hs
  rename_i hp
  refine ⟨by simpa only [Bool.not_eq_true] using hp, ?_⟩
  cases e with
  | client e => exact steps_clientStep hs
  | wrote =>
      simp only [step] at hs
      split at hs <;> cases hs
      exact .wrote (by assumption)
  | writeFails err =>
      simp only [step] at hs
      split at hs <;> cases hs
      exact .writeFails err (by assumption)
  | ping =>
      simp only [step] at hs
      split at hs <;> cases hs
      exact .ping (by assumption)
  | close j =>
      simp only [step] at hs
      split at hs <;> cases hs
      exact .close (by assumption)
  | closeStops j =>
      simp only [step] at hs
      split at hs <;> cases hs
      rename_i h
      exact .closeStops h.1 h.2
  | closeReturns j =>
      simp only [step] at hs
      split at hs <;> cases hs
      rename_i h
      exact .closeReturns h.1 h.2
  | readFails failure =>
      simp only [step, Life.readFails] at hs
      split at hs
      · obtain ⟨c, hc, rfl⟩ := Option.map_eq_some_iff.mp hs
        exact .readFails failure (by assumption) hc
      · cases hs
  | readStops =>
      simp only [step] at hs
      split at hs <;> cases hs
      rename_i h
      exact .readStops h.1 h.2
  | readReturns =>
      simp only [step] at hs
      split at hs <;> cases hs
      rename_i h
      exact .readReturns h.1 h.2
  | closeDone =>
      simp only [step, Life.closeDone] at hs
      split at hs
      · obtain ⟨c, hc, rfl⟩ := Option.map_eq_some_iff.mp hs
        exact .closeDone (by assumption) hc
      · cases hs
  | closeSource i =>
      simp only [step, Life.closeSource] at hs
      split at hs
      · split at hs <;> cases hs
        exact .closeSource (by assumption) (by assumption)
      · cases hs
  | writeReturns =>
      simp only [step] at hs
      split at hs <;> cases hs
      exact .writeReturns (by assumption)
  | runReturns =>
      simp only [step] at hs
      split at hs
      · rename_i h
        obtain ⟨err, herr, rfl⟩ := Option.map_eq_some_iff.mp hs
        exact .runReturns h.1 h.2.1 h.2.2 herr
      · cases hs

end Life

/-! ## The client underneath -/

/-- The steps of `goClient` that a step makes. -/
def LifeEvent.toClient : LifeEvent → List ClientEvent
  | .client e => [e]
  | .readFails _ => [.leave]
  | .closeDone => [.done]
  | _ => []

/-- **A run of the client with its pumps is a run of `goClient`.** -/
theorem lifecycle_refines {es : List LifeEvent} {s : Life} (h : lifecycle.run .init es = some s) :
    goClient.run .init (es.flatMap LifeEvent.toClient) = some s.client := by
  refine Machine.run_induction (M := lifecycle)
    (P := fun es s => goClient.run .init (es.flatMap LifeEvent.toClient) = some s.client) rfl ?_ h
  intro es s e s' _ ih hs
  rw [List.flatMap_append, Machine.run_append, ih]
  change goClient.run s.client (e.toClient ++ []) = some s'.client
  rw [List.append_nil]
  have hone : ∀ {e : ClientEvent} {c : Client}, s.client.next e = some c →
      goClient.run s.client [e] = some c := by
    intro e c hc
    rw [Machine.run_cons]
    change (s.client.next e).bind _ = _
    rw [hc]
    rfl
  cases (Life.steps_of_next hs).2 with
  | client _ _ hc | closeDone _ hc => exact hone hc
  | readFails _ _ hc => exact hone hc
  | _ => rfl

/-! ## Steps of the client -/

namespace Client

variable {s s' : Client} {e : ClientEvent}

theorem step_of_next (hs : s.next e = some s') : s.step e = some s' := by
  unfold next at hs
  split at hs
  · cases hs
  · exact hs

theorem next_leave (hs : s.next .leave = some s') :
    s.readPump = .reading ∧ s' = { s with readPump := .returned } := by
  have hs := step_of_next hs
  simp only [step] at hs
  split at hs <;> cases hs
  exact ⟨by assumption, rfl⟩

theorem next_done (hs : s.next .done = some s') : s' = { s with done := true } := by
  cases step_of_next hs
  rfl

theorem receive_done (s : Client) (m : ServerMessage) : (s.receive m).done = s.done := by
  cases m with
  | request | success => rfl
  | requestClosed id message =>
      simp only [receive]
      split <;> rfl

theorem done_of_next (he : e ≠ .done) (hs : s.next e = some s') : s'.done = s.done := by
  cases (steps_of_next hs).2 with
  | frame h => exact h.done
  | receive => exact receive_done s _
  | done => exact absurd rfl he
  | token | take | finish | respond => rfl

theorem receive_ne_returned (h : s.readPump ≠ .returned) (m : ServerMessage) :
    (s.receive m).readPump ≠ .returned := by
  cases m with
  | request id path =>
      simp only [receive, handleRequest]
      split <;> rintro ⟨⟩
  | success id => exact h
  | requestClosed id message =>
      simp only [receive]
      split
      · exact h
      · simp only [cancelResponse]
        split <;> rintro ⟨⟩

/-- **What a step does to the read pump.** -/
inductive ReadMove (s s' : Client) : ClientEvent → Prop where
  | same {e : ClientEvent} (h : s'.readPump = s.readPump) (hl : e ≠ .leave) (hd : e ≠ .readDone)
      (hr : ∀ m, e ≠ .receive m) : ReadMove s s' e
  | receive {m : ServerMessage} (h : s.readPump = .reading) (hd : s.done = false)
      (hs : s' = s.receive m) : ReadMove s s' (.receive m)
  | leave (h : s.readPump = .reading) (h' : s'.readPump = .returned) : ReadMove s s' .leave
  | back {e : ClientEvent} (h : s.readPump ≠ .reading) (h₁ : s.readPump ≠ .returned)
      (h' : s'.readPump = .reading)
      (he : e = .readStep ∨ e = .readDone ∧ s.done = true ∨ ∃ k, e = .token k) : ReadMove s s' e

theorem readMove_of_next (hs : s.next e = some s') : ReadMove s s' e := by
  have hs := step_of_next hs
  cases e with
  | register path content =>
      simp only [step] at hs
      split at hs <;> cases hs
      exact .same rfl (by rintro ⟨⟩) (by rintro ⟨⟩) (by rintro _ ⟨⟩)
  | unregister i =>
      simp only [step] at hs
      split at hs
      · cases hs
      refine .same ?_ (by rintro ⟨⟩) (by rintro ⟨⟩) (by rintro _ ⟨⟩)
      rcases unregister_cases hs with ⟨-, rfl⟩ | ⟨_, -, -, rfl⟩ <;> rfl
  | receive m =>
      simp only [step] at hs
      split at hs <;> cases hs
      rename_i h
      exact .receive h.1 h.2 rfl
  | leave =>
      simp only [step] at hs
      split at hs <;> cases hs
      exact .leave (by assumption) rfl
  | readStep =>
      simp only [step, Client.readStep] at hs
      split at hs
      · rename_i hp
        split at hs <;> cases hs
        exact .back (by rw [hp]; rintro ⟨⟩) (by rw [hp]; rintro ⟨⟩) rfl (.inl rfl)
      · rename_i hp
        obtain ⟨h, -, hs⟩ := Option.bind_eq_some_iff.mp hs
        split at hs <;> cases hs
        exact .back (by rw [hp]; rintro ⟨⟩) (by rw [hp]; rintro ⟨⟩) rfl (.inl rfl)
      · cases hs
  | readDone =>
      simp only [step, Client.readDone] at hs
      split at hs
      · cases hs
      · cases hs
      · rename_i hp hp'
        split at hs <;> cases hs
        exact .back hp hp' rfl (.inr (.inl ⟨rfl, by assumption⟩))
  | token k =>
      simp only [step, takeToken] at hs
      split at hs
      · rename_i hp
        obtain ⟨call, -, hs⟩ := Option.bind_eq_some_iff.mp hs
        split at hs
        · obtain ⟨r, -, rfl⟩ := Option.map_eq_some_iff.mp hs
          exact .back (by rw [hp]; rintro ⟨⟩) (by rw [hp]; rintro ⟨⟩) rfl (.inr (.inr ⟨k, rfl⟩))
        · cases hs
      · cases hs
  | take i =>
      obtain ⟨h, -, hs⟩ := Option.bind_eq_some_iff.mp hs
      split at hs
      · cases hs
      · split at hs <;> cases hs
        exact .same rfl (by rintro ⟨⟩) (by rintro ⟨⟩) (by rintro _ ⟨⟩)
  | finish i =>
      obtain ⟨h, -, hs⟩ := Option.bind_eq_some_iff.mp hs
      obtain ⟨k, -, hs⟩ := Option.bind_eq_some_iff.mp hs
      obtain ⟨call, -, hs⟩ := Option.bind_eq_some_iff.mp hs
      split at hs <;> cases hs
      exact .same rfl (by rintro ⟨⟩) (by rintro ⟨⟩) (by rintro _ ⟨⟩)
  | quit i =>
      obtain ⟨h, -, hs⟩ := Option.bind_eq_some_iff.mp hs
      split at hs <;> cases hs
      exact .same rfl (by rintro ⟨⟩) (by rintro ⟨⟩) (by rintro _ ⟨⟩)
  | respond k e =>
      simp only [step, respondStep] at hs
      split at hs
      · cases hs
      obtain ⟨call, -, hs⟩ := Option.bind_eq_some_iff.mp hs
      obtain ⟨r, -, rfl⟩ := Option.map_eq_some_iff.mp hs
      exact .same rfl (by rintro ⟨⟩) (by rintro ⟨⟩) (by rintro _ ⟨⟩)
  | done =>
      cases hs
      exact .same rfl (by rintro ⟨⟩) (by rintro ⟨⟩) (by rintro _ ⟨⟩)

/-- Only `leave` ends the read pump. -/
theorem returned_of_next (he : e ≠ .leave) (hs : s.next e = some s') :
    s'.readPump = .returned ↔ s.readPump = .returned := by
  cases readMove_of_next hs with
  | same h => rw [h]
  | @receive m h hd hm =>
      have hne : s.readPump ≠ .returned := by
        rw [h]
        rintro ⟨⟩
      rw [hm]
      exact ⟨fun h' => absurd h' (receive_ne_returned hne m), fun h' => absurd h' hne⟩
  | leave => exact absurd rfl he
  | back h h₁ h' =>
      rw [h']
      exact ⟨by rintro ⟨⟩, fun hr => absurd hr h₁⟩

end Client

/-! ## What was reported -/

/-- The errors that a step reports. -/
def reports : Life → LifeEvent → List RunError
  | _, .close _ => [.clientClosed]
  | _, .writeFails err => [.write err]
  | s, .readFails failure => if s.client.done then [] else [.read failure]
  | _, _ => []

/-- **Who has left, and what was reported**: the errors `l`. -/
structure LifeInv (l : List RunError) (s : Life) : Prop where
  reading : s.client.readPump = .returned ↔ s.readEnd ≠ .looping
  done : s.client.done = true ↔ s.writePump.Past
  left : s.writePump.Left → l ≠ []
  ended : s.readEnd ≠ .looping → l ≠ []
  called : ∀ j, s.closes j = .stopping → l ≠ []
  waiting : s.result = none → s.lastErr = l.head?
  returned : ∀ err, s.result = some err →
    l.head? = some err ∧ s.writePump = .returned ∧ s.readEnd = .returned

namespace LifeInv

variable {l : List RunError} {s s' : Life} {e : LifeEvent}

theorem past_left {w : WritePoint} (h : w.Past) : w.Left := by
  cases w with
  | select | writing | leaving => exact h.elim
  | closing | returned => trivial

/-- Another report. -/
theorem report (h : LifeInv l s) (err : RunError) : LifeInv (l ++ [err]) (s.report err) := by
  have hne : l ++ [err] ≠ [] := List.append_ne_nil_of_right_ne_nil _ (List.cons_ne_nil _ _)
  refine ⟨h.reading, h.done, fun _ => hne, fun _ => hne, fun _ _ => hne, fun hr => ?_, fun err' hr => ?_⟩
  · change s.lastErr.or (some err) = _
    rw [h.waiting hr, List.head?_append]
    rfl
  · obtain ⟨hhead, hw⟩ := h.returned err' hr
    rw [List.head?_append, hhead]
    exact ⟨rfl, hw⟩

/-- While the write pump is in its loop, `Run` has not returned. -/
theorem result_none (h : LifeInv l s) (hw : s.writePump ≠ .returned) : s.result = none := by
  cases hr : s.result with
  | none => rfl
  | some err => exact absurd (h.returned err hr).2.1 hw

/-- The write pump goes on. -/
theorem move (h : LifeInv l s) (hw : s.writePump ≠ .returned) {w : WritePoint}
    (hpast : w.Past ↔ s.writePump.Past) (hleft : w.Left → l ≠ []) :
    LifeInv l { s with writePump := w } := by
  refine ⟨h.reading, h.done.trans hpast.symm, hleft, h.ended, h.called, h.waiting, fun err herr => ?_⟩
  rw [h.result_none hw] at herr
  cases herr

/-- The read pump returns. -/
theorem readReturned (h : LifeInv l s) (hr : s.readEnd = .stopping) :
    LifeInv l { s with readEnd := .returned } := by
  have hne : s.readEnd ≠ .looping := by
    rw [hr]
    rintro ⟨⟩
  refine ⟨h.reading.trans ⟨fun _ => by rintro ⟨⟩, fun _ => hne⟩, h.done, h.left, fun _ => h.ended hne,
    h.called, h.waiting, fun err herr => ?_⟩
  obtain ⟨hhead, hw, -⟩ := h.returned err herr
  exact ⟨hhead, hw, rfl⟩

/-- A call of `Close` goes on. -/
theorem closeAt (h : LifeInv l s) (hl : l ≠ []) (j : ℕ) (p : ClosePoint) :
    LifeInv l { s with closes := Function.update s.closes j p } :=
  ⟨h.reading, h.done, h.left, h.ended, fun _ _ => hl, h.waiting, h.returned⟩

/-- **Every step keeps the invariant.** -/
theorem step (h : LifeInv l s) (hs : s.Steps e s') : LifeInv (l ++ reports s e) s' := by
  -- a step that reports nothing
  have hquiet : ∀ {s' : Life}, LifeInv l s' → reports s e = [] → LifeInv (l ++ reports s e) s' := by
    intro s' h hr
    rwa [hr, List.append_nil]
  cases hs with
  | @client e c w hdone hleave hc hw ht =>
      have hd := Client.done_of_next hdone hc
      have hr := Client.returned_of_next hleave hc
      have hclient : LifeInv l { s with client := c } :=
        ⟨hr.trans h.reading, by rw [← h.done, ← hd], h.left, h.ended, h.called, h.waiting, h.returned⟩
      rcases hw with rfl | ⟨hw, rfl⟩
      · exact hquiet hclient rfl
      · refine hquiet (hclient.move ?_ ?_ ?_) rfl
        · rw [hw]
          rintro ⟨⟩
        · rw [hw]
          rfl
        · rintro ⟨⟩
  | wrote hw =>
      refine hquiet (h.move ?_ ?_ ?_) rfl
      · rw [hw]
        rintro ⟨⟩
      · rw [hw]
        rfl
      · rintro ⟨⟩
  | ping hw =>
      refine hquiet (h.move ?_ ?_ ?_) rfl
      · rw [hw]
        rintro ⟨⟩
      · rw [hw]
        rfl
      · rintro ⟨⟩
  | writeFails err hw =>
      refine (h.report (.write err)).move ?_ ?_ fun _ => ?_
      · change s.writePump ≠ _
        rw [hw]
        rintro ⟨⟩
      · change _ ↔ s.writePump.Past
        rw [hw]
        rfl
      · exact List.append_ne_nil_of_right_ne_nil _ (List.cons_ne_nil _ _)
  | close hj =>
      exact (h.report .clientClosed).closeAt
        (List.append_ne_nil_of_right_ne_nil _ (List.cons_ne_nil _ _)) _ _
  | @closeStops j hj hw =>
      refine hquiet ((h.closeAt (h.called j hj) j .returned).move ?_ ?_ fun _ => h.called j hj) rfl
      · change s.writePump ≠ _
        rw [hw]
        rintro ⟨⟩
      · change _ ↔ s.writePump.Past
        rw [hw]
        rfl
  | @closeReturns j hj hd => exact hquiet (h.closeAt (h.called j hj) j .returned) rfl
  | @readFails failure c hr hc =>
      obtain ⟨hreading, rfl⟩ := Client.next_leave hc
      -- the read pump has left its loop, in a client to which an error was reported
      have hleaves : ∀ {l : List RunError} {t : Life}, LifeInv l t → l ≠ [] → t.readEnd = .looping →
          LifeInv l { t with
            client := { t.client with readPump := .returned }
            readEnd := .stopping } := by
        intro l t h hl hr
        refine ⟨⟨fun _ => by rintro ⟨⟩, fun _ => rfl⟩, h.done, h.left, fun _ => hl, h.called, h.waiting,
          fun err herr => ?_⟩
        obtain ⟨-, -, hend⟩ := h.returned err herr
        rw [hr] at hend
        cases hend
      by_cases hd : s.client.done = true
      · have hrep : reports s (.readFails failure) = [] := by simp only [reports, hd, if_true]
        rw [hrep, List.append_nil, if_pos hd]
        exact hleaves h (h.left (past_left (h.done.mp hd))) hr
      · have hrep : reports s (.readFails failure) = [.read failure] := by
          simp only [reports, hd, Bool.false_eq_true, if_false]
        rw [hrep, if_neg hd]
        exact hleaves (h.report (.read failure))
          (List.append_ne_nil_of_right_ne_nil _ (List.cons_ne_nil _ _)) hr
  | readStops hr hw =>
      have hne : s.readEnd ≠ .looping := by
        rw [hr]
        rintro ⟨⟩
      refine hquiet ((h.readReturned hr).move ?_ ?_ fun _ => h.ended hne) rfl
      · change s.writePump ≠ _
        rw [hw]
        rintro ⟨⟩
      · change _ ↔ s.writePump.Past
        rw [hw]
        rfl
  | readReturns hr hd => exact hquiet (h.readReturned hr) rfl
  | closeDone hw hc =>
      rw [Client.next_done hc]
      have hleft : l ≠ [] := h.left (by rw [hw]; trivial)
      have hno := h.result_none (by rw [hw]; rintro ⟨⟩)
      refine hquiet ⟨h.reading, ⟨fun _ => trivial, fun _ => rfl⟩, fun _ => hleft, h.ended, h.called,
        h.waiting, fun err herr => ?_⟩ rfl
      rw [hno] at herr
      cases herr
  | closeSource hw hi =>
      have hleft : l ≠ [] := h.left (by rw [hw]; trivial)
      refine hquiet (h.move ?_ ?_ fun _ => hleft) rfl
      · rw [hw]
        rintro ⟨⟩
      · rw [hw]
        rfl
  | writeReturns hw =>
      have hleft : l ≠ [] := h.left (by rw [hw]; trivial)
      refine hquiet (h.move ?_ ?_ fun _ => hleft) rfl
      · rw [hw]
        rintro ⟨⟩
      · rw [hw]
        rfl
  | @runReturns err hw hr hresult herr =>
      refine hquiet ⟨h.reading, h.done, h.left, h.ended, h.called, ?_, fun err' herr' => ?_⟩ rfl
      · rintro ⟨⟩
      · cases herr'
        exact ⟨by rw [← h.waiting hresult, herr], hw, hr⟩

theorem init : LifeInv [] Life.init := by
  refine ⟨⟨by rintro ⟨⟩, fun h => absurd rfl h⟩, ⟨by rintro ⟨⟩, by rintro ⟨⟩⟩, by rintro ⟨⟩,
    fun h => absurd rfl h, by rintro j ⟨⟩, fun _ => rfl, by rintro err ⟨⟩⟩

end LifeInv

theorem lifeInv_of_run {es : List LifeEvent} {s : Life} (h : lifecycle.run .init es = some s) :
    LifeInv (lifecycle.observe reports .init es) s := by
  refine Machine.run_induction (M := lifecycle)
    (P := fun es s => LifeInv (lifecycle.observe reports .init es) s) .init ?_ h
  intro es s e s' hrun hI hs
  change LifeInv (lifecycle.observe reports lifecycle.init (es ++ [e])) s'
  rw [Machine.observe_snoc reports e hrun]
  exact hI.step (Life.steps_of_next hs).2

/-- **`Run` returns the first error that was reported**, in every run of the client: only when both
pumps have returned, and then it does not wait for one. -/
theorem run_returns_first_report {es : List LifeEvent} {s : Life}
    (h : lifecycle.run .init es = some s) :
    (∀ err, s.result = some err → (lifecycle.observe reports .init es).head? = some err ∧
      s.writePump = .returned ∧ s.readEnd = .returned) ∧
    (s.writePump = .returned → s.readEnd = .returned → s.result = none →
      ∃ err, (lifecycle.observe reports .init es).head? = some err ∧
        s.step .runReturns = some { s with lastErr := none, result := some err }) := by
  have hI := lifeInv_of_run h
  refine ⟨hI.returned, fun hw hr hresult => ?_⟩
  obtain ⟨err, l, hl⟩ := List.exists_cons_of_ne_nil (hI.left (by rw [hw]; trivial))
  have hlast := hI.waiting hresult
  rw [hl, List.head?_cons] at hlast
  refine ⟨err, by rw [hl, List.head?_cons], ?_⟩
  simp only [Life.step, hw, hr, hresult, and_self, if_true, hlast, Option.map_some]

/-- The client after the events `es`. -/
def lifeAfter (es : List LifeEvent) : Life := (lifecycle.run .init es).getD .init

/-- The connection is lost, in a client with one handle. -/
def failedRead : List LifeEvent :=
  [.client (.register "a" threeBytes), .readFails (.failed "EOF"), .readStops, .closeDone,
    .closeSource 0, .writeReturns, .close 0, .runReturns]

theorem run_returns_first_report_failedRead :
    (lifeAfter failedRead).result = some (.read (.failed "EOF")) ∧
    (lifecycle.observe reports .init failedRead).head? = some (.read (.failed "EOF")) := by
  have h : lifecycle.run .init failedRead = some (lifeAfter failedRead) := rfl
  exact ⟨rfl, ((run_returns_first_report h).1 _ rfl).1⟩

/-! ## Sources -/

/-- The handles whose sources a step closes. -/
def closings : Life → LifeEvent → List ℕ
  | s, .client (.unregister i) => if s.client.content i then [i] else []
  | _, .closeSource i => [i]
  | _, _ => []

/-- The handles whose sources are still to be closed. -/
def Life.pending (s : Life) : List ℕ :=
  match s.writePump with
  | .closing rest => rest
  | .returned => []
  | _ => s.client.registered

/-- The sources that were closed and those that are still to be closed are all there are. -/
structure SourcesInv (l : List ℕ) (s : Life) : Prop where
  tables : s.client.Tables
  sources : (l ++ s.pending).Perm (List.range s.client.handles.length)

namespace SourcesInv

variable {l : List ℕ} {s s' : Life} {e : LifeEvent}

theorem pending_of_not_past {s : Life} (h : ¬ s.writePump.Past) : s.pending = s.client.registered := by
  unfold Life.pending
  split
  · rename_i hw
    exact absurd (by rw [hw]; trivial) h
  · rename_i hw
    exact absurd (by rw [hw]; trivial) h
  · rfl

theorem registered_register (c : Client) (path : String) (content : Content) :
    (c.register path content).registered = c.registered ++ [c.handles.length] := by
  have hlen : (c.register path content).handles.length = c.handles.length + 1 := by
    simp [Client.register]
  rw [Client.registered, hlen, List.range_succ, List.filter_append]
  refine congrArg₂ _ (List.filter_congr fun i hi => ?_) ?_
  · exact Function.update_of_ne (List.mem_range.mp hi).ne _ _
  · rw [List.filter_cons_of_pos]
    · rfl
    · exact Function.update_self _ _ _

theorem mem_registered {c : Client} (h : c.Tables) {i : ℕ} (hi : c.content i = true) :
    i ∈ c.registered :=
  List.mem_filter.mpr ⟨List.mem_range.mpr (h.made i hi), hi⟩

theorem registered_unregister {c : Client} (h : c.Tables) {i : ℕ} (hi : c.content i = true)
    (f : String → Option ℕ) :
    (i :: Client.registered { c with content := Function.update c.content i false, forPath := f }).Perm
      c.registered := by
  have herase : Client.registered
      { c with content := Function.update c.content i false, forPath := f } = c.registered.erase i := by
    have hnodup : c.registered.Nodup := List.nodup_range.filter _
    rw [hnodup.erase_eq_filter, Client.registered, Client.registered, List.filter_filter]
    refine List.filter_congr fun j _ => ?_
    change Function.update c.content i false j = _
    by_cases hj : j = i
    · rw [hj, Function.update_self]
      simp
    · rw [Function.update_of_ne hj]
      simp [hj]
  rw [herase]
  exact (List.perm_cons_erase (mem_registered h hi)).symm

/-- A step that closes no source. -/
theorem keep (h : SourcesInv l s) (htables : s'.client.Tables)
    (hlen : s'.client.handles.length = s.client.handles.length) (hp : s'.pending = s.pending)
    (hc : closings s e = []) : SourcesInv (l ++ closings s e) s' := by
  rw [hc, List.append_nil]
  refine ⟨htables, ?_⟩
  rw [hp, hlen]
  exact h.sources

/-- A step of the client. -/
theorem client (h : SourcesInv l s) {e : ClientEvent} {c : Client} {w : WritePoint}
    (hc : s.client.next e = some c) (hw : w = s.writePump ∨ s.writePump = .select ∧ w = .writing)
    (ht : Client.entersTables e = true → s.writePump = .select) :
    SourcesInv (l ++ closings s (.client e)) { s with client := c, writePump := w } := by
  have htables := h.tables.step hc
  -- outside the deferred function
  have hfree : s.writePump = .select → s.pending = s.client.registered ∧
      Life.pending { s with client := c, writePump := w } = c.registered := by
    intro hsel
    refine ⟨pending_of_not_past (by rw [hsel]; exact id), ?_⟩
    rcases hw with rfl | ⟨-, rfl⟩
    · exact pending_of_not_past (by change ¬ s.writePump.Past; rw [hsel]; exact id)
    · rfl
  cases hent : Client.entersTables e with
  | false =>
      obtain ⟨hcontent, -, hlen, -⟩ := Client.sameTables_of_step hent hc
      have hreg : c.registered = s.client.registered := by
        rw [Client.registered, Client.registered, hcontent, hlen]
      refine h.keep htables hlen ?_ (by cases e <;> first | rfl | cases hent)
      rcases hw with rfl | ⟨hsel, rfl⟩
      · unfold Life.pending
        split <;> simp_all
      · rw [(hfree hsel).2, (hfree hsel).1, hreg]
  | true =>
      obtain ⟨hpending, hpending'⟩ := hfree (ht hent)
      have hsources := h.sources
      rw [hpending] at hsources
      have hs := Client.step_of_next hc
      cases e with
      | register path content =>
          simp only [Client.step] at hs
          split at hs <;> cases hs
          refine ⟨htables, ?_⟩
          have hlen : (s.client.register path content).handles.length =
              s.client.handles.length + 1 := by simp [Client.register]
          have hnil : closings s (.client (.register path content)) = [] := rfl
          rw [hpending', registered_register, hlen, List.range_succ, hnil, List.append_nil,
            ← List.append_assoc]
          exact hsources.append_right _
      | unregister i =>
          simp only [Client.step] at hs
          split at hs
          · cases hs
          rcases Client.unregister_cases hs with ⟨hno, rfl⟩ | ⟨path, hi, -, rfl⟩
          · refine h.keep htables rfl (by rw [hpending', hpending]) ?_
            simp only [closings, hno, Bool.false_eq_true, if_false]
          · refine ⟨htables, ?_⟩
            rw [hpending']
            have hperm := registered_unregister h.tables hi
              (Function.update s.client.forPath path none)
            have hclosings : closings s (.client (.unregister i)) = [i] := by
              simp only [closings, hi, if_true]
            rw [hclosings, List.append_assoc]
            exact (hperm.append_left l).trans hsources
      | _ => cases hent

/-- **Every step keeps the account of the sources.** -/
theorem step (h : SourcesInv l s) (hs : s.Steps e s') : SourcesInv (l ++ closings s e) s' := by
  -- the write pump goes on, before it closes `done`
  have hmove : ∀ {t : Life}, t.client = s.client → ¬ s.writePump.Past → ¬ t.writePump.Past →
      t.pending = s.pending := by
    intro t hc hw hw'
    rw [pending_of_not_past hw, pending_of_not_past hw', hc]
  cases hs with
  | client hdone hleave hc hw ht => exact h.client hc hw ht
  | wrote hw | ping hw | writeFails _ hw | closeStops _ hw | readStops _ hw =>
      exact h.keep h.tables rfl (hmove rfl (by rw [hw]; exact id) id) rfl
  | close | closeReturns | readReturns | runReturns => exact h.keep h.tables rfl rfl rfl
  | readFails failure hr hc =>
      obtain ⟨-, rfl⟩ := Client.next_leave hc
      have htables : Client.Tables { s.client with readPump := .returned } :=
        ⟨h.tables.made, h.tables.points⟩
      by_cases hd : s.client.done = true
      · rw [if_pos hd]
        exact h.keep htables rfl rfl rfl
      · rw [if_neg hd]
        exact h.keep htables rfl rfl rfl
  | closeDone hw hc =>
      rw [Client.next_done hc]
      refine h.keep ⟨h.tables.made, h.tables.points⟩ rfl ?_ rfl
      rw [pending_of_not_past (s := s) (by rw [hw]; exact id)]
      rfl
  | @closeSource i rest hw hi =>
      have hsources := h.sources
      refine ⟨h.tables, ?_⟩
      have hpending : s.pending = rest := by rw [Life.pending, hw]
      rw [hpending] at hsources
      change (l ++ [i] ++ rest.erase i).Perm _
      rw [List.append_assoc]
      exact ((List.perm_cons_erase hi).symm.append_left l).trans hsources
  | writeReturns hw =>
      refine h.keep h.tables rfl ?_ rfl
      rw [Life.pending, Life.pending, hw]

end SourcesInv

theorem sourcesInv_of_run {es : List LifeEvent} {s : Life} (h : lifecycle.run .init es = some s) :
    SourcesInv (lifecycle.observe closings .init es) s := by
  refine Machine.run_induction (M := lifecycle)
    (P := fun es s => SourcesInv (lifecycle.observe closings .init es) s)
    ⟨Client.tables_init, List.Perm.refl _⟩ ?_ h
  intro es s e s' hrun hI hs
  change SourcesInv (lifecycle.observe closings lifecycle.init (es ++ [e])) s'
  rw [Machine.observe_snoc closings e hrun]
  exact hI.step (Life.steps_of_next hs).2

/-- **The source of every handle is closed once**, in every run of the client: the handles whose
source was closed and those for which this is still to be done are, without repetition, all handles
that were registered; and when the write pump has returned, it was done for all of them. -/
theorem sources_closed_once {es : List LifeEvent} {s : Life} (h : lifecycle.run .init es = some s) :
    (lifecycle.observe closings .init es ++ s.pending).Perm (List.range s.client.handles.length) ∧
    (lifecycle.observe closings .init es).Nodup ∧
    (s.writePump = .returned →
      ∀ i, i ∈ lifecycle.observe closings .init es ↔ i < s.client.handles.length) := by
  have hsources := (sourcesInv_of_run h).sources
  refine ⟨hsources, ?_, fun hw i => ?_⟩
  · exact (List.nodup_append.mp (hsources.nodup_iff.mpr List.nodup_range)).1
  · have hpending : s.pending = [] := by rw [Life.pending, hw]
    rw [hpending, List.append_nil] at hsources
    rw [hsources.mem_iff, List.mem_range]

theorem sources_closed_once_failedRead : 0 ∈ lifecycle.observe closings .init failedRead := by
  have h : lifecycle.run .init failedRead = some (lifeAfter failedRead) := rfl
  exact ((sources_closed_once h).2.2 rfl 0).mpr Nat.one_pos

end Loon.GoClient
