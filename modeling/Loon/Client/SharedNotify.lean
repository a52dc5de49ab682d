import Loon.Lib.Alternate
import Loon.Client.SharedCalls

set_option autoImplicit false

/-!
# Ready and disconnect of a shared client

The callbacks that the user of a shared client has set are called by the callbacks of the wrapped
client, by the end of `start` if the wrapped client was started before, and by `stop` if the wrapped
client goes on. They are to be called at the beginning and the end of each period in which the wrapped
connection is ready and the shared client is started.

* `inPeriod`, `periods`: the periods, as the list of their beginnings and ends;
* `Timely`: the steps on which no event falls into one of the gaps of `start` and `stop`;
* `Notified`: the invariant; the calls agree with the periods, or one call is owed by `start`, or
  `stop` is one call ahead;
* **`shared_notifications_exact`**: on every run of such steps the calls alternate and are, whenever
  no call is in progress, exactly the beginnings and ends of the periods.
-/

namespace Loon

/-- The beginning or the end of a period, from whether there is one before and after a step. -/
def boundary : Bool → Bool → List ClientCallback
  | false, true => [.ready]
  | true, false => [.disconnect]
  | _, _ => []

namespace SharedCalls

/-- The wrapped connection is ready while the shared client `i` is started. -/
def inPeriod (s : SharedCalls) (i : ℕ) : Bool := s.ready && (s.callers i).started

/-- The boundary of a period of `i` at a step. -/
def boundaryAt (i : ℕ) (s : SharedCalls) (e : SharedCallsEvent) : List ClientCallback :=
  (s.next e).elim [] fun s' => boundary (s.inPeriod i) (s'.inPeriod i)

/-- The beginnings and ends of the periods of `i` so far. -/
def periods (i : ℕ) (es : List SharedCallsEvent) : List ClientCallback :=
  sharedCalls.observe (boundaryAt i) .init es

/-- No event falls into a gap of a call of `i`: when `start` sets `m_started` a connection that is
ready was found started before; `m_on_ready_called` is not set when `start` clears it; a connection
whose callback is due is found ready; `m_on_ready_called` is not set when `stop` clears `m_started`;
and the connection is not lost while the callback of `start` is due. -/
structure Timely (i : ℕ) (s : SharedCalls) (e : SharedCallsEvent) : Prop where
  set : ∀ w, e = .step i → (s.callers i).point = .setStarted w → s.ready = true → w = true
  clear : ∀ w, e = .step i → (s.callers i).point = .clearReady w →
    (s.callers i).onReadyCalled = false
  check : e = .step i → (s.callers i).point = .checkReady → s.ready = true →
    (s.callers i).onReadyCalled = false → s.started = true
  stop : ∀ d, e = .step i → (s.callers i).point = .clearStarted d →
    (s.callers i).onReadyCalled = false
  lost : e = .disconnect → (s.callers i).point ≠ .callReady ∧
    ((s.callers i).point = .clearReady true ∨ (s.callers i).point = .checkReady →
      (s.callers i).onReadyCalled = true)

end SharedCalls

/-- The points at which the calls may be one short of the periods, or one ahead. -/
def SharedPoint.inGap : SharedPoint → Bool
  | .clearReady wasStarted => wasStarted
  | .checkReady => true
  | .callReady => true
  | .clearStarted _ => true
  | _ => false

namespace SharedCaller

/-- The calls are the boundaries `B`, and the flag says whether there is a period. -/
structure Balanced (c : SharedCaller) (ready : Bool) (B : List ClientCallback) : Prop where
  calls : c.calls = B
  called : c.onReadyCalled = (ready && c.started)

/-- `start` owes the call for a period that has begun. -/
structure Owes (c : SharedCaller) (ready : Bool) (B : List ClientCallback) : Prop where
  point : c.point = .clearReady true ∨ c.point = .checkReady ∨ c.point = .callReady
  ready : ready = true
  started : c.started = true
  called : c.onReadyCalled = false
  calls : B = c.calls ++ [.ready]

/-- `stop` has made the call for a period that has not ended. -/
structure Ahead (c : SharedCaller) (ready : Bool) (B : List ClientCallback) : Prop where
  point : ∃ d, c.point = .clearStarted d
  ready : ready = true
  started : c.started = true
  called : c.onReadyCalled = false
  calls : c.calls = B ++ [.disconnect]

/-- **The invariant of the calls** of a shared client. -/
structure Notified (c : SharedCaller) (ready : Bool) (B : List ClientCallback) : Prop where
  proper : c.Proper
  calling : c.point = .callReady → ready = true
  phase : c.Balanced ready B ∨ c.Owes ready B ∨ c.Ahead ready B

variable {c c' : SharedCaller} {r : Bool} {B : List ClientCallback}

/-- Outside of the gaps the calls agree with the periods. -/
theorem Notified.balanced (h : c.Notified r B) (hg : c.point.inGap = false) : c.Balanced r B := by
  rcases h.phase with hb | ho | ⟨⟨d, hd⟩, -⟩
  · exact hb
  · rcases ho.point with hp | hp | hp <;> rw [hp] at hg <;> cases hg
  · rw [hd] at hg
    cases hg

/-- The call goes on, and neither flags nor calls change. -/
theorem Balanced.move (h : c.Balanced r B) (hs : c'.started = c.started)
    (hr : c'.onReadyCalled = c.onReadyCalled) (hc : c'.calls = c.calls) : c'.Balanced r B :=
  ⟨hc.trans h.calls, by rw [hr, hs]; exact h.called⟩

/-- **The ready callback of the wrapped client.** -/
theorem Notified.onReady (h : c.Notified false B) :
    c.onReady.Notified true (B ++ boundary false c.started) := by
  obtain ⟨hp, hs⟩ := onReady_same c
  have hb : c.Balanced false B := by
    rcases h.phase with hb | ho | ha
    · exact hb
    · cases ho.ready
    · cases ha.ready
  have hcalled : c.onReadyCalled = false := hb.called
  refine ⟨(counted_congr hp hs).2.2.mpr h.proper, fun _ => rfl, .inl ?_⟩
  unfold SharedCaller.onReady
  cases hst : c.started with
  | true =>
      simp only [hcalled, Bool.not_false, Bool.and_self, if_true]
      exact ⟨by simp only [hb.calls, boundary], by simp only [Bool.and_self]⟩
  | false =>
      simp only [Bool.false_and, Bool.false_eq_true, if_false]
      exact ⟨by simp only [hb.calls, boundary, List.append_nil],
        by simp only [hcalled, hst, Bool.and_false]⟩

/-- **The disconnect callback of the wrapped client**, when no call of `start` is due. -/
theorem Notified.onDisconnect (h : c.Notified true B) (hcall : c.point ≠ .callReady)
    (hdue : c.point = .clearReady true ∨ c.point = .checkReady → c.onReadyCalled = true) :
    c.onDisconnect.Notified false (B ++ boundary c.started false) := by
  obtain ⟨hp, hs⟩ := onDisconnect_same c
  refine ⟨(counted_congr hp hs).2.2.mpr h.proper, fun hp' => absurd (hp ▸ hp') hcall, .inl ?_⟩
  unfold SharedCaller.onDisconnect
  rcases h.phase with hb | ho | ha
  · have hcalled : c.onReadyCalled = c.started := by simpa using hb.called
    cases hst : c.started with
    | true =>
        simp only [hcalled, hst, if_true]
        exact ⟨by simp only [hb.calls, boundary], rfl⟩
    | false =>
        simp only [hcalled, hst, Bool.false_eq_true, if_false]
        exact ⟨by simp only [hb.calls, boundary, List.append_nil],
          by simp only [hcalled, hst, Bool.and_false]⟩
  · have hset : c.onReadyCalled = true := by
      rcases ho.point with hp | hp | hp
      · exact hdue (.inl hp)
      · exact hdue (.inr hp)
      · exact absurd hp hcall
    rw [ho.called] at hset
    cases hset
  · simp only [ha.called, Bool.false_eq_true, if_false, ha.started]
    exact ⟨by simp only [ha.calls, boundary], by simp only [ha.called, Bool.false_and]⟩

theorem boundary_self (b : Bool) : boundary b b = [] := by
  cases b <;> rfl

/-- Most steps of a call change no flag. -/
theorem Balanced.pass (hb : c.Balanced r B) (hproper : c'.Proper) (hs : c'.started = c.started)
    (hr : c'.onReadyCalled = c.onReadyCalled) (hc : c'.calls = c.calls)
    (hcall : c'.point = .callReady → r = true) :
    c'.Notified r (B ++ boundary (r && c.started) (r && c'.started)) := by
  rw [hs, boundary_self, List.append_nil]
  exact ⟨hproper, hcall, .inl (hb.move hs hr hc)⟩

/-- `start` sets `m_started`. -/
theorem Notified.setStarted (h : c.Notified r B) {w : Bool} (hp : c.point = .setStarted w)
    (hw : r = true → w = true) (hproper : Proper { c with point := .clearReady w, started := true }) :
    Notified { c with point := .clearReady w, started := true } r
      (B ++ boundary (r && c.started) (r && true)) := by
  have hst : c.started = false := by
    have hP := h.proper
    simpa only [Proper, hp] using hP
  have hb := h.balanced (by rw [hp]; rfl)
  have hcalled : c.onReadyCalled = false := by rw [hb.called, hst, Bool.and_false]
  refine ⟨hproper, by rintro ⟨⟩, ?_⟩
  cases r with
  | false => exact .inl ⟨by simp [hb.calls, boundary, hst], hcalled⟩
  | true =>
      rw [hst, hw rfl]
      exact .inr (.inl ⟨.inl rfl, rfl, rfl, hcalled, by rw [← hb.calls]; rfl⟩)

/-- `start` clears `m_on_ready_called`. -/
theorem Notified.clearReady (h : c.Notified r B) {w : Bool} (hp : c.point = .clearReady w)
    (hcalled : c.onReadyCalled = false)
    (hproper : Proper { c with point := if w then .checkReady else .idle, onReadyCalled := false }) :
    Notified { c with point := if w then .checkReady else .idle, onReadyCalled := false } r B := by
  refine ⟨hproper, ?_, ?_⟩
  · cases w <;> rintro ⟨⟩
  · rcases h.phase with hb | ho | ⟨⟨d, hd⟩, -⟩
    · exact .inl ⟨hb.calls, by rw [← hcalled]; exact hb.called⟩
    · have hw : w = true := by
        rcases ho.point with h' | h' | h' <;> rw [hp] at h' <;> cases h'
        rfl
      subst hw
      exact .inr (.inl ⟨.inr (.inl rfl), ho.ready, ho.started, rfl, ho.calls⟩)
    · rw [hp] at hd
      cases hd

/-- `start` asks whether the wrapped client is ready. -/
theorem Notified.checkReady (h : c.Notified r B) (hp : c.point = .checkReady) {started : Bool}
    (hdue : r = true → c.onReadyCalled = false → started = true)
    (hproper : Proper { c with point := if started && r then .callReady else .idle }) :
    Notified { c with point := if started && r then .callReady else .idle } r B := by
  refine ⟨hproper, fun hcall => ?_, ?_⟩
  · cases r with
    | true => rfl
    | false =>
        rw [Bool.and_false] at hcall
        cases hcall
  · rcases h.phase with hb | ho | ⟨⟨d, hd⟩, -⟩
    · exact .inl ⟨hb.calls, hb.called⟩
    · refine .inr (.inl ⟨.inr (.inr ?_), ho.ready, ho.started, ho.called, ho.calls⟩)
      rw [hdue ho.ready ho.called, ho.ready]
      rfl
    · rw [hp] at hd
      cases hd

/-- `start` calls the ready callback. -/
theorem Notified.callReady (h : c.Notified r B) (hp : c.point = .callReady)
    (hproper : Proper { c.onReady with point := .idle }) :
    Notified { c.onReady with point := .idle } r B := by
  have hst : c.started = true := by
    have hP := h.proper
    simpa only [Proper, hp] using hP
  have hr := h.calling hp
  subst hr
  refine ⟨hproper, by rintro ⟨⟩, .inl ?_⟩
  unfold SharedCaller.onReady
  rcases h.phase with hb | ho | ⟨⟨d, hd⟩, -⟩
  · have hcalled : c.onReadyCalled = true := by rw [hb.called, hst, Bool.and_self]
    simp only [hcalled, Bool.not_true, Bool.and_false, Bool.false_eq_true, if_false]
    exact ⟨hb.calls, by simp only [hst, Bool.and_self]⟩
  · simp only [hst, ho.called, Bool.not_false, Bool.and_self, if_true]
    exact ⟨ho.calls.symm, rfl⟩
  · rw [hp] at hd
    cases hd

/-- `stop` calls the disconnect callback. -/
theorem Notified.callDisconnect (h : c.Notified r B) {d : Bool} (hp : c.point = .callDisconnect d)
    (hproper : Proper { c.onDisconnect with point := .clearStarted d }) :
    Notified { c.onDisconnect with point := .clearStarted d } r B := by
  have hst : c.started = true := by
    have hP := h.proper
    simpa only [Proper, hp] using hP
  have hb := h.balanced (by rw [hp]; rfl)
  have hcalled : c.onReadyCalled = r := by rw [hb.called, hst, Bool.and_true]
  refine ⟨hproper, by rintro ⟨⟩, ?_⟩
  unfold SharedCaller.onDisconnect
  cases r with
  | true =>
      simp only [hcalled, if_true]
      exact .inr (.inr ⟨⟨d, rfl⟩, rfl, hst, rfl, by rw [hb.calls]⟩)
  | false =>
      simp only [hcalled, Bool.false_eq_true, if_false]
      exact .inl ⟨hb.calls, by rw [hst]; rfl⟩

/-- `stop` clears `m_started`. -/
theorem Notified.clearStarted (h : c.Notified r B) {d : Bool} (hp : c.point = .clearStarted d)
    (hcalled : c.onReadyCalled = false)
    (hproper : Proper { c with point := if d then .release else .idle, started := false }) :
    Notified { c with point := if d then .release else .idle, started := false } r
      (B ++ boundary (r && c.started) (r && false)) := by
  have hst : c.started = true := by
    have hP := h.proper
    simpa only [Proper, hp] using hP
  refine ⟨hproper, by cases d <;> rintro ⟨⟩, .inl ?_⟩
  rcases h.phase with hb | ho | ha
  · have hr : r = false := by rw [← hcalled, hb.called, hst, Bool.and_true]
    subst hr
    exact ⟨by simp [hb.calls, boundary], hcalled⟩
  · rcases ho.point with h' | h' | h' <;> rw [hp] at h' <;> cases h'
  · rw [ha.ready, hst]
    exact ⟨ha.calls, hcalled⟩

/-- **The next step of a call**, when no event has fallen into a gap. -/
theorem Notified.advance (h : c.Notified r B) {started : Bool} {previousCount : ℕ}
    (hset : ∀ w, c.point = .setStarted w → r = true → w = true)
    (hclear : ∀ w, c.point = .clearReady w → c.onReadyCalled = false)
    (hcheck : c.point = .checkReady → r = true → c.onReadyCalled = false → started = true)
    (hstop : ∀ d, c.point = .clearStarted d → c.onReadyCalled = false)
    (hs : c.advance started r previousCount = some c') :
    c'.Notified r (B ++ boundary (r && c.started) (r && c'.started)) := by
  have hproper := (advance_spec h.proper hs).1
  unfold SharedCaller.advance at hs
  cases hp : c.point with
  | idle | destroyed =>
      simp only [hp] at hs
      cases hs
  | setStarted w =>
      simp only [hp, Option.some.injEq] at hs
      subst hs
      exact h.setStarted hp (hset w hp) hproper
  | clearReady w =>
      simp only [hp, Option.some.injEq] at hs
      subst hs
      rw [boundary_self, List.append_nil]
      exact h.clearReady hp (hclear w hp) hproper
  | checkReady =>
      simp only [hp, Option.some.injEq] at hs
      subst hs
      rw [boundary_self, List.append_nil]
      exact h.checkReady hp (hcheck hp) hproper
  | callReady =>
      simp only [hp, Option.some.injEq] at hs
      subst hs
      have hb : boundary (r && c.started) (r && c.onReady.started) = [] := by
        rw [(onReady_same c).2, boundary_self]
      change Notified _ r (B ++ boundary (r && c.started) (r && c.onReady.started))
      rw [hb, List.append_nil]
      exact h.callReady hp hproper
  | callDisconnect d =>
      simp only [hp, Option.some.injEq] at hs
      subst hs
      have hb : boundary (r && c.started) (r && c.onDisconnect.started) = [] := by
        rw [(onDisconnect_same c).2, boundary_self]
      change Notified _ r (B ++ boundary (r && c.started) (r && c.onDisconnect.started))
      rw [hb, List.append_nil]
      exact h.callDisconnect hp hproper
  | clearStarted d =>
      simp only [hp, Option.some.injEq] at hs
      subst hs
      exact h.clearStarted hp (hstop d hp) hproper
  | removeStarted d =>
      simp only [hp, Option.some.injEq] at hs
      subst hs
      have hb := h.balanced (by rw [hp]; rfl)
      refine hb.pass hproper rfl rfl rfl ?_
      simp only
      split <;> rintro ⟨⟩
  | _ =>
      simp only [hp, Option.some.injEq] at hs
      subst hs
      have hb := h.balanced (by rw [hp]; rfl)
      exact hb.pass hproper rfl rfl rfl (by rintro ⟨⟩)

end SharedCaller

/-! ## All shared clients -/

namespace SharedCalls

variable {s s' : SharedCalls} {i : ℕ} {B : List ClientCallback}

theorem boundaryAt_of_next {e : SharedCallsEvent} (hs : s.next e = some s') :
    boundaryAt i s e = boundary (s.inPeriod i) (s'.inPeriod i) := by
  rw [boundaryAt, hs, Option.elim_some]

/-- Nothing happens to the shared client. -/
theorem notified_of_same (h : (s.callers i).Notified s.ready B) (hc : s'.callers i = s.callers i)
    (hr : s'.ready = s.ready) :
    (s'.callers i).Notified s'.ready (B ++ boundary (s.inPeriod i) (s'.inPeriod i)) := by
  unfold inPeriod
  rw [hc, hr, SharedCaller.boundary_self, List.append_nil]
  exact h

/-- A call begins, of the shared client or of another. -/
theorem notified_of_enter (h : (s.callers i).Notified s.ready B) {j : ℕ} {a b : SharedPoint}
    (ha : ∀ c : SharedCaller, c.point = a → c.started = true → c.Proper)
    (hb : ∀ c : SharedCaller, c.point = b → c.started = false → c.Proper)
    (hcall : a ≠ .callReady ∧ b ≠ .callReady) (hs : s.enter j a b = some s') :
    (s'.callers i).Notified s'.ready (B ++ boundary (s.inPeriod i) (s'.inPeriod i)) := by
  unfold SharedCalls.enter at hs
  split at hs
  swap
  · cases hs
  rename_i hidle
  cases hs
  by_cases hij : i = j
  swap
  · exact notified_of_same h (Function.update_of_ne hij _ _) rfl
  subst hij
  have hbal := h.balanced (by rw [hidle]; rfl)
  unfold inPeriod
  simp only [Function.update_self]
  refine hbal.pass ?_ rfl rfl rfl fun hp => ?_
  · cases hst : (s.callers i).started with
    | true => exact ha _ rfl rfl
    | false => exact hb _ rfl rfl
  · cases hst : (s.callers i).started with
    | true =>
        rw [hst] at hp
        exact absurd hp hcall.1
    | false =>
        rw [hst] at hp
        exact absurd hp hcall.2

/-- **A step keeps the invariant**, when no event falls into a gap. -/
theorem notified_of_next (h : (s.callers i).Notified s.ready B) {e : SharedCallsEvent}
    (ht : Timely i s e) (hs : s.next e = some s') :
    (s'.callers i).Notified s'.ready (B ++ boundaryAt i s e) := by
  rw [boundaryAt_of_next hs]
  cases e with
  | start j | stop j | destroy j =>
      refine notified_of_enter h (fun c hc hst => ?_) (fun c hc hst => ?_)
        ⟨by rintro ⟨⟩, by rintro ⟨⟩⟩ hs
      · simp [SharedCaller.Proper, hc, hst]
      · simp [SharedCaller.Proper, hc, hst]
  | step j =>
      obtain ⟨c, ha⟩ := advances_of_next hs
      by_cases hij : i = j
      swap
      · exact notified_of_same h (ha.other i hij) ha.ready
      subst hij
      unfold inPeriod
      rw [ha.self, ha.ready]
      exact h.advance (fun w hw => ht.set w rfl hw) (fun w hw => ht.clear w rfl hw)
        (fun hp => ht.check rfl hp) (fun d hd => ht.stop d rfl hd) ha.step
  | ready =>
      simp only [SharedCalls.next] at hs
      split at hs
      · cases hs
      rename_i hr
      cases hs
      have hr : s.ready = false := by simpa only [Bool.not_eq_true] using hr
      rw [hr] at h
      unfold inPeriod
      rw [hr, Bool.false_and, Bool.true_and, (SharedCaller.onReady_same _).2]
      exact h.onReady
  | disconnect =>
      simp only [SharedCalls.next] at hs
      split at hs
      swap
      · cases hs
      rename_i hr
      cases hs
      rw [hr] at h
      unfold inPeriod
      rw [hr, Bool.false_and, Bool.true_and]
      exact h.onDisconnect (ht.lost rfl).1 (ht.lost rfl).2
  | outside b =>
      cases hs
      exact notified_of_same h rfl rfl

/-- The boundaries of the periods alternate, and there is a period now if they end with a
beginning. -/
theorem periods_alternate {es : List SharedCallsEvent} (hr : sharedCalls.run .init es = some s) :
    Alternates .ready .disconnect (periods i es) ∧
      (periods i es).length % 2 = (s.inPeriod i).toNat := by
  refine Machine.run_induction (M := sharedCalls)
    (P := fun es s => Alternates .ready .disconnect (periods i es) ∧
      (periods i es).length % 2 = (s.inPeriod i).toNat) ⟨Alternates.nil, rfl⟩ ?_ hr
  intro es s e s' hr ⟨hA, hlen⟩ hs
  have hsnoc : periods i (es ++ [e]) = periods i es ++ boundary (s.inPeriod i) (s'.inPeriod i) := by
    rw [← boundaryAt_of_next hs]
    exact Machine.observe_snoc (M := sharedCalls) (boundaryAt i) e hr
  rw [hsnoc]
  cases h1 : s.inPeriod i <;> cases h2 : s'.inPeriod i <;> rw [h1] at hlen <;>
    simp only [boundary, List.append_nil, List.length_append, List.length_singleton]
  · exact ⟨hA, hlen⟩
  · exact ⟨hA.snoc_fst hlen, by simp only [Bool.toNat_true, Bool.toNat_false] at hlen ⊢; omega⟩
  · exact ⟨hA.snoc_snd hlen, by simp only [Bool.toNat_true, Bool.toNat_false] at hlen ⊢; omega⟩
  · exact ⟨hA, hlen⟩

/-- **The invariant of every run** on which no event falls into a gap. -/
theorem notified_of_run {es : List SharedCallsEvent} (hr : sharedCalls.run .init es = some s)
    (hC : sharedCalls.Along (Timely i) .init es) :
    (s.callers i).Notified s.ready (periods i es) := by
  refine Machine.Along.induction (M := sharedCalls) (C := Timely i)
    (P := fun es s => (s.callers i).Notified s.ready (periods i es)) ?_ ?_ hC hr
  · exact ⟨trivial, by rintro ⟨⟩, .inl ⟨rfl, rfl⟩⟩
  · intro es s e s' hr h ht hs
    have hsnoc : periods i (es ++ [e]) = periods i es ++ boundaryAt i s e :=
      Machine.observe_snoc (M := sharedCalls) (boundaryAt i) e hr
    rw [hsnoc]
    exact notified_of_next h ht hs

end SharedCalls

open SharedCalls in
/-- **Every period is notified exactly once**: on every run on which no event falls into a gap of the
calls of a shared client, its callbacks are called in alternation, and exactly at the beginnings and
ends of the periods in which the wrapped connection is ready and it is started. Only while `start` is
about to make the call for a period that has begun, or `stop` about to end the period it has made the
call for, they differ by that call. -/
theorem shared_notifications_exact {i : ℕ} {es : List SharedCallsEvent} {s : SharedCalls}
    (hr : sharedCalls.run .init es = some s) (hC : sharedCalls.Along (Timely i) .init es) :
    Alternates .ready .disconnect (s.callers i).calls ∧
    ((s.callers i).point = .idle ∨ (s.callers i).point = .destroyed →
      (s.callers i).calls = periods i es) ∧
    ((s.callers i).calls = periods i es ∨
      ((s.callers i).point = .clearReady true ∨ (s.callers i).point = .checkReady ∨
        (s.callers i).point = .callReady) ∧ (s.callers i).calls ++ [.ready] = periods i es ∨
      (∃ d, (s.callers i).point = .clearStarted d) ∧
        (s.callers i).calls = periods i es ++ [.disconnect]) := by
  have h := notified_of_run hr hC
  obtain ⟨hA, hlen⟩ := periods_alternate (i := i) hr
  refine ⟨?_, fun hp => ?_, ?_⟩
  · rcases h.phase with hb | ho | ha
    · rw [hb.calls]
      exact hA
    · rw [ho.calls] at hA
      exact hA.of_append
    · rw [ha.calls]
      refine hA.snoc_snd ?_
      rw [hlen, inPeriod, ha.ready, ha.started]
      rfl
  · refine (h.balanced ?_).calls
    rcases hp with hp | hp <;> rw [hp] <;> rfl
  · rcases h.phase with hb | ho | ha
    · exact .inl hb.calls
    · exact .inr (.inl ⟨ho.point, ho.calls.symm⟩)
    · exact .inr (.inr ⟨ha.point, ha.calls⟩)

/-! ## Sample runs -/

/-- The second shared client starts while the connection of the first one is ready, and stops. -/
def secondComesAndGoes : List SharedCallsEvent :=
  firstStarts ++ [.ready, .start 1, .step 1, .step 1, .step 1, .step 1, .step 1, .step 1, .step 1,
    .stop 1, .step 1, .step 1, .step 1]

/-- The connection becomes ready after `start` has started the wrapped client and before it sets
`m_started`. -/
def readyBeforeStarted : List SharedCallsEvent :=
  [.start 0, .step 0, .step 0, .step 0, .ready, .step 0, .step 0]

theorem shared_notifications_exact_secondComesAndGoes :
    SharedCalls.periods 1 secondComesAndGoes = [.ready, .disconnect] ∧
    ((sharedCallsAfter secondComesAndGoes).callers 1).calls =
      SharedCalls.periods 1 secondComesAndGoes := by
  have hrun : sharedCalls.run .init secondComesAndGoes =
      some (sharedCallsAfter secondComesAndGoes) := rfl
  refine ⟨rfl, (shared_notifications_exact hrun ?_).2.1 (.inl rfl)⟩
  iterate 19
    refine ⟨⟨?_, ?_, ?_, ?_, ?_⟩, ?_⟩
    · rintro _ ⟨⟩ ⟨⟩ ⟨⟩ <;> rfl
    · rintro _ ⟨⟩ ⟨⟩ <;> rfl
    · rintro ⟨⟩ ⟨⟩ ⟨⟩ <;> rintro ⟨⟩ <;> rfl
    · rintro _ ⟨⟩ ⟨⟩ <;> rfl
    · rintro ⟨⟩
    rintro _ ⟨⟩
  trivial

/-- The user is never told of the period. -/
theorem start_misses_ready :
    sharedCalls.run .init readyBeforeStarted = some (sharedCallsAfter readyBeforeStarted) ∧
    ((sharedCallsAfter readyBeforeStarted).callers 0).point = .idle ∧
    ((sharedCallsAfter readyBeforeStarted).callers 0).calls = [] ∧
    SharedCalls.periods 0 readyBeforeStarted = [.ready] ∧
    ¬ ((sharedCallsAfter readyBeforeStarted).callers 0).calls =
      SharedCalls.periods 0 readyBeforeStarted := by
  refine ⟨rfl, rfl, rfl, rfl, ?_⟩
  rintro ⟨⟩

end Loon
