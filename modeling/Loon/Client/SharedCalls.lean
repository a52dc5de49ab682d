import Loon.Client.ClientImpl
import Loon.Client.Bookkeeping

set_option autoImplicit false

/-!
# Shared clients on several threads

The shared clients of one wrapped client, each used by a thread of its own. A shared client holds only
its own lock in `start`, `stop` and the destructor, so their steps fall between those of the others:
the counter operations, the delegated calls and the stores of the flags are one step each. The
callbacks of the wrapped client run between any two steps.

* `SharedPoint`, `SharedCaller.advance`: where a call is, and its next step;
* `SharedCalls`, `sharedCalls`: the shared clients with the wrapped client and the counter;
* `counted`, `holds`: a shared client is in the counter; it is, and has delegated its start;
* `CallsInv`: the invariant; the wrapped client is started while one holds it;
* **`wrapped_client_runs_while_needed`**: between calls the wrapped client is started if and only if a
  shared client is, on every run on which no delegated `stop` overtakes a start.
-/

namespace Loon

/-- Where a shared client is in its calls: at the step that comes next. `wasStarted` is what `start`
remembers of the wrapped client, `destructor` whether `stop` runs in the destructor. -/
inductive SharedPoint where
  | idle
  | readStarted
  | addStarted (wasStarted : Bool)
  | delegateStart (wasStarted : Bool)
  | setStarted (wasStarted : Bool)
  | clearReady (wasStarted : Bool)
  | checkReady
  | callReady
  | startAgain
  | removeStarted (destructor : Bool)
  | delegateStop (destructor : Bool)
  | callDisconnect (destructor : Bool)
  | clearStarted (destructor : Bool)
  | release
  | destroyed
  deriving DecidableEq, Repr

/-- A shared client whose user has set both callbacks, with the calls of these. -/
structure SharedCaller where
  point : SharedPoint
  started : Bool
  onReadyCalled : Bool
  calls : List ClientCallback
  deriving DecidableEq, Repr

namespace SharedCaller

variable (c : SharedCaller)

/-- The callback that `on_ready` has set. -/
def onReady : SharedCaller :=
  if c.started && !c.onReadyCalled then
    { c with onReadyCalled := true, calls := c.calls ++ [.ready] }
  else c

/-- The callback that `on_disconnect` has set. -/
def onDisconnect : SharedCaller :=
  if c.onReadyCalled then { c with onReadyCalled := false, calls := c.calls ++ [.disconnect] }
  else c

/-- The next step of a call; the wrapped client is `started` and `ready`, and a `remove` on the
counter returns `previousCount`. -/
def advance (started ready : Bool) (previousCount : ℕ) : Option SharedCaller :=
  match c.point with
  | .idle => none
  | .readStarted => some { c with point := .addStarted started }
  | .addStarted wasStarted => some { c with point := .delegateStart wasStarted }
  | .delegateStart wasStarted => some { c with point := .setStarted wasStarted }
  | .setStarted wasStarted => some { c with point := .clearReady wasStarted, started := true }
  | .clearReady wasStarted =>
    some { c with point := if wasStarted then .checkReady else .idle, onReadyCalled := false }
  | .checkReady => some { c with point := if started && ready then .callReady else .idle }
  | .callReady => some { c.onReady with point := .idle }
  | .startAgain => some { c with point := .idle }
  | .removeStarted destructor =>
    some { c with
      point := if previousCount = 1 then .delegateStop destructor else .callDisconnect destructor }
  | .delegateStop destructor => some { c with point := .clearStarted destructor }
  | .callDisconnect destructor => some { c.onDisconnect with point := .clearStarted destructor }
  | .clearStarted destructor =>
    some { c with point := if destructor then .release else .idle, started := false }
  | .release => some { c with point := .destroyed }
  | .destroyed => none

end SharedCaller

namespace SharedPoint

/-- The counter after the step. -/
def counter (m : SharedReferenceCounter Unit) : SharedPoint → SharedReferenceCounter Unit
  | .addStarted _ => (m.add ()).1
  | .removeStarted _ => (m.remove ()).1
  | _ => m

/-- Whether the wrapped client is started after the step. -/
def delegates (started : Bool) : SharedPoint → Bool
  | .delegateStart _ => true
  | .startAgain => true
  | .delegateStop _ => false
  | _ => started

end SharedPoint

/-- The shared clients of one wrapped client, the counter of the started ones, and the wrapped client:
whether it is started and whether its connection is ready. -/
structure SharedCalls where
  callers : ℕ → SharedCaller
  counter : SharedReferenceCounter Unit
  started : Bool
  ready : Bool

/-- The beginning of a call, its next step, and what the wrapped client does: its connection becomes
ready or is lost, or it is started, stopped or fails from outside. -/
inductive SharedCallsEvent where
  | start (i : ℕ)
  | stop (i : ℕ)
  | destroy (i : ℕ)
  | step (i : ℕ)
  | ready
  | disconnect
  | outside (started : Bool)
  deriving DecidableEq, Repr

namespace SharedCalls

def init : SharedCalls where
  callers _ := ⟨.idle, false, false, []⟩
  counter _ := none
  started := false
  ready := false

variable (s : SharedCalls)

/-- A call of the shared client `i` begins; it has none in progress. -/
def enter (i : ℕ) (whenStarted otherwise : SharedPoint) : Option SharedCalls :=
  if (s.callers i).point = .idle then
    some { s with
      callers := Function.update s.callers i
        { s.callers i with point := if (s.callers i).started then whenStarted else otherwise } }
  else none

def next : SharedCallsEvent → Option SharedCalls
  | .start i => s.enter i .startAgain .readStarted
  | .stop i => s.enter i (.removeStarted false) .idle
  | .destroy i => s.enter i (.removeStarted true) .release
  | .step i =>
    ((s.callers i).advance s.started s.ready (s.counter.remove ()).2).map fun c =>
      { s with
        callers := Function.update s.callers i c
        counter := (s.callers i).point.counter s.counter
        started := (s.callers i).point.delegates s.started }
  | .ready =>
    if s.ready then none
    else some { s with ready := true, callers := fun i => (s.callers i).onReady }
  | .disconnect =>
    if s.ready then some { s with ready := false, callers := fun i => (s.callers i).onDisconnect }
    else none
  | .outside started => some { s with started := started }

end SharedCalls

/-- The shared clients of one wrapped client, on threads of their own. -/
def sharedCalls : Machine SharedCalls SharedCallsEvent := ⟨.init, SharedCalls.next⟩

/-! ## One shared client -/

namespace SharedCaller

/-- The value of `m_started` that a point goes with; between calls it is either. -/
def Proper (c : SharedCaller) : Prop :=
  match c.point with
  | .idle => True
  | .readStarted => c.started = false
  | .addStarted _ => c.started = false
  | .delegateStart _ => c.started = false
  | .setStarted _ => c.started = false
  | .release => c.started = false
  | .destroyed => c.started = false
  | _ => c.started = true

/-- The shared client is in the counter. -/
def counted (c : SharedCaller) : Bool :=
  match c.point with
  | .idle => c.started
  | .delegateStart _ => true
  | .setStarted _ => true
  | .clearReady _ => true
  | .checkReady => true
  | .callReady => true
  | .startAgain => true
  | .removeStarted _ => true
  | _ => false

/-- It is in the counter, and has delegated its start. -/
def holds (c : SharedCaller) : Bool :=
  match c.point with
  | .delegateStart _ => false
  | _ => c.counted

variable {c c' : SharedCaller} {started ready : Bool} {previousCount : ℕ}

theorem onReady_same (c : SharedCaller) : c.onReady.point = c.point ∧ c.onReady.started = c.started := by
  unfold onReady
  split <;> exact ⟨rfl, rfl⟩

theorem onDisconnect_same (c : SharedCaller) :
    c.onDisconnect.point = c.point ∧ c.onDisconnect.started = c.started := by
  unfold onDisconnect
  split <;> exact ⟨rfl, rfl⟩

/-- Points and flags decide who is counted. -/
theorem counted_congr (hp : c'.point = c.point) (hs : c'.started = c.started) :
    c'.counted = c.counted ∧ c'.holds = c.holds ∧ (c'.Proper ↔ c.Proper) := by
  have hcounted : c'.counted = c.counted := by
    unfold counted
    rw [hp, hs]
  refine ⟨hcounted, ?_, ?_⟩
  · unfold holds
    rw [hp, hcounted]
  · unfold Proper
    rw [hp, hs]

/-- **What the next step of a call does to the books.** -/
theorem advance_spec (hP : c.Proper) (h : c.advance started ready previousCount = some c') :
    c'.Proper ∧
    (c'.counted = match c.point with
      | .addStarted _ => true
      | .removeStarted _ => false
      | _ => c.counted) ∧
    (c'.holds = match c.point with
      | .delegateStart _ => true
      | .removeStarted _ => false
      | _ => c.holds) := by
  unfold advance at h
  unfold Proper at hP
  cases hp : c.point with
  | idle | destroyed =>
      simp only [hp] at h
      cases h
  | clearReady wasStarted =>
      simp only [hp, Option.some.injEq] at h hP
      subst h
      cases wasStarted <;> simp [Proper, counted, holds, hp, hP]
  | checkReady =>
      simp only [hp, Option.some.injEq] at h hP
      subst h
      split <;> simp [Proper, counted, holds, hp, hP]
  | callReady =>
      simp only [hp, Option.some.injEq] at h hP
      subst h
      simp [Proper, counted, holds, hp, hP, (onReady_same c).2]
  | removeStarted destructor =>
      simp only [hp, Option.some.injEq] at h hP
      subst h
      split <;> simp [Proper, counted, holds, hP]
  | callDisconnect destructor =>
      simp only [hp, Option.some.injEq] at h hP
      subst h
      simp [Proper, counted, holds, hp, hP, (onDisconnect_same c).2]
  | clearStarted destructor =>
      simp only [hp, Option.some.injEq] at h hP
      subst h
      cases destructor <;> simp [Proper, counted, holds, hp]
  | _ =>
      simp only [hp, Option.some.injEq] at h hP
      subst h
      simp [Proper, counted, holds, hp, hP]

end SharedCaller

/-! ## All shared clients -/

namespace SharedCalls

/-- No call is in progress. -/
def Quiescent (s : SharedCalls) : Prop :=
  ∀ i, (s.callers i).point = .idle ∨ (s.callers i).point = .destroyed

/-- The wrapped client is used only through its shared clients and does not fail, and no `stop` is
delegated while a shared client holds the wrapped client. -/
structure NotOvertaken (s : SharedCalls) (e : SharedCallsEvent) : Prop where
  inside : ∀ b, e ≠ .outside b
  stop : ∀ i d, e = .step i → (s.callers i).point = .delegateStop d →
    ∀ j, (s.callers j).holds = false

/-- The step delegates no `stop`, and the wrapped client is not used from outside. -/
def delegatesNoStop (s : SharedCalls) : SharedCallsEvent → Bool
  | .step i =>
    match (s.callers i).point with
    | .delegateStop _ => false
    | _ => true
  | .outside _ => false
  | _ => true

theorem notOvertaken_of_delegatesNoStop {s : SharedCalls} {e : SharedCallsEvent}
    (h : delegatesNoStop s e = true) : NotOvertaken s e := by
  refine ⟨?_, ?_⟩
  · rintro b rfl
    cases h
  · rintro i d rfl hp
    simp only [delegatesNoStop, hp, Bool.false_eq_true] at h

/-- **The invariant of the counter and the wrapped client.** -/
structure CallsInv (s : SharedCalls) : Prop where
  proper : ∀ i, (s.callers i).Proper
  counted : ∃ S : Finset ℕ, Counts s.counter (fun _ => S) ∧
    ∀ i, i ∈ S ↔ (s.callers i).counted = true
  holds : ∀ i, (s.callers i).holds = true → s.started = true
  needed : s.started = true → (∃ i, (s.callers i).counted = true) ∨
    ∃ i d, (s.callers i).point = .delegateStop d

variable {s s' : SharedCalls} {i : ℕ}

/-- The same points and flags, but for calls that begin. -/
theorem CallsInv.of_same (h : CallsInv s) (hcounter : s'.counter = s.counter)
    (hstarted : s'.started = s.started) (hproper : ∀ i, (s'.callers i).Proper)
    (hcounted : ∀ i, (s'.callers i).counted = (s.callers i).counted)
    (hholds : ∀ i, (s'.callers i).holds = (s.callers i).holds)
    (hstop : ∀ i d, (s.callers i).point = .delegateStop d →
      (s'.callers i).point = .delegateStop d) : CallsInv s' := by
  obtain ⟨S, hS, hmem⟩ := h.counted
  refine ⟨hproper, ⟨S, ?_, fun i => ?_⟩, fun i => ?_, ?_⟩
  · rw [hcounter]
    exact hS
  · rw [hcounted, hmem]
  · rw [hholds, hstarted]
    exact h.holds i
  · rw [hstarted]
    intro hs
    rcases h.needed hs with ⟨i, hi⟩ | ⟨i, d, hi⟩
    · exact .inl ⟨i, by rw [hcounted, hi]⟩
    · exact .inr ⟨i, d, hstop i d hi⟩

/-- A call begins. -/
theorem CallsInv.enter (h : CallsInv s) {a b : SharedPoint}
    (ha : ∀ c : SharedCaller, c.point = a → c.started = true →
      c.Proper ∧ c.counted = true ∧ c.holds = true)
    (hb : ∀ c : SharedCaller, c.point = b → c.started = false →
      c.Proper ∧ c.counted = false ∧ c.holds = false)
    (hs : s.enter i a b = some s') : CallsInv s' := by
  unfold SharedCalls.enter at hs
  split at hs
  swap
  · cases hs
  rename_i hidle
  cases hs
  have hself : SharedCaller.Proper { s.callers i with
        point := if (s.callers i).started then a else b } ∧
      SharedCaller.counted { s.callers i with point := if (s.callers i).started then a else b } =
        (s.callers i).counted ∧
      SharedCaller.holds { s.callers i with point := if (s.callers i).started then a else b } =
        (s.callers i).holds := by
    have hold : (s.callers i).counted = (s.callers i).started ∧
        (s.callers i).holds = (s.callers i).started := by
      unfold SharedCaller.holds SharedCaller.counted
      simp only [hidle, and_self]
    rw [hold.1, hold.2]
    cases hst : (s.callers i).started with
    | true => exact ha _ rfl hst
    | false => exact hb _ rfl hst
  refine h.of_same rfl rfl (fun j => ?_) (fun j => ?_) (fun j => ?_) fun j d hj => ?_
  all_goals by_cases hij : j = i
  · subst hij
    simp only [Function.update_self]
    exact hself.1
  · simp only [Function.update_of_ne hij]
    exact h.proper j
  · subst hij
    simp only [Function.update_self]
    exact hself.2.1
  · simp only [Function.update_of_ne hij]
  · subst hij
    simp only [Function.update_self]
    exact hself.2.2
  · simp only [Function.update_of_ne hij]
  · subst hij
    rw [hidle] at hj
    cases hj
  · simp only [Function.update_of_ne hij]
    exact hj

/-- A callback of the wrapped client runs in all shared clients. -/
theorem CallsInv.callback (h : CallsInv s) {f : SharedCaller → SharedCaller} {r : Bool}
    (hf : ∀ c, (f c).point = c.point ∧ (f c).started = c.started) :
    CallsInv { s with ready := r, callers := fun i => f (s.callers i) } := by
  have hcongr : ∀ i, _ := fun i => SharedCaller.counted_congr (hf (s.callers i)).1
    (hf (s.callers i)).2
  refine h.of_same rfl rfl (fun i => ?_) (fun i => ?_) (fun i => ?_) fun i d hi => ?_
  · exact (hcongr i).2.2.mpr (h.proper i)
  · exact (hcongr i).1
  · exact (hcongr i).2.1
  · exact (hf _).1.trans hi

/-- The shared client `i` does the next step of its call, after which it is `c`. -/
structure Advances (s : SharedCalls) (i : ℕ) (c : SharedCaller) (s' : SharedCalls) : Prop where
  step : (s.callers i).advance s.started s.ready (s.counter.remove ()).2 = some c
  self : s'.callers i = c
  other : ∀ j, j ≠ i → s'.callers j = s.callers j
  counter : s'.counter = (s.callers i).point.counter s.counter
  started : s'.started = (s.callers i).point.delegates s.started
  ready : s'.ready = s.ready

theorem advances_of_next (hs : s.next (.step i) = some s') : ∃ c, Advances s i c s' := by
  obtain ⟨c, hc, rfl⟩ := Option.map_eq_some_iff.mp hs
  exact ⟨c, hc, Function.update_self _ _ _, fun j hj => Function.update_of_ne hj _ _, rfl, rfl, rfl⟩

namespace Advances

variable {c : SharedCaller}

/-- The set of those that are counted after a step. -/
theorem counted (ha : Advances s i c s') (h : CallsInv s) :
    ∃ S : Finset ℕ, Counts s'.counter (fun _ => S) ∧ ∀ j, j ∈ S ↔ (s'.callers j).counted = true := by
  obtain ⟨S, hS, hmem⟩ := h.counted
  obtain ⟨-, hc, -⟩ := SharedCaller.advance_spec (h.proper i) ha.step
  rw [← ha.self] at hc
  have hunit : ∀ T : Finset ℕ, Function.update (fun _ : Unit => S) () T = fun _ => T := by
    intro T
    funext u
    rw [Function.update_self]
  rw [ha.counter]
  cases hp : (s.callers i).point with
  | addStarted wasStarted =>
      simp only [hp] at hc
      have hnot : i ∉ S := by
        rw [hmem]
        simp [SharedCaller.counted, hp]
      refine ⟨insert i S, ?_, fun j => ?_⟩
      · have hadd := hS.add (c := ()) hnot
        rwa [hunit] at hadd
      · by_cases hij : j = i
        · subst hij
          simp [hc]
        · rw [ha.other j hij, ← hmem, Finset.mem_insert]
          simp [hij]
  | removeStarted destructor =>
      simp only [hp] at hc
      have hi : i ∈ S := by
        rw [hmem]
        simp [SharedCaller.counted, hp]
      refine ⟨S.erase i, ?_, fun j => ?_⟩
      · have hremove := (hS.remove (c := ()) hi).1
        rwa [hunit] at hremove
      · by_cases hij : j = i
        · subst hij
          simp [hc]
        · rw [ha.other j hij, ← hmem, Finset.mem_erase]
          simp [hij]
  | _ =>
      simp only [hp] at hc
      refine ⟨S, hS, fun j => ?_⟩
      by_cases hij : j = i
      · subst hij
        rw [hc, hmem]
      · rw [ha.other j hij, hmem]

/-- The wrapped client stays started for whoever holds it. -/
theorem holds (ha : Advances s i c s') (h : CallsInv s)
    (hstop : ∀ d, (s.callers i).point = .delegateStop d → ∀ j, (s.callers j).holds = false)
    {j : ℕ} (hj : (s'.callers j).holds = true) : s'.started = true := by
  have hkeep : ∀ k, (s.callers k).holds = true → s'.started = true := by
    intro k hk
    have hst := h.holds k hk
    rw [ha.started]
    cases hp : (s.callers i).point with
    | delegateStop d =>
        rw [hstop d hp k] at hk
        cases hk
    | _ => first | exact hst | rfl
  by_cases hij : j = i
  · subst hij
    obtain ⟨-, -, hholds⟩ := SharedCaller.advance_spec (h.proper j) ha.step
    rw [← ha.self, hj] at hholds
    cases hp : (s.callers j).point with
    | delegateStart wasStarted =>
        rw [ha.started, hp]
        rfl
    | removeStarted d =>
        simp only [hp] at hholds
        cases hholds
    | _ =>
        simp only [hp] at hholds
        exact hkeep j hholds.symm
  · rw [ha.other j hij] at hj
    exact hkeep j hj

/-- A wrapped client that is started is counted for someone, or about to be stopped. -/
theorem needed (ha : Advances s i c s') (h : CallsInv s) (hst : s'.started = true) :
    (∃ j, (s'.callers j).counted = true) ∨ ∃ j d, (s'.callers j).point = .delegateStop d := by
  obtain ⟨-, hcounted, -⟩ := SharedCaller.advance_spec (h.proper i) ha.step
  rw [← ha.self] at hcounted
  -- who was counted before still is, unless it is the one that leaves the counter
  have hold : (∀ d, (s.callers i).point ≠ .removeStarted d) →
      (∀ d, (s.callers i).point ≠ .delegateStop d) → s.started = true →
      (∃ j, (s'.callers j).counted = true) ∨ ∃ j d, (s'.callers j).point = .delegateStop d := by
    intro hremove hstop hs
    rcases h.needed hs with ⟨j, hj⟩ | ⟨j, d, hj⟩
    · refine .inl ⟨j, ?_⟩
      by_cases hij : j = i
      · subst hij
        rw [hcounted]
        split
        · rfl
        · rename_i d hp
          exact absurd hp (hremove d)
        · exact hj
      · rw [ha.other j hij]
        exact hj
    · refine .inr ⟨j, d, ?_⟩
      have hij : j ≠ i := by
        rintro rfl
        exact hstop d hj
      rw [ha.other j hij]
      exact hj
  rw [ha.started] at hst
  cases hp : (s.callers i).point with
  | delegateStart wasStarted =>
      simp only [hp] at hcounted
      refine .inl ⟨i, ?_⟩
      rw [hcounted]
      simp [SharedCaller.counted, hp]
  | startAgain =>
      simp only [hp] at hcounted
      refine .inl ⟨i, ?_⟩
      rw [hcounted]
      simp [SharedCaller.counted, hp]
  | delegateStop d =>
      rw [hp] at hst
      cases hst
  | removeStarted d =>
      obtain ⟨S, hS, hmem⟩ := h.counted
      have hi : i ∈ S := by
        rw [hmem]
        simp [SharedCaller.counted, hp]
      have hstep := ha.step
      simp only [SharedCaller.advance, hp, (hS.remove (c := ()) hi).2, Option.some.injEq] at hstep
      by_cases hcard : S.card = 1
      · refine .inr ⟨i, d, ?_⟩
        rw [ha.self, ← hstep, if_pos hcard]
      · have hpos : 0 < S.card := Finset.card_pos.mpr ⟨i, hi⟩
        obtain ⟨j, hj, hij⟩ := Finset.exists_mem_ne (by omega : 1 < S.card) i
        refine .inl ⟨j, ?_⟩
        rw [ha.other j hij]
        exact (hmem j).mp hj
  | _ =>
      rw [hp] at hst
      refine hold (fun d hd => ?_) (fun d hd => ?_) hst
      · rw [hp] at hd
        cases hd
      · rw [hp] at hd
        cases hd

/-- **The next step of a call keeps the invariant**, unless it is a `stop` that overtakes a start. -/
theorem inv (ha : Advances s i c s') (h : CallsInv s)
    (hstop : ∀ d, (s.callers i).point = .delegateStop d → ∀ j, (s.callers j).holds = false) :
    CallsInv s' := by
  refine ⟨fun j => ?_, ha.counted h, fun j hj => ha.holds h hstop hj, ha.needed h⟩
  by_cases hij : j = i
  · subst hij
    rw [ha.self]
    exact (SharedCaller.advance_spec (h.proper j) ha.step).1
  · rw [ha.other j hij]
    exact h.proper j

end Advances

/-- **A step keeps the invariant**, unless a `stop` overtakes a start. -/
theorem CallsInv.step (h : CallsInv s) {e : SharedCallsEvent} (hn : NotOvertaken s e)
    (hs : s.next e = some s') : CallsInv s' := by
  cases e with
  | start i | stop i | destroy i =>
      refine h.enter (fun c hc hst => ?_) (fun c hc hst => ?_) hs
      · simp [SharedCaller.Proper, SharedCaller.counted, SharedCaller.holds, hc, hst]
      · simp [SharedCaller.Proper, SharedCaller.counted, SharedCaller.holds, hc, hst]
  | step i =>
      obtain ⟨c, ha⟩ := advances_of_next hs
      exact ha.inv h fun d hd => hn.stop i d rfl hd
  | ready =>
      simp only [SharedCalls.next] at hs
      split at hs <;> cases hs
      exact h.callback SharedCaller.onReady_same
  | disconnect =>
      simp only [SharedCalls.next] at hs
      split at hs <;> cases hs
      exact h.callback SharedCaller.onDisconnect_same
  | outside b => exact absurd rfl (hn.inside b)

theorem CallsInv.init : CallsInv .init := by
  refine ⟨fun _ => trivial, ⟨∅, ⟨fun _ => rfl, ?_⟩, fun i => ?_⟩, ?_, ?_⟩
  · rintro c counter ⟨⟩
  · simp [SharedCalls.init, SharedCaller.counted]
  · rintro i ⟨⟩
  · rintro ⟨⟩

end SharedCalls

open SharedCalls in
/-- **The wrapped client runs while anyone needs it**: between calls it is started if and only if a
shared client is, on every run on which it is used only through its shared clients, does not fail, and
no `stop` is delegated while another shared client that has delegated its start is counted. -/
theorem wrapped_client_runs_while_needed {es : List SharedCallsEvent} {s : SharedCalls}
    (hr : sharedCalls.run .init es = some s) (hC : sharedCalls.Along NotOvertaken .init es)
    (hq : s.Quiescent) : s.started = true ↔ ∃ i, (s.callers i).started = true := by
  have h : CallsInv s :=
    hC.inv (P := CallsInv) (fun _ _ _ h hn hs => h.step hn hs) CallsInv.init hr
  have hcounted : ∀ i, (s.callers i).counted = (s.callers i).started ∧
      (s.callers i).holds = (s.callers i).started := by
    intro i
    have hproper := h.proper i
    unfold SharedCaller.Proper at hproper
    unfold SharedCaller.holds SharedCaller.counted
    rcases hq i with hi | hi
    · simp only [hi, and_self]
    · simp only [hi] at hproper ⊢
      simp only [hproper, and_self]
  constructor
  · intro hs
    rcases h.needed hs with ⟨i, hi⟩ | ⟨i, d, hi⟩
    · exact ⟨i, (hcounted i).1 ▸ hi⟩
    · rcases hq i with h' | h' <;> rw [hi] at h' <;> cases h'
  · rintro ⟨i, hi⟩
    exact h.holds i ((hcounted i).2.trans hi)

/-! ## Sample runs -/

/-- The state after the events `es`. -/
def sharedCallsAfter (es : List SharedCallsEvent) : SharedCalls :=
  (sharedCalls.run .init es).getD .init

/-- The first shared client starts the wrapped client. -/
def firstStarts : List SharedCallsEvent :=
  [.start 0, .step 0, .step 0, .step 0, .step 0, .step 0]

/-- It stops, and is about to stop the wrapped client; meanwhile the second one starts. -/
def secondStartsBeforeStop : List SharedCallsEvent :=
  firstStarts ++ [.stop 0, .step 0, .start 1, .step 1, .step 1, .step 1, .step 1, .step 1, .step 1]

/-- The first one stops the wrapped client that the second one has just started. -/
def stopOvertakes : List SharedCallsEvent := secondStartsBeforeStop ++ [.step 0, .step 0]

/-- A second one starts, and the first one stops. -/
def firstStops : List SharedCallsEvent :=
  firstStarts ++ [.start 1, .step 1, .step 1, .step 1, .step 1, .step 1, .step 1,
    .stop 0, .step 0, .step 0, .step 0]

/-- The second one stops as well, and with it the wrapped client. -/
def bothStop : List SharedCallsEvent := firstStops ++ [.stop 1, .step 1, .step 1, .step 1]

open SharedCalls in
theorem notOvertaken_bothStop : sharedCalls.Along NotOvertaken .init bothStop := by
  have hbefore : sharedCalls.Along (fun s e => delegatesNoStop s e = true) .init
      (firstStops ++ [.stop 1, .step 1]) := by decide
  have hstop : sharedCalls.Along NotOvertaken .init (firstStops ++ [.stop 1, .step 1] ++ [.step 1]) := by
    refine (Machine.Along.mono (fun _ _ => notOvertaken_of_delegatesNoStop) hbefore).snoc
      fun s hs => ⟨nofun, ?_⟩
    -- nobody holds the wrapped client when it is stopped
    rintro i d - - j
    obtain rfl : s = sharedCallsAfter (firstStops ++ [.stop 1, .step 1]) := by
      rw [sharedCallsAfter, hs, Option.getD_some]
    match j with
    | 0 => rfl
    | 1 => rfl
    | _ + 2 => rfl
  refine hstop.snoc fun s hs => notOvertaken_of_delegatesNoStop ?_
  obtain rfl : s = sharedCallsAfter (firstStops ++ [.stop 1, .step 1, .step 1]) := by
    rw [sharedCallsAfter]
    change sharedCalls.run .init (firstStops ++ [.stop 1, .step 1, .step 1]) = some s at hs
    rw [hs, Option.getD_some]
  rfl

theorem wrapped_client_runs_while_needed_bothStop :
    ((sharedCallsAfter firstStops).started = true ∧
      ((sharedCallsAfter firstStops).started = true ↔
        ∃ i, ((sharedCallsAfter firstStops).callers i).started = true)) ∧
    (sharedCallsAfter bothStop).started = false ∧
    ((sharedCallsAfter bothStop).started = true ↔
      ∃ i, ((sharedCallsAfter bothStop).callers i).started = true) := by
  have hrun : sharedCalls.run .init firstStops = some (sharedCallsAfter firstStops) := rfl
  have hrun' : sharedCalls.run .init bothStop = some (sharedCallsAfter bothStop) := rfl
  refine ⟨⟨rfl, wrapped_client_runs_while_needed hrun notOvertaken_bothStop.of_append fun i => ?_⟩,
    rfl, wrapped_client_runs_while_needed hrun' notOvertaken_bothStop fun i => ?_⟩
  · match i with
    | 0 => exact .inl rfl
    | 1 => exact .inl rfl
    | _ + 2 => exact .inl rfl
  · match i with
    | 0 => exact .inl rfl
    | 1 => exact .inl rfl
    | _ + 2 => exact .inl rfl

/-- The second shared client is started, and the wrapped client is not. -/
theorem stop_overtakes_start :
    sharedCalls.run .init stopOvertakes = some (sharedCallsAfter stopOvertakes) ∧
    (sharedCallsAfter stopOvertakes).Quiescent ∧
    ((sharedCallsAfter stopOvertakes).callers 1).started = true ∧
    (sharedCallsAfter stopOvertakes).started = false ∧
    ¬ ((sharedCallsAfter stopOvertakes).started = true ↔
      ∃ i, ((sharedCallsAfter stopOvertakes).callers i).started = true) := by
  refine ⟨rfl, fun i => ?_, rfl, rfl, fun h => ?_⟩
  · match i with
    | 0 => exact .inl rfl
    | 1 => exact .inl rfl
    | _ + 2 => exact .inl rfl
  · cases h.mpr ⟨1, rfl⟩

end Loon
