import Mathlib.Algebra.Order.Ring.Nat
import Loon.Client.SharedClient

set_option autoImplicit false

/-!
# The books of the shared clients

The global state counts, for each wrapped client, its shared clients, those that are started and those
that idle; each shared client has flags that say the same of itself. Complete operations keep both in
step, whatever the wrapped client does by itself meanwhile.

* `Counts`: a counter counts a finite set, with `Counts.add` and `Counts.remove`;
* `members`: the shared clients of a wrapped client with a flag;
* `Books`, `Books.step`: the invariant, operation by operation;
* `AssertionsHold`: the assertions of an operation;
* **`shared_bookkeeping_exact`**: the books are exact on every run, and no assertion fails but the one
  about the index that `SharedReferenceCounter::add` hands out, when the indices are used up.
-/

namespace Loon

variable {κ : Type} [DecidableEq κ]

/-! ## Counters -/

section Counters

/-- `m` counts the sets `S`; there is no entry for an empty one. -/
structure Counts (m : SharedReferenceCounter κ) (S : κ → Finset ℕ) : Prop where
  count : ∀ c, m.count c = (S c).card
  entry : ∀ c counter, m c = some counter → counter.references ≠ 0

variable {m : SharedReferenceCounter κ} {S : κ → Finset ℕ} {c : κ} {p : ℕ}

namespace SharedReferenceCounter

theorem add_of_ne (m : SharedReferenceCounter κ) {c c' : κ} (h : c' ≠ c) :
    (m.add c).1 c' = m c' := Function.update_of_ne h _ _

omit [DecidableEq κ] in
theorem count_eq {counter : ReferenceCounter} (h : m c = some counter) :
    m.count c = counter.references := by
  rw [count, h]
  rfl

omit [DecidableEq κ] in
theorem count_congr {m' : SharedReferenceCounter κ} (h : m' c = m c) : m'.count c = m.count c := by
  rw [count, h, count]

end SharedReferenceCounter

namespace Counts

omit [DecidableEq κ] in
theorem eq_none (h : Counts m S) (hS : S c = ∅) : m c = none := by
  cases hm : m c with
  | none => rfl
  | some counter =>
      have hcount := h.count c
      rw [SharedReferenceCounter.count_eq hm, hS, Finset.card_empty] at hcount
      exact absurd hcount (h.entry c counter hm)

omit [DecidableEq κ] in
theorem eq_some (h : Counts m S) (hp : p ∈ S c) :
    ∃ counter, m c = some counter ∧ counter.references = (S c).card := by
  have hcount := h.count c
  have hpos : 0 < (S c).card := Finset.card_pos.mpr ⟨p, hp⟩
  cases hm : m c with
  | none =>
      rw [SharedReferenceCounter.count, hm, Option.elim_none] at hcount
      omega
  | some counter => exact ⟨counter, rfl, by rw [← hcount, SharedReferenceCounter.count_eq hm]⟩

theorem add (h : Counts m S) (hp : p ∉ S c) :
    Counts (m.add c).1 (Function.update S c (insert p (S c))) := by
  refine ⟨fun c' => ?_, fun c' counter hc => ?_⟩
  · rw [SharedState.count_add, h.count]
    by_cases hc : c = c'
    · subst hc
      rw [if_pos rfl, Function.update_self, Finset.card_insert_of_notMem hp]
    · rw [if_neg hc, Function.update_of_ne (Ne.symm hc)]
  · by_cases hcc : c' = c
    · subst hcc
      simp only [SharedReferenceCounter.add, Function.update_self, Option.some.injEq] at hc
      rw [← hc]
      exact Nat.succ_ne_zero _
    · rw [SharedReferenceCounter.add_of_ne m hcc] at hc
      exact h.entry c' counter hc

theorem remove (h : Counts m S) (hp : p ∈ S c) :
    Counts (m.remove c).1 (Function.update S c ((S c).erase p)) ∧
      (m.remove c).2 = (S c).card := by
  obtain ⟨counter, hm, hrefs⟩ := h.eq_some hp
  have hcard : ((S c).erase p).card = (S c).card - 1 := Finset.card_erase_of_mem hp
  refine ⟨⟨fun c' => ?_, fun c' counter' hc => ?_⟩, ?_⟩
  · by_cases hc : c' = c
    · subst hc
      rw [SharedState.count_remove, Function.update_self, hcard, h.count]
    · rw [Function.update_of_ne hc, ← h.count]
      exact SharedReferenceCounter.count_congr (SharedState.remove_of_ne m hc)
  · by_cases hcc : c' = c
    · subst hcc
      unfold SharedReferenceCounter.remove at hc
      simp only [hm] at hc
      split at hc
      · simp only [Function.update_self] at hc
        cases hc
      · simp only [Function.update_self] at hc
        cases hc
        simp only
        omega
    · rw [SharedState.remove_of_ne m hcc] at hc
      exact h.entry c' counter' hc
  · unfold SharedReferenceCounter.remove
    simp only [hm]
    split <;> exact hrefs

end Counts

end Counters

/-! ## Shared clients by their flags -/

/-- What a shared client says of itself. -/
structure Flags where
  started : Bool
  idling : Bool
  deriving DecidableEq, Repr

namespace SharedState

variable (s : SharedState κ)

/-- The wrapped client and the flags of an object that is alive. -/
def flagsOf (p : ℕ) : Option (κ × Flags) :=
  (s.objects p).map fun o => (o.client, ⟨o.started, o.idling⟩)

/-- The shared clients of `c` that are alive and have a flag. -/
def members (f : Flags → Bool) (c : κ) : Finset ℕ :=
  (Finset.range s.created).filter fun p => (s.flagsOf p).any fun k => decide (k.1 = c) && f k.2

variable {s} {s' : SharedState κ} {f : Flags → Bool} {c : κ} {p : ℕ} {k k' : κ × Flags}

theorem mem_members : p ∈ s.members f c ↔
    p < s.created ∧ ∃ k, s.flagsOf p = some k ∧ k.1 = c ∧ f k.2 = true := by
  unfold members
  rw [Finset.mem_filter, Finset.mem_range, Option.any_eq_true]
  simp only [Bool.and_eq_true, decide_eq_true_eq]

omit [DecidableEq κ] in
theorem flagsOf_eq_some {o : SharedClient κ} (h : s.objects p = some o) :
    s.flagsOf p = some (o.client, ⟨o.started, o.idling⟩) := by
  rw [flagsOf, h]
  rfl

omit [DecidableEq κ] in
/-- A change of one object that acts on its flags as `φ`. -/
theorem flagsOf_modify (hk : s.flagsOf p = some k) (g : SharedClient κ → SharedClient κ)
    (φ : Flags → Flags) (hg : ∀ o, (g o).client = o.client ∧
      (⟨(g o).started, (g o).idling⟩ : Flags) = φ ⟨o.started, o.idling⟩) :
    (s.modify p g).flagsOf = Function.update s.flagsOf p (some (k.1, φ k.2)) := by
  obtain ⟨o, ho, rfl⟩ := Option.map_eq_some_iff.mp hk
  funext q
  unfold flagsOf modify
  by_cases hq : q = p
  · subst hq
    simp [ho, hg o]
  · simp [hq]

omit [DecidableEq κ] in
/-- A change of what is neither flag. -/
theorem flagsOf_modify_same (p : ℕ) {g : SharedClient κ → SharedClient κ}
    (hg : ∀ o, (g o).client = o.client ∧ (g o).started = o.started ∧ (g o).idling = o.idling) :
    (s.modify p g).flagsOf = s.flagsOf := by
  funext q
  unfold flagsOf modify
  by_cases hq : q = p
  · subst hq
    cases s.objects q with
    | none => simp
    | some o => simp [hg o]
  · simp [hq]

/-- The flags of one object change. -/
theorem members_update (hf : s'.flagsOf = Function.update s.flagsOf p (some k'))
    (hn : s'.created = s.created) (hp : p < s.created) (hk : s.flagsOf p = some k)
    (hc : k'.1 = k.1) :
    s'.members f = Function.update (s.members f) k.1
      (if f k'.2 then insert p (s.members f k.1) else (s.members f k.1).erase p) := by
  have hother : ∀ q c, q ≠ p → (q ∈ s'.members f c ↔ q ∈ s.members f c) := by
    intro q c hq
    rw [mem_members, mem_members, hn, hf, Function.update_of_ne hq]
  have hself : ∀ c, p ∈ s'.members f c ↔ k.1 = c ∧ f k'.2 = true := by
    intro c
    rw [mem_members, hn, hf, Function.update_self]
    constructor
    · rintro ⟨-, _, ⟨⟩, h1, h2⟩
      exact ⟨hc ▸ h1, h2⟩
    · rintro ⟨h1, h2⟩
      exact ⟨hp, k', rfl, hc.trans h1, h2⟩
  funext c
  ext q
  by_cases hcc : c = k.1
  · subst hcc
    rw [Function.update_self]
    by_cases hq : q = p
    · subst hq
      rw [hself]
      split <;> simp_all
    · rw [hother q _ hq]
      split <;> simp [hq]
  · rw [Function.update_of_ne hcc]
    by_cases hq : q = p
    · subst hq
      rw [hself, mem_members, hk]
      constructor
      · rintro ⟨h1, -⟩
        exact absurd h1.symm hcc
      · rintro ⟨-, _, ⟨⟩, h1, -⟩
        exact absurd h1.symm hcc
    · exact hother q c hq

/-- A flag that an object keeps. -/
theorem members_same (hf : s'.flagsOf = Function.update s.flagsOf p (some k'))
    (hn : s'.created = s.created) (hk : s.flagsOf p = some k) (hc : k'.1 = k.1)
    (hflag : f k'.2 = f k.2) : s'.members f = s.members f := by
  funext c
  ext q
  rw [mem_members, mem_members, hn, hf]
  by_cases hq : q = p
  · subst hq
    rw [Function.update_self, hk]
    simp [hc, hflag]
  · rw [Function.update_of_ne hq]

/-! ## The invariant -/

variable (s) in
/-- **The books are in order.** -/
structure Books : Prop where
  bound : ∀ p k, s.flagsOf p = some k → p < s.created
  refs : Counts s.refs (s.members fun _ => true)
  started : Counts s.started (s.members Flags.started)
  idling : Counts s.idling (s.members Flags.idling)
  sound : ∀ p k, s.flagsOf p = some k → k.2.idling = true → k.2.started = true
  callbacks : ∀ c, s.members (fun _ => true) c = ∅ →
    s.onReady c = none ∧ s.onDisconnect c = none ∧ s.onFailed c = none

namespace Books

/-- An object is in the set of a flag it has. -/
theorem mem (h : Books s) {flags : Flags} (hk : s.flagsOf p = some (c, flags))
    (hf : f flags = true) : p ∈ s.members f c :=
  mem_members.mpr ⟨h.bound p _ hk, _, hk, rfl, hf⟩

/-- What has a flag is alive. -/
theorem members_subset (c : κ) : s.members f c ⊆ s.members (fun _ => true) c := by
  intro p hp
  obtain ⟨hlt, k, hk, hc, -⟩ := mem_members.mp hp
  exact mem_members.mpr ⟨hlt, k, hk, hc, rfl⟩

theorem idling_subset (h : Books s) (c : κ) :
    s.members Flags.idling c ⊆ s.members Flags.started c := by
  intro p hp
  obtain ⟨hlt, k, hk, hc, hi⟩ := mem_members.mp hp
  exact mem_members.mpr ⟨hlt, k, hk, hc, h.sound p k hk hi⟩

/-- The same flags, counters and callbacks. -/
theorem of_eq (h : Books s) (hq : s.Quiet s') (hf : s'.flagsOf = s.flagsOf)
    (hs : s'.started = s.started) (hi : s'.idling = s.idling) : Books s' := by
  have hm : ∀ g, s'.members g = s.members g := by
    intro g
    unfold members
    rw [hf, hq.created]
  refine ⟨?_, ?_, ?_, ?_, ?_, ?_⟩
  · rw [hf, hq.created]
    exact h.bound
  · rw [hq.refs, hm]
    exact h.refs
  · rw [hs, hm]
    exact h.started
  · rw [hi, hm]
    exact h.idling
  · rw [hf]
    exact h.sound
  · rw [hm, hq.ready, hq.disconnect, hq.failed]
    exact h.callbacks

/-- The flags of one object change, and the counters with them. -/
theorem change (h : Books s) (hq : s.Quiet s')
    (hf : s'.flagsOf = Function.update s.flagsOf p (some k')) (hk : s.flagsOf p = some k)
    (hc : k'.1 = k.1) (hs : Counts s'.started (s'.members Flags.started))
    (hi : Counts s'.idling (s'.members Flags.idling))
    (hsound : k'.2.idling = true → k'.2.started = true) : Books s' := by
  have hm : s'.members (fun _ => true) = s.members fun _ => true :=
    members_same hf hq.created hk hc rfl
  have hcases : ∀ q k₁, s'.flagsOf q = some k₁ → (q = p ∧ k₁ = k') ∨ s.flagsOf q = some k₁ := by
    intro q k₁ h₁
    rw [hf] at h₁
    by_cases hqp : q = p
    · subst hqp
      rw [Function.update_self] at h₁
      exact .inl ⟨rfl, (Option.some.inj h₁).symm⟩
    · rw [Function.update_of_ne hqp] at h₁
      exact .inr h₁
  refine ⟨fun q k₁ h₁ => ?_, ?_, hs, hi, fun q k₁ h₁ => ?_, ?_⟩
  · rw [hq.created]
    rcases hcases q k₁ h₁ with ⟨rfl, -⟩ | h₁
    · exact h.bound q k hk
    · exact h.bound q k₁ h₁
  · rw [hq.refs, hm]
    exact h.refs
  · rcases hcases q k₁ h₁ with ⟨-, rfl⟩ | h₁
    · exact hsound
    · exact h.sound q k₁ h₁
  · rw [hm, hq.ready, hq.disconnect, hq.failed]
    exact h.callbacks

end Books

/-- An object keeps a flag. -/
theorem counts_same {m : SharedReferenceCounter κ} (h : Counts m (s.members f))
    (hf : s'.flagsOf = Function.update s.flagsOf p (some k')) (hn : s'.created = s.created)
    (hk : s.flagsOf p = some k) (hc : k'.1 = k.1) (hflag : f k'.2 = f k.2) :
    Counts m (s'.members f) := by
  rw [members_same hf hn hk hc hflag]
  exact h

/-- An object gets a flag. -/
theorem counts_add {m : SharedReferenceCounter κ} (h : Counts m (s.members f)) (hB : Books s)
    (hf : s'.flagsOf = Function.update s.flagsOf p (some k')) (hn : s'.created = s.created)
    (hk : s.flagsOf p = some k) (hc : k'.1 = k.1) (hoff : f k.2 = false)
    (hon : f k'.2 = true) : Counts (m.add k.1).1 (s'.members f) := by
  rw [members_update hf hn (hB.bound p k hk) hk hc, if_pos hon]
  refine h.add fun hp => ?_
  obtain ⟨-, k₁, hk₁, -, hf₁⟩ := mem_members.mp hp
  rw [hk] at hk₁
  cases hk₁
  rw [hoff] at hf₁
  cases hf₁

/-- An object loses a flag. -/
theorem counts_remove {m : SharedReferenceCounter κ} (h : Counts m (s.members f)) (hB : Books s)
    (hf : s'.flagsOf = Function.update s.flagsOf p (some k')) (hn : s'.created = s.created)
    (hk : s.flagsOf p = some k) (hc : k'.1 = k.1) (hon : f k.2 = true)
    (hoff : f k'.2 = false) : Counts (m.remove k.1).1 (s'.members f) := by
  rw [members_update hf hn (hB.bound p k hk) hk hc, if_neg (by rw [hoff]; exact Bool.false_ne_true)]
  exact (h.remove (hB.mem hk hon)).1

/-! ## The operations -/

omit [DecidableEq κ] in
theorem flagsOf_self {v : Option (κ × Flags)} (hf : s'.flagsOf = Function.update s.flagsOf p v) :
    s'.flagsOf p = v := by
  rw [hf, Function.update_self]

omit [DecidableEq κ] in
/-- The flags of an object are written as they are. -/
theorem flagsOf_unchanged (hk : s.flagsOf p = some k) :
    s.flagsOf = Function.update s.flagsOf p (some k) := by
  rw [← hk, Function.update_eq_self]

/-- `internal_reset_idling`. -/
theorem Books.resetIdling (h : Books s) {o : SharedClient κ} (ho : s.objects p = some o) :
    Books (s.resetIdling p o) ∧ (s.resetIdling p o).flagsOf =
      Function.update s.flagsOf p (some (o.client, ⟨o.started, false⟩)) := by
  have hk := flagsOf_eq_some ho
  have hq := quiet_resetIdling (s := s) p o
  unfold SharedState.resetIdling at hq ⊢
  by_cases hi : o.idling = true
  · rw [if_pos hi] at hq ⊢
    have hf := flagsOf_modify hk (fun o => { o with idling := false })
      (fun φ => { φ with idling := false }) fun _ => ⟨rfl, rfl⟩
    refine ⟨h.change hq hf hk rfl ?_ ?_ ?_, hf⟩
    · exact counts_same h.started hf rfl hk rfl rfl
    · exact counts_remove h.idling h hf rfl hk rfl hi rfl
    · rintro ⟨⟩
  · rw [if_neg hi]
    have hi : o.idling = false := by simpa using hi
    rw [hi] at hk
    exact ⟨h, flagsOf_unchanged hk⟩

theorem resetIdling_started (p : ℕ) (o : SharedClient κ) :
    (s.resetIdling p o).started = s.started := by
  unfold SharedState.resetIdling
  split <;> rfl

omit [DecidableEq κ] in
theorem flagsOf_callReady (c : κ) (i : ℕ) : (s.callReady c i).flagsOf = s.flagsOf ∧
    (s.callReady c i).started = s.started ∧ (s.callReady c i).idling = s.idling := by
  unfold callReady
  split
  · refine ⟨flagsOf_modify_same _ fun o => ?_, rfl, rfl⟩
    split_ifs <;> exact ⟨rfl, rfl, rfl⟩
  · exact ⟨rfl, rfl, rfl⟩

omit [DecidableEq κ] in
theorem flagsOf_callDisconnect (c : κ) (i : ℕ) : (s.callDisconnect c i).flagsOf = s.flagsOf ∧
    (s.callDisconnect c i).started = s.started ∧ (s.callDisconnect c i).idling = s.idling := by
  unfold callDisconnect
  split
  · exact ⟨flagsOf_modify_same _ fun _ => ⟨rfl, rfl, rfl⟩, rfl, rfl⟩
  · exact ⟨rfl, rfl, rfl⟩

theorem Books.start (h : Books s) {o : SharedClient κ} (ho : s.objects p = some o)
    (wasStarted ready : Bool) :
    Books (s.start p o wasStarted ready) ∧ (s.start p o wasStarted ready).flagsOf =
      Function.update s.flagsOf p (some (o.client, ⟨true, false⟩)) := by
  obtain ⟨h₁, hf₁⟩ := h.resetIdling ho
  have hk := flagsOf_self hf₁
  unfold SharedState.start
  simp only
  by_cases hs : o.started = true
  · rw [if_pos hs]
    rw [hs] at hf₁
    exact ⟨h₁, hf₁⟩
  rw [if_neg hs]
  have hs : o.started = false := by simpa using hs
  have hf := flagsOf_modify hk (fun o => { o with started := true, onReadyCalled := false })
    (fun φ => { φ with started := true }) fun _ => ⟨rfl, rfl⟩
  have hq := quiet_modify (s := s.resetIdling p o) p
    (f := fun o => { o with started := true, onReadyCalled := false }) (by intro o; exact ⟨rfl, rfl⟩)
    ((s.resetIdling p o).started.add o.client).1 (s.resetIdling p o).idling
  have h₂ := h₁.change hq hf hk rfl
    (counts_add h₁.started h₁ hf rfl hk rfl hs rfl)
    (counts_same h₁.idling hf rfl hk rfl rfl) (fun _ => rfl)
  rw [hf₁, Function.update_idem] at hf
  split
  · obtain ⟨hf', hs', hi'⟩ := flagsOf_callReady (s := { (s.resetIdling p o).modify p fun o =>
      { o with started := true, onReadyCalled := false } with
      started := ((s.resetIdling p o).started.add o.client).1 }) o.client o.index
    exact ⟨h₂.of_eq (quiet_callReady o.client o.index) hf' hs' hi', hf'.trans hf⟩
  · exact ⟨h₂, hf⟩

/-- `start` counts an object that was not started. -/
theorem start_started {o : SharedClient κ} (hs : o.started = false) (wasStarted ready : Bool) :
    (s.start p o wasStarted ready).started = (s.started.add o.client).1 := by
  have hreset := congrArg (fun m => (m.add o.client).1) (resetIdling_started (s := s) p o)
  unfold SharedState.start
  simp only [hs, Bool.false_eq_true, if_false]
  split
  · exact (flagsOf_callReady _ _).2.1.trans hreset
  · exact hreset

/-- `stop` does not count it any more. -/
theorem stop_started {o : SharedClient κ} (hs : o.started = true) :
    (s.stop p o).started = (s.started.remove o.client).1 := by
  have hreset := congrArg (fun m => (m.remove o.client).1) (resetIdling_started (s := s) p o)
  unfold SharedState.stop
  simp only [hs, Bool.not_true, Bool.false_eq_true, if_false]
  split
  · exact hreset
  · exact (flagsOf_callDisconnect (s := { s.resetIdling p o with
      started := ((s.resetIdling p o).started.remove o.client).1 }) _ _).2.1.trans hreset

omit [DecidableEq κ] in
theorem Quiet.symm (h : s.Quiet s') : s'.Quiet s :=
  ⟨h.key.symm, h.created.symm, h.refs.symm, h.ready.symm, h.disconnect.symm, h.failed.symm⟩

theorem Books.stop (h : Books s) {o : SharedClient κ} (ho : s.objects p = some o) :
    Books (s.stop p o) ∧ (s.stop p o).flagsOf =
      Function.update s.flagsOf p (some (o.client, ⟨false, false⟩)) := by
  obtain ⟨h₁, hf₁⟩ := h.resetIdling ho
  have hk := flagsOf_self hf₁
  have hq := quiet_stop (s := s) p o
  have hqr := quiet_resetIdling (s := s) p o
  unfold SharedState.stop at hq ⊢
  simp only at hq ⊢
  by_cases hs : o.started = true
  · simp only [hs, Bool.not_true, Bool.false_eq_true, if_false] at hq hk ⊢
    -- the disconnect callback touches neither flags nor counters
    generalize hs₃ : (if ((s.resetIdling p o).started.remove o.client).2 = 1 then
      { s.resetIdling p o with started := ((s.resetIdling p o).started.remove o.client).1 }
      else SharedState.callDisconnect { s.resetIdling p o with
        started := ((s.resetIdling p o).started.remove o.client).1 } o.client o.index) = s₃ at hq ⊢
    have h₃ : s₃.flagsOf = (s.resetIdling p o).flagsOf ∧
        s₃.started = ((s.resetIdling p o).started.remove o.client).1 ∧
        s₃.idling = (s.resetIdling p o).idling := by
      rw [← hs₃]
      split
      · exact ⟨rfl, rfl, rfl⟩
      · exact flagsOf_callDisconnect _ _
    have hf := flagsOf_modify (s := s₃) (by rw [h₃.1]; exact hk)
      (fun o => { o with started := false }) (fun φ => { φ with started := false })
      fun _ => ⟨rfl, rfl⟩
    rw [h₃.1] at hf
    have hq₁ : (s.resetIdling p o).Quiet (s₃.modify p fun o => { o with started := false }) :=
      hqr.symm.trans hq
    refine ⟨h₁.change hq₁ hf hk rfl ?_ ?_ ?_, by rw [hf, hf₁, Function.update_idem]⟩
    · rw [show (s₃.modify p fun o => { o with started := false }).started = _ from h₃.2.1]
      exact counts_remove h₁.started h₁ hf hq₁.created hk rfl rfl rfl
    · rw [show (s₃.modify p fun o => { o with started := false }).idling = _ from h₃.2.2]
      exact counts_same h₁.idling hf hq₁.created hk rfl rfl
    · rintro ⟨⟩
  · have hs : o.started = false := by simpa using hs
    simp only [hs, Bool.not_false, if_true] at hf₁ ⊢
    exact ⟨h₁, hf₁⟩

theorem Books.idle (h : Books s) {o : SharedClient κ} (ho : s.objects p = some o)
    (state running : Bool) : Books (s.idle p o state running) ∧
      (s.idle p o state running).flagsOf = Function.update s.flagsOf p
        (some (o.client, ⟨o.started, if o.started && running then state else o.idling⟩)) := by
  have hk := flagsOf_eq_some ho
  have hq := quiet_idle (s := s) p o state running
  unfold SharedState.idle at hq ⊢
  by_cases hrun : (o.started && running) = true
  · simp only [hrun, Bool.not_true, Bool.false_eq_true, if_false, if_true] at hq ⊢
    have hs : o.started = true := by
      rw [Bool.and_eq_true] at hrun
      exact hrun.1
    split
    · rename_i hi
      rw [hi] at hk
      exact ⟨h, flagsOf_unchanged hk⟩
    rename_i hne
    simp only [hne, if_false] at hq
    have hf := flagsOf_modify hk (fun o => { o with idling := state })
      (fun φ => { φ with idling := state }) fun _ => ⟨rfl, rfl⟩
    cases state with
    | true =>
        have hi : o.idling = false := by simpa using hne
        refine ⟨h.change hq hf hk rfl ?_ ?_ fun _ => hs, hf⟩
        · exact counts_same h.started hf rfl hk rfl rfl
        · exact counts_add h.idling h hf rfl hk rfl hi rfl
    | false =>
        have hi : o.idling = true := by simpa using hne
        refine ⟨h.change hq hf hk rfl ?_ ?_ (by rintro ⟨⟩), hf⟩
        · exact counts_same h.started hf rfl hk rfl rfl
        · exact counts_remove h.idling h hf rfl hk rfl hi rfl
  · simp only [Bool.not_eq_true] at hrun
    simp only [hrun, Bool.not_false, if_true, Bool.false_eq_true, if_false]
    exact ⟨h, flagsOf_unchanged hk⟩

/-- A new object has no flag. -/
theorem flagsOf_construct (c : κ) : (s.construct c).flagsOf =
    Function.update s.flagsOf s.created (some (c, ⟨false, false⟩)) := by
  funext q
  unfold flagsOf SharedState.construct
  by_cases hq : q = s.created
  · simp [hq]
  · simp [hq]

theorem members_construct (h : Books s) (c : κ) : (s.construct c).members f =
    if f ⟨false, false⟩ then Function.update (s.members f) c (insert s.created (s.members f c))
    else s.members f := by
  have hflags := flagsOf_construct (s := s) c
  have hmem : ∀ q c', q ∈ (s.construct c).members f c' ↔
      (q = s.created ∧ c = c' ∧ f ⟨false, false⟩ = true) ∨ q ∈ s.members f c' := by
    intro q c'
    rw [mem_members, mem_members, hflags]
    by_cases hq : q = s.created
    · subst hq
      rw [Function.update_self]
      constructor
      · rintro ⟨-, _, ⟨⟩, h1, h2⟩
        exact .inl ⟨rfl, h1, h2⟩
      · rintro (⟨-, h1, h2⟩ | ⟨hlt, -⟩)
        · exact ⟨Nat.lt_succ_self _, _, rfl, h1, h2⟩
        · exact absurd hlt (Nat.lt_irrefl _)
    · rw [Function.update_of_ne hq]
      constructor
      · rintro ⟨-, k, hk, h1⟩
        exact .inr ⟨h.bound q k hk, k, hk, h1⟩
      · rintro (⟨h1, -⟩ | ⟨hlt, h1⟩)
        · exact absurd h1 hq
        · exact ⟨Nat.lt_succ_of_lt hlt, h1⟩
  funext c'
  ext q
  rw [hmem]
  by_cases hf : f ⟨false, false⟩ = true
  · rw [if_pos hf]
    by_cases hc : c' = c
    · subst hc
      rw [Function.update_self, Finset.mem_insert]
      simp [hf]
    · rw [Function.update_of_ne hc]
      simp [Ne.symm hc]
  · rw [if_neg hf]
    simp [hf]

theorem Books.construct (h : Books s) (c : κ) : Books (s.construct c) := by
  have hflags : ∀ q k, (s.construct c).flagsOf q = some k →
      (q = s.created ∧ k = (c, ⟨false, false⟩)) ∨ s.flagsOf q = some k := by
    intro q k hk
    rw [flagsOf_construct] at hk
    by_cases hq : q = s.created
    · subst hq
      rw [Function.update_self] at hk
      exact .inl ⟨rfl, (Option.some.inj hk).symm⟩
    · rw [Function.update_of_ne hq] at hk
      exact .inr hk
  have hnew : s.created ∉ s.members (fun _ => true) c := fun hm =>
    absurd (mem_members.mp hm).1 (Nat.lt_irrefl _)
  refine ⟨fun q k hk => ?_, ?_, ?_, ?_, fun q k hk => ?_, fun c' hc' => ?_⟩
  · rcases hflags q k hk with ⟨rfl, -⟩ | hk
    · exact Nat.lt_succ_self _
    · exact Nat.lt_succ_of_lt (h.bound q k hk)
  · rw [members_construct h, if_pos rfl]
    exact h.refs.add hnew
  · rw [members_construct h, if_neg (by rintro ⟨⟩)]
    exact h.started
  · rw [members_construct h, if_neg (by rintro ⟨⟩)]
    exact h.idling
  · rcases hflags q k hk with ⟨-, rfl⟩ | hk
    · rintro ⟨⟩
    · exact h.sound q k hk
  · rw [members_construct h, if_pos rfl] at hc'
    by_cases hcc : c' = c
    · subst hcc
      rw [Function.update_self] at hc'
      exact absurd hc' (Finset.insert_ne_empty _ _)
    · rw [Function.update_of_ne hcc] at hc'
      obtain ⟨h1, h2, h3⟩ := h.callbacks c' hc'
      exact ⟨(Function.update_of_ne hcc _ _).trans h1, (Function.update_of_ne hcc _ _).trans h2,
        (Function.update_of_ne hcc _ _).trans h3⟩

/-- New callbacks for an object that is alive. -/
theorem Books.setCallbacks (h : Books s) (hk : s.flagsOf p = some k) {r d f : ClientCallbackMap κ}
    (hr : ∀ c, c ≠ k.1 → r c = s.onReady c) (hd : ∀ c, c ≠ k.1 → d c = s.onDisconnect c)
    (hf : ∀ c, c ≠ k.1 → f c = s.onFailed c) :
    Books { s with onReady := r, onDisconnect := d, onFailed := f } := by
  refine ⟨h.bound, h.refs, h.started, h.idling, h.sound, fun c hc => ?_⟩
  have hne : c ≠ k.1 := by
    rintro rfl
    have hp : p ∈ s.members (fun _ => true) k.1 := h.mem hk rfl
    rw [show s.members (fun _ => true) k.1 = ∅ from hc] at hp
    exact absurd hp (Finset.notMem_empty p)
  obtain ⟨h1, h2, h3⟩ := h.callbacks c hc
  exact ⟨(hr c hne).trans h1, (hd c hne).trans h2, (hf c hne).trans h3⟩

/-! ## Destruction -/

/-- An object without the flag, or one that is gone, is not among those that have it. -/
theorem members_erase {v : Option (κ × Flags)} (hf : s'.flagsOf = Function.update s.flagsOf p v)
    (hn : s'.created = s.created) (hv : ∀ k, v = some k → f k.2 = false) (c : κ) :
    s'.members f c = (s.members f c).erase p := by
  ext q
  rw [Finset.mem_erase, mem_members, mem_members, hn, hf]
  by_cases hq : q = p
  · subst hq
    rw [Function.update_self]
    constructor
    · rintro ⟨-, k, hk, -, h1⟩
      rw [hv k hk] at h1
      cases h1
    · rintro ⟨h1, -⟩
      exact absurd rfl h1
  · rw [Function.update_of_ne hq]
    exact ⟨fun h => ⟨hq, h⟩, fun h => h.2⟩

/-- A stopped object is counted only as alive. -/
theorem not_mem_of_stopped (hk : s.flagsOf p = some (c, ⟨false, false⟩)) {c' : κ}
    (hf : c' ≠ c ∨ f ⟨false, false⟩ = false) : p ∉ s.members f c' := by
  intro hp
  obtain ⟨-, k₁, hk₁, h1, h2⟩ := mem_members.mp hp
  rw [hk] at hk₁
  cases hk₁
  rcases hf with hf | hf
  · exact hf h1.symm
  · rw [hf] at h2
    cases h2

/-- The counters when the last reference of `c` is gone, and the callbacks. -/
structure Removed (s : SharedState κ) (c : κ) (s' : SharedState κ) : Prop where
  objects : s'.objects = s.objects
  created : s'.created = s.created
  refs : s'.refs = (s.refs.remove c).1
  started : s'.started = s.started
  idling : s'.idling = s.idling
  callbacks : ∀ c', c' ≠ c → s'.onReady c' = s.onReady c' ∧
    s'.onDisconnect c' = s.onDisconnect c' ∧ s'.onFailed c' = s.onFailed c'
  erased : (s.refs.remove c).1.count c = 0 →
    s'.onReady c = none ∧ s'.onDisconnect c = none ∧ s'.onFailed c = none

/-- `SharedClientState::remove` finds nothing left to erase from the counters. -/
theorem Books.remove (h : Books s) (hk : s.flagsOf p = some (c, ⟨false, false⟩)) :
    Removed s c (s.remove c) ∧
      ((s.refs.remove c).1.count c = 0 → (s.refs.remove c).1 c = none ∧ s.started c = none ∧
        s.idling c = none) := by
  have hp : p ∈ s.members (fun _ => true) c := h.mem hk rfl
  obtain ⟨hrefs, -⟩ := h.refs.remove hp
  have hnone : (s.refs.remove c).1.count c = 0 → (s.refs.remove c).1 c = none ∧
      s.started c = none ∧ s.idling c = none := by
    intro hzero
    have hempty : (s.members (fun _ => true) c).erase p = ∅ := by
      have hcount := hrefs.count c
      rw [hzero, Function.update_self] at hcount
      exact Finset.card_eq_zero.mp hcount.symm
    have hflag : ∀ f : Flags → Bool, f ⟨false, false⟩ = false → s.members f c = ∅ := by
      intro f hf
      refine Finset.subset_empty.mp fun q hq => ?_
      rw [← hempty, Finset.mem_erase]
      refine ⟨?_, members_subset c hq⟩
      rintro rfl
      exact not_mem_of_stopped hk (.inr hf) hq
    refine ⟨hrefs.eq_none ?_, h.started.eq_none (hflag _ rfl), h.idling.eq_none (hflag _ rfl)⟩
    rw [Function.update_self, hempty]
  refine ⟨?_, hnone⟩
  unfold SharedState.remove
  simp only
  split
  · rename_i hzero
    obtain ⟨h1, h2, h3⟩ := hnone hzero
    have herase : ∀ {m : SharedReferenceCounter κ}, m c = none → Function.update m c none = m := by
      intro m hm
      rw [← hm, Function.update_eq_self]
    refine ⟨rfl, rfl, herase h1, herase h2, herase h3, fun c' hc' => ?_, fun _ => ?_⟩
    · exact ⟨Function.update_of_ne hc' _ _, Function.update_of_ne hc' _ _,
        Function.update_of_ne hc' _ _⟩
    · exact ⟨Function.update_self _ _ _, Function.update_self _ _ _, Function.update_self _ _ _⟩
  · rename_i hzero
    exact ⟨rfl, rfl, rfl, rfl, rfl, fun _ _ => ⟨rfl, rfl, rfl⟩, fun h0 => absurd h0 hzero⟩

theorem Books.destroy (h : Books s) {o : SharedClient κ} (ho : s.objects p = some o) :
    Books (s.destroy p o) ∧ (s.destroy p o).flagsOf = Function.update s.flagsOf p none := by
  obtain ⟨h₁, hf₁⟩ := h.stop ho
  have hk := flagsOf_self hf₁
  obtain ⟨hr, -⟩ := h₁.remove hk
  have hp : p ∈ (s.stop p o).members (fun _ => true) o.client := h₁.mem hk rfl
  have hf : (s.destroy p o).flagsOf = Function.update (s.stop p o).flagsOf p none := by
    funext q
    unfold flagsOf SharedState.destroy
    simp only [hr.objects]
    by_cases hq : q = p
    · simp [hq]
    · simp [hq]
  have hn : (s.destroy p o).created = (s.stop p o).created := hr.created
  have hkeep : ∀ f : Flags → Bool, f ⟨false, false⟩ = false →
      (s.destroy p o).members f = (s.stop p o).members f := by
    intro f hf'
    funext c
    rw [members_erase hf hn (by rintro _ ⟨⟩),
      Finset.erase_eq_of_notMem (not_mem_of_stopped hk (.inr hf'))]
  have hold : ∀ q k, (s.destroy p o).flagsOf q = some k → (s.stop p o).flagsOf q = some k := by
    intro q k hq
    rw [hf] at hq
    by_cases hqp : q = p
    · rw [hqp, Function.update_self] at hq
      cases hq
    · rwa [Function.update_of_ne hqp] at hq
  have hall : (s.destroy p o).members (fun _ => true) = Function.update
      ((s.stop p o).members fun _ => true) o.client
      (((s.stop p o).members (fun _ => true) o.client).erase p) := by
    funext c
    rw [members_erase hf hn (by rintro _ ⟨⟩)]
    by_cases hc : c = o.client
    · subst hc
      rw [Function.update_self]
    · rw [Function.update_of_ne hc, Finset.erase_eq_of_notMem (not_mem_of_stopped hk (.inl hc))]
  have hrefs : (s.destroy p o).refs = ((s.stop p o).refs.remove o.client).1 := hr.refs
  refine ⟨⟨fun q k hq => ?_, ?_, ?_, ?_, fun q k hq => h₁.sound q k (hold q k hq), fun c hc => ?_⟩,
    by rw [hf, hf₁, Function.update_idem]⟩
  · rw [hn]
    exact h₁.bound q k (hold q k hq)
  · rw [hrefs, hall]
    exact (h₁.refs.remove hp).1
  · rw [hkeep _ rfl, show (s.destroy p o).started = _ from hr.started]
    exact h₁.started
  · rw [hkeep _ rfl, show (s.destroy p o).idling = _ from hr.idling]
    exact h₁.idling
  · rw [hall] at hc
    by_cases hcc : c = o.client
    · subst hcc
      refine hr.erased ?_
      rw [(h₁.refs.remove hp).1.count, hc, Finset.card_empty]
    · rw [Function.update_of_ne hcc] at hc
      obtain ⟨h1, h2, h3⟩ := h₁.callbacks c hc
      obtain ⟨e1, e2, e3⟩ := hr.callbacks c hcc
      exact ⟨e1.trans h1, e2.trans h2, e3.trans h3⟩

/-! ## Runs -/

/-- **A complete operation keeps the books in order.** -/
theorem Books.step (h : Books s) {e : SharedEvent κ} (hs : s.step e = some s') : Books s' := by
  cases e with
  | construct c =>
      cases hs
      exact h.construct c
  | start p wasStarted ready =>
      obtain ⟨o, ho, rfl⟩ := Option.map_eq_some_iff.mp hs
      exact (h.start ho wasStarted ready).1
  | stop p =>
      obtain ⟨o, ho, rfl⟩ := Option.map_eq_some_iff.mp hs
      exact (h.stop ho).1
  | idle p state running =>
      obtain ⟨o, ho, rfl⟩ := Option.map_eq_some_iff.mp hs
      exact (h.idle ho state running).1
  | onReady p =>
      obtain ⟨o, ho, rfl⟩ := Option.map_eq_some_iff.mp hs
      exact h.setCallbacks (flagsOf_eq_some ho) (fun _ hc => Function.update_of_ne hc _ _)
        (fun _ _ => rfl) fun _ _ => rfl
  | onDisconnect p =>
      obtain ⟨o, ho, rfl⟩ := Option.map_eq_some_iff.mp hs
      exact h.setCallbacks (flagsOf_eq_some ho) (fun _ _ => rfl)
        (fun _ hc => Function.update_of_ne hc _ _) fun _ _ => rfl
  | onFailed p callback =>
      obtain ⟨o, ho, rfl⟩ := Option.map_eq_some_iff.mp hs
      exact h.setCallbacks (flagsOf_eq_some ho) (fun _ _ => rfl) (fun _ _ => rfl)
        fun _ hc => Function.update_of_ne hc _ _
  | destroy p =>
      obtain ⟨o, ho, rfl⟩ := Option.map_eq_some_iff.mp hs
      exact (h.destroy ho).1

theorem Books.init : Books (SharedState.init (κ := κ)) := by
  refine ⟨?_, ?_, ?_, ?_, ?_, fun _ _ => ⟨rfl, rfl, rfl⟩⟩
  · rintro p k ⟨⟩
  · exact ⟨fun _ => rfl, by rintro c counter ⟨⟩⟩
  · exact ⟨fun _ => rfl, by rintro c counter ⟨⟩⟩
  · exact ⟨fun _ => rfl, by rintro c counter ⟨⟩⟩
  · rintro p k ⟨⟩

theorem books_of_run {es : List (SharedEvent κ)}
    (h : sharedClients.run SharedState.init es = some s) : Books s :=
  Machine.run_inv (M := sharedClients) (P := Books) (fun _ _ _ hB hs => hB.step hs) .init h

end SharedState

/-! ## Assertions -/

namespace SharedReferenceCounter

variable (m : SharedReferenceCounter κ) (client : κ)

/-- The greatest `size_t`. -/
def maxIndex : ℕ := 2 ^ 64 - 1

/-- The assertion of `add`: the index it returns is not the greatest there is. -/
def AddAsserts : Prop := ((m client).getD ⟨0, 0⟩).nextIndex ≠ maxIndex

/-- The assertions of `remove`. -/
def RemoveAsserts : Prop :=
  match m client with
  | none => False
  | some counter => counter.references ≠ 0 ∧
    if counter.references - 1 = 0 then counter.references = 1 else counter.references > 1

/-- The assertions of `count`. -/
def CountAsserts (required : Bool) : Prop :=
  match m client with
  | none => required = false
  | some counter => counter.references ≠ 0

end SharedReferenceCounter

namespace Counts

variable {m : SharedReferenceCounter κ} {S : κ → Finset ℕ} {c : κ} {p : ℕ}

omit [DecidableEq κ] in
theorem removeAsserts (h : Counts m S) (hp : p ∈ S c) : m.RemoveAsserts c := by
  obtain ⟨counter, hm, -⟩ := h.eq_some hp
  have hne := h.entry c counter hm
  unfold SharedReferenceCounter.RemoveAsserts
  simp only [hm]
  refine ⟨hne, ?_⟩
  split <;> omega

omit [DecidableEq κ] in
theorem countAsserts (h : Counts m S) {required : Bool} (hr : required = true → (S c).Nonempty) :
    m.CountAsserts c required := by
  unfold SharedReferenceCounter.CountAsserts
  cases hm : m c with
  | some counter => exact h.entry c counter hm
  | none =>
      cases required with
      | false => rfl
      | true =>
          obtain ⟨p, hp⟩ := hr rfl
          obtain ⟨counter, hm', -⟩ := h.eq_some hp
          rw [hm] at hm'
          cases hm'

end Counts

namespace SharedState

variable (s : SharedState κ)

/-- The assertions of `internal_reset_idling`. -/
def ResetIdlingAsserts (o : SharedClient κ) : Prop :=
  o.idling = true → s.idling.RemoveAsserts o.client ∧ (s.idling.remove o.client).2 > 0

/-- The assertions of `stop`. -/
def StopAsserts (p : ℕ) (o : SharedClient κ) : Prop :=
  s.ResetIdlingAsserts o ∧
    (o.started = true → (s.resetIdling p o).started.RemoveAsserts o.client)

/-- The assertions of `internal_idle`. -/
def IdleAsserts (o : SharedClient κ) (state running : Bool) : Prop :=
  (o.started && running) = true → o.idling ≠ state →
    if state then
      s.idling.AddAsserts o.client ∧ s.started.CountAsserts o.client true ∧
        (s.idling.add o.client).1.CountAsserts o.client true ∧
        (s.idling.add o.client).1.count o.client ≤ s.started.count o.client
    else
      s.idling.RemoveAsserts o.client ∧ s.started.CountAsserts o.client true ∧
        (s.idling.remove o.client).2 > 0 ∧
        (s.idling.remove o.client).2 ≤ s.started.count o.client ∧
        (s.idling.remove o.client).1.CountAsserts o.client false ∧
        (s.idling.remove o.client).1.count o.client < s.started.count o.client

/-- The assertions of `SharedClientState::remove`: with the last reference of a client gone, no member
of the state has an entry for it. The callback maps have been erased when the last one is checked. -/
def StateRemoveAsserts (client : κ) : Prop :=
  s.refs.RemoveAsserts client ∧ s.started.CountAsserts client false ∧
    s.idling.CountAsserts client false ∧ (s.refs.remove client).1.CountAsserts client false ∧
    s.started.count client ≤ (s.refs.remove client).1.count client ∧
    s.idling.count client ≤ (s.refs.remove client).1.count client ∧
    ((s.refs.remove client).1.count client = 0 →
      s.started.count client = 0 ∧ s.idling.count client = 0 ∧
        (s.refs.remove client).1 client = none ∧ s.started client = none ∧
        s.idling client = none ∧ s.onReady.erase client client = none ∧
        s.onDisconnect.erase client client = none ∧ s.onFailed.erase client client = none)

/-- The assertions of an operation. -/
def AssertionsHold : SharedEvent κ → Prop
  | .construct c => s.refs.AddAsserts c
  | .start p _ _ => ∀ o, s.objects p = some o → s.ResetIdlingAsserts o ∧
    (o.started = false → (s.resetIdling p o).started.AddAsserts o.client)
  | .stop p => ∀ o, s.objects p = some o → s.StopAsserts p o
  | .idle p state running => ∀ o, s.objects p = some o → s.IdleAsserts o state running
  | .destroy p => ∀ o, s.objects p = some o →
    s.StopAsserts p o ∧ (s.stop p o).StateRemoveAsserts o.client
  | _ => True

/-- The counter that the operation adds to, if it does, has an index left. -/
def IndexLeft : SharedEvent κ → Prop
  | .construct c => s.refs.AddAsserts c
  | .start p _ _ => ∀ o, s.objects p = some o → o.started = false → s.started.AddAsserts o.client
  | .idle p true running => ∀ o, s.objects p = some o → (o.started && running) = true →
    o.idling = false → s.idling.AddAsserts o.client
  | _ => True

variable {s} {p : ℕ} {o : SharedClient κ} {c : κ}

namespace Books

theorem resetIdlingAsserts (h : Books s) (ho : s.objects p = some o) : s.ResetIdlingAsserts o := by
  intro hi
  have hp : p ∈ s.members Flags.idling o.client := h.mem (flagsOf_eq_some ho) hi
  refine ⟨h.idling.removeAsserts hp, ?_⟩
  rw [(h.idling.remove hp).2]
  exact Finset.card_pos.mpr ⟨p, hp⟩

theorem stopAsserts (h : Books s) (ho : s.objects p = some o) : s.StopAsserts p o := by
  refine ⟨h.resetIdlingAsserts ho, fun hs => ?_⟩
  obtain ⟨h₁, hf⟩ := h.resetIdling ho
  have hp : p ∈ (s.resetIdling p o).members Flags.started o.client := h₁.mem (flagsOf_self hf) hs
  exact h₁.started.removeAsserts hp

/-- The assertions of `internal_idle` come down to the one of `add`. -/
theorem idleAsserts_iff (h : Books s) (ho : s.objects p = some o) (state running : Bool) :
    s.IdleAsserts o state running ↔ (state = true → (o.started && running) = true →
      o.idling = false → s.idling.AddAsserts o.client) := by
  have hk := flagsOf_eq_some ho
  cases state with
  | true =>
      simp only [IdleAsserts, if_true, true_imp_iff, ne_eq, Bool.not_eq_true]
      refine ⟨fun ha hrun hi => (ha hrun hi).1, fun ha hrun hi => ⟨ha hrun hi, ?_⟩⟩
      have hs : o.started = true := by
        rw [Bool.and_eq_true] at hrun
        exact hrun.1
      have hp : p ∈ s.members Flags.started o.client := h.mem hk hs
      have hnot : p ∉ s.members Flags.idling o.client := by
        intro hm
        obtain ⟨-, k, hk', -, hf⟩ := mem_members.mp hm
        rw [hk] at hk'
        cases hk'
        rw [hi] at hf
        cases hf
      have hadd := h.idling.add hnot
      refine ⟨h.started.countAsserts fun _ => ⟨p, hp⟩, hadd.countAsserts fun _ => ?_, ?_⟩
      · rw [Function.update_self]
        exact Finset.insert_nonempty _ _
      · rw [hadd.count, h.started.count, Function.update_self]
        exact Finset.card_le_card (Finset.insert_subset hp (h.idling_subset _))
  | false =>
      simp only [Bool.false_eq_true, false_imp_iff, iff_true]
      intro hrun hi
      have hi : o.idling = true := by simpa using hi
      have hp : p ∈ s.members Flags.idling o.client := h.mem hk hi
      have hp' : p ∈ s.members Flags.started o.client := h.idling_subset _ hp
      obtain ⟨hremove, hcard⟩ := h.idling.remove hp
      have hle : (s.members Flags.idling o.client).card ≤ (s.members Flags.started o.client).card :=
        Finset.card_le_card (h.idling_subset _)
      have hpos : 0 < (s.members Flags.idling o.client).card := Finset.card_pos.mpr ⟨p, hp⟩
      refine ⟨h.idling.removeAsserts hp, h.started.countAsserts fun _ => ⟨p, hp'⟩, ?_, ?_,
        hremove.countAsserts (by rintro ⟨⟩), ?_⟩
      · rw [hcard]
        exact hpos
      · rw [hcard, h.started.count]
        exact hle
      · rw [hremove.count, h.started.count, Function.update_self, Finset.card_erase_of_mem hp]
        omega

/-- The assertions of `SharedClientState::remove`, after `stop`. -/
theorem stateRemoveAsserts (h : Books s) (hk : s.flagsOf p = some (c, ⟨false, false⟩)) :
    s.StateRemoveAsserts c := by
  have hp : p ∈ s.members (fun _ => true) c := h.mem hk rfl
  have hremove := (h.refs.remove hp).1
  have hle : ∀ f : Flags → Bool, f ⟨false, false⟩ = false →
      (s.members f c).card ≤ (s.refs.remove c).1.count c := by
    intro f hf
    rw [hremove.count, Function.update_self]
    refine Finset.card_le_card fun q hq => Finset.mem_erase.mpr ⟨?_, members_subset c hq⟩
    rintro rfl
    exact not_mem_of_stopped hk (.inr hf) hq
  have hs : s.started.count c ≤ (s.refs.remove c).1.count c := by
    rw [h.started.count]
    exact hle _ rfl
  have hi : s.idling.count c ≤ (s.refs.remove c).1.count c := by
    rw [h.idling.count]
    exact hle _ rfl
  refine ⟨h.refs.removeAsserts hp, h.started.countAsserts (by rintro ⟨⟩),
    h.idling.countAsserts (by rintro ⟨⟩), hremove.countAsserts (by rintro ⟨⟩), hs, hi, fun h0 => ?_⟩
  obtain ⟨h1, h2, h3⟩ := (h.remove hk).2 h0
  exact ⟨by omega, by omega, h1, h2, h3, Function.update_self _ _ _, Function.update_self _ _ _,
    Function.update_self _ _ _⟩

/-- **No assertion fails but the one about the index.** -/
theorem assertionsHold_iff (h : Books s) (e : SharedEvent κ) :
    s.AssertionsHold e ↔ s.IndexLeft e := by
  cases e with
  | construct c => exact Iff.rfl
  | start p wasStarted ready =>
      constructor
      · intro ha o ho hs
        have hadd := (ha o ho).2 hs
        rwa [resetIdling_started] at hadd
      · intro hi o ho
        refine ⟨h.resetIdlingAsserts ho, fun hs => ?_⟩
        rw [resetIdling_started]
        exact hi o ho hs
  | stop p => exact ⟨fun _ => trivial, fun _ o ho => h.stopAsserts ho⟩
  | idle p state running =>
      cases state with
      | true =>
          constructor
          · intro ha o ho
            exact (h.idleAsserts_iff ho true running).mp (ha o ho) rfl
          · intro hi o ho
            exact (h.idleAsserts_iff ho true running).mpr fun _ => hi o ho
      | false =>
          refine ⟨fun _ => trivial, fun _ o ho => ?_⟩
          exact (h.idleAsserts_iff ho false running).mpr (by rintro ⟨⟩)
  | destroy p =>
      refine ⟨fun _ => trivial, fun _ o ho => ⟨h.stopAsserts ho, ?_⟩⟩
      obtain ⟨h₁, hf⟩ := h.stop ho
      exact h₁.stateRemoveAsserts (flagsOf_self hf)
  | onReady p => exact Iff.rfl
  | onDisconnect p => exact Iff.rfl
  | onFailed p callback => exact Iff.rfl

end Books

variable (s) in
/-- The books of the wrapped client `c` are exact. -/
structure BooksExact (c : κ) : Prop where
  started : s.started.count c = (s.members Flags.started c).card
  idling : s.idling.count c = (s.members Flags.idling c).card
  started_le : s.started.count c ≤ (s.members (fun _ => true) c).card
  idling_le : s.idling.count c ≤ (s.members (fun _ => true) c).card
  gone : s.members (fun _ => true) c = ∅ →
    s.refs c = none ∧ s.started c = none ∧ s.idling c = none ∧
      s.onReady c = none ∧ s.onDisconnect c = none ∧ s.onFailed c = none

end SharedState

open SharedState in
/-- **Shared-client bookkeeping is exact** after every sequence of operations: the counters are
those of the flags, a shared client that idles is started, nothing remains of a wrapped client
without shared clients, and of the assertions of the next operation only the one of `add` can fail,
when the index it returns would be the greatest there is. -/
theorem shared_bookkeeping_exact {es : List (SharedEvent κ)} {s : SharedState κ}
    (hr : sharedClients.run SharedState.init es = some s) :
    (∀ c, s.BooksExact c) ∧
    (∀ p o, s.objects p = some o → o.idling = true → o.started = true) ∧
    ∀ e, s.AssertionsHold e ↔ s.IndexLeft e := by
  have h := books_of_run hr
  refine ⟨fun c => ⟨h.started.count c, h.idling.count c, ?_, ?_, fun hc => ?_⟩, fun p o ho hi => ?_,
    h.assertionsHold_iff⟩
  · rw [h.started.count]
    exact Finset.card_le_card (Books.members_subset c)
  · rw [h.idling.count]
    exact Finset.card_le_card (Books.members_subset c)
  · have hflag : ∀ f, s.members f c = ∅ := by
      intro f
      refine Finset.subset_empty.mp fun q hq => ?_
      rw [← hc]
      exact Books.members_subset c hq
    exact ⟨h.refs.eq_none hc, h.started.eq_none (hflag _), h.idling.eq_none (hflag _),
      h.callbacks c hc⟩
  · exact h.sound p _ (flagsOf_eq_some ho) hi

/-! ## Sample runs -/

/-- One of two shared clients idles and is destroyed; the wrapped client fails in between. -/
def idleAndGone : List (SharedEvent Unit) :=
  [.construct (), .construct (), .start 0 false false, .start 1 true true, .idle 0 true true,
    .idle 1 true false, .destroy 0]

theorem shared_bookkeeping_exact_idleAndGone :
    (sharedAfter idleAndGone).started.count () = 1 ∧
    (sharedAfter idleAndGone).members Flags.started () = {1} ∧
    (sharedAfter idleAndGone).BooksExact () := by
  have hrun : sharedClients.run SharedState.init idleAndGone = some (sharedAfter idleAndGone) := rfl
  exact ⟨rfl, rfl, (shared_bookkeeping_exact hrun).1 ()⟩

/-- One shared client stays started while another one is started and stopped `n` times. -/
def startAndStop (n : ℕ) : List (SharedEvent Unit) :=
  [.construct (), .construct (), .start 0 false false] ++
    (List.replicate n [.start 1 true false, .stop 1]).flatten

open SharedState in
/-- Every start takes another index. -/
theorem run_startAndStop (n : ℕ) : ∃ s, sharedClients.run SharedState.init (startAndStop n) = some s ∧
    s.flagsOf 1 = some ((), ⟨false, false⟩) ∧ s.started () = some ⟨1, n + 1⟩ := by
  induction n with
  | zero => exact ⟨sharedAfter (startAndStop 0), rfl, rfl, rfl⟩
  | succ n ih =>
      obtain ⟨s, hrun, hk, hs⟩ := ih
      have hB := books_of_run hrun
      obtain ⟨o, ho, hko⟩ := Option.map_eq_some_iff.mp hk
      simp only [Prod.mk.injEq, Flags.mk.injEq] at hko
      obtain ⟨h₁, hf₁⟩ := hB.start ho true false
      obtain ⟨o₁, ho₁, hko₁⟩ := Option.map_eq_some_iff.mp (flagsOf_self hf₁)
      simp only [Prod.mk.injEq, Flags.mk.injEq] at hko₁
      obtain ⟨h₂, hf₂⟩ := h₁.stop ho₁
      refine ⟨(s.start 1 o true false).stop 1 o₁, ?_, flagsOf_self hf₂, ?_⟩
      · have happ : startAndStop (n + 1) = startAndStop n ++ [.start 1 true false, .stop 1] := by
          unfold startAndStop
          rw [List.replicate_succ', List.flatten_append, List.append_assoc]
          rfl
        rw [happ, Machine.run_append, hrun]
        change (s.step (.start 1 true false)).bind _ = _
        simp only [SharedState.step, ho, Option.map_some, Option.bind_some]
        change ((s.start 1 o true false).step (.stop 1)).bind _ = _
        simp only [SharedState.step, ho₁, Option.map_some, Option.bind_some]
        rfl
      · rw [stop_started hko₁.2.1, start_started hko.2.1]
        simp [SharedReferenceCounter.add, SharedReferenceCounter.remove, hs]

/-- After `2 ^ 64 - 2` starts the next index is the greatest there is, and the assertion of `add`
fails. -/
theorem start_runs_out_of_indices :
    ∃ s, sharedClients.run SharedState.init (startAndStop (2 ^ 64 - 2)) = some s ∧
      ¬ s.AssertionsHold (.start 1 true false) := by
  obtain ⟨s, hrun, hk, hs⟩ := run_startAndStop (2 ^ 64 - 2)
  refine ⟨s, hrun, fun h => ?_⟩
  obtain ⟨o, ho, hko⟩ := Option.map_eq_some_iff.mp hk
  simp only [Prod.mk.injEq, Flags.mk.injEq] at hko
  have hadd := (h o ho).2 hko.2.1
  rw [SharedState.resetIdling_started] at hadd
  refine hadd ?_
  rw [hs]
  rfl

end Loon
