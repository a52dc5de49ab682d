import Loon.Client.Bookkeeping

set_option autoImplicit false

/-!
# Idling together

A wrapped client is to idle while all of its started shared clients have asked for it. Its directive
is the last thing it was told: `idle(b)`, or `start` and `register_content`, which put it out of
idle. Whether to delegate an `idle` call is decided in `internal_idle` alone, from two counters.

* `Idling`, `idlingClients`: the shared clients with the directives, and which of them have asked;
* `Conjunction`: the directive is the conjunction;
* `Heeded`: the calls after which it still is; the others are those that change who is started, or
  register content, and leave the counters out of account;
* **`idling_is_conjunction`**: the directive is the conjunction after every call of a run if and only
  if all calls are such.
-/

namespace Loon

variable {κ : Type} [DecidableEq κ]

/-- `internal_idle` delegates the call. -/
def SharedState.delegatesIdle (s : SharedState κ) (o : SharedClient κ) (state : Bool) : Bool :=
  o.started && o.idling ≠ state &&
    if state then s.started.count o.client = (s.idling.add o.client).1.count o.client
    else s.started.count o.client = (s.idling.remove o.client).2

/-- The shared clients, the directive of each wrapped client, and whether a shared client has asked to
idle and was not started, put out of idle or given content since. -/
structure Idling (κ : Type) where
  shared : SharedState κ
  directive : κ → Bool
  asked : ℕ → Bool

/-- The calls on shared clients; `wasStarted` and `ready` are what `start` finds the wrapped client
to be, which stays started while one of them is. -/
inductive IdlingEvent (κ : Type) where
  | construct (client : κ)
  | start (object : ℕ) (wasStarted ready : Bool)
  | stop (object : ℕ)
  | idle (object : ℕ) (state : Bool)
  | registerContent (object : ℕ)
  | destroy (object : ℕ)
  deriving DecidableEq, Repr

namespace Idling

def init : Idling κ := ⟨.init, fun _ => false, fun _ => false⟩

variable (s : Idling κ)

def step : IdlingEvent κ → Option (Idling κ)
  | .construct client => some { s with shared := s.shared.construct client }
  | .start p wasStarted ready => (s.shared.objects p).map fun o =>
    { shared := s.shared.start p o wasStarted ready
      directive := Function.update s.directive o.client false
      asked := Function.update s.asked p false }
  | .stop p => (s.shared.objects p).map fun o => { s with shared := s.shared.stop p o }
  | .idle p state => (s.shared.objects p).map fun o =>
    { shared := s.shared.idle p o state true
      directive :=
        if s.shared.delegatesIdle o state then Function.update s.directive o.client state
        else s.directive
      asked := Function.update s.asked p state }
  | .registerContent p => (s.shared.objects p).map fun o =>
    { s with
      directive := Function.update s.directive o.client false
      asked := Function.update s.asked p false }
  | .destroy p => (s.shared.objects p).map fun o => { s with shared := s.shared.destroy p o }

/-- The started shared clients of `c`. -/
def startedOf (c : κ) : Finset ℕ := s.shared.members Flags.started c

/-- All shared clients in a set have asked to idle. -/
def AllAsked (S : Finset ℕ) : Prop := ∀ p ∈ S, s.asked p = true

/-- **The directive is the conjunction**, for a wrapped client with a started shared client. -/
def Conjunction : Prop :=
  ∀ c, (s.startedOf c).Nonempty → (s.directive c = true ↔ s.AllAsked (s.startedOf c))

/-- The object `p` stops: it has asked to idle, or it is the last one that is started, or one of the
others has not asked. -/
def StopHeeded (p : ℕ) (o : SharedClient κ) : Prop :=
  o.started = true → s.asked p = false → ((s.startedOf o.client).erase p).Nonempty →
    ¬ s.AllAsked ((s.startedOf o.client).erase p)

/-- The calls that the directive follows. -/
def Heeded : IdlingEvent κ → Prop
  | .stop p => ∀ o, s.shared.objects p = some o → s.StopHeeded p o
  | .destroy p => ∀ o, s.shared.objects p = some o → s.StopHeeded p o
  | .registerContent p => ∀ o, s.shared.objects p = some o → o.started = false →
    (s.startedOf o.client).Nonempty → ¬ s.AllAsked (s.startedOf o.client)
  | .idle p true => ∀ o, s.shared.objects p = some o → o.started = true →
    (o.idling = true → s.asked p = false → ¬ s.AllAsked ((s.startedOf o.client).erase p)) ∧
    (o.idling = false →
      (s.startedOf o.client).erase p ⊆ s.shared.members Flags.idling o.client →
        s.AllAsked ((s.startedOf o.client).erase p))
  | _ => True

end Idling

/-- The shared clients with their idling. -/
def idlingClients : Machine (Idling κ) (IdlingEvent κ) where
  init := .init
  step := Idling.step

namespace Idling

/-- **The invariant**: the books are in order, and who has asked to idle is counted. -/
structure IdlingInv (s : Idling κ) : Prop where
  books : s.shared.Books
  counted : ∀ p k, s.shared.flagsOf p = some k → k.2.started = true → s.asked p = true →
    k.2.idling = true

variable {s s' : Idling κ} {p : ℕ} {c : κ} {o : SharedClient κ}

omit [DecidableEq κ] in
/-- Only the flags of `p` and its request change. -/
theorem counted_of_update {k' : Option (κ × Flags)} (h : ∀ p k, s.shared.flagsOf p = some k →
      k.2.started = true → s.asked p = true → k.2.idling = true)
    (hf : s'.shared.flagsOf = Function.update s.shared.flagsOf p k')
    (ha : ∀ q, q ≠ p → s'.asked q = s.asked q)
    (hk : ∀ k, k' = some k → k.2.started = true → s'.asked p = true → k.2.idling = true) :
    ∀ p k, s'.shared.flagsOf p = some k → k.2.started = true → s'.asked p = true →
      k.2.idling = true := by
  intro q k hq hs hasked
  rw [hf] at hq
  by_cases hqp : q = p
  · subst hqp
    rw [Function.update_self] at hq
    exact hk k hq hs hasked
  · rw [Function.update_of_ne hqp] at hq
    rw [ha q hqp] at hasked
    exact h q k hq hs hasked

/-- **Every call keeps the invariant.** -/
theorem IdlingInv.step (h : IdlingInv s) {e : IdlingEvent κ} (hs : s.step e = some s') :
    IdlingInv s' := by
  cases e with
  | construct c =>
      cases hs
      refine ⟨h.books.construct c, ?_⟩
      refine counted_of_update h.counted (SharedState.flagsOf_construct c) (fun _ _ => rfl) ?_
      rintro _ ⟨⟩ ⟨⟩
  | start p wasStarted ready =>
      obtain ⟨o, ho, rfl⟩ := Option.map_eq_some_iff.mp hs
      obtain ⟨hB, hf⟩ := h.books.start ho wasStarted ready
      refine ⟨hB, counted_of_update h.counted hf (fun q hq => Function.update_of_ne hq _ _) ?_⟩
      rintro _ - - ha
      simp only [Function.update_self] at ha
      cases ha
  | stop p =>
      obtain ⟨o, ho, rfl⟩ := Option.map_eq_some_iff.mp hs
      obtain ⟨hB, hf⟩ := h.books.stop ho
      refine ⟨hB, counted_of_update h.counted hf (fun _ _ => rfl) ?_⟩
      rintro _ ⟨⟩ ⟨⟩
  | idle p state =>
      obtain ⟨o, ho, rfl⟩ := Option.map_eq_some_iff.mp hs
      obtain ⟨hB, hf⟩ := h.books.idle ho state true
      refine ⟨hB, counted_of_update h.counted hf (fun q hq => Function.update_of_ne hq _ _) ?_⟩
      rintro _ ⟨⟩ hst ha
      simp only [Function.update_self] at ha
      simp only at hst
      simp only [hst, Bool.and_self, if_true, ha]
  | registerContent p =>
      obtain ⟨o, ho, rfl⟩ := Option.map_eq_some_iff.mp hs
      have hf := SharedState.flagsOf_unchanged (SharedState.flagsOf_eq_some ho)
      refine ⟨h.books, counted_of_update h.counted hf
        (fun q hq => Function.update_of_ne hq _ _) ?_⟩
      rintro _ - - ha
      simp only [Function.update_self] at ha
      cases ha
  | destroy p =>
      obtain ⟨o, ho, rfl⟩ := Option.map_eq_some_iff.mp hs
      obtain ⟨hB, hf⟩ := h.books.destroy ho
      refine ⟨hB, counted_of_update h.counted hf (fun _ _ => rfl) ?_⟩
      rintro _ ⟨⟩

/-! ## What each call does to the conjunction -/

theorem IdlingInv.mem_startedOf (h : IdlingInv s) (ho : s.shared.objects p = some o) :
    p ∈ s.startedOf c ↔ o.client = c ∧ o.started = true := by
  have hk := SharedState.flagsOf_eq_some ho
  constructor
  · intro hp
    obtain ⟨-, k, hk', h1, h2⟩ := SharedState.mem_members.mp hp
    rw [hk] at hk'
    cases hk'
    exact ⟨h1, h2⟩
  · rintro ⟨rfl, hs⟩
    exact h.books.mem hk hs

/-- A started shared client that idles is counted as such. -/
theorem IdlingInv.asked_idling (h : IdlingInv s) {q : ℕ} (hq : q ∈ s.startedOf c)
    (ha : s.asked q = true) : q ∈ s.shared.members Flags.idling c := by
  obtain ⟨hlt, k, hk, hc, hs⟩ := SharedState.mem_members.mp hq
  exact SharedState.mem_members.mpr ⟨hlt, k, hk, hc, h.counted q k hk hs ha⟩

omit [DecidableEq κ] in
theorem allAsked_congr {S : Finset ℕ} (h : ∀ q ∈ S, s'.asked q = s.asked q) :
    s'.AllAsked S ↔ s.AllAsked S :=
  forall_congr' fun q => imp_congr_right fun hq => by rw [h q hq]

omit [DecidableEq κ] in
/-- Who is not among them does not matter. -/
theorem allAsked_of_notMem {S : Finset ℕ} (ha : ∀ q, q ≠ p → s'.asked q = s.asked q) (hp : p ∉ S) :
    s'.AllAsked S ↔ s.AllAsked S := by
  refine allAsked_congr fun q hq => ha q ?_
  rintro rfl
  exact hp hq

omit [DecidableEq κ] in
/-- What is said of the object under `p`. -/
theorem forall_object {P : SharedClient κ → Prop} (ho : s.shared.objects p = some o) :
    (∀ o', s.shared.objects p = some o' → P o') ↔ P o := by
  constructor
  · intro h
    exact h o ho
  · intro h o' ho'
    rw [ho] at ho'
    cases ho'
    exact h

theorem IdlingInv.notMem_startedOf (h : IdlingInv s) (ho : s.shared.objects p = some o)
    (hs : o.started = false) : p ∉ s.startedOf o.client := by
  intro hp
  rw [((h.mem_startedOf ho).mp hp).2] at hs
  cases hs

/-- Who is started and not counted has not asked. -/
theorem IdlingInv.asked_eq_false (h : IdlingInv s) (ho : s.shared.objects p = some o)
    (hs : o.started = true) (hi : o.idling = false) : s.asked p = false := by
  rw [← Bool.not_eq_true]
  intro hasked
  have hm : o.idling = true := h.counted p _ (SharedState.flagsOf_eq_some ho) hs hasked
  rw [hi] at hm
  cases hm

omit [DecidableEq κ] in
theorem allAsked_iff_erase {S : Finset ℕ} (hp : p ∈ S) :
    s.AllAsked S ↔ s.asked p = true ∧ s.AllAsked (S.erase p) := by
  constructor
  · intro h
    exact ⟨h p hp, fun q hq => h q (Finset.mem_of_mem_erase hq)⟩
  · rintro ⟨h1, h2⟩ q hq
    by_cases hqp : q = p
    · rw [hqp]
      exact h1
    · exact h2 q (Finset.mem_erase.mpr ⟨hqp, hq⟩)

/-- While one of them has not asked the directive is false. -/
theorem Conjunction.directive_eq_false (hC : s.Conjunction) (hp : p ∈ s.startedOf c)
    (ha : s.asked p = false) : s.directive c = false := by
  rw [← Bool.not_eq_true, hC c ⟨p, hp⟩]
  intro hall
  rw [hall p hp] at ha
  cases ha

/-- A shared client that stops. -/
theorem conjunction_stop (h : IdlingInv s) (hC : s.Conjunction) (ho : s.shared.objects p = some o)
    (hst : ∀ c, s'.startedOf c = (s.startedOf c).erase p) (hd : s'.directive = s.directive)
    (ha : s'.asked = s.asked) :
    s'.Conjunction ↔ ∀ o, s.shared.objects p = some o → s.StopHeeded p o := by
  have hall : ∀ S, s'.AllAsked S ↔ s.AllAsked S := fun S => allAsked_congr fun q _ => by rw [ha]
  constructor
  · intro hC' o' ho' hs hasked hne hrest
    rw [ho] at ho'
    cases ho'
    have hp : p ∈ s.startedOf o.client := (h.mem_startedOf ho).mpr ⟨rfl, hs⟩
    have hfalse := hC.directive_eq_false hp hasked
    have := hC' o.client (by rw [hst]; exact hne)
    rw [hst, hd, hall, hfalse] at this
    cases this.mpr hrest
  · intro hheed c hne
    rw [hst] at hne
    rw [hst, hd, hall, hC c (hne.mono (Finset.erase_subset _ _))]
    by_cases hp : p ∈ s.startedOf c
    · obtain ⟨rfl, hs⟩ := (h.mem_startedOf ho).mp hp
      rw [allAsked_iff_erase hp]
      cases hasked : s.asked p with
      | true => simp only [true_and]
      | false =>
          have := hheed o ho hs hasked hne
          simp only [Bool.false_eq_true, false_and, this]
    · rw [Finset.erase_eq_of_notMem hp]

/-- A call about `p` that leaves who is started alone touches only what `p` wraps. -/
theorem conjunction_local (h : IdlingInv s) (hC : s.Conjunction) (ho : s.shared.objects p = some o)
    (hst : s'.startedOf = s.startedOf) (hd : ∀ c, c ≠ o.client → s'.directive c = s.directive c)
    (ha : ∀ q, q ≠ p → s'.asked q = s.asked q) :
    s'.Conjunction ↔ ((s.startedOf o.client).Nonempty →
      (s'.directive o.client = true ↔ s'.AllAsked (s.startedOf o.client))) := by
  constructor
  · intro hC' hne
    have := hC' o.client (by rw [hst]; exact hne)
    rwa [hst] at this
  · intro hc c hne
    rw [hst] at hne ⊢
    by_cases hcc : c = o.client
    · rw [hcc] at hne ⊢
      exact hc hne
    · have hp : p ∉ s.startedOf c := by
        intro hp
        exact hcc ((h.mem_startedOf ho).mp hp).1.symm
      rw [hd c hcc, hC c hne]
      exact (allAsked_of_notMem ha hp).symm

/-- A call of `idle(true)` is delegated if all the others idle. -/
theorem delegatesIdle_true (h : IdlingInv s) (ho : s.shared.objects p = some o)
    (hs : o.started = true) (hi : o.idling = false) :
    s.shared.delegatesIdle o true = true ↔
      (s.startedOf o.client).erase p ⊆ s.shared.members Flags.idling o.client := by
  have hk := SharedState.flagsOf_eq_some ho
  have hp : p ∈ s.startedOf o.client := h.books.mem hk hs
  have hnot : p ∉ s.shared.members Flags.idling o.client := by
    intro hm
    obtain ⟨-, k, hk', -, hf⟩ := SharedState.mem_members.mp hm
    rw [hk] at hk'
    cases hk'
    rw [hi] at hf
    cases hf
  have hsub : insert p (s.shared.members Flags.idling o.client) ⊆ s.startedOf o.client :=
    Finset.insert_subset hp (h.books.idling_subset _)
  simp only [SharedState.delegatesIdle, hs, hi, Bool.true_and, if_true, ne_eq, Bool.false_eq_true,
    not_false_eq_true, decide_true, decide_eq_true_eq]
  rw [h.books.started.count, (h.books.idling.add hnot).count, Function.update_self]
  constructor
  · intro hcard q hq
    obtain ⟨hne, hq⟩ := Finset.mem_erase.mp hq
    have heq := Finset.eq_of_subset_of_card_le hsub (le_of_eq hcard)
    rw [← heq, Finset.mem_insert] at hq
    exact hq.resolve_left hne
  · intro hrest
    refine congrArg Finset.card (Finset.Subset.antisymm (fun q hq => ?_) hsub)
    by_cases hqp : q = p
    · rw [hqp]
      exact Finset.mem_insert_self _ _
    · exact Finset.mem_insert_of_mem (hrest (Finset.mem_erase.mpr ⟨hqp, hq⟩))

/-- A call of `idle(false)` is delegated if all of them idled. -/
theorem delegatesIdle_false (h : IdlingInv s) (ho : s.shared.objects p = some o)
    (hs : o.started = true) (hi : o.idling = true) :
    s.shared.delegatesIdle o false = true ↔
      s.startedOf o.client ⊆ s.shared.members Flags.idling o.client := by
  have hp : p ∈ s.shared.members Flags.idling o.client :=
    h.books.mem (SharedState.flagsOf_eq_some ho) hi
  simp only [SharedState.delegatesIdle, hs, hi, Bool.true_and, if_false, ne_eq, Bool.true_eq_false,
    not_false_eq_true, decide_true, Bool.false_eq_true, decide_eq_true_eq]
  rw [h.books.started.count, (h.books.idling.remove hp).2]
  have hsub := h.books.idling_subset o.client
  constructor
  · intro hcard
    rw [Finset.eq_of_subset_of_card_le hsub (le_of_eq hcard)]
    exact Finset.Subset.refl _
  · intro hall
    exact congrArg Finset.card (Finset.Subset.antisymm hall hsub)

/-- What `internal_idle` does not act on, it does not delegate. -/
theorem delegatesIdle_same {state : Bool} (h : o.started = false ∨ o.idling = state) :
    s.shared.delegatesIdle o state = false := by
  unfold SharedState.delegatesIdle
  rcases h with h | h
  · simp only [h, Bool.false_and]
  · simp only [h, ne_eq, not_true_eq_false, decide_false, Bool.and_false, Bool.false_and]

section Calls

variable (h : IdlingInv s) (hC : s.Conjunction) (ho : s.shared.objects p = some o)

include h hC ho

/-- `idle(true)` on a shared client that is counted already does nothing. -/
theorem directive_idle_again (hs : o.started = true) :
    (s.directive o.client = true ↔ s.AllAsked ((s.startedOf o.client).erase p)) ↔
      (s.asked p = false → ¬ s.AllAsked ((s.startedOf o.client).erase p)) := by
  have hp : p ∈ s.startedOf o.client := (h.mem_startedOf ho).mpr ⟨rfl, hs⟩
  cases hasked : s.asked p with
  | true =>
      have hlaw := hC o.client ⟨p, hp⟩
      rw [allAsked_iff_erase hp, hasked] at hlaw
      simp only [true_and] at hlaw
      simp only [hlaw, Bool.true_eq_false, false_imp_iff]
  | false =>
      simp only [hC.directive_eq_false hp hasked, Bool.false_eq_true, false_iff, true_imp_iff]

/-- `idle(true)` on a shared client that is not counted is delegated if all the others are. -/
theorem directive_idle_newly (hs : o.started = true) (hi : o.idling = false)
    (hd : s'.directive = if s.shared.delegatesIdle o true then
      Function.update s.directive o.client true else s.directive) :
    (s'.directive o.client = true ↔ s.AllAsked ((s.startedOf o.client).erase p)) ↔
      ((s.startedOf o.client).erase p ⊆ s.shared.members Flags.idling o.client →
        s.AllAsked ((s.startedOf o.client).erase p)) := by
  have hp : p ∈ s.startedOf o.client := (h.mem_startedOf ho).mpr ⟨rfl, hs⟩
  have hasked := h.asked_eq_false ho hs hi
  have hdir : s'.directive o.client = true ↔
      (s.startedOf o.client).erase p ⊆ s.shared.members Flags.idling o.client := by
    rw [← delegatesIdle_true h ho hs hi, hd]
    cases s.shared.delegatesIdle o true with
    | true => simp only [if_true, Function.update_self]
    | false => simp only [Bool.false_eq_true, if_false, hC.directive_eq_false hp hasked]
  have hcounted : s.AllAsked ((s.startedOf o.client).erase p) →
      (s.startedOf o.client).erase p ⊆ s.shared.members Flags.idling o.client :=
    fun hall q hq => h.asked_idling (Finset.mem_of_mem_erase hq) (hall q hq)
  rw [hdir]
  exact ⟨fun hiff => hiff.mp, fun himp => ⟨himp, hcounted⟩⟩

/-- The conjunction after `idle(true)`. -/
theorem conjunction_idle_true (hst : s'.startedOf = s.startedOf)
    (hd : s'.directive = if s.shared.delegatesIdle o true then
      Function.update s.directive o.client true else s.directive)
    (ha : s'.asked = Function.update s.asked p true) :
    s'.Conjunction ↔ s.Heeded (.idle p true) := by
  have hother : ∀ q, q ≠ p → s'.asked q = s.asked q := by
    intro q hq
    rw [ha, Function.update_of_ne hq]
  have hself : s'.asked p = true := by
    rw [ha, Function.update_self]
  rw [conjunction_local h hC ho hst ?_ hother, Heeded, forall_object ho]
  swap
  · intro c hc
    rw [hd]
    split
    · exact Function.update_of_ne hc _ _
    · rfl
  cases hs : o.started with
  | false =>
      rw [hd, delegatesIdle_same (.inl hs), allAsked_of_notMem hother (h.notMem_startedOf ho hs)]
      simp only [Bool.false_eq_true, if_false, false_imp_iff, iff_true]
      exact hC o.client
  | true =>
      have hp : p ∈ s.startedOf o.client := (h.mem_startedOf ho).mpr ⟨rfl, hs⟩
      have hne : (s.startedOf o.client).Nonempty := ⟨p, hp⟩
      rw [allAsked_iff_erase hp, allAsked_of_notMem hother (Finset.notMem_erase p _)]
      simp only [hne, hself, true_and, true_imp_iff]
      cases hi : o.idling with
      | true =>
          simp only [true_imp_iff, Bool.true_eq_false, false_imp_iff, and_true]
          rw [hd, delegatesIdle_same (.inr hi)]
          exact directive_idle_again h hC ho hs
      | false =>
          simp only [Bool.false_eq_true, false_imp_iff, true_and, true_imp_iff]
          exact directive_idle_newly h hC ho hs hi hd

/-- The conjunction after `idle(false)`. -/
theorem conjunction_idle_false (hst : s'.startedOf = s.startedOf)
    (hd : s'.directive = if s.shared.delegatesIdle o false then
      Function.update s.directive o.client false else s.directive)
    (ha : s'.asked = Function.update s.asked p false) : s'.Conjunction := by
  have hother : ∀ q, q ≠ p → s'.asked q = s.asked q := by
    intro q hq
    rw [ha, Function.update_of_ne hq]
  rw [conjunction_local h hC ho hst ?_ hother]
  swap
  · intro c hc
    rw [hd]
    split
    · exact Function.update_of_ne hc _ _
    · rfl
  intro hne
  cases hs : o.started with
  | false =>
      rw [hd, delegatesIdle_same (.inl hs)]
      exact (hC o.client hne).trans (allAsked_of_notMem hother (h.notMem_startedOf ho hs)).symm
  | true =>
      have hp : p ∈ s.startedOf o.client := (h.mem_startedOf ho).mpr ⟨rfl, hs⟩
      have hnot : ¬ s'.AllAsked (s.startedOf o.client) := by
        intro hall
        have := hall p hp
        rw [ha, Function.update_self] at this
        cases this
      have hdir : s'.directive o.client = false := by
        rw [hd]
        split
        · exact Function.update_self _ _ _
        · rename_i hdel
          -- one of them did not idle, so the directive was false
          obtain ⟨q, hq, hnq⟩ : ∃ q ∈ s.startedOf o.client, s.asked q = false := by
            by_cases hi : o.idling = true
            · rw [delegatesIdle_false h ho hs hi, Finset.not_subset] at hdel
              obtain ⟨q, hq, hnq⟩ := hdel
              refine ⟨q, hq, ?_⟩
              rw [← Bool.not_eq_true]
              exact fun hasked => hnq (h.asked_idling hq hasked)
            · exact ⟨p, hp, h.asked_eq_false ho hs (Bool.eq_false_iff.mpr hi)⟩
          exact hC.directive_eq_false hq hnq
      simp only [hdir, Bool.false_eq_true, hnot]

/-- The conjunction after `register_content`. -/
theorem conjunction_registerContent (hst : s'.startedOf = s.startedOf)
    (hd : s'.directive = Function.update s.directive o.client false)
    (ha : s'.asked = Function.update s.asked p false) :
    s'.Conjunction ↔ s.Heeded (.registerContent p) := by
  have hother : ∀ q, q ≠ p → s'.asked q = s.asked q := by
    intro q hq
    rw [ha, Function.update_of_ne hq]
  rw [conjunction_local h hC ho hst (fun c hc => by rw [hd, Function.update_of_ne hc]) hother,
    Heeded, forall_object ho, hd]
  simp only [Function.update_self, Bool.false_eq_true, false_iff]
  cases hs : o.started with
  | true =>
      have hp : p ∈ s.startedOf o.client := (h.mem_startedOf ho).mpr ⟨rfl, hs⟩
      simp only [Bool.true_eq_false, false_imp_iff, iff_true]
      intro _ hall
      have := hall p hp
      rw [ha, Function.update_self] at this
      cases this
  | false =>
      have hall := allAsked_of_notMem hother (h.notMem_startedOf ho hs)
      simp only [true_imp_iff, hall]

/-- The conjunction after `start`. -/
theorem conjunction_start (hst : s'.startedOf = Function.update s.startedOf o.client
      (insert p (s.startedOf o.client)))
    (hd : s'.directive = Function.update s.directive o.client false)
    (ha : s'.asked = Function.update s.asked p false) : s'.Conjunction := by
  intro c hne
  by_cases hc : c = o.client
  · subst hc
    have hnot : ¬ s'.AllAsked (s'.startedOf o.client) := by
      intro hall
      have := hall p (by rw [hst, Function.update_self]; exact Finset.mem_insert_self _ _)
      rw [ha, Function.update_self] at this
      cases this
    rw [hd, Function.update_self]
    simp only [Bool.false_eq_true, hnot]
  · rw [hst, Function.update_of_ne hc] at hne ⊢
    rw [hd, Function.update_of_ne hc, hC c hne]
    refine (allAsked_congr fun q hq => ?_).symm
    rw [ha, Function.update_of_ne]
    rintro rfl
    exact hc ((h.mem_startedOf ho).mp hq).1.symm

end Calls

/-- **A call keeps the conjunction if and only if it is heeded.** -/
theorem conjunction_step (h : IdlingInv s) (hC : s.Conjunction) {e : IdlingEvent κ}
    (hs : s.step e = some s') : s'.Conjunction ↔ s.Heeded e := by
  cases e with
  | construct c =>
      cases hs
      have hst : s.startedOf = (s.shared.construct c).members Flags.started := by
        rw [SharedState.members_construct h.books, if_neg (by rintro ⟨⟩)]
        rfl
      refine ⟨fun _ => trivial, fun _ c' hne => ?_⟩
      have := hC c'
      rw [hst] at this
      exact this hne
  | start p wasStarted ready =>
      obtain ⟨o, ho, rfl⟩ := Option.map_eq_some_iff.mp hs
      obtain ⟨-, hf⟩ := h.books.start ho wasStarted ready
      have hq := SharedState.quiet_start (s := s.shared) p o wasStarted ready
      have hk := SharedState.flagsOf_eq_some ho
      have hst := SharedState.members_update (f := Flags.started) hf hq.created
        (h.books.bound p _ hk) hk rfl
      exact ⟨fun _ => trivial, fun _ => conjunction_start h hC ho hst rfl rfl⟩
  | stop p =>
      obtain ⟨o, ho, rfl⟩ := Option.map_eq_some_iff.mp hs
      obtain ⟨-, hf⟩ := h.books.stop ho
      have hq := SharedState.quiet_stop (s := s.shared) p o
      have hst := SharedState.members_erase (f := Flags.started) hf hq.created
        (by rintro _ ⟨⟩; rfl)
      exact conjunction_stop h hC ho hst rfl rfl
  | idle p state =>
      obtain ⟨o, ho, rfl⟩ := Option.map_eq_some_iff.mp hs
      obtain ⟨-, hf⟩ := h.books.idle ho state true
      have hq := SharedState.quiet_idle (s := s.shared) p o state true
      have hk := SharedState.flagsOf_eq_some ho
      have hst := SharedState.members_same (f := Flags.started) hf hq.created hk rfl rfl
      cases state with
      | true => exact conjunction_idle_true h hC ho hst rfl rfl
      | false => exact ⟨fun _ => trivial, fun _ => conjunction_idle_false h hC ho hst rfl rfl⟩
  | registerContent p =>
      obtain ⟨o, ho, rfl⟩ := Option.map_eq_some_iff.mp hs
      exact conjunction_registerContent h hC ho rfl rfl rfl
  | destroy p =>
      obtain ⟨o, ho, rfl⟩ := Option.map_eq_some_iff.mp hs
      obtain ⟨-, hf⟩ := h.books.destroy ho
      have hn := (SharedState.destroy_spec (s := s.shared) p o).created
      have hst := SharedState.members_erase (f := Flags.started) hf hn (by rintro _ ⟨⟩)
      exact conjunction_stop h hC ho hst rfl rfl

theorem IdlingInv.init : IdlingInv (.init : Idling κ) := by
  refine ⟨SharedState.Books.init, ?_⟩
  rintro p k ⟨⟩

end Idling

open Idling in
/-- **Idling is the conjunction of the shared clients** after every call of a run, for every wrapped
client with a started shared client, if and only if every call of the run is heeded. -/
theorem idling_is_conjunction {es : List (IdlingEvent κ)} {s : Idling κ}
    (hr : idlingClients.run .init es = some s) :
    idlingClients.Along (fun s e => ∀ s', idlingClients.step s e = some s' → s'.Conjunction)
      .init es ↔
    idlingClients.Along Heeded .init es := by
  refine Machine.along_iff (P := IdlingInv) (fun _ _ _ h hs => h.step hs)
    (fun _ _ _ h hC hs => conjunction_step h hC hs) .init ?_ hr
  intro c hne
  exact absurd hne Finset.not_nonempty_empty

/-! ## Sample runs -/

/-- The state after the calls `es` on the shared clients of one wrapped client. -/
def idlingAfter (es : List (IdlingEvent Unit)) : Idling Unit :=
  (idlingClients.run .init es).getD .init

/-- The first of two started shared clients asks to idle. -/
def oneIdles : List (IdlingEvent Unit) :=
  [.construct (), .construct (), .start 0 false false, .start 1 true false, .idle 0 true]

theorem idling_is_conjunction_bothIdle :
    (idlingAfter (oneIdles ++ [.idle 1 true])).directive () = true ∧
    idlingClients.Along (fun s e => ∀ s', idlingClients.step s e = some s' → s'.Conjunction)
      .init (oneIdles ++ [.idle 1 true]) := by
  have hrun : idlingClients.run .init (oneIdles ++ [.idle 1 true]) =
      some (idlingAfter (oneIdles ++ [.idle 1 true])) := rfl
  refine ⟨rfl, (idling_is_conjunction hrun).mpr ?_⟩
  iterate 4
    refine ⟨trivial, ?_⟩
    rintro _ ⟨⟩
  refine ⟨?_, ?_⟩
  · rintro _ ⟨⟩ -
    refine ⟨by rintro ⟨⟩, fun _ hsub => ?_⟩
    exact absurd hsub (by decide)
  rintro _ ⟨⟩
  refine ⟨?_, ?_⟩
  · rintro _ ⟨⟩ -
    refine ⟨by rintro ⟨⟩, fun _ _ => ?_⟩
    unfold Idling.AllAsked
    decide
  rintro _ ⟨⟩
  trivial

/-- The other one stops: all that are started have asked to idle, and the wrapped client is not
told. -/
theorem stop_forgets_to_idle :
    idlingClients.run .init (oneIdles ++ [.stop 1]) =
      some (idlingAfter (oneIdles ++ [.stop 1])) ∧
    (idlingAfter (oneIdles ++ [.stop 1])).startedOf () = {0} ∧
    (idlingAfter (oneIdles ++ [.stop 1])).AllAsked {0} ∧
    (idlingAfter (oneIdles ++ [.stop 1])).directive () = false ∧
    ¬ (idlingAfter (oneIdles ++ [.stop 1])).Conjunction := by
  have hall : (idlingAfter (oneIdles ++ [.stop 1])).AllAsked {0} := by
    intro p hp
    rw [Finset.mem_singleton.mp hp]
    rfl
  refine ⟨rfl, rfl, hall, rfl, fun h => ?_⟩
  cases (h () ⟨0, by decide⟩).mpr hall

end Loon
