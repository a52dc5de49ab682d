import Mathlib.Data.List.Induction

set_option autoImplicit false

/-!
# Deterministic labelled machines

A machine has one initial state and a partial step function on labels. All nondeterminism of the
modelled system (scheduling, clock readings, iteration orders) sits in the labels, so a run is
determined by its list of labels.

* `run`, `run_append`, `run_snoc`: runs and their composition;
* **`run_inv`**: the invariant rule;
* **`run_induction`**: the same rule for properties that also speak of the labels so far;
* `observe`, `observe_snoc`: what an observer of the steps collects along a run;
* `observe_length_le`: the variant rule, which bounds how much is observed;
* `Along`: every step of a run meets a condition, and its rules `Along.inv`, `Along.induction` and
  `along_iff`;
* `Leads`: what labels of a given kind can lead to, and its rule `Leads.inv`.
-/

/-- A machine with states `σ` and labels `ε`; `step s e = none` means that `e` is not enabled. -/
structure Machine (σ ε : Type) where
  init : σ
  step : σ → ε → Option σ

namespace Machine

variable {σ ε β : Type} (M : Machine σ ε)

/-- The state after the labels `es`, from `s`. -/
def run : σ → List ε → Option σ
  | s, [] => some s
  | s, e :: es => (M.step s e).bind fun s' => run s' es

@[simp] theorem run_nil (s : σ) : M.run s [] = some s := rfl

theorem run_cons (s : σ) (e : ε) (es : List ε) :
    M.run s (e :: es) = (M.step s e).bind fun s' => M.run s' es := rfl

theorem run_append (s : σ) (es es' : List ε) :
    M.run s (es ++ es') = (M.run s es).bind fun s' => M.run s' es' := by
  induction es generalizing s with
  | nil => rfl
  | cons e es ih =>
      rw [List.cons_append, run_cons, run_cons]
      cases M.step s e with
      | none => rfl
      | some s' => exact ih s'

theorem run_snoc (s : σ) (es : List ε) (e : ε) :
    M.run s (es ++ [e]) = (M.run s es).bind fun s' => M.step s' e := by
  rw [run_append]
  congr 1
  funext s'
  rw [run_cons]
  cases M.step s' e <;> rfl

/-- A run of `es ++ [e]` splits at its last step. -/
theorem run_snoc_eq_some {s s'' : σ} {es : List ε} {e : ε} :
    M.run s (es ++ [e]) = some s'' ↔ ∃ s', M.run s es = some s' ∧ M.step s' e = some s'' := by
  rw [run_snoc, Option.bind_eq_some_iff]

variable {M}

/-- **Run induction.** A property of the labels so far and the state they lead to holds of every
run, if it holds of the empty run and every step of a run keeps it. -/
theorem run_induction {P : List ε → σ → Prop} (h0 : P [] M.init)
    (hstep : ∀ es s e s', M.run M.init es = some s → P es s → M.step s e = some s' →
      P (es ++ [e]) s') {es : List ε} {s : σ} (h : M.run M.init es = some s) : P es s := by
  induction es using List.reverseRecOn generalizing s with
  | nil => cases h; exact h0
  | append_singleton es e ih =>
      obtain ⟨s', h1, h2⟩ := M.run_snoc_eq_some.mp h
      exact hstep es s' e s h1 (ih h1) h2

/-- **Invariant rule.** What every step keeps, every run keeps. -/
theorem run_inv {P : σ → Prop} (hstep : ∀ s e s', P s → M.step s e = some s' → P s') {s s' : σ}
    {es : List ε} (hs : P s) (h : M.run s es = some s') : P s' := by
  induction es generalizing s with
  | nil => cases h; exact hs
  | cons e es ih =>
      rw [run_cons, Option.bind_eq_some_iff] at h
      obtain ⟨s₁, h1, h2⟩ := h
      exact ih (hstep s e s₁ hs h1) h2

variable (M)

/-! ## Observations -/

/-- What an observer that sees `obs s e` at the step `e` from `s` collects along a run. -/
def observe (obs : σ → ε → List β) : σ → List ε → List β
  | _, [] => []
  | s, e :: es => obs s e ++ (M.step s e).elim [] fun s' => observe obs s' es

variable {M}

theorem observe_snoc (obs : σ → ε → List β) {s s' : σ} {es : List ε} (e : ε)
    (h : M.run s es = some s') :
    M.observe obs s (es ++ [e]) = M.observe obs s es ++ obs s' e := by
  induction es generalizing s with
  | nil =>
      cases h
      simp only [observe, List.nil_append]
      cases M.step s' e <;> simp
  | cons e' es ih =>
      rw [run_cons, Option.bind_eq_some_iff] at h
      obtain ⟨s₁, h1, h2⟩ := h
      simp only [List.cons_append, observe, h1, Option.elim_some]
      rw [ih h2, List.append_assoc]

/-- **Variant rule.** No more is observed than the variant `μ` goes down. -/
theorem observe_length_le {obs : σ → ε → List β} (P : σ → Prop) (μ : σ → ℕ)
    (hstep : ∀ s e s', P s → M.step s e = some s' → P s' ∧ μ s' + (obs s e).length ≤ μ s)
    {s s' : σ} {es : List ε} (hs : P s) (h : M.run s es = some s') :
    P s' ∧ μ s' + (M.observe obs s es).length ≤ μ s := by
  induction es generalizing s with
  | nil =>
      cases h
      exact ⟨hs, Nat.le_refl _⟩
  | cons e es ih =>
      rw [run_cons, Option.bind_eq_some_iff] at h
      obtain ⟨s₁, h1, h2⟩ := h
      obtain ⟨hs₁, hle⟩ := hstep s e s₁ hs h1
      obtain ⟨hs', hle'⟩ := ih hs₁ h2
      refine ⟨hs', ?_⟩
      rw [observe, h1, Option.elim_some, List.length_append]
      omega

/-! ## Runs whose steps meet a condition -/

variable (M)

/-- Every step of the run of `es` from `s` meets the condition `C`. -/
def Along (C : σ → ε → Prop) : σ → List ε → Prop
  | _, [] => True
  | s, e :: es => C s e ∧ ∀ s', M.step s e = some s' → Along C s' es

variable {M}

instance decidableAlong {C : σ → ε → Prop} [∀ s e, Decidable (C s e)] :
    ∀ s es, Decidable (M.Along C s es)
  | _, [] => inferInstanceAs (Decidable True)
  | s, e :: es =>
    match hs : M.step s e with
    | none => decidable_of_iff (C s e) ⟨fun h => ⟨h, fun s' h' => by
        rw [hs] at h'
        cases h'⟩, And.left⟩
    | some s' =>
      have : Decidable (M.Along C s' es) := decidableAlong s' es
      decidable_of_iff (C s e ∧ M.Along C s' es) ⟨fun h => ⟨h.1, fun s'' h' => by
        rw [hs] at h'
        cases h'
        exact h.2⟩, fun h => ⟨h.1, h.2 s' hs⟩⟩

/-- A condition on labels alone. -/
theorem along_of_forall {C : σ → ε → Prop} {s : σ} {es : List ε} (h : ∀ e ∈ es, ∀ s, C s e) :
    M.Along C s es := by
  induction es generalizing s with
  | nil => trivial
  | cons e es ih =>
      exact ⟨h e List.mem_cons_self s, fun _ _ => ih fun e' he' => h e' (List.mem_cons_of_mem e he')⟩

theorem Along.mono {C D : σ → ε → Prop} (h : ∀ s e, C s e → D s e) {s : σ} {es : List ε}
    (hC : M.Along C s es) : M.Along D s es := by
  induction es generalizing s with
  | nil => trivial
  | cons e es ih => exact ⟨h s e hC.1, fun s' hs => ih (hC.2 s' hs)⟩

theorem Along.and {C D : σ → ε → Prop} {s : σ} {es : List ε} (hC : M.Along C s es)
    (hD : M.Along D s es) : M.Along (fun s e => C s e ∧ D s e) s es := by
  induction es generalizing s with
  | nil => trivial
  | cons e es ih => exact ⟨⟨hC.1, hD.1⟩, fun s' hs => ih (hC.2 s' hs) (hD.2 s' hs)⟩

theorem Along.snoc {C : σ → ε → Prop} {s : σ} {es : List ε} {e : ε} (h : M.Along C s es)
    (he : ∀ s', M.run s es = some s' → C s' e) : M.Along C s (es ++ [e]) := by
  induction es generalizing s with
  | nil => exact ⟨he s rfl, fun _ _ => trivial⟩
  | cons e' es ih =>
      refine ⟨h.1, fun s' hs => ih (h.2 s' hs) fun s'' hr => he s'' ?_⟩
      rw [run_cons, hs]
      exact hr

/-- **Invariant rule for conditioned runs.** -/
theorem Along.inv {C : σ → ε → Prop} {P : σ → Prop}
    (hstep : ∀ s e s', P s → C s e → M.step s e = some s' → P s') {s s' : σ} {es : List ε}
    (hs : P s) (hC : M.Along C s es) (h : M.run s es = some s') : P s' := by
  induction es generalizing s with
  | nil => cases h; exact hs
  | cons e es ih =>
      rw [run_cons, Option.bind_eq_some_iff] at h
      obtain ⟨s₁, h1, h2⟩ := h
      exact ih (hstep s e s₁ hs hC.1 h1) (hC.2 s₁ h1) h2

theorem Along.of_snoc {C : σ → ε → Prop} {s s' : σ} {es : List ε} {e : ε}
    (h : M.Along C s (es ++ [e])) (hr : M.run s es = some s') : M.Along C s es ∧ C s' e := by
  induction es generalizing s with
  | nil => cases hr; exact ⟨trivial, h.1⟩
  | cons e' es ih =>
      rw [run_cons, Option.bind_eq_some_iff] at hr
      obtain ⟨s₁, h1, h2⟩ := hr
      refine ⟨⟨h.1, fun s₂ hs₂ => ?_⟩, (ih (h.2 s₁ h1) h2).2⟩
      rw [h1] at hs₂
      cases hs₂
      exact (ih (h.2 s₁ h1) h2).1

theorem Along.of_append {C : σ → ε → Prop} {s : σ} {es es' : List ε}
    (h : M.Along C s (es ++ es')) : M.Along C s es := by
  induction es generalizing s with
  | nil => trivial
  | cons e es ih => exact ⟨h.1, fun s' hs => ih (h.2 s' hs)⟩

theorem along_snoc_iff {C : σ → ε → Prop} {s s' : σ} {es : List ε} {e : ε}
    (hr : M.run s es = some s') : M.Along C s (es ++ [e]) ↔ M.Along C s es ∧ C s' e := by
  constructor
  · intro h
    exact h.of_snoc hr
  · rintro ⟨h, he⟩
    refine h.snoc fun s'' hr' => ?_
    rw [hr] at hr'
    cases hr'
    exact he

/-- **Run induction for conditioned runs.** -/
theorem Along.induction {C : σ → ε → Prop} {P : List ε → σ → Prop} (h0 : P [] M.init)
    (hstep : ∀ es s e s', M.run M.init es = some s → P es s → C s e → M.step s e = some s' →
      P (es ++ [e]) s') {es : List ε} {s : σ} (hC : M.Along C M.init es)
    (h : M.run M.init es = some s) : P es s := by
  revert hC
  refine run_induction (P := fun es s => M.Along C M.init es → P es s) (fun _ => h0) ?_ h
  intro es s e s' hr ih hs hC
  obtain ⟨h1, h2⟩ := hC.of_snoc hr
  exact hstep es s e s' hr (ih h1) h2 hs

/-- **Rule for exact conditions.** If from the states that satisfy `Q` exactly the steps that meet `D`
lead to such states again, then `Q` holds after every step of a run if and only if they all meet
`D`. -/
theorem along_iff {P Q : σ → Prop} {D : σ → ε → Prop}
    (hP : ∀ s e s', P s → M.step s e = some s' → P s')
    (hQ : ∀ s e s', P s → Q s → M.step s e = some s' → (Q s' ↔ D s e)) {s s' : σ} {es : List ε}
    (hs : P s) (hs' : Q s) (h : M.run s es = some s') :
    M.Along (fun s e => ∀ s', M.step s e = some s' → Q s') s es ↔ M.Along D s es := by
  induction es generalizing s with
  | nil => exact Iff.rfl
  | cons e es ih =>
      rw [run_cons, Option.bind_eq_some_iff] at h
      obtain ⟨s₁, h1, h2⟩ := h
      have hiff := hQ s e s₁ hs hs' h1
      constructor
      · rintro ⟨hq, ha⟩
        refine ⟨hiff.mp (hq s₁ h1), fun s₂ h₂ => ?_⟩
        rw [h1] at h₂
        cases h₂
        exact (ih (hP s e s₁ hs h1) (hq s₁ h1) h2).mp (ha s₁ h1)
      · rintro ⟨hd, ha⟩
        have hq := hiff.mpr hd
        refine ⟨fun s₂ h₂ => ?_, fun s₂ h₂ => ?_⟩ <;> rw [h1] at h₂ <;> cases h₂
        · exact hq
        · exact (ih (hP s e s₁ hs h1) hq h2).mpr (ha s₁ h1)

/-! ## What some of the labels can do -/

variable (M)

/-- Labels that satisfy `A` can lead from `s` to `s'`. -/
def Leads (A : ε → Prop) (s s' : σ) : Prop := ∃ es, (∀ e ∈ es, A e) ∧ M.run s es = some s'

variable {M} {A : ε → Prop} {s s' s'' : σ}

theorem Leads.refl (s : σ) : M.Leads A s s := ⟨[], nofun, rfl⟩

theorem Leads.step {e : ε} (he : A e) (h : M.step s e = some s') : M.Leads A s s' := by
  refine ⟨[e], fun e' he' => ?_, ?_⟩
  · rw [List.mem_singleton.mp he']
    exact he
  · rw [run_cons, h]
    rfl

theorem Leads.trans (h : M.Leads A s s') (h' : M.Leads A s' s'') : M.Leads A s s'' := by
  obtain ⟨es, hA, hes⟩ := h
  obtain ⟨es', hA', hes'⟩ := h'
  refine ⟨es ++ es', fun e he => ?_, ?_⟩
  · rcases List.mem_append.mp he with he | he
    · exact hA e he
    · exact hA' e he
  · rw [run_append, hes]
    exact hes'

/-- **Invariant rule for some of the labels.** -/
theorem Leads.inv {P : σ → Prop} (hstep : ∀ s e s', A e → P s → M.step s e = some s' → P s')
    (hs : P s) (h : M.Leads A s s') : P s' := by
  obtain ⟨es, hA, hes⟩ := h
  induction es generalizing s with
  | nil => cases hes; exact hs
  | cons e es ih =>
      rw [run_cons, Option.bind_eq_some_iff] at hes
      obtain ⟨s₁, h1, h2⟩ := hes
      exact ih (hstep s e s₁ (hA e List.mem_cons_self) hs h1)
        (fun e' he' => hA e' (List.mem_cons_of_mem e he')) h2

end Machine
