import Mathlib.Tactic.Common

set_option autoImplicit false

/-!
# Local steps

A machine whose state has a part for every key. `About s a k` says that in the state `s` the action
`a` belongs to the key `k`, and `Same k s t` that two states agree on the part of `k`. Steps are local
if an action reads and changes only the part of its key (`LocalSteps`).

* **`LocalSteps.comm`**: local steps of different keys commute, up to `Same` at every key, and give
  the same results.
-/

namespace Loon

/-- Every action of `step` reads and changes the part of one key. -/
structure LocalSteps {σ α κ ο : Type} (step : σ → α → Option (σ × ο)) (inv : σ → Prop)
    (About : σ → α → κ → Prop) (Same : κ → σ → σ → Prop) : Prop where
  same : ∀ k, Equivalence (Same k)
  keeps : ∀ {s a k s' o}, inv s → About s a k → step s a = some (s', o) → inv s'
  stable : ∀ {s a k s' o b j}, inv s → About s a k → step s a = some (s', o) → About s b j →
    About s' b j
  frame : ∀ {s a k s' o j}, inv s → About s a k → step s a = some (s', o) → j ≠ k → Same j s s'
  reads : ∀ {s t a k s' o}, inv s → inv t → About s a k → About t a k → Same k s t →
    step s a = some (s', o) → ∃ t', step t a = some (t', o) ∧ Same k s' t'

namespace LocalSteps

variable {σ α κ ο : Type} {step : σ → α → Option (σ × ο)} {inv : σ → Prop}
  {About : σ → α → κ → Prop} {Same : κ → σ → σ → Prop}

/-- **Local steps of different keys commute.** -/
theorem comm (L : LocalSteps step inv About Same) {s s₁ s₁₂ : σ} {a b : α} {j k : κ} {o o' : ο}
    (hs : inv s) (ha : About s a j) (hb : About s b k) (hne : j ≠ k)
    (h₁ : step s a = some (s₁, o)) (h₁₂ : step s₁ b = some (s₁₂, o')) :
    ∃ s₂ s₂₁, step s b = some (s₂, o') ∧ step s₂ a = some (s₂₁, o) ∧ ∀ i, Same i s₁₂ s₂₁ := by
  have hs₁ := L.keeps hs ha h₁
  have hb₁ := L.stable hs ha h₁ hb
  -- the second action does in `s` what it does after the first one
  obtain ⟨s₂, h₂, hk⟩ := L.reads hs₁ hs hb₁ hb ((L.same k).symm (L.frame hs ha h₁ hne.symm)) h₁₂
  have hs₂ := L.keeps hs hb h₂
  have ha₂ := L.stable hs hb h₂ ha
  obtain ⟨s₂₁, h₂₁, hj⟩ := L.reads hs hs₂ ha ha₂ (L.frame hs hb h₂ hne) h₁
  refine ⟨s₂, s₂₁, h₂, h₂₁, fun i => ?_⟩
  by_cases hij : i = j
  · subst hij
    exact (L.same i).trans ((L.same i).symm (L.frame hs₁ hb₁ h₁₂ hne)) hj
  by_cases hik : i = k
  · subst hik
    exact (L.same i).trans hk (L.frame hs₂ ha₂ h₂₁ hij)
  · have h1 := L.frame hs ha h₁ hij
    have h2 := L.frame hs₁ hb₁ h₁₂ hik
    have h3 := L.frame hs hb h₂ hik
    have h4 := L.frame hs₂ ha₂ h₂₁ hij
    exact (L.same i).trans ((L.same i).symm ((L.same i).trans h1 h2)) ((L.same i).trans h3 h4)

end LocalSteps

end Loon
