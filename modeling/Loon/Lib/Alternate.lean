import Mathlib.Data.List.Basic

set_option autoImplicit false

/-!
# Alternating lists

A list alternates between two values if the first of them stands at its even positions and the second
at its odd ones; the list may end with either.

* `Alternates`;
* `Alternates.snoc_fst`, `Alternates.snoc_snd`: how such a list grows.
-/

/-- The values of `l` are `a`, `b`, `a`, `b` and so on. -/
def Alternates {α : Type} (a b : α) (l : List α) : Prop :=
  ∀ i c, l[i]? = some c → c = if i % 2 = 0 then a else b

namespace Alternates

variable {α : Type} {a b : α} {l : List α}

theorem nil : Alternates a b [] := by
  intro i c h
  cases h

theorem snoc {c : α} (h : Alternates a b l) (hc : c = if l.length % 2 = 0 then a else b) :
    Alternates a b (l ++ [c]) := by
  intro i d hd
  rcases Nat.lt_trichotomy i l.length with hi | rfl | hi
  · rw [List.getElem?_append_left hi] at hd
    exact h i d hd
  · rw [List.getElem?_concat_length] at hd
    cases hd
    exact hc
  · have hlen : (l ++ [c]).length ≤ i := by simp only [List.length_append, List.length_singleton]; omega
    rw [List.getElem?_eq_none hlen] at hd
    cases hd

theorem snoc_fst (h : Alternates a b l) (hl : l.length % 2 = 0) : Alternates a b (l ++ [a]) :=
  h.snoc (by rw [if_pos hl])

theorem snoc_snd (h : Alternates a b l) (hl : l.length % 2 = 1) : Alternates a b (l ++ [b]) :=
  h.snoc (by rw [if_neg (by omega)])

theorem of_append {l' : List α} (h : Alternates a b (l ++ l')) : Alternates a b l := by
  intro i c hc
  have hi : i < l.length := (List.getElem?_eq_some_iff.mp hc).1
  refine h i c ?_
  rw [List.getElem?_append_left hi]
  exact hc

end Alternates
