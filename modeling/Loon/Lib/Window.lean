import Mathlib.Algebra.Order.Group.Defs
import Mathlib.Data.List.Induction
import Mathlib.Data.List.Pairwise

set_option autoImplicit false

/-!
# Sliding windows

A history of arrivals that is pruned from the front when the next one arrives, against the arrivals
themselves. Times are in any linearly ordered group.

* `dropWhile_eq_filter`: in a sorted list dropping from the front is filtering;
* `recent`: what lies in the window that ends at some time;
* `Keeps`: a history that has lost nothing that a later window needs;
* **`Keeps.push`**: pruning and appending leave what lies in the window of the arrival.
-/

namespace Loon.Window

theorem dropWhile_eq_filter {α : Type} {p : α → Bool} {l : List α}
    (hl : l.Pairwise fun x y => p y = true → p x = true) :
    l.dropWhile p = l.filter fun x => !p x := by
  induction l with
  | nil => rfl
  | cons a l ih =>
    obtain ⟨ha, hl⟩ := List.pairwise_cons.mp hl
    cases hpa : p a with
    | true => rw [List.dropWhile_cons_of_pos hpa, ih hl, List.filter_cons_of_neg (by simp [hpa])]
    | false =>
      rw [List.dropWhile_cons_of_neg (by simp [hpa]), eq_comm, List.filter_eq_self]
      intro x hx
      rcases List.mem_cons.mp hx with rfl | hx
      · simp [hpa]
      · cases hpx : p x with
        | false => rfl
        | true =>
          rw [ha x hx hpx] at hpa
          cases hpa

variable {τ : Type} [AddCommGroup τ] [LinearOrder τ]

/-- The times of `l` in the window of the length `w` that ends at `now`. -/
def recent (w now : τ) (l : List τ) : List τ := l.filter fun t => decide (now - t ≤ w)

/-- Remove the times in front that the window does not reach. -/
def prune (w now : τ) (l : List τ) : List τ := l.dropWhile fun t => decide (w < now - t)

/-- In every window that ends after the arrivals, `history` has what the arrivals have. -/
structure Keeps (w : τ) (arrivals history : List τ) : Prop where
  sorted : history.Pairwise (· ≤ ·)
  known : ∀ t ∈ history, t ∈ arrivals
  recent_eq : ∀ now, (∀ t ∈ arrivals, t ≤ now) → recent w now history = recent w now arrivals

variable {w now : τ} {arrivals history : List τ}

theorem Keeps.nil (w : τ) : Keeps w [] [] := ⟨.nil, fun _ h => h, fun _ _ => rfl⟩

variable [IsOrderedAddMonoid τ]

theorem prune_eq_recent (h : history.Pairwise (· ≤ ·)) :
    prune w now history = recent w now history := by
  have hmono : history.Pairwise fun x y =>
      decide (w < now - y) = true → decide (w < now - x) = true := by
    refine h.imp fun {x y} hxy hy => ?_
    rw [decide_eq_true_eq] at hy ⊢
    exact hy.trans_le (sub_le_sub_left hxy now)
  rw [prune, dropWhile_eq_filter hmono, recent]
  refine List.filter_congr fun t _ => ?_
  rw [← decide_not, decide_eq_decide, not_lt]

theorem recent_recent {now' : τ} (h : now ≤ now') (l : List τ) :
    recent w now' (recent w now l) = recent w now' l := by
  unfold recent
  rw [List.filter_filter]
  refine List.filter_congr fun t _ => ?_
  rw [Bool.eq_iff_iff, Bool.and_eq_true, decide_eq_true_eq, decide_eq_true_eq]
  exact and_iff_left_of_imp fun ht => (sub_le_sub_right h t).trans ht

/-- **An arrival.** What is left of the history, with the arrival, is what lies in the window. -/
theorem Keeps.push (h : Keeps w arrivals history) (hw : 0 ≤ w) (hnow : ∀ t ∈ arrivals, t ≤ now) :
    prune w now history ++ [now] = recent w now (arrivals ++ [now]) ∧
      Keeps w (arrivals ++ [now]) (prune w now history ++ [now]) := by
  have hself : decide (now - now ≤ w) = true := by
    rw [sub_self]
    exact decide_eq_true hw
  have heq : prune w now history ++ [now] = recent w now (arrivals ++ [now]) := by
    rw [prune_eq_recent h.sorted, h.recent_eq now hnow]
    simp only [recent, List.filter_append, List.filter_cons, List.filter_nil, hself, if_true]
  refine ⟨heq, ?_, ?_, ?_⟩
  · rw [List.pairwise_append]
    refine ⟨h.sorted.sublist (List.dropWhile_sublist _), List.pairwise_singleton _ _, ?_⟩
    rintro t ht _ hnow'
    rw [List.mem_singleton.mp hnow']
    exact hnow t (h.known t ((List.dropWhile_sublist _).subset ht))
  · rw [heq]
    exact fun t ht => (List.mem_filter.mp ht).1
  · intro now' hlast
    rw [heq, recent_recent (hlast now (by simp))]

end Loon.Window
