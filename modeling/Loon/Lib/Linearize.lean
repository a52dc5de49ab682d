import Mathlib.Data.List.Nodup
import Mathlib.Tactic.Common

set_option autoImplicit false

/-!
# Linearizability

A concurrent object is used by calls that overlap in time. A history is the sequence of their
invocations and returns; a call is a number, an invocation carries the operation and a return the
result. A history is linearizable if the calls that returned, and possibly some that are still
pending, can be put in an order in which a sequential object gives them the results they returned,
and which does not contradict real time.

The three rules are what a proof by linearization points uses: **`Linearizes.invoke`** when a call
starts, **`Linearizes.commit`** when it takes effect, **`Linearizes.ret`** when it returns.
-/

namespace Loon

/-- A sequential object with states `σ`, operations `ω` and results `ρ`. -/
structure SeqObject (σ ω ρ : Type) where
  init : σ
  apply : σ → ω → σ × ρ

/-- An event of a history. -/
inductive CallEvent (ω ρ : Type) where
  | inv (call : ℕ) (op : ω)
  | ret (call : ℕ) (result : ρ)

/-- A call in a sequential order, with its operation and its result. -/
structure Effect (ω ρ : Type) where
  call : ℕ
  op : ω
  result : ρ

namespace SeqObject

variable {σ ω ρ : Type} (O : SeqObject σ ω ρ)

/-- The state after the operations of `l`. -/
def after : σ → List (Effect ω ρ) → σ
  | s, [] => s
  | s, x :: l => after (O.apply s x.op).1 l

/-- The results in `l` are those of the object. -/
def Legal : σ → List (Effect ω ρ) → Prop
  | _, [] => True
  | s, x :: l => x.result = (O.apply s x.op).2 ∧ Legal (O.apply s x.op).1 l

variable {O}

theorem after_snoc (s : σ) (l : List (Effect ω ρ)) (x : Effect ω ρ) :
    O.after s (l ++ [x]) = (O.apply (O.after s l) x.op).1 := by
  induction l generalizing s with
  | nil => rfl
  | cons y l ih => exact ih (O.apply s y.op).1

theorem Legal.snoc {s : σ} {l : List (Effect ω ρ)} {x : Effect ω ρ} (h : O.Legal s l)
    (hx : x.result = (O.apply (O.after s l) x.op).2) : O.Legal s (l ++ [x]) := by
  induction l generalizing s with
  | nil => exact ⟨hx, trivial⟩
  | cons y l ih => exact ⟨h.1, ih h.2 hx⟩

end SeqObject

section Histories

variable {ω ρ : Type}

/-- The call `i` has returned before the call `j` was invoked. -/
def Precedes (h : List (CallEvent ω ρ)) (i j : ℕ) : Prop :=
  ∃ result op, [CallEvent.ret i result, CallEvent.inv j op].Sublist h

/-- `l` is a sequential order for the history `h`. -/
structure Linearizes {σ : Type} (O : SeqObject σ ω ρ) (h : List (CallEvent ω ρ))
    (l : List (Effect ω ρ)) : Prop where
  nodup : (l.map Effect.call).Nodup
  legal : O.Legal O.init l
  invoked : ∀ x ∈ l, CallEvent.inv x.call x.op ∈ h
  complete : ∀ i result, CallEvent.ret i result ∈ h → ∃ x ∈ l, x.call = i ∧ x.result = result
  realTime : ∀ i j, Precedes h i j → j ∈ l.map Effect.call → [i, j].Sublist (l.map Effect.call)

theorem sublist_pair_snoc {α : Type} {a b c : α} {l : List α} :
    [a, b].Sublist (l ++ [c]) ↔ [a, b].Sublist l ∨ (a ∈ l ∧ b = c) := by
  constructor
  · intro h
    obtain ⟨l₁, l₂, he, h1, h2⟩ := List.sublist_append_iff.mp h
    rcases List.sublist_singleton.mp h2 with rfl | rfl
    · rw [List.append_nil] at he
      exact .inl (he ▸ h1)
    · have hl : l₁ = [a] ∧ b = c := by
        have he : [a] ++ [b] = l₁ ++ [c] := he
        obtain ⟨h3, h4⟩ := List.append_inj' he rfl
        exact ⟨h3.symm, List.singleton_inj.mp h4⟩
      obtain ⟨rfl, rfl⟩ := hl
      exact .inr ⟨List.singleton_sublist.mp h1, rfl⟩
  · rintro (h | ⟨h, rfl⟩)
    · exact h.trans (List.sublist_append_left l [c])
    · exact (List.singleton_sublist.mpr h).append (List.Sublist.refl [b])

theorem precedes_inv_iff {h : List (CallEvent ω ρ)} {i j k : ℕ} {op : ω} :
    Precedes (h ++ [.inv k op]) i j ↔
      Precedes h i j ∨ ((∃ result, CallEvent.ret i result ∈ h) ∧ j = k) := by
  unfold Precedes
  simp only [sublist_pair_snoc, CallEvent.inv.injEq]
  constructor
  · rintro ⟨result, op', hp | ⟨hp, rfl, -⟩⟩
    · exact .inl ⟨result, op', hp⟩
    · exact .inr ⟨⟨result, hp⟩, rfl⟩
  · rintro (⟨result, op', hp⟩ | ⟨⟨result, hp⟩, rfl⟩)
    · exact ⟨result, op', .inl hp⟩
    · exact ⟨result, op, .inr ⟨hp, rfl, rfl⟩⟩

theorem precedes_ret_iff {h : List (CallEvent ω ρ)} {i j k : ℕ} {result : ρ} :
    Precedes (h ++ [.ret k result]) i j ↔ Precedes h i j := by
  unfold Precedes
  simp only [sublist_pair_snoc, reduceCtorEq, and_false, or_false]

theorem Precedes.ret_mem {h : List (CallEvent ω ρ)} {i j : ℕ} (hp : Precedes h i j) :
    ∃ result, CallEvent.ret i result ∈ h := by
  obtain ⟨result, op, hs⟩ := hp
  exact ⟨result, hs.subset List.mem_cons_self⟩

section Rules

variable {σ : Type} {O : SeqObject σ ω ρ} {h : List (CallEvent ω ρ)} {l : List (Effect ω ρ)}

theorem linearizes_nil : Linearizes O [] [] where
  nodup := List.nodup_nil
  legal := trivial
  invoked _ hx := absurd hx List.not_mem_nil
  complete _ _ hx := absurd hx List.not_mem_nil
  realTime _ _ _ hj := absurd hj List.not_mem_nil

theorem Linearizes.mem_of_ret (hl : Linearizes O h l) {i : ℕ} {result : ρ}
    (hi : CallEvent.ret i result ∈ h) : i ∈ l.map Effect.call := by
  obtain ⟨x, hx, rfl, -⟩ := hl.complete i result hi
  exact List.mem_map_of_mem hx

/-- **A call starts.** -/
theorem Linearizes.invoke (hl : Linearizes O h l) {k : ℕ} (op : ω)
    (hk : k ∉ l.map Effect.call) : Linearizes O (h ++ [.inv k op]) l where
  nodup := hl.nodup
  legal := hl.legal
  invoked x hx := List.mem_append_left _ (hl.invoked x hx)
  complete i result hi := by
    rcases List.mem_append.mp hi with hi | hi
    · exact hl.complete i result hi
    · cases List.mem_singleton.mp hi
  realTime i j hp hj := by
    rcases precedes_inv_iff.mp hp with hp | ⟨-, rfl⟩
    · exact hl.realTime i j hp hj
    · exact absurd hj hk

/-- **A call takes effect.** -/
theorem Linearizes.commit (hl : Linearizes O h l) {k : ℕ} {op : ω}
    (hinv : CallEvent.inv k op ∈ h) (hk : k ∉ l.map Effect.call) :
    Linearizes O h (l ++ [⟨k, op, (O.apply (O.after O.init l) op).2⟩]) where
  nodup := by
    rw [List.map_append, List.map_singleton]
    exact hl.nodup.append (List.nodup_singleton k) (List.disjoint_singleton.mpr hk)
  legal := hl.legal.snoc rfl
  invoked x hx := by
    rcases List.mem_append.mp hx with hx | hx
    · exact hl.invoked x hx
    · cases List.mem_singleton.mp hx
      exact hinv
  complete i result hi := by
    obtain ⟨x, hx, he⟩ := hl.complete i result hi
    exact ⟨x, List.mem_append_left _ hx, he⟩
  realTime i j hp hj := by
    obtain ⟨result, hi⟩ := hp.ret_mem
    rw [List.map_append, List.map_singleton] at hj ⊢
    rw [sublist_pair_snoc]
    rcases List.mem_append.mp hj with hj | hj
    · exact .inl (hl.realTime i j hp hj)
    · exact .inr ⟨hl.mem_of_ret hi, List.mem_singleton.mp hj⟩

/-- **A call returns.** -/
theorem Linearizes.ret (hl : Linearizes O h l) {x : Effect ω ρ} (hx : x ∈ l) :
    Linearizes O (h ++ [.ret x.call x.result]) l where
  nodup := hl.nodup
  legal := hl.legal
  invoked y hy := List.mem_append_left _ (hl.invoked y hy)
  complete i result hi := by
    rcases List.mem_append.mp hi with hi | hi
    · exact hl.complete i result hi
    · cases List.mem_singleton.mp hi
      exact ⟨x, hx, rfl, rfl⟩
  realTime i j hp hj := hl.realTime i j (precedes_ret_iff.mp hp) hj

end Rules

end Histories

end Loon
