import Mathlib.Data.List.Infix
import Mathlib.Tactic.Common

set_option autoImplicit false

/-!
# Trimming words

Strings are lists over any alphabet, and what is trimmed is given by a list `W` of words, such as
the byte sequences of the white space characters of an encoding. `trimLeft` drops words of `W` from
the front as long as there is one, `trimRight` from the end, `trim` does both.

* **`trimLeft_spec`**, **`trimRight_spec`**: a string is its trimmed part and the dropped words, and
  no word is left at that end;
* `trimLeft_append`: with a prefix-free `W` the trimmed part is determined by that;
* `trimLeft_eq_self_iff`, `trimRight_eq_self_iff`, `trim_eq_self_iff`: what is left unchanged.
-/

namespace Loon.Trim

variable {α : Type} [DecidableEq α]

/-- `s` without the first word of `W` that it starts with. -/
def dropWord (W : List (List α)) (s : List α) : Option (List α) :=
  W.findSome? fun w => if w.isPrefixOf s then some (s.drop w.length) else none

/-- At most `n` rounds of `dropWord`. -/
def trimRounds (W : List (List α)) : ℕ → List α → List α
  | 0, s => s
  | n + 1, s =>
    match dropWord W s with
    | none => s
    | some t => trimRounds W n t

/-- `s` without the words of `W` at its front; every round makes the string shorter. -/
def trimLeft (W : List (List α)) (s : List α) : List α := trimRounds W s.length s

/-- `s` without the words of `W` at its end. -/
def trimRight (W : List (List α)) (s : List α) : List α :=
  (trimLeft (W.map List.reverse) s.reverse).reverse

def trim (W : List (List α)) (s : List α) : List α := trimRight W (trimLeft W s)

/-- `s` starts with a word of `W`. -/
def StartsWith (W : List (List α)) (s : List α) : Prop := ∃ w ∈ W, w <+: s

/-- `s` ends with a word of `W`. -/
def EndsWith (W : List (List α)) (s : List α) : Prop := ∃ w ∈ W, w <:+ s

instance (W : List (List α)) (s : List α) : Decidable (StartsWith W s) :=
  inferInstanceAs (Decidable (∃ w ∈ W, _))

instance (W : List (List α)) (s : List α) : Decidable (EndsWith W s) :=
  inferInstanceAs (Decidable (∃ w ∈ W, _))

/-- No word of `W` is the start of another one. -/
def PrefixFree (W : List (List α)) : Prop := ∀ w ∈ W, ∀ w' ∈ W, w <+: w' → w = w'

instance (W : List (List α)) : Decidable (PrefixFree W) :=
  inferInstanceAs (Decidable (∀ w ∈ W, ∀ w' ∈ W, _))

variable {W : List (List α)} {s t : List α}

/-! ## One round -/

theorem dropWord_eq_none_iff : dropWord W s = none ↔ ¬ StartsWith W s := by
  unfold dropWord StartsWith
  rw [List.findSome?_eq_none_iff]
  simp

theorem dropWord_eq_some (h : dropWord W s = some t) : ∃ w ∈ W, s = w ++ t := by
  obtain ⟨w, hw, he⟩ := List.exists_of_findSome?_eq_some h
  refine ⟨w, hw, ?_⟩
  split_ifs at he with hp
  cases he
  obtain ⟨u, rfl⟩ := List.isPrefixOf_iff_prefix.mp hp
  rw [List.drop_left]

/-! ## The front -/

theorem trimRounds_spec (hW : [] ∉ W) (n : ℕ) (s : List α) (hn : s.length ≤ n) :
    ∃ ws : List (List α), (∀ w ∈ ws, w ∈ W) ∧ s = ws.flatten ++ trimRounds W n s ∧
      ¬ StartsWith W (trimRounds W n s) := by
  induction n generalizing s with
  | zero =>
    have hs : s = [] := List.eq_nil_of_length_eq_zero (by omega)
    subst hs
    refine ⟨[], by simp, rfl, ?_⟩
    rintro ⟨w, hw, hp⟩
    rw [List.prefix_nil.mp hp] at hw
    exact hW hw
  | succ n ih =>
    unfold trimRounds
    cases hd : dropWord W s with
    | none => exact ⟨[], by simp, rfl, dropWord_eq_none_iff.mp hd⟩
    | some t =>
      obtain ⟨w, hw, rfl⟩ := dropWord_eq_some hd
      have hpos : 0 < w.length := List.length_pos_of_ne_nil fun h => hW (h ▸ hw)
      obtain ⟨ws, hws, he, hstart⟩ := ih t (by simp only [List.length_append] at hn; omega)
      refine ⟨w :: ws, ?_, ?_, hstart⟩
      · intro x hx
        rcases List.mem_cons.mp hx with rfl | hx
        · exact hw
        · exact hws x hx
      · rw [List.flatten_cons, List.append_assoc, ← he]

/-- **What `trimLeft` leaves.** -/
theorem trimLeft_spec (hW : [] ∉ W) (s : List α) :
    ∃ ws : List (List α), (∀ w ∈ ws, w ∈ W) ∧ s = ws.flatten ++ trimLeft W s ∧
      ¬ StartsWith W (trimLeft W s) :=
  trimRounds_spec hW s.length s le_rfl

omit [DecidableEq α] in
theorem startsWith_flatten {ws : List (List α)} (hws : ∀ w ∈ ws, w ∈ W) (hne : ws ≠ []) :
    StartsWith W (ws.flatten ++ s) := by
  obtain ⟨w, ws, rfl⟩ := List.exists_cons_of_ne_nil hne
  refine ⟨w, hws w List.mem_cons_self, ?_⟩
  rw [List.flatten_cons, List.append_assoc]
  exact List.prefix_append _ _

theorem trimLeft_eq_self_iff (hW : [] ∉ W) : trimLeft W s = s ↔ ¬ StartsWith W s := by
  obtain ⟨ws, hws, he, hstart⟩ := trimLeft_spec hW s
  constructor
  · intro h
    rwa [h] at hstart
  · intro h
    have hnil : ws = [] := by
      by_contra hne
      rw [he] at h
      exact h (startsWith_flatten hws hne)
    subst hnil
    exact he.symm

omit [DecidableEq α] in
/-- Two ways to cut words off the front, so far that no word is left, are the same. -/
theorem flatten_append_unique (hW : PrefixFree W) {ws ws' : List (List α)} (hws : ∀ w ∈ ws, w ∈ W)
    (hws' : ∀ w ∈ ws', w ∈ W) (h : ws.flatten ++ s = ws'.flatten ++ t) (hs : ¬ StartsWith W s)
    (ht : ¬ StartsWith W t) : s = t := by
  induction ws generalizing ws' with
  | nil =>
    cases ws' with
    | nil => exact h
    | cons w' ws' =>
      refine absurd ?_ hs
      rw [List.flatten_nil, List.nil_append] at h
      rw [h]
      exact startsWith_flatten hws' (List.cons_ne_nil _ _)
  | cons w ws ih =>
    cases ws' with
    | nil =>
      refine absurd ?_ ht
      rw [List.flatten_nil, List.nil_append] at h
      rw [← h]
      exact startsWith_flatten hws (List.cons_ne_nil _ _)
    | cons w' ws' =>
      simp only [List.flatten_cons, List.append_assoc] at h
      have hw := hws w List.mem_cons_self
      have hw' := hws' w' List.mem_cons_self
      have hp : w <+: w' ++ (ws'.flatten ++ t) := h ▸ List.prefix_append _ _
      have heq : w = w' := by
        rcases List.prefix_or_prefix_of_prefix hp (List.prefix_append _ _) with hle | hle
        · exact hW w hw w' hw' hle
        · exact (hW w' hw' w hw hle).symm
      subst heq
      exact ih (fun x hx => hws x (List.mem_cons_of_mem _ hx))
        (fun x hx => hws' x (List.mem_cons_of_mem _ hx)) (List.append_cancel_left h)

theorem trimLeft_append (hnil : [] ∉ W) (hW : PrefixFree W) {ws : List (List α)}
    (hws : ∀ w ∈ ws, w ∈ W) (ht : ¬ StartsWith W t) : trimLeft W (ws.flatten ++ t) = t := by
  obtain ⟨ws', hws', he, hstart⟩ := trimLeft_spec hnil (ws.flatten ++ t)
  exact (flatten_append_unique hW hws hws' he ht hstart).symm

/-! ## The end -/

omit [DecidableEq α] in
theorem nil_notMem_map_reverse (hW : [] ∉ W) : [] ∉ W.map List.reverse := by
  intro h
  obtain ⟨w, hw, he⟩ := List.mem_map.mp h
  rw [List.reverse_eq_nil_iff.mp he] at hw
  exact hW hw

omit [DecidableEq α] in
theorem startsWith_reverse_iff : StartsWith (W.map List.reverse) s.reverse ↔ EndsWith W s := by
  constructor
  · rintro ⟨w, hw, hp⟩
    obtain ⟨v, hv, rfl⟩ := List.mem_map.mp hw
    exact ⟨v, hv, List.reverse_prefix.mp hp⟩
  · rintro ⟨w, hw, hp⟩
    exact ⟨w.reverse, List.mem_map_of_mem hw, List.reverse_prefix.mpr hp⟩

/-- **What `trimRight` leaves.** -/
theorem trimRight_spec (hW : [] ∉ W) (s : List α) :
    ∃ ws : List (List α), (∀ w ∈ ws, w ∈ W) ∧ s = trimRight W s ++ ws.flatten ∧
      ¬ EndsWith W (trimRight W s) := by
  obtain ⟨ws, hws, he, hstart⟩ := trimLeft_spec (nil_notMem_map_reverse hW) s.reverse
  refine ⟨(ws.map List.reverse).reverse, ?_, ?_, ?_⟩
  · intro w hw
    obtain ⟨v, hv, rfl⟩ := List.mem_map.mp (List.mem_reverse.mp hw)
    obtain ⟨u, hu, rfl⟩ := List.mem_map.mp (hws v hv)
    rwa [List.reverse_reverse]
  · calc s = s.reverse.reverse := (List.reverse_reverse s).symm
      _ = trimRight W s ++ (ws.map List.reverse).reverse.flatten := by
        conv_lhs => rw [he, List.reverse_append, List.reverse_flatten]
        rfl
  · rw [← startsWith_reverse_iff, trimRight, List.reverse_reverse]
    exact hstart

theorem trimRight_isPrefix (hW : [] ∉ W) (s : List α) : trimRight W s <+: s := by
  obtain ⟨ws, -, he, -⟩ := trimRight_spec hW s
  exact ⟨ws.flatten, he.symm⟩

theorem trimRight_eq_self_iff (hW : [] ∉ W) : trimRight W s = s ↔ ¬ EndsWith W s := by
  rw [← startsWith_reverse_iff, ← trimLeft_eq_self_iff (nil_notMem_map_reverse hW), trimRight]
  exact List.reverse_eq_iff

/-- A letter that occurs in no word is not trimmed. -/
theorem mem_trimRight (hW : [] ∉ W) {a : α} (ha : ∀ w ∈ W, a ∉ w) (hs : a ∈ s) :
    a ∈ trimRight W s := by
  obtain ⟨ws, hws, he, -⟩ := trimRight_spec hW s
  rw [he] at hs
  rcases List.mem_append.mp hs with h | h
  · exact h
  · obtain ⟨w, hw, hm⟩ := List.mem_flatten.mp h
    exact absurd hm (ha w (hws w hw))

/-! ## Both ends -/

theorem length_trimLeft_le (hW : [] ∉ W) (s : List α) : (trimLeft W s).length ≤ s.length := by
  obtain ⟨ws, -, he, -⟩ := trimLeft_spec hW s
  calc (trimLeft W s).length ≤ ws.flatten.length + (trimLeft W s).length := Nat.le_add_left _ _
    _ = s.length := by rw [← List.length_append, ← he]

theorem length_trim_le (hW : [] ∉ W) (s : List α) : (trim W s).length ≤ s.length :=
  (trimRight_isPrefix hW _).length_le.trans (length_trimLeft_le hW s)

theorem trim_eq_self_iff (hW : [] ∉ W) :
    trim W s = s ↔ ¬ StartsWith W s ∧ ¬ EndsWith W s := by
  rw [← trimLeft_eq_self_iff hW, ← trimRight_eq_self_iff hW]
  constructor
  · intro h
    have hl : trimLeft W s = s := by
      obtain ⟨ws, -, he, -⟩ := trimLeft_spec hW s
      -- neither side may shorten the string
      have h1 : s.length ≤ (trimLeft W s).length := by
        conv_lhs => rw [← h]
        exact (trimRight_isPrefix hW _).length_le
      have h2 : s.length = ws.flatten.length + (trimLeft W s).length := by
        rw [← List.length_append, ← he]
      have hnil : ws.flatten = [] := List.eq_nil_of_length_eq_zero (by omega)
      rw [hnil, List.nil_append] at he
      exact he.symm
    refine ⟨hl, ?_⟩
    rw [trim, hl] at h
    exact h
  · rintro ⟨h1, h2⟩
    rw [trim, h1, h2]

omit [DecidableEq α] in
theorem head?_of_isPrefix {a : α} (h : s <+: t) (hs : s.head? = some a) : t.head? = some a := by
  obtain ⟨u, rfl⟩ := h
  rw [List.head?_append, hs]
  rfl

/-- A letter of no word stands in front after trimming exactly when it does after the left trim. -/
theorem head_trim_iff (hW : [] ∉ W) {a : α} (ha : ∀ w ∈ W, a ∉ w) :
    (trim W s).head? = some a ↔ (trimLeft W s).head? = some a := by
  have hp := trimRight_isPrefix hW (trimLeft W s)
  constructor
  · intro h
    exact head?_of_isPrefix hp h
  · intro h
    have hm : a ∈ trim W s := mem_trimRight hW ha (List.mem_of_mem_head? h)
    obtain ⟨b, l, hb⟩ := List.exists_cons_of_ne_nil (List.ne_nil_of_mem hm)
    have hb' : (trimLeft W s).head? = some b := head?_of_isPrefix hp (by rw [← trim, hb]; rfl)
    rw [hb, ← h, hb']
    rfl

end Loon.Trim
