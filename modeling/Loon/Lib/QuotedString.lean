import Mathlib.Data.List.Basic
import Mathlib.Tactic.Common

set_option autoImplicit false

/-!
# Quoted strings

The quoted strings of HTTP header fields, over bytes. Between the quotes a byte stands for itself,
or it stands behind a backslash and for itself then; a quote or a backslash can only stand behind a
backslash.

* `Quoted`, `IsQuotedString`: the grammar, with the value of a quoted string; `read` reads it;
* `escape`: a backslash in front of every byte of a certain kind;
* **`quoted_escape_iff`**: of quotes and backslashes both have to be escaped, unless there are none.
-/

namespace Loon.QuotedString

/-- '"' -/
def quote : UInt8 := 34

/-- '\' -/
def backslash : UInt8 := 92

/-- `qdtext`. -/
def isQdText (c : UInt8) : Bool :=
  c = 9 || c = 32 || c = 33 || (35 ≤ c && c ≤ 91) || (93 ≤ c && c ≤ 126) || 128 ≤ c

/-- What may stand behind a backslash. -/
def isQuotable (c : UInt8) : Bool := c = 9 || (32 ≤ c && c ≤ 126) || 128 ≤ c

/-- The text of a quoted string behind the opening quote, the closing quote included, and its
value. -/
inductive Quoted : List UInt8 → List UInt8 → Prop
  | close : Quoted [quote] []
  | text {c : UInt8} {t v : List UInt8} (hc : isQdText c = true) (h : Quoted t v) :
      Quoted (c :: t) (c :: v)
  | pair {c : UInt8} {t v : List UInt8} (hc : isQuotable c = true) (h : Quoted t v) :
      Quoted (backslash :: c :: t) (c :: v)

/-- All of `s` is one quoted string, and `v` is its value. -/
def IsQuotedString (s v : List UInt8) : Prop := ∃ t : List UInt8, s = quote :: t ∧ Quoted t v

/-- The value of a quoted string, from behind the opening quote. -/
def read : List UInt8 → Option (List UInt8)
  | [] => none
  | [c] => if c = quote then some [] else none
  | c :: d :: t =>
    if c = backslash then if isQuotable d then (read t).map (d :: ·) else none
    else if isQdText c then (read (d :: t)).map (c :: ·) else none

/-- A backslash in front of every byte that `p` holds of. -/
def escape (p : UInt8 → Bool) (v : List UInt8) : List UInt8 :=
  v.flatMap fun c => if p c then [backslash, c] else [c]

/-! ## Bytes -/

theorem isQdText_iff {c : UInt8} :
    isQdText c = true ↔ isQuotable c = true ∧ c ≠ quote ∧ c ≠ backslash := by
  simp only [isQdText, isQuotable, quote, backslash, Bool.or_eq_true, Bool.and_eq_true,
    decide_eq_true_eq, UInt8.le_iff_toNat_le, ← UInt8.toNat_inj, ne_eq, UInt8.reduceToNat]
  omega

theorem isQdText_quote : isQdText quote = false := rfl

theorem isQdText_backslash : isQdText backslash = false := rfl

/-! ## The reader -/

theorem not_quoted_nil {v : List UInt8} : ¬ Quoted [] v := by
  rintro ⟨⟩

theorem quoted_of_read {t v : List UInt8} (h : read t = some v) : Quoted t v := by
  fun_induction read t generalizing v with
  | case1 => cases h
  | case2 =>
    cases h
    exact .close
  | case3 => cases h
  | case4 d t hd ih =>
    obtain ⟨w, hw, rfl⟩ := Option.map_eq_some_iff.mp h
    exact .pair hd (ih hw)
  | case5 => cases h
  | case6 c d t hb hc ih =>
    obtain ⟨w, hw, rfl⟩ := Option.map_eq_some_iff.mp h
    exact .text hc (ih hw)
  | case7 => cases h

theorem read_of_quoted {t v : List UInt8} (h : Quoted t v) : read t = some v := by
  induction h with
  | close => rfl
  | @text c t v hc h ih =>
    have hb : c ≠ backslash := (isQdText_iff.mp hc).2.2
    cases t with
    | nil => exact absurd h not_quoted_nil
    | cons d t => rw [read, if_neg hb, if_pos hc, ih, Option.map_some]
  | @pair c t v hc h ih => rw [read, if_pos rfl, if_pos hc, ih, Option.map_some]

/-- **The reader** reads the quoted strings. -/
theorem read_eq_some_iff {t v : List UInt8} : read t = some v ↔ Quoted t v :=
  ⟨quoted_of_read, read_of_quoted⟩

theorem isQuotedString_cons_iff {t v : List UInt8} :
    IsQuotedString (quote :: t) v ↔ read t = some v := by
  rw [read_eq_some_iff]
  constructor
  · rintro ⟨_, ⟨⟩, h⟩
    exact h
  · intro h
    exact ⟨t, rfl, h⟩

/-- A value has only bytes that may be quoted. -/
theorem Quoted.quotable {t v : List UInt8} (h : Quoted t v) : ∀ c ∈ v, isQuotable c = true := by
  induction h with
  | close => simp
  | text hc _ ih => exact List.forall_mem_cons.mpr ⟨(isQdText_iff.mp hc).1, ih⟩
  | pair hc _ ih => exact List.forall_mem_cons.mpr ⟨hc, ih⟩

/-! ## Escaping -/

section Escape

variable {p : UInt8 → Bool} {c : UInt8} {t v w : List UInt8}

theorem escape_cons_of_pos (hc : p c = true) :
    escape p (c :: v) = backslash :: c :: escape p v := by
  simp [escape, hc]

theorem escape_cons_of_neg (hc : p c = false) : escape p (c :: v) = c :: escape p v := by
  simp [escape, hc]

theorem quoted_escape (hquote : p quote = true) (hv : ∀ c ∈ v, isQuotable c = true)
    (hback : p backslash = true ∨ backslash ∉ v) : Quoted (escape p v ++ [quote]) v := by
  induction v with
  | nil => exact .close
  | cons c v ih =>
    obtain ⟨hc, hv⟩ := List.forall_mem_cons.mp hv
    have hrest : Quoted (escape p v ++ [quote]) v :=
      ih hv (hback.imp_right fun h hm => h (List.mem_cons_of_mem _ hm))
    cases hp : p c with
    | true =>
      rw [escape_cons_of_pos hp]
      exact .pair hc hrest
    | false =>
      rw [escape_cons_of_neg hp]
      refine .text (isQdText_iff.mpr ⟨hc, ?_, ?_⟩) hrest
      · rintro rfl
        rw [hquote] at hp
        cases hp
      · rintro rfl
        rcases hback with h | h
        · rw [h] at hp
          cases hp
        · exact h List.mem_cons_self

/-- A quote ends the string. -/
theorem Quoted.of_quote (h : Quoted (quote :: t) w) : t = [] := by
  cases h with
  | close => rfl
  | text hc => rw [isQdText_quote] at hc; cases hc

/-- What stands behind a backslash. -/
theorem Quoted.of_backslash (h : Quoted (backslash :: t) w) :
    ∃ d t' w', t = d :: t' ∧ w = d :: w' ∧ Quoted t' w' := by
  cases h with
  | text hc => rw [isQdText_backslash] at hc; cases hc
  | @pair d t' w' _ h => exact ⟨d, t', w', rfl, rfl, h⟩

/-- A byte other than quote and backslash stands for itself. -/
theorem Quoted.of_ne (h : Quoted (c :: t) w) (hq : c ≠ quote) (hb : c ≠ backslash) :
    ∃ w', w = c :: w' ∧ Quoted t w' := by
  cases h with
  | close => exact absurd rfl hq
  | @text _ _ w' _ h => exact ⟨w', rfl, h⟩
  | pair => exact absurd rfl hb

/-- If only quotes are escaped, a backslash hides what stands behind it: the value is shorter. -/
theorem length_lt_of_quoted (hp : ∀ c, p c = true ↔ c = quote) :
    ∀ v w, Quoted (escape p v ++ [quote]) w →
      w.length + (if backslash ∈ v then 1 else 0) ≤ v.length
  | [], w, h => by
    cases h with
    | close => simp
    | text hc => rw [isQdText_quote] at hc; cases hc
  | c :: v, w, h => by
    by_cases hq : c = quote
    · rw [escape_cons_of_pos ((hp c).mpr hq)] at h
      obtain ⟨d, t', w', ht, rfl, h'⟩ := h.of_backslash
      cases ht
      have hlen := length_lt_of_quoted hp v w' h'
      have hmem : backslash ∈ c :: v ↔ backslash ∈ v := by
        rw [hq]
        simp [quote, backslash]
      simp only [hmem, List.length_cons]
      omega
    have hpc : p c = false := by
      rw [← Bool.not_eq_true, hp]
      exact hq
    rw [escape_cons_of_neg hpc] at h
    by_cases hb : c = backslash
    · rw [hb] at h
      obtain ⟨d, t', w', ht, rfl, h'⟩ := Quoted.of_backslash h
      -- the next byte is part of a pair, and a quote that was escaped would end the string
      cases v with
      | nil =>
        cases ht
        exact absurd h' not_quoted_nil
      | cons d' v =>
        by_cases hq' : d' = quote
        · rw [escape_cons_of_pos ((hp d').mpr hq'), hq'] at ht
          cases ht
          simpa using h'.of_quote
        · have hpd : p d' = false := by
            rw [← Bool.not_eq_true, hp]
            exact hq'
          rw [escape_cons_of_neg hpd] at ht
          cases ht
          have hlen := length_lt_of_quoted hp v w' h'
          rw [if_pos (by rw [hb]; exact List.mem_cons_self)]
          simp only [List.length_cons]
          omega
    · obtain ⟨w', rfl, h'⟩ := Quoted.of_ne h hq hb
      have hlen := length_lt_of_quoted hp v w' h'
      have hmem : backslash ∈ c :: v ↔ backslash ∈ v := by
        rw [List.mem_cons, or_iff_right (Ne.symm hb)]
      simp only [hmem, List.length_cons]
      omega

/-- **When escaping is undone**, for an escaping of quotes, with or without backslashes. -/
theorem quoted_escape_iff (hquote : p quote = true)
    (hp : ∀ c, p c = true → c = quote ∨ c = backslash) :
    Quoted (escape p v ++ [quote]) v ↔
      (∀ c ∈ v, isQuotable c = true) ∧ (p backslash = true ∨ backslash ∉ v) := by
  constructor
  · intro h
    refine ⟨h.quotable, ?_⟩
    by_contra hno
    obtain ⟨hback, hmem⟩ := not_or.mp hno
    have honly : ∀ c, p c = true ↔ c = quote := by
      intro c
      constructor
      · intro hc
        refine (hp c hc).resolve_right ?_
        rintro rfl
        exact hback hc
      · rintro rfl
        exact hquote
    have hlen := length_lt_of_quoted honly v v h
    rw [if_pos (not_not.mp hmem)] at hlen
    omega
  · rintro ⟨hv, hback⟩
    exact quoted_escape hquote hv hback

end Escape

end Loon.QuotedString
