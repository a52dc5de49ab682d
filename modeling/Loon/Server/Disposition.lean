import Loon.Lib.QuotedString
import Loon.Server.Mac

set_option autoImplicit false

/-!
# The name of an attachment

The field `Content-Disposition` that `serve` sets for the response of a client. The name of the file
comes from the client; `serve` puts it between quotes and a backslash in front of each quote in it.

* `contentDisposition`: the value of the field;
* `Names`: a field names a file in one quoted string, and nothing follows;
* **`filename_survives_iff`**: the field names the file of the client if and only if there is no
  backslash in its name.
-/

namespace Loon

open QuotedString

/-- `strings.ReplaceAll` of one byte. -/
def replaceAll (s : Bytes) (old : UInt8) (new : Bytes) : Bytes :=
  s.flatMap fun c => if c = old then new else [c]

/-- `Content-Disposition`, if the client gave a name. -/
def contentDisposition (header : ContentHeader) : Option Bytes :=
  header.filename.map fun filename =>
    let value := replaceAll (textBytes filename) quote [backslash, quote]
    textBytes "attachment; filename=\"" ++ value ++ textBytes "\""

/-- `value` is "attachment; filename=" and one quoted string with the value `name`. -/
def Names (value name : Bytes) : Prop :=
  ∃ q : Bytes, value = textBytes "attachment; filename=" ++ q ∧ IsQuotedString q name

/-- A control character. -/
def isControl (c : UInt8) : Bool := c < 32 || c = 127

section Filename

variable {header : ContentHeader} {filename : String}

theorem replaceAll_quote (s : Bytes) :
    replaceAll s quote [backslash, quote] = escape (· = quote) s := by
  unfold replaceAll escape
  congr 1
  funext c
  by_cases hc : c = quote
  · rw [if_pos hc, if_pos (decide_eq_true hc), hc]
  · rw [if_neg hc, if_neg (by simpa using hc)]

theorem contentDisposition_eq (h : header.filename = some filename) :
    contentDisposition header = some (textBytes "attachment; filename=" ++
      quote :: (escape (· = quote) (textBytes filename) ++ [quote])) := by
  have hopen : textBytes "attachment; filename=\"" = textBytes "attachment; filename=" ++ [quote] := by
    decide +kernel
  have hclose : textBytes "\"" = [quote] := by decide +kernel
  rw [contentDisposition, h, Option.map_some, replaceAll_quote, hopen, hclose]
  simp only [List.append_assoc, List.cons_append, List.nil_append]

theorem isQuotable_of_not_control {c : UInt8} (h : isControl c = false) : isQuotable c = true := by
  simp only [isControl, isQuotable, Bool.or_eq_false_iff, Bool.or_eq_true, Bool.and_eq_true,
    decide_eq_true_eq, decide_eq_false_iff_not, UInt8.le_iff_toNat_le, UInt8.lt_iff_toNat_lt,
    ← UInt8.toNat_inj, UInt8.reduceToNat] at h ⊢
  omega

theorem names_iff {value : Bytes} (t name : Bytes)
    (hv : value = textBytes "attachment; filename=" ++ quote :: t) :
    Names value name ↔ Quoted t name := by
  rw [← read_eq_some_iff, ← isQuotedString_cons_iff, hv]
  constructor
  · rintro ⟨q, hq, h⟩
    rwa [List.append_cancel_left hq]
  · intro h
    exact ⟨_, rfl, h⟩

/-- **A name survives exactly if it has no backslash.** For every name without control characters:
the field that `serve` sets is "attachment; filename=" and one quoted string with this value, and
nothing else, if and only if the name has no backslash. -/
theorem filename_survives_iff (h : header.filename = some filename)
    (htext : ∀ c ∈ textBytes filename, isControl c = false) :
    (∃ value, contentDisposition header = some value ∧ Names value (textBytes filename)) ↔
      backslash ∉ textBytes filename := by
  have hquoted : Quoted (escape (· = quote) (textBytes filename) ++ [quote]) (textBytes filename) ↔
      backslash ∉ textBytes filename := by
    rw [quoted_escape_iff (decide_eq_true rfl) fun c hc => .inl (of_decide_eq_true hc)]
    constructor
    · rintro ⟨-, hback⟩
      exact hback.resolve_left (by decide)
    · intro hback
      exact ⟨fun c hc => isQuotable_of_not_control (htext c hc), .inr hback⟩
  rw [← hquoted, contentDisposition_eq h]
  constructor
  · rintro ⟨value, hv, hnames⟩
    exact (names_iff _ _ (Option.some.inj hv).symm).mp hnames
  · intro hq
    exact ⟨_, rfl, (names_iff _ _ rfl).mpr hq⟩

end Filename

/-! ## Two names -/

/-- The header of a file with the name `filename`. -/
def headerNamed (filename : String) : ContentHeader where
  requestId := 1
  contentType := "text/html"
  contentSize := 2
  maxCacheDuration := none
  filename := some filename

theorem filename_survives_iff_quotes :
    (∀ c ∈ textBytes "a \"b\"", isControl c = false) ∧
      ∃ value, contentDisposition (headerNamed "a \"b\"") = some value ∧
        Names value (textBytes "a \"b\"") := by
  have htext : ∀ c ∈ textBytes "a \"b\"", isControl c = false := by decide +kernel
  exact ⟨htext, (filename_survives_iff rfl htext).mpr (by decide +kernel)⟩

/-- The name `a\"; b="` ends the quoted string early and adds a parameter. -/
theorem backslash_ends_string :
    contentDisposition (headerNamed "a\\\"; b=\"") =
      some (textBytes "attachment; filename=\"a\\\\\"; b=\\\"\"") ∧
    Quoted (textBytes "a\\\\\"") (textBytes "a\\") ∧
    ¬ ∀ (header : ContentHeader) (filename : String), header.filename = some filename →
      filename ≠ "" → (∀ c ∈ textBytes filename, isControl c = false) →
      ∃ value, contentDisposition header = some value ∧ Names value (textBytes filename) := by
  refine ⟨by decide +kernel, read_eq_some_iff.mp (by decide +kernel), fun h => ?_⟩
  obtain ⟨value, hv, hnames⟩ :=
    h (headerNamed "a\\\"; b=\"") _ rfl (by decide) (by decide +kernel)
  rw [contentDisposition_eq rfl] at hv
  cases hv
  have hread := read_eq_some_iff.mpr ((names_iff _ _ rfl).mp hnames)
  revert hread
  decide +kernel

end Loon
