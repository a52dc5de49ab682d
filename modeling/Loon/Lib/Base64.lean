import Mathlib.Data.Fin.Basic
import Mathlib.Data.List.Basic
import Mathlib.Tactic.Common

set_option autoImplicit false

/-!
# Base64 without padding

Bytes are cut into groups of six bits, sextets, most significant bits first; the bits of the last
sextet that no byte fills are zero. A decoder may be lenient in two ways: it may skip the line breaks
of its input, and it may ignore the unused bits of the last sextet instead of checking them. The
encoding `Alphabet.encodeToString` and the lenient decoder `Alphabet.decodeString` are over any
alphabet of 64 characters.

* **`Alphabet.decodeString_encodeToString`**: decoding inverts encoding;
* **`Alphabet.encodeToString_decodeString_iff`**: encoding inverts decoding exactly on the strings
  without line breaks whose unused bits are zero.
-/

namespace Loon.Base64

/-- Six bits. -/
abbrev Sextet := Fin 64

def sextet (n : ℕ) : Sextet := Fin.ofNat 64 n

theorem val_sextet {n : ℕ} (h : n < 64) : (sextet n).val = n := Nat.mod_eq_of_lt h

/-! ## Bytes and sextets -/

/-- The sextets of a byte string. -/
def toSextets : List UInt8 → List Sextet
  | a :: b :: c :: rest =>
    sextet (a.toNat / 4) :: sextet (a.toNat % 4 * 16 + b.toNat / 16) ::
      sextet (b.toNat % 16 * 4 + c.toNat / 64) :: sextet (c.toNat % 64) :: toSextets rest
  | [a, b] =>
    [sextet (a.toNat / 4), sextet (a.toNat % 4 * 16 + b.toNat / 16), sextet (b.toNat % 16 * 4)]
  | [a] => [sextet (a.toNat / 4), sextet (a.toNat % 4 * 16)]
  | [] => []

/-- The first, second and third byte of a group of sextets. -/
def byte₀ (w x : Sextet) : UInt8 := UInt8.ofNat (w.val * 4 + x.val / 16)

def byte₁ (x y : Sextet) : UInt8 := UInt8.ofNat (x.val % 16 * 16 + y.val / 4)

def byte₂ (y z : Sextet) : UInt8 := UInt8.ofNat (y.val % 4 * 64 + z.val)

/-- The bytes of a list of sextets; a single sextet at the end is too short for a byte. -/
def ofSextets : List Sextet → Option (List UInt8)
  | w :: x :: y :: z :: rest =>
    (ofSextets rest).map fun bytes => byte₀ w x :: byte₁ x y :: byte₂ y z :: bytes
  | [w, x, y] => some [byte₀ w x, byte₁ x y]
  | [w, x] => some [byte₀ w x]
  | [_] => none
  | [] => some []

/-- The bits of the last sextet that belong to no byte are zero. -/
def UnusedZero : List Sextet → Prop
  | _ :: _ :: _ :: _ :: rest => UnusedZero rest
  | [_, _, y] => y.val % 4 = 0
  | [_, x] => x.val % 16 = 0
  | _ => True

instance decidableUnusedZero : (l : List Sextet) → Decidable (UnusedZero l)
  | _ :: _ :: _ :: _ :: rest => decidableUnusedZero rest
  | [_, _, y] => inferInstanceAs (Decidable (y.val % 4 = 0))
  | [_, x] => inferInstanceAs (Decidable (x.val % 16 = 0))
  | [_] => inferInstanceAs (Decidable True)
  | [] => inferInstanceAs (Decidable True)

theorem ofNat_eq_of_toNat {n : ℕ} {a : UInt8} (h : n = a.toNat) : UInt8.ofNat n = a := by
  rw [h, UInt8.ofNat_toNat]

theorem ofSextets_toSextets (bytes : List UInt8) : ofSextets (toSextets bytes) = some bytes := by
  fun_induction toSextets bytes with
  | case1 a b c rest ih =>
    have ha := a.toNat_lt
    have hb := b.toNat_lt
    have hc := c.toNat_lt
    rw [ofSextets, ih]
    simp only [Option.map_some, Option.some.injEq, List.cons.injEq, and_true, byte₀, byte₁, byte₂]
    refine ⟨ofNat_eq_of_toNat ?_, ofNat_eq_of_toNat ?_, ofNat_eq_of_toNat ?_⟩
    · rw [val_sextet (by omega), val_sextet (by omega)]; omega
    · rw [val_sextet (by omega), val_sextet (by omega)]; omega
    · rw [val_sextet (by omega), val_sextet (by omega)]; omega
  | case2 a b =>
    have ha := a.toNat_lt
    have hb := b.toNat_lt
    simp only [ofSextets, Option.some.injEq, List.cons.injEq, and_true, byte₀, byte₁]
    refine ⟨ofNat_eq_of_toNat ?_, ofNat_eq_of_toNat ?_⟩
    · rw [val_sextet (by omega), val_sextet (by omega)]; omega
    · rw [val_sextet (by omega), val_sextet (by omega)]; omega
  | case3 a =>
    have ha := a.toNat_lt
    simp only [ofSextets, Option.some.injEq, List.cons.injEq, and_true, byte₀]
    refine ofNat_eq_of_toNat ?_
    rw [val_sextet (by omega), val_sextet (by omega)]; omega
  | case4 => rfl

theorem sextet_eq {n : ℕ} {x : Sextet} (h : n = x.val) : sextet n = x := by
  apply Fin.ext
  rw [h, val_sextet x.isLt]

theorem toNat_byte₀ (w x : Sextet) : (byte₀ w x).toNat = w.val * 4 + x.val / 16 :=
  UInt8.toNat_ofNat_of_lt (by simp only [UInt8.size]; omega)

theorem toNat_byte₁ (x y : Sextet) : (byte₁ x y).toNat = x.val % 16 * 16 + y.val / 4 :=
  UInt8.toNat_ofNat_of_lt (by simp only [UInt8.size]; omega)

theorem toNat_byte₂ (y z : Sextet) : (byte₂ y z).toNat = y.val % 4 * 64 + z.val :=
  UInt8.toNat_ofNat_of_lt (by simp only [UInt8.size]; omega)

/-- Encoding inverts decoding exactly on the sextets without stray bits. -/
theorem toSextets_ofSextets_iff {l : List Sextet} {bytes : List UInt8}
    (h : ofSextets l = some bytes) : toSextets bytes = l ↔ UnusedZero l := by
  fun_induction UnusedZero l generalizing bytes with
  | case1 w x y z rest ih =>
    rw [ofSextets, Option.map_eq_some_iff] at h
    obtain ⟨tail, ht, rfl⟩ := h
    rw [toSextets, ← ih ht]
    simp only [toNat_byte₀, toNat_byte₁, toNat_byte₂]
    rw [sextet_eq (x := w) (by omega), sextet_eq (x := x) (by omega),
      sextet_eq (x := y) (by omega), sextet_eq (x := z) (by omega)]
    simp
  | case2 w x y =>
    cases h
    simp only [toSextets, toNat_byte₀, toNat_byte₁]
    rw [sextet_eq (x := w) (by omega), sextet_eq (x := x) (by omega)]
    simp only [List.cons.injEq, true_and, and_true, Fin.ext_iff]
    rw [val_sextet (by omega)]
    omega
  | case3 w x =>
    cases h
    simp only [toSextets, toNat_byte₀]
    rw [sextet_eq (x := w) (by omega)]
    simp only [List.cons.injEq, true_and, and_true, Fin.ext_iff]
    rw [val_sextet (by omega)]
    omega
  | case4 l h4 h3 h2 =>
    match l with
    | [] => cases h; simp [toSextets]
    | [_] => cases h
    | [w, x] => exact absurd rfl (h2 w x)
    | [w, x, y] => exact absurd rfl (h3 w x y)
    | w :: x :: y :: z :: rest => exact absurd rfl (h4 w x y z rest)

/-- **The number of sextets**: eight bits a byte, six bits a sextet, rounded up. -/
theorem length_toSextets (bytes : List UInt8) :
    (toSextets bytes).length = (8 * bytes.length + 5) / 6 := by
  fun_induction toSextets bytes with
  | case1 a b c rest ih =>
    simp only [List.length_cons, ih]
    omega
  | case2 | case3 | case4 => simp

theorem unusedZero_toSextets (bytes : List UInt8) : UnusedZero (toSextets bytes) :=
  (toSextets_ofSextets_iff (ofSextets_toSextets bytes)).mp rfl

/-! ## Characters -/

/-- **An alphabet**: a character for every sextet, and the characters that a decoder skips. -/
structure Alphabet (κ : Type) where
  char : Sextet → κ
  value : κ → Option Sextet
  skipped : κ → Bool
  value_char : ∀ x, value (char x) = some x
  char_value : ∀ c x, value c = some x → char x = c
  skipped_char : ∀ x, skipped (char x) = false

namespace Alphabet

/-- The alphabet of the 64 characters of `l`, in this order. -/
def ofList {κ : Type} [DecidableEq κ] (l : List κ) (hlen : l.length = 64) (hnodup : l.Nodup)
    (skipped : κ → Bool) (hskipped : ∀ c ∈ l, skipped c = false) : Alphabet κ where
  char x := l.get (x.cast hlen.symm)
  value c := if h : l.idxOf c < 64 then some ⟨l.idxOf c, h⟩ else none
  skipped := skipped
  value_char x := by
    have hidx : l.idxOf (l.get (x.cast hlen.symm)) = x.val :=
      hnodup.idxOf_getElem x.val (by rw [hlen]; exact x.isLt)
    simp only [hidx, x.isLt, dite_true]
  char_value c x h := by
    split_ifs at h with hlt
    cases h
    exact List.getElem_idxOf (by rw [hlen]; exact hlt)
  skipped_char x := hskipped _ (List.get_mem _ _)

variable {κ : Type} (A : Alphabet κ)

def encodeToString (bytes : List UInt8) : List κ := (toSextets bytes).map A.char

/-- The values of the characters of `s`, without the skipped ones. -/
def values : List κ → Option (List Sextet)
  | [] => some []
  | c :: s =>
    match A.value c with
    | some x => (values s).map (x :: ·)
    | none => if A.skipped c then values s else none

def decodeString (s : List κ) : Option (List UInt8) := (A.values s).bind ofSextets

/-- A string as the encoder writes them: no skipped character, and no stray bits at the end. -/
structure Canonical (s : List κ) : Prop where
  whole : ∀ c ∈ s, A.skipped c = false
  unused : ∀ l, A.values s = some l → UnusedZero l

variable {A}

theorem values_map_char (l : List Sextet) : A.values (l.map A.char) = some l := by
  induction l with
  | nil => rfl
  | cons x l ih => simp only [List.map_cons, values, A.value_char, ih, Option.map_some]

theorem map_char_values {s : List κ} {l : List Sextet} (hs : ∀ c ∈ s, A.skipped c = false)
    (h : A.values s = some l) : l.map A.char = s := by
  induction s generalizing l with
  | nil => cases h; rfl
  | cons c s ih =>
    have hc := hs c List.mem_cons_self
    rw [values] at h
    cases hv : A.value c with
    | none => simp [hv, hc] at h
    | some x =>
      simp only [hv, Option.map_eq_some_iff] at h
      obtain ⟨tail, ht, rfl⟩ := h
      rw [List.map_cons, A.char_value c x hv,
        ih (fun d hd => hs d (List.mem_cons_of_mem _ hd)) ht]

/-- **Decoding inverts encoding.** -/
theorem decodeString_encodeToString (bytes : List UInt8) :
    A.decodeString (A.encodeToString bytes) = some bytes := by
  rw [decodeString, encodeToString, values_map_char, Option.bind_some, ofSextets_toSextets]

theorem canonical_encodeToString (bytes : List UInt8) : A.Canonical (A.encodeToString bytes) where
  whole := by
    intro c hc
    obtain ⟨x, -, rfl⟩ := List.mem_map.mp hc
    exact A.skipped_char x
  unused := by
    intro l hl
    rw [encodeToString, values_map_char] at hl
    cases hl
    exact unusedZero_toSextets bytes

/-- **Encoding inverts decoding exactly on the canonical strings.** -/
theorem encodeToString_decodeString_iff {s : List κ} {bytes : List UInt8}
    (h : A.decodeString s = some bytes) : A.encodeToString bytes = s ↔ A.Canonical s := by
  constructor
  · intro he
    rw [← he]
    exact canonical_encodeToString bytes
  · intro hs
    obtain ⟨l, hl, hb⟩ := Option.bind_eq_some_iff.mp h
    rw [encodeToString, (toSextets_ofSextets_iff hb).mpr (hs.unused l hl)]
    exact map_char_values hs.whole hl

end Alphabet

end Loon.Base64
