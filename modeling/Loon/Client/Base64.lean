import Loon.Client.Url

set_option autoImplicit false

/-!
# The base64 encoder of the C++ client

`base64_encode` as it is written: a table per variant, a loop over groups of three bytes with an `int`
for an index into data whose length is a `size_t`, and a tail of one or two bytes. A read beyond the
end of the data or of the table has no result.

* `base64Encode`: the encoder, for all three variants;
* **`base64Encode_eq`**: up to 2^31 bytes it writes the sextets of the data in the characters of its
  table, and the padding of its variant;
* **`encode_url_unpadded_decodes`**: the server decodes what the client writes in a URL.
-/

namespace Loon.Base64.Detail

/-! ## The encoder -/

inductive Base64Variant where
  | standard
  | url
  | urlUnpadded
  deriving DecidableEq, Repr

/-- `BASE64_ALPHABET_VARIANT`. -/
def alphabetVariant (c63_64 : String) : Bytes :=
  textBytes ("ABCDEFGHIJKLMNOPQRSTUVWXYZabcdefghijklmnopqrstuvwxyz0123456789" ++ c63_64)

def standardTab : Bytes := alphabetVariant "+/"

def urlTab : Bytes := alphabetVariant "-_"

/-- The switch: `tab` and `unpadded`. -/
def Base64Variant.select : Base64Variant → Bytes × Bool
  | .standard => (standardTab, false)
  -- the case sets `unpadded` and falls through to the one of `Url`
  | .urlUnpadded => (urlTab, true)
  | .url => (urlTab, false)

/-- `data[i]`. -/
def get (data : Bytes) (i : Int32) : Option UInt8 :=
  if 0 ≤ i then data[i.toNatClampNeg]? else none

/-- `out += tab[i]`. -/
def put (tab out : Bytes) (i : ℕ) : Option Bytes := tab[i]?.map fun c => out ++ [c]

/-- `length - i`, for which `i` becomes a `size_t`. -/
def remaining (length : UInt64) (i : Int32) : UInt64 := length - i.toInt64.toUInt64

/-- The character of the padding. -/
def pad : UInt8 := 61

/-- The loop over groups of three bytes, for a number of rounds. Operators work on `int`, where a byte
and what the masks leave of it cannot overflow. -/
def groups (tab data : Bytes) (length : UInt64) : ℕ → Int32 → Bytes → Option (Int32 × Bytes)
  | 0, _, _ => none
  | rounds + 1, i, out =>
    if remaining length i ≥ 3 then do
      let d0 ← get data i
      let d1 ← get data (i + 1)
      let d2 ← get data (i + 2)
      let out ← put tab out (d0.toNat >>> 2)
      let out ← put tab out ((d0.toNat &&& 3) <<< 4 ||| d1.toNat >>> 4)
      let out ← put tab out ((d1.toNat &&& 0x0F) <<< 2 ||| d2.toNat >>> 6)
      let out ← put tab out (d2.toNat &&& 0x3F)
      groups tab data length rounds (i + 3) out
    else some (i, out)

/-- The end of the encoder, from `int left` on. -/
def finish (tab : Bytes) (unpadded : Bool) (data : Bytes) (length : UInt64) (i : Int32) (out : Bytes) :
    Option Bytes :=
  let left := (remaining length i).toInt64.toInt32
  if left ≠ 0 then do
    let d0 ← get data i
    let out ← put tab out (d0.toNat >>> 2)
    let out ←
      if left = 1 then do
        let out ← put tab out ((d0.toNat &&& 3) <<< 4)
        some (if !unpadded then out ++ [pad] else out)
      else do
        let d1 ← get data (i + 1)
        let out ← put tab out ((d0.toNat &&& 3) <<< 4 ||| d1.toNat >>> 4)
        put tab out ((d1.toNat &&& 0x0F) <<< 2)
    some (if !unpadded then out ++ [pad] else out)
  else some out

/-- `base64::detail::base64_encode`. The loop has a round for every byte, which is more than it takes
while the index does not overflow. -/
def base64Encode (data : Bytes) (length : UInt64) (variant : Base64Variant) : Option Bytes :=
  let (tab, unpadded) := variant.select
  (groups tab data length (data.length + 1) 0 []).bind fun (i, out) =>
    finish tab unpadded data length i out

/-- `base64::encode_url_unpadded`. -/
def encodeUrlUnpadded (data : Bytes) : Option Bytes :=
  base64Encode data (.ofNat data.length) .urlUnpadded

/-! ## Indices -/

variable {pre rest out : Bytes} {a b c : UInt8} {n : ℕ}

theorem get_ofNat {data : Bytes} (h : n < 2 ^ 31) : get data (Int32.ofNat n) = data[n]? := by
  have hi : (Int32.ofNat n).toInt = n := Int32.toInt_ofNat_of_lt h
  have h0 : 0 ≤ Int32.ofNat n := by
    rw [Int32.le_iff_toInt_le, hi]
    exact Int.natCast_nonneg _
  rw [get, if_pos h0, Int32.toNatClampNeg, hi, Int.toNat_natCast]

/-- What is read behind the first bytes. -/
theorem get_add {k : ℕ} (h : pre.length + k < 2 ^ 31) :
    get (pre ++ rest) (Int32.ofNat pre.length + Int32.ofNat k) = rest[k]? := by
  rw [← Int32.ofNat_add, get_ofNat h, List.getElem?_append_right (Nat.le_add_right _ _),
    Nat.add_sub_cancel_left]

theorem get_eq (h : pre.length < 2 ^ 31) :
    get (pre ++ rest) (Int32.ofNat pre.length) = rest[0]? := by
  rw [get_ofNat h, List.getElem?_append_right (Nat.le_refl _), Nat.sub_self]

/-- Below 2^31 bytes the difference is the number of bytes that are left. -/
theorem remaining_eq (h : (pre ++ rest).length < 2 ^ 31) :
    remaining (.ofNat (pre ++ rest).length) (Int32.ofNat pre.length) = .ofNat rest.length := by
  rw [List.length_append] at h ⊢
  have hi : (Int32.ofNat pre.length).toInt64.toUInt64 = .ofNat pre.length := by
    rw [Int32.toInt64_ofNat' (by rw [Int32.toInt_maxValue]; omega), Int64.toUInt64_ofNat']
  rw [remaining, hi, UInt64.ofNat_add, UInt64.add_comm, UInt64.add_sub_cancel]

theorem three_le_remaining (h : (pre ++ rest).length < 2 ^ 31) :
    remaining (.ofNat (pre ++ rest).length) (Int32.ofNat pre.length) ≥ 3 ↔ 3 ≤ rest.length := by
  have hn : (UInt64.ofNat rest.length).toNat = rest.length := by
    rw [List.length_append] at h
    exact Nat.mod_eq_of_lt (by omega)
  rw [remaining_eq h, ge_iff_le, UInt64.le_iff_toNat_le, hn]
  rfl

/-- The loop stops in front of the tail. -/
theorem groups_stop {tab : Bytes} {rounds : ℕ} (h : (pre ++ rest).length < 2 ^ 31)
    (hrest : rest.length < 3) :
    groups tab (pre ++ rest) (.ofNat (pre ++ rest).length) (rounds + 1) (Int32.ofNat pre.length) out =
      some (Int32.ofNat pre.length, out) := by
  rw [groups, if_neg ((three_le_remaining h).not.mpr (Nat.not_le_of_lt hrest))]

/-- The padding after `n` bytes. -/
def padding (n : ℕ) : Bytes := List.replicate ((3 - n % 3) % 3) pad

theorem padding_add_three (n : ℕ) : padding (n + 3) = padding n := by
  rw [padding, padding, Nat.add_mod_right]

/-! ## Characters -/

section Table

variable {tab : Bytes} {char : Sextet → UInt8} (htab : ∀ x : Sextet, tab[x.val]? = some (char x))

include htab

theorem put_eq (h : n < 64) : put tab out n = some (out ++ [char (sextet n)]) := by
  have hx := htab (sextet n)
  rw [val_sextet h] at hx
  rw [put, hx, Option.map_some]

/-- The first six bits of a byte. -/
theorem put_first : put tab out (a.toNat >>> 2) = some (out ++ [char (sextet (a.toNat / 4))]) := by
  have ha := a.toNat_lt
  rw [Nat.shiftRight_eq_div_pow]
  exact put_eq htab (by omega)

theorem put_second : put tab out ((a.toNat &&& 3) <<< 4 ||| b.toNat >>> 4) =
    some (out ++ [char (sextet (a.toNat % 4 * 16 + b.toNat / 16))]) := by
  have hb := b.toNat_lt
  rw [Nat.shiftRight_eq_div_pow, or_shiftLeft _ _ _ (by omega), Nat.and_two_pow_sub_one_eq_mod _ 2]
  exact put_eq htab (by omega)

theorem put_third : put tab out ((b.toNat &&& 0x0F) <<< 2 ||| c.toNat >>> 6) =
    some (out ++ [char (sextet (b.toNat % 16 * 4 + c.toNat / 64))]) := by
  have hc := c.toNat_lt
  rw [Nat.shiftRight_eq_div_pow, or_shiftLeft _ _ _ (by omega), Nat.and_two_pow_sub_one_eq_mod _ 4]
  exact put_eq htab (by omega)

theorem put_fourth : put tab out (c.toNat &&& 0x3F) =
    some (out ++ [char (sextet (c.toNat % 64))]) := by
  rw [Nat.and_two_pow_sub_one_eq_mod _ 6]
  exact put_eq htab (by omega)

/-- The last bits of the data, if one byte is left. -/
theorem put_second_last : put tab out ((a.toNat &&& 3) <<< 4) =
    some (out ++ [char (sextet (a.toNat % 4 * 16))]) := by
  rw [Nat.shiftLeft_eq, Nat.and_two_pow_sub_one_eq_mod _ 2]
  exact put_eq htab (by omega)

/-- The last bits of the data, if two bytes are left. -/
theorem put_third_last : put tab out ((b.toNat &&& 0x0F) <<< 2) =
    some (out ++ [char (sextet (b.toNat % 16 * 4))]) := by
  rw [Nat.shiftLeft_eq, Nat.and_two_pow_sub_one_eq_mod _ 4]
  exact put_eq htab (by omega)

/-- The tail of no byte, of one byte and of two. -/
theorem finish_eq (unpadded : Bool) (h : (pre ++ rest).length < 2 ^ 31) (hrest : rest.length < 3) :
    finish tab unpadded (pre ++ rest) (.ofNat (pre ++ rest).length) (Int32.ofNat pre.length) out =
      some (out ++ (toSextets rest).map char ++ if unpadded then [] else padding rest.length) := by
  have hrem := remaining_eq h
  rw [List.length_append] at h
  have h0 : get (pre ++ rest) (Int32.ofNat pre.length) = rest[0]? := get_eq (by omega)
  match rest, hrest with
  | [], _ =>
    have hleft : (UInt64.ofNat ([] : Bytes).length).toInt64.toInt32 = 0 := rfl
    rw [finish, hrem, hleft]
    cases unpadded <;> simp [toSextets, padding]
  | [a], _ =>
    have hleft : (UInt64.ofNat [a].length).toInt64.toInt32 = 1 := rfl
    rw [finish, hrem, hleft, h0]
    simp only [List.getElem?_cons_zero, bind, Option.bind_some, put_first htab, put_second_last htab]
    cases unpadded <;> simp [toSextets, padding, pad]
  | [a, b], _ =>
    have hleft : (UInt64.ofNat [a, b].length).toInt64.toInt32 = 2 := rfl
    have h1 : get (pre ++ [a, b]) (Int32.ofNat pre.length + 1) = some b :=
      get_add (k := 1) (Nat.lt_of_succ_lt h)
    rw [finish, hrem, hleft, h0, h1]
    simp only [List.getElem?_cons_zero, bind, Option.bind_some, put_first htab, put_second htab,
      put_third_last htab]
    cases unpadded <;> simp [toSextets, padding, pad]

/-- One round of the loop. -/
theorem groups_succ {rounds : ℕ} (h : (pre ++ a :: b :: c :: rest).length < 2 ^ 31) :
    groups tab (pre ++ a :: b :: c :: rest) (.ofNat (pre ++ a :: b :: c :: rest).length) (rounds + 1)
        (Int32.ofNat pre.length) out =
      groups tab (pre ++ a :: b :: c :: rest) (.ofNat (pre ++ a :: b :: c :: rest).length) rounds
        (Int32.ofNat (pre ++ [a, b, c]).length)
        (out ++ [char (sextet (a.toNat / 4)), char (sextet (a.toNat % 4 * 16 + b.toNat / 16)),
          char (sextet (b.toNat % 16 * 4 + c.toNat / 64)), char (sextet (c.toNat % 64))]) := by
  have hlen : pre.length + (rest.length + 3) < 2 ^ 31 := by
    rwa [List.length_append, List.length_cons, List.length_cons, List.length_cons] at h
  have hgo := (three_le_remaining h).mpr (Nat.le_add_left 3 rest.length)
  have h0 : get (pre ++ a :: b :: c :: rest) (Int32.ofNat pre.length) = some a :=
    get_eq (by omega)
  have h1 : get (pre ++ a :: b :: c :: rest) (Int32.ofNat pre.length + 1) = some b :=
    get_add (k := 1) (by omega)
  have h2 : get (pre ++ a :: b :: c :: rest) (Int32.ofNat pre.length + 2) = some c :=
    get_add (k := 2) (by omega)
  have hnext : Int32.ofNat pre.length + 3 = Int32.ofNat (pre ++ [a, b, c]).length := by
    rw [List.length_append, Int32.ofNat_add]
    rfl
  rw [groups, if_pos hgo, h0, h1, h2, hnext]
  simp only [bind, Option.bind_some, put_first htab, put_second htab, put_third htab,
    put_fourth htab, List.append_assoc, List.cons_append, List.nil_append]

/-- **The encoder from an index on**, by induction on the rounds of the loop. -/
theorem groups_finish (pre : Bytes) (unpadded : Bool) {rounds : ℕ} (hr : rest.length < rounds)
    (h : (pre ++ rest).length < 2 ^ 31) :
    ((groups tab (pre ++ rest) (.ofNat (pre ++ rest).length) rounds (Int32.ofNat pre.length) out).bind
      fun (i, out) => finish tab unpadded (pre ++ rest) (.ofNat (pre ++ rest).length) i out) =
      some (out ++ (toSextets rest).map char ++ if unpadded then [] else padding rest.length) := by
  induction rounds generalizing pre rest out with
  | zero => exact absurd hr (Nat.not_lt_zero _)
  | succ rounds ih =>
    by_cases hrest : rest.length < 3
    · rw [groups_stop h hrest]
      exact finish_eq htab unpadded h hrest
    · match rest, hrest with
      | [], hs | [_], hs | [_, _], hs => exact absurd (by simp) hs
      | a :: b :: c :: rest, _ =>
        have hsplit : pre ++ a :: b :: c :: rest = (pre ++ [a, b, c]) ++ rest := by simp
        rw [List.length_cons] at hr
        rw [groups_succ htab h, hsplit, ih _ (by simp at hr; omega) (hsplit ▸ h)]
        simp [toSextets, padding_add_three]

end Table

/-! ## The three variants -/

/-- The characters of the table of a variant. -/
def Base64Variant.char (variant : Base64Variant) (x : Sextet) : UInt8 := variant.select.1.getD x.val 0

theorem Base64Variant.select_char (variant : Base64Variant) (x : Sextet) :
    variant.select.1[x.val]? = some (variant.char x) := by
  have hlen : variant.select.1.length = 64 := by
    cases variant <;> decide +kernel
  have hx : x.val < variant.select.1.length := by omega
  rw [char, List.getD_eq_getElem?_getD, List.getElem?_eq_getElem hx, Option.getD_some]

/-- **What the encoder writes**, for data of less than 2^31 bytes. -/
theorem base64Encode_eq (data : Bytes) (h : data.length < 2 ^ 31) (variant : Base64Variant) :
    base64Encode data (.ofNat data.length) variant =
      some ((toSextets data).map variant.char ++
        if variant.select.2 then [] else padding data.length) :=
  groups_finish variant.select_char [] variant.select.2 (Nat.lt_succ_self _) h

/-- The standard variant pads. -/
example : base64Encode [1] 1 .standard = some (textBytes "AQ==") := by decide +kernel

theorem char_urlUnpadded (x : Sextet) : Base64Variant.urlUnpadded.char x = urlEncoding.char x := by
  revert x
  decide +kernel

/-- The encoder for URLs writes the groups of `make_url`. -/
theorem encodeUrlUnpadded_eq_some (data : Bytes) (h : data.length < 2 ^ 31) :
    encodeUrlUnpadded data = some (encodeGroups data) := by
  rw [encodeUrlUnpadded, base64Encode_eq data h, funext char_urlUnpadded, encodeGroups_eq]
  exact congrArg some (List.append_nil _)

/-- **The server decodes what the client encodes**: eight bits a byte at six bits a character, in
characters of the alphabet of the server, and without bits that a strict decoder would reject. -/
theorem encode_url_unpadded_decodes (b : Bytes) (h : b.length < 2 ^ 31) :
    ∃ s, encodeUrlUnpadded b = some s ∧ s.length = (8 * b.length + 5) / 6 ∧
      (∀ c ∈ s, c ∈ textBytes encodingAlphabet) ∧ CanonicalSegment s ∧ urlDecodeBytes s = .ok b := by
  have hwrites : encodeUrlUnpadded b = some (urlEncodeBytes b) := by
    rw [encodeUrlUnpadded_eq_some b h, encodeGroups_eq]
  refine ⟨urlEncodeBytes b, hwrites, ?_, ?_,
    Alphabet.canonical_encodeToString b, urlDecodeBytes_urlEncodeBytes b⟩
  · rw [urlEncodeBytes, Alphabet.encodeToString, List.length_map, length_toSextets]
  · intro c hc
    obtain ⟨x, -, rfl⟩ := List.mem_map.mp hc
    exact List.get_mem _ _

theorem encode_url_unpadded_decodes_three :
    ∃ s, encodeUrlUnpadded [255, 239, 3] = some s ∧ s.length = 4 ∧
      (∀ c ∈ s, c ∈ textBytes encodingAlphabet) ∧ CanonicalSegment s ∧
      urlDecodeBytes s = .ok [255, 239, 3] :=
  encode_url_unpadded_decodes [255, 239, 3] (by decide)

end Loon.Base64.Detail
