import Mathlib.Algebra.Order.Ring.Nat
import Mathlib.Tactic.Common

set_option autoImplicit false

/-!
# The length of protocol buffers

The wire format of protocol buffers, as far as integers, byte strings and messages go: a field is a
tag, which holds its number and its wire type, and a value. Scalars that are zero are left out.

* `varint`: seven bits a byte, the lowest first;
* `varintField`, `lengthField`: fields that are set; `uint64Field`, `bytesField`: fields with a
  default;
* **`length_varint_le`**: a number below `2 ^ (7 * k)` takes at most `k` bytes, and so do fields.
-/

namespace Loon.Protobuf

/-- All bytes but the last have their highest bit set. -/
def varint (n : ℕ) : List UInt8 :=
  if n < 128 then [n.toUInt8] else (n % 128 + 128).toUInt8 :: varint (n / 128)
termination_by n

/-- The tag of a field; the wire type is 0 for a varint and 2 for what has a length. -/
def tag (field wireType : ℕ) : List UInt8 := varint (field * 8 + wireType)

/-- A field that holds a number. -/
def varintField (field n : ℕ) : List UInt8 := tag field 0 ++ varint n

/-- A field with a length in front: text, bytes or a message. -/
def lengthField (field : ℕ) (payload : List UInt8) : List UInt8 :=
  tag field 2 ++ varint payload.length ++ payload

def uint64Field (field : ℕ) (n : UInt64) : List UInt8 :=
  if n = 0 then [] else varintField field n.toNat

def bytesField (field : ℕ) (payload : List UInt8) : List UInt8 :=
  if payload = [] then [] else lengthField field payload

variable {n k field : ℕ}

/-- **The length of a varint**, by induction on the groups of seven bits. -/
theorem length_varint_le (h : n < 2 ^ (7 * (k + 1))) : (varint n).length ≤ k + 1 := by
  induction k generalizing n with
  | zero =>
    rw [varint, if_pos (by simpa using h)]
    simp
  | succ k ih =>
    rw [varint]
    split
    · simp
    · have hpow : 2 ^ (7 * (k + 1 + 1)) = 2 ^ (7 * (k + 1)) * 128 := by
        rw [Nat.mul_succ 7 (k + 1), Nat.pow_add]
      have hle := ih (n := n / 128) (by omega)
      rw [List.length_cons]
      omega

/-- A number of 64 bits takes at most ten bytes. -/
theorem length_varint_le_ten (h : n < 2 ^ 64) : (varint n).length ≤ 10 :=
  length_varint_le (k := 9) (Nat.lt_of_lt_of_le h (by decide))

/-- The fields up to 15 have a tag of one byte. -/
theorem length_tag {wireType : ℕ} (hf : field < 16) (hw : wireType < 8) :
    (tag field wireType).length = 1 := by
  rw [tag, varint, if_pos (by omega)]
  rfl

theorem length_uint64Field_le (hf : field < 16) (n : UInt64) : (uint64Field field n).length ≤ 11 := by
  have hn := length_varint_le_ten n.toNat_lt
  unfold uint64Field
  split
  · simp
  · rw [varintField, List.length_append, length_tag hf (by decide)]
    omega

theorem length_lengthField (hf : field < 16) (payload : List UInt8) :
    (lengthField field payload).length = 1 + (varint payload.length).length + payload.length := by
  rw [lengthField, List.length_append, List.length_append, length_tag hf (by decide)]

theorem length_lengthField_le (hf : field < 16) {payload : List UInt8} (h : payload.length < 2 ^ 64) :
    (lengthField field payload).length ≤ payload.length + 11 := by
  have hn := length_varint_le_ten h
  rw [length_lengthField hf]
  omega

theorem length_lt_lengthField (hf : field < 16) (payload : List UInt8) :
    payload.length < (lengthField field payload).length := by
  rw [length_lengthField hf]
  omega

theorem length_bytesField_le (hf : field < 16) {payload : List UInt8} (h : payload.length < 2 ^ 64) :
    (bytesField field payload).length ≤ payload.length + 11 := by
  unfold bytesField
  split
  · simp
  · exact length_lengthField_le hf h

theorem length_le_bytesField (hf : field < 16) (payload : List UInt8) :
    payload.length ≤ (bytesField field payload).length := by
  unfold bytesField
  split
  · rename_i h
    subst h
    exact Nat.le_refl _
  · exact Nat.le_of_lt (length_lt_lengthField hf payload)

/-- A varint of two bytes. -/
example : varint 300 = [0xac, 0x02] := by decide +kernel

end Loon.Protobuf
