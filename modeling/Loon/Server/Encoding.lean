import Loon.Lib.Base64
import Loon.Server.Messages

set_option autoImplicit false

/-!
# The segments of a content URL

A client id and a MAC stand in a URL in base64 without padding. `base64.NewEncoding` makes a decoder
that skips carriage returns and line feeds and does not look at the unused bits of the last
character; only `Strict` would.

* **`url_segment_canonical_iff`**: a segment that is accepted is the one the server would write for
  the decoded bytes exactly if it has no line break and its unused bits are zero;
* **`url_segments_not_unique`**: three segments for one client id, and three for one MAC.
-/

namespace Loon

open Base64

def encodingAlphabet : String := "ABCDEFGHIJKLMNOPQRSTUVWXYZabcdefghijklmnopqrstuvwxyz0123456789-_"

/-- The characters that a decoder skips. -/
def isLineBreak (c : UInt8) : Bool := c = 10 || c = 13

/-- The decoder is not `Strict`. -/
def urlEncoding : Alphabet UInt8 :=
  .ofList encodingAlphabet.toUTF8.toList (by decide +kernel) (by decide +kernel) isLineBreak
    (by decide +kernel)

inductive DecodeError where
  /-- `base64.CorruptInputError`. -/
  | corruptInput
  | other (message : String)
  deriving DecidableEq, Repr

def urlEncodeBytes (data : Bytes) : Bytes := urlEncoding.encodeToString data

def urlDecodeBytes (data : Bytes) : Except DecodeError Bytes :=
  match urlEncoding.decodeString data with
  | some bytes => .ok bytes
  | none => .error .corruptInput

/-- The size of a UUID in bytes. -/
def uuidSize : ℕ := 16

structure UUID where
  bytes : Bytes
  length_eq : bytes.length = uuidSize
  deriving DecidableEq

def urlDecodeUUID (s : Bytes) : Except DecodeError UUID := do
  let decoded ← urlDecodeBytes s
  if h : decoded.length = uuidSize then .ok ⟨decoded, h⟩
  else .error (.other "the encoded string has an invalid length")

def UUID.urlEncode (uuid : UUID) : Bytes := urlEncodeBytes uuid.bytes

abbrev MAC := Bytes

def urlDecodeMAC (s : Bytes) : Except DecodeError MAC := urlDecodeBytes s

def MAC.urlEncode (mac : MAC) : Bytes := urlEncodeBytes mac

/-- A segment without line breaks, whose last character has no bit set that belongs to no byte. -/
abbrev CanonicalSegment (s : Bytes) : Prop := urlEncoding.Canonical s

theorem urlDecodeBytes_eq_ok {s b : Bytes} :
    urlDecodeBytes s = .ok b ↔ urlEncoding.decodeString s = some b := by
  unfold urlDecodeBytes
  cases urlEncoding.decodeString s <;> simp

theorem urlDecodeUUID_eq_ok {s : Bytes} {uuid : UUID} :
    urlDecodeUUID s = .ok uuid ↔ urlDecodeBytes s = .ok uuid.bytes := by
  unfold urlDecodeUUID
  cases h : urlDecodeBytes s with
  | error e => simp [bind, Except.bind]
  | ok decoded =>
    simp only [bind, Except.bind]
    constructor
    · intro he
      split_ifs at he with hlen
      cases he
      rfl
    · intro he
      cases he
      rw [dif_pos uuid.length_eq]

theorem urlDecodeBytes_urlEncodeBytes (b : Bytes) : urlDecodeBytes (urlEncodeBytes b) = .ok b :=
  urlDecodeBytes_eq_ok.mpr (Alphabet.decodeString_encodeToString b)

theorem urlEncodeBytes_eq_iff {s b : Bytes} (h : urlDecodeBytes s = .ok b) :
    urlEncodeBytes b = s ↔ CanonicalSegment s :=
  Alphabet.encodeToString_decodeString_iff (urlDecodeBytes_eq_ok.mp h)

theorem urlDecodeUUID_urlEncode (uuid : UUID) : urlDecodeUUID uuid.urlEncode = .ok uuid :=
  urlDecodeUUID_eq_ok.mpr (urlDecodeBytes_urlEncodeBytes uuid.bytes)

/-- **When a segment is canonical.** Decoding inverts encoding. Among the accepted segments encoding
inverts decoding at exactly the canonical ones, so that a client id has one canonical segment, and a
MAC has one. -/
theorem url_segment_canonical_iff (s b : Bytes) (uuid : UUID) (mac : MAC) :
    urlDecodeBytes (urlEncodeBytes b) = .ok b ∧
    (urlDecodeBytes s = .ok b → (urlEncodeBytes b = s ↔ CanonicalSegment s)) ∧
    (urlDecodeUUID s = .ok uuid ∧ CanonicalSegment s ↔ s = uuid.urlEncode) ∧
    (urlDecodeMAC s = .ok mac ∧ CanonicalSegment s ↔ s = mac.urlEncode) := by
  refine ⟨urlDecodeBytes_urlEncodeBytes b, urlEncodeBytes_eq_iff, ?_, ?_⟩
  · constructor
    · rintro ⟨h, hs⟩
      exact ((urlEncodeBytes_eq_iff (urlDecodeUUID_eq_ok.mp h)).mpr hs).symm
    · rintro rfl
      exact ⟨urlDecodeUUID_urlEncode uuid, Alphabet.canonical_encodeToString uuid.bytes⟩
  · constructor
    · rintro ⟨h, hs⟩
      exact ((urlEncodeBytes_eq_iff h).mpr hs).symm
    · rintro rfl
      exact ⟨urlDecodeBytes_urlEncodeBytes mac, Alphabet.canonical_encodeToString mac⟩

/-- The client id of sixteen zero bytes. -/
def zeroUUID : UUID := ⟨List.replicate 16 0, rfl⟩

theorem url_segment_canonical_iff_zeroUUID :
    urlEncodeBytes zeroUUID.bytes = List.replicate 22 65 ∧
      CanonicalSegment (List.replicate 22 65) := by
  have hdec : urlDecodeBytes (List.replicate 22 65) = .ok zeroUUID.bytes := by decide +kernel
  have henc : urlEncodeBytes zeroUUID.bytes = List.replicate 22 65 := by decide +kernel
  exact ⟨henc, ((url_segment_canonical_iff _ _ zeroUUID []).2.1 hdec).mp henc⟩

/-- `AAAAAAAAAAAAAAAAAAAAAB` and `AAAAAAAAAAAAAAAAAAAAAA` with a line feed are accepted as the
client id that is written `AAAAAAAAAAAAAAAAAAAAAA`, and a MAC has as many further segments. -/
theorem url_segments_not_unique :
    zeroUUID.urlEncode = List.replicate 22 65 ∧
    urlDecodeUUID (List.replicate 21 65 ++ [66]) = .ok zeroUUID ∧
    urlDecodeUUID (List.replicate 22 65 ++ [10]) = .ok zeroUUID ∧
    urlEncodeBytes zeroUUID.bytes ≠ List.replicate 21 65 ++ [66] ∧
    urlEncodeBytes zeroUUID.bytes ≠ List.replicate 22 65 ++ [10] ∧
    urlDecodeMAC (List.replicate 42 65 ++ [66]) = .ok (List.replicate 32 0) ∧
    urlDecodeMAC (List.replicate 43 65 ++ [10]) = .ok (List.replicate 32 0) ∧
    urlEncodeBytes (List.replicate 32 0) = List.replicate 43 65 := by
  decide +kernel

end Loon
