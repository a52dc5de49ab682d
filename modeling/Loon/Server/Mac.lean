import Mathlib.Data.List.TakeWhile
import Loon.Lib.Trim
import Loon.Server.Config
import Loon.Server.Encoding

set_option autoImplicit false

/-!
# Requests and their MAC

`clientImpl.Request` normalises a path in two steps, slashes and then white space, and `ComputeMac`
drops slashes once more. Paths are Go strings, that is byte strings: a white space character is its
UTF-8 sequence. The HMAC is a parameter.

* `head_normalize_iff`: which paths are normalised to one with a leading slash, in terms of the path
  (`SlashBehindSpace`);
* **`mac_binds_path_iff`**: for the other paths, and only for them, the MAC is the one of the path
  that is forwarded; two accepted calls with one MAC then forward the same path.
-/

namespace Loon

open Trim

/-- '/' -/
def slash : UInt8 := 47

/-- The code points that `unicode.IsSpace` holds of. -/
def whiteSpace : List ℕ :=
  [0x09, 0x0A, 0x0B, 0x0C, 0x0D, 0x20, 0x85, 0xA0, 0x1680, 0x2000, 0x2001, 0x2002, 0x2003, 0x2004,
    0x2005, 0x2006, 0x2007, 0x2008, 0x2009, 0x200A, 0x2028, 0x2029, 0x202F, 0x205F, 0x3000]

/-- The white space characters, in UTF-8. -/
def spaceWords : List Bytes := whiteSpace.map fun n => String.utf8EncodeChar (Char.ofNat n)

/-- `strings.TrimLeft` with a cutset of one byte. -/
def trimLeftByte (s : Bytes) (c : UInt8) : Bytes := s.dropWhile (· = c)

/-- `strings.TrimSpace`. -/
def trimSpace (s : Bytes) : Bytes := trim spaceWords s

def macPathPrefix : Bytes := [slash]

/-- What a client connection authenticates with. -/
structure Identity where
  id : UUID
  secret : Bytes

def Identity.idStr (c : Identity) : Bytes := c.id.urlEncode

/-- The bytes of a text. -/
def textBytes (text : String) : Bytes := text.toUTF8.toList

/-- `strings.TrimSuffix` with a slash. -/
def trimSuffixSlash (s : Bytes) : Bytes := if s.getLast? = some slash then s.dropLast else s

structure Hello where
  constraints : ProtocolConstraints
  clientId : Bytes
  connectionSecret : Bytes
  baseUrl : Bytes

/-- The message that `NewClient` queues. -/
def Identity.hello (c : Identity) (options : ProtocolOptions) : Hello where
  constraints := options.constraints
  clientId := c.idStr
  connectionSecret := c.secret
  baseUrl := trimSuffixSlash (textBytes options.baseUrl)

inductive RequestError where
  | badMac
  | clientClosed
  deriving DecidableEq, Repr

section Request

-- HMAC-SHA256 of a key and a message.
variable (hmac : Bytes → Bytes → MAC)

/-- Writing to a hash does not fail. -/
def computeMac (clientId path clientSecret : Bytes) : MAC :=
  hmac clientSecret (clientId ++ macPathPrefix ++ trimLeftByte path slash)

/-- The path under which `Request` looks for content. -/
def normalize (path : Bytes) : Bytes := trimSpace (trimLeftByte path slash)

/-- `clientImpl.Request` up to the hand-over of the path to the protocol loop, which either takes it
(`taken`) or has seen `done`. -/
def Identity.request (c : Identity) (path : Bytes) (mac : MAC) (taken : Bool) :
    Except RequestError Bytes :=
  let path := normalize path
  let computedMac := computeMac hmac c.idStr path c.secret
  if mac ≠ computedMac then .error .badMac
  else if taken then .ok path
  else .error .clientClosed

end Request

/-! ## The normalised path -/

/-- Slashes, then at least one white space character, then a slash. -/
def SlashBehindSpace (p : Bytes) : Prop :=
  ∃ (n : ℕ) (ws : List Bytes) (rest : Bytes), ws ≠ [] ∧ (∀ w ∈ ws, w ∈ spaceWords) ∧
    p = List.replicate n slash ++ ws.flatten ++ slash :: rest

theorem nil_notMem_spaceWords : [] ∉ spaceWords := by decide +kernel

theorem prefixFree_spaceWords : PrefixFree spaceWords := by decide +kernel

theorem slash_notMem_spaceWords : ∀ w ∈ spaceWords, slash ∉ w := by decide +kernel

theorem not_startsWith_slash (rest : Bytes) : ¬ StartsWith spaceWords (slash :: rest) := by
  rintro ⟨w, hw, hp⟩
  cases w with
  | nil => exact nil_notMem_spaceWords hw
  | cons a w =>
    rw [List.cons_prefix_cons] at hp
    exact slash_notMem_spaceWords _ hw (by rw [hp.1]; exact List.mem_cons_self)

theorem trimLeftByte_replicate (n : ℕ) (c : UInt8) (s : Bytes) :
    trimLeftByte (List.replicate n c ++ s) c = trimLeftByte s c := by
  induction n with
  | zero => rfl
  | succ n ih =>
    rw [List.replicate_succ, List.cons_append, trimLeftByte, List.dropWhile_cons_of_pos (by simp)]
    exact ih

theorem trimLeftByte_of_head {s : Bytes} {c : UInt8} (h : s.head? ≠ some c) :
    trimLeftByte s c = s := by
  cases s with
  | nil => rfl
  | cons a s =>
    have ha : a ≠ c := fun hac => h (by rw [hac]; rfl)
    exact List.dropWhile_cons_of_neg (by simpa using ha)

theorem head_trimLeftByte (s : Bytes) (c : UInt8) : (trimLeftByte s c).head? ≠ some c := by
  intro h
  have hnot := List.head?_dropWhile_not (· = c) s
  rw [trimLeftByte] at h
  simp [h] at hnot

/-- The slashes that were dropped. -/
theorem exists_replicate (s : Bytes) (c : UInt8) :
    ∃ n, s = List.replicate n c ++ trimLeftByte s c := by
  refine ⟨(s.takeWhile (· = c)).length, ?_⟩
  have htake : s.takeWhile (· = c) = List.replicate (s.takeWhile (· = c)).length c := by
    rw [List.eq_replicate_iff]
    exact ⟨rfl, fun b hb => by simpa using List.mem_takeWhile_imp hb⟩
  calc s = s.takeWhile (· = c) ++ s.dropWhile (· = c) := List.takeWhile_append_dropWhile.symm
    _ = List.replicate (s.takeWhile (· = c)).length c ++ trimLeftByte s c := by
      rw [← htake]
      rfl

/-- **Which paths keep a leading slash.** -/
theorem head_normalize_iff (p : Bytes) :
    (normalize p).head? = some slash ↔ SlashBehindSpace p := by
  rw [normalize, trimSpace, head_trim_iff nil_notMem_spaceWords slash_notMem_spaceWords]
  constructor
  · intro h
    obtain ⟨n, hn⟩ := exists_replicate p slash
    obtain ⟨ws, hws, he, -⟩ := trimLeft_spec nil_notMem_spaceWords (trimLeftByte p slash)
    obtain ⟨rest, hrest⟩ := List.head?_eq_some_iff.mp h
    rw [hrest] at he
    refine ⟨n, ws, rest, ?_, hws, ?_⟩
    · rintro rfl
      -- without white space in between the slash would have been dropped
      refine head_trimLeftByte p slash ?_
      rw [he]
      rfl
    · rw [List.append_assoc, ← he]
      exact hn
  · rintro ⟨n, ws, rest, hne, hws, rfl⟩
    have hhead : (ws.flatten ++ slash :: rest).head? ≠ some slash := by
      intro h
      obtain ⟨tail, ht⟩ := List.head?_eq_some_iff.mp h
      have hs := startsWith_flatten (s := slash :: rest) hws hne
      rw [ht] at hs
      exact not_startsWith_slash tail hs
    rw [List.append_assoc, trimLeftByte_replicate, trimLeftByte_of_head hhead,
      trimLeft_append nil_notMem_spaceWords prefixFree_spaceWords hws (not_startsWith_slash rest)]
    rfl

/-! ## What a MAC authenticates -/

section Binding

variable {hmac : Bytes → Bytes → MAC} {c : Identity}

theorem request_eq_ok {p : Bytes} {mac : MAC} {taken : Bool} {s : Bytes} :
    c.request hmac p mac taken = .ok s ↔
      mac = computeMac hmac c.idStr (normalize p) c.secret ∧ taken = true ∧ normalize p = s := by
  unfold Identity.request
  by_cases hm : mac = computeMac hmac c.idStr (normalize p) c.secret
  · cases taken <;> simp [hm]
  · simp [hm]

/-- The MAC of a path without a leading slash is the one of the path itself. -/
theorem computeMac_of_head {s : Bytes} (h : s.head? ≠ some slash) :
    computeMac hmac c.idStr s c.secret = hmac c.secret (c.idStr ++ slash :: s) := by
  rw [computeMac, trimLeftByte_of_head h, macPathPrefix, List.append_assoc]
  rfl

variable (hmac c) in
/-- What is forwarded for the path `p` has no leading slash and is what the MAC was made for. -/
def MacBinds (p : Bytes) : Prop :=
  ∀ mac taken s, c.request hmac p mac taken = .ok s →
    s.head? ≠ some slash ∧ mac = hmac c.secret (c.idStr ++ slash :: s)

theorem macBinds_iff (p : Bytes) : MacBinds hmac c p ↔ ¬ SlashBehindSpace p := by
  rw [← head_normalize_iff]
  constructor
  · intro h
    exact (h _ true (normalize p) (request_eq_ok.mpr ⟨rfl, rfl, rfl⟩)).1
  · intro h mac taken s hs
    obtain ⟨rfl, -, rfl⟩ := request_eq_ok.mp hs
    exact ⟨h, computeMac_of_head h⟩

/-- **The MAC binds the forwarded path** exactly for the paths that do not have a slash behind
leading white space; and if no two messages have the same HMAC, two such paths that are accepted
with one MAC are forwarded as the same path. -/
theorem mac_binds_path_iff (hinj : ∀ key, Function.Injective (hmac key)) (c : Identity) :
    (∀ p, MacBinds hmac c p ↔ ¬ SlashBehindSpace p) ∧
    (∀ p q mac taken taken' s t, ¬ SlashBehindSpace p → ¬ SlashBehindSpace q →
      c.request hmac p mac taken = .ok s → c.request hmac q mac taken' = .ok t → s = t) := by
  refine ⟨macBinds_iff, ?_⟩
  intro p q mac taken taken' s t hp hq hs ht
  have h1 := (macBinds_iff p).mpr hp mac taken s hs
  have h2 := (macBinds_iff q).mpr hq mac taken' t ht
  have heq : c.idStr ++ slash :: s = c.idStr ++ slash :: t := hinj c.secret (h1.2.symm.trans h2.2)
  exact List.cons_injective (List.append_cancel_left heq)

end Binding

/-- A keyed function without collisions, in the place of the HMAC. -/
def sampleHmac (key message : Bytes) : MAC := key ++ message

def sampleIdentity : Identity := ⟨zeroUUID, [1, 2, 3]⟩

/-- The MAC of the path "x". -/
def sampleMac : MAC := computeMac sampleHmac sampleIdentity.idStr [120] sampleIdentity.secret

theorem sampleHmac_injective (key : Bytes) : Function.Injective (sampleHmac key) :=
  fun _ _ h => List.append_cancel_left h

theorem not_slashBehindSpace_sample :
    ¬ SlashBehindSpace [slash, 120] ∧ ¬ SlashBehindSpace [32, 120] := by
  rw [← head_normalize_iff, ← head_normalize_iff]
  decide +kernel

/-- The paths "/x" and " x" are accepted with the MAC of "x". -/
theorem mac_binds_path_iff_sample :
    ∃ s t, sampleIdentity.request sampleHmac [slash, 120] sampleMac true = .ok s ∧
      sampleIdentity.request sampleHmac [32, 120] sampleMac true = .ok t ∧ s = t := by
  have hs : sampleIdentity.request sampleHmac [slash, 120] sampleMac true = .ok [120] := by
    decide +kernel
  have ht : sampleIdentity.request sampleHmac [32, 120] sampleMac true = .ok [120] := by
    decide +kernel
  exact ⟨_, _, hs, ht, (mac_binds_path_iff sampleHmac_injective sampleIdentity).2 _ _ _ _ _ _ _
    not_slashBehindSpace_sample.1 not_slashBehindSpace_sample.2 hs ht⟩

/-- The path " /x" is accepted with the MAC of "x" and forwarded as "/x". -/
theorem mac_of_another_path_accepted :
    sampleIdentity.request sampleHmac [32, slash, 120] sampleMac true = .ok [slash, 120] ∧
    sampleIdentity.request sampleHmac [120] sampleMac true = .ok [120] ∧
    sampleMac ≠ sampleHmac sampleIdentity.secret (sampleIdentity.idStr ++ slash :: [slash, 120]) ∧
    ¬ MacBinds sampleHmac sampleIdentity [32, slash, 120] := by
  refine ⟨by decide +kernel, by decide +kernel, by decide +kernel, ?_⟩
  rw [macBinds_iff, not_not, ← head_normalize_iff]
  decide +kernel

end Loon
