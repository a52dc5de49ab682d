import Mathlib.Data.List.Infix
import Loon.Server.Mac

set_option autoImplicit false

/-!
# Content URLs

The URL of a content as the C++ client (`makeUrl`) and the Go client (`buildUrl`) write it, against
the server that resolves it. The C++ client signs the path as it is, the Go client signs it without
its leading slashes, and the server normalises the path it received before it signs it.

* `encodeGroups_eq`: the groups of three bytes that the C++ client encodes are segments in the
  server's alphabet;
* `normalize_eq_self_iff`: which paths the server does not change;
* **`generated_url_resolves_iff`**: the URL of a path leads to a request for this path exactly if
  the path is text without a leading slash and without white space at its ends.
-/

namespace Loon

open Base64 Trim

/-- The parts of a URL, after each other with a slash in between. -/
structure ContentUrl where
  baseUrl : Bytes
  clientId : Bytes
  mac : Bytes
  path : Bytes

/-! ## The C++ client -/

/-- A character of the URL-safe table; the index is below 64. -/
def urlTab (i : ℕ) : UInt8 := urlEncoding.char (sextet i)

/-- What `base64::encode_url_unpadded` writes, group by group. It does so with a loop over an `int`,
which is `Base64.Detail.encodeUrlUnpadded`. -/
def encodeGroups : Bytes → Bytes
  | d0 :: d1 :: d2 :: rest =>
    urlTab (d0.toNat >>> 2) :: urlTab ((d0.toNat &&& 3) <<< 4 ||| d1.toNat >>> 4) ::
      urlTab ((d1.toNat &&& 0x0F) <<< 2 ||| d2.toNat >>> 6) :: urlTab (d2.toNat &&& 0x3F) ::
      encodeGroups rest
  | [d0, d1] =>
    [urlTab (d0.toNat >>> 2), urlTab ((d0.toNat &&& 3) <<< 4 ||| d1.toNat >>> 4),
      urlTab ((d1.toNat &&& 0x0F) <<< 2)]
  | [d0] => [urlTab (d0.toNat >>> 2), urlTab ((d0.toNat &&& 3) <<< 4)]
  | [] => []

section Urls

-- HMAC-SHA256 of a key and a message, the same function on both sides.
variable (hmac : Bytes → Bytes → MAC)

/-- `ClientImpl::make_url`. -/
def makeUrl (hello : Hello) (path : Bytes) : ContentUrl where
  baseUrl := hello.baseUrl
  clientId := hello.clientId
  mac := encodeGroups (hmac hello.connectionSecret (hello.clientId ++ [slash] ++ path))
  path := path

/-! ## The Go client -/

/-- The bytes that `url.PathEscape` leaves as they are. -/
def isUnreserved (c : UInt8) : Bool :=
  (97 ≤ c && c ≤ 122) || (65 ≤ c && c ≤ 90) || (48 ≤ c && c ≤ 57) ||
    "-_.~$&+:=@".toUTF8.toList.contains c

/-- A digit of an escaped byte. -/
def hexDigit (n : ℕ) : UInt8 := "0123456789ABCDEF".toUTF8.toList.getD n 0

/-- `url.PathEscape`. -/
def pathEscape (s : Bytes) : Bytes :=
  s.flatMap fun c =>
    if isUnreserved c then [c] else [37, hexDigit (c.toNat / 16), hexDigit (c.toNat % 16)]

/-- `clientImpl.buildUrl` of the Go client. -/
def buildUrl (hello : Hello) (path : Bytes) : ContentUrl where
  baseUrl := hello.baseUrl
  clientId := hello.clientId
  mac := MAC.urlEncode (computeMac hmac hello.clientId path hello.connectionSecret)
  path := pathEscape path

/-! ## Resolving a URL -/

/-- The server, given the segments of `url` and the path `p`, finds the client and forwards a request
for exactly `p`; the path of a `Request` message is text. -/
def Resolves (c : Identity) (url : ContentUrl) (p : Bytes) : Prop :=
  urlDecodeUUID url.clientId = .ok c.id ∧
    ∃ (mac : MAC) (path : String), urlDecodeMAC url.mac = .ok mac ∧
      c.request hmac p mac true = .ok (textBytes path) ∧ textBytes path = p

end Urls

/-- A path that the server leaves as it is: text, without a leading slash and without white space at
its ends. -/
structure Resolvable (p : Bytes) : Prop where
  text : ∃ path : String, textBytes path = p
  slash : p.head? ≠ some slash
  front : ¬ StartsWith spaceWords p
  back : ¬ EndsWith spaceWords p

/-! ## The two encoders -/

theorem or_shiftLeft (a b i : ℕ) (hb : b < 2 ^ i) : a <<< i ||| b = a * 2 ^ i + b := by
  rw [← Nat.shiftLeft_add_eq_or_of_lt hb, Nat.shiftLeft_eq]

theorem encodeGroups_eq (data : Bytes) : encodeGroups data = urlEncodeBytes data := by
  unfold urlEncodeBytes Alphabet.encodeToString
  fun_induction encodeGroups data with
  | case1 d0 d1 d2 rest ih =>
    have h1 := d1.toNat_lt
    have h2 := d2.toNat_lt
    rw [toSextets, ih]
    simp only [urlTab, List.map_cons, Nat.shiftRight_eq_div_pow]
    rw [or_shiftLeft _ _ _ (by omega), or_shiftLeft _ _ _ (by omega),
      Nat.and_two_pow_sub_one_eq_mod _ 2, Nat.and_two_pow_sub_one_eq_mod _ 4,
      Nat.and_two_pow_sub_one_eq_mod _ 6]
    simp only [Nat.reducePow]
  | case2 d0 d1 =>
    have h1 := d1.toNat_lt
    simp only [urlTab, toSextets, List.map_cons, List.map_nil, Nat.shiftRight_eq_div_pow]
    rw [or_shiftLeft _ _ _ (by omega), Nat.shiftLeft_eq, Nat.and_two_pow_sub_one_eq_mod _ 2,
      Nat.and_two_pow_sub_one_eq_mod _ 4]
    simp only [Nat.reducePow]
  | case3 d0 =>
    simp only [urlTab, toSextets, List.map_cons, List.map_nil, Nat.shiftRight_eq_div_pow]
    rw [Nat.shiftLeft_eq, Nat.and_two_pow_sub_one_eq_mod _ 2]
  | case4 => rfl

/-! ## Paths that resolve -/

theorem normalize_eq_self_iff (p : Bytes) :
    normalize p = p ↔
      p.head? ≠ some slash ∧ ¬ StartsWith spaceWords p ∧ ¬ EndsWith spaceWords p := by
  rw [← trim_eq_self_iff nil_notMem_spaceWords]
  constructor
  · intro h
    have hlen : p.length ≤ (trimLeftByte p slash).length := by
      conv_lhs => rw [← h]
      exact length_trim_le nil_notMem_spaceWords _
    have hleft : trimLeftByte p slash = p :=
      (List.dropWhile_suffix _).eq_of_length_le hlen
    refine ⟨?_, ?_⟩
    · rw [← hleft]
      exact head_trimLeftByte p slash
    · rwa [normalize, trimSpace, hleft] at h
  · rintro ⟨h1, h2⟩
    rw [normalize, trimSpace, trimLeftByte_of_head h1, h2]

theorem resolvable_iff (p : Bytes) :
    Resolvable p ↔ (∃ path : String, textBytes path = p) ∧ normalize p = p := by
  rw [normalize_eq_self_iff]
  exact ⟨fun h => ⟨h.text, h.slash, h.front, h.back⟩, fun ⟨h1, h2, h3, h4⟩ => ⟨h1, h2, h3, h4⟩⟩

section Resolving

variable {hmac : Bytes → Bytes → MAC} {c : Identity}

/-- A URL with the MAC that the server computes for the path resolves exactly if the server does not
change the path. -/
theorem resolves_iff {url : ContentUrl} {p : Bytes} {mac : MAC} (hid : url.clientId = c.idStr)
    (hmac' : url.mac = urlEncodeBytes mac)
    (hsame : p.head? ≠ some slash → mac = computeMac hmac c.idStr p c.secret) :
    Resolves hmac c url p ↔ Resolvable p := by
  have hdec : urlDecodeMAC url.mac = .ok mac := by
    rw [hmac']
    exact urlDecodeBytes_urlEncodeBytes mac
  rw [resolvable_iff]
  constructor
  · rintro ⟨-, mac', path, -, hreq, hpath⟩
    exact ⟨⟨path, hpath⟩, (request_eq_ok.mp hreq).2.2.trans hpath⟩
  · rintro ⟨⟨path, hpath⟩, hnorm⟩
    refine ⟨?_, mac, path, hdec, ?_, hpath⟩
    · rw [hid]
      exact urlDecodeUUID_urlEncode c.id
    · refine request_eq_ok.mpr ⟨?_, rfl, by rw [hpath, hnorm]⟩
      rw [hnorm]
      exact hsame ((normalize_eq_self_iff p).mp hnorm).1

/-- **When a generated URL resolves**, for the C++ client and for the Go client. -/
theorem generated_url_resolves_iff (hmac : Bytes → Bytes → MAC) (c : Identity)
    (options : ProtocolOptions) (p : Bytes) :
    (Resolves hmac c (makeUrl hmac (c.hello options) p) p ↔ Resolvable p) ∧
    (Resolves hmac c (buildUrl hmac (c.hello options) p) p ↔ Resolvable p) := by
  constructor
  · refine resolves_iff rfl (encodeGroups_eq _) ?_
    intro hp
    rw [computeMac_of_head hp, List.append_assoc]
    rfl
  · exact resolves_iff rfl rfl fun _ => rfl

end Resolving

/-- The MAC in the URL that the C++ client makes for the path `p`. -/
def sampleUrlMac (p : Bytes) : MAC :=
  sampleHmac sampleIdentity.secret (sampleIdentity.idStr ++ [slash] ++ p)

/-- The URLs for "/x": with the one of the C++ client the request is rejected, with the one of the Go
client it is a request for "x". The URLs for "x " are rejected. -/
theorem slash_and_space_do_not_resolve :
    sampleIdentity.request sampleHmac [slash, 120]
      (sampleUrlMac [slash, 120]) true = .error .badMac ∧
    sampleIdentity.request sampleHmac [slash, 120]
      (computeMac sampleHmac sampleIdentity.idStr [slash, 120] sampleIdentity.secret) true =
        .ok [120] ∧
    sampleIdentity.request sampleHmac [120, 32] (sampleUrlMac [120, 32]) true = .error .badMac ∧
    sampleIdentity.request sampleHmac [120, 32]
      (computeMac sampleHmac sampleIdentity.idStr [120, 32] sampleIdentity.secret) true =
        .error .badMac ∧
    ¬ Resolves sampleHmac sampleIdentity
      (makeUrl sampleHmac (sampleIdentity.hello sampleConfig.options) [slash, 120]) [slash, 120] ∧
    ¬ Resolves sampleHmac sampleIdentity
      (buildUrl sampleHmac (sampleIdentity.hello sampleConfig.options) [slash, 120]) [slash, 120] := by
  have hno : ¬ Resolvable [slash, 120] := fun h => h.slash rfl
  refine ⟨by decide +kernel, by decide +kernel, by decide +kernel, by decide +kernel, ?_, ?_⟩
  · exact (resolves_iff rfl (encodeGroups_eq _) fun hp => absurd rfl hp).not.mpr hno
  · exact (resolves_iff rfl rfl fun _ => rfl).not.mpr hno

end Loon
