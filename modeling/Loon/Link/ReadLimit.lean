import Loon.Lib.Protobuf
import Loon.Lib.SignedInt
import Loon.Link.Receive
import Loon.Server.Admission

set_option autoImplicit false

/-!
# The read limit of the server

`readPump` lets the connection read messages of up to `max(512, 2*int64(chunkSize))` bytes, and ends
it on a longer one. A client sends chunks as messages of the protocol.

* `ContentChunk.encode`, `ClientMessage.encode`: messages on the wire;
* `readLimit`: the limit, in signed integers of 64 bits;
* `toInt_readLimit`, `readLimit_lt`: the limit doubles the chunk size while that fits, and is below
  the chunk size as soon as it does not;
* **`chunks_fit_iff`**: every chunk the protocol loop accepts fits the limit exactly if the chunk size
  is below 2^62.
-/

namespace Loon

open Chunking Protobuf SignedInt

/-! ## Messages on the wire -/

def EmptyResponse.encode (m : EmptyResponse) : Bytes := uint64Field 1 m.requestId

/-- The two optional fields are there whenever they are set, also to a default. -/
def ContentHeader.encode (m : ContentHeader) : Bytes :=
  uint64Field 1 m.requestId ++ bytesField 2 (textBytes m.contentType) ++
    uint64Field 3 m.contentSize ++
    (m.maxCacheDuration.elim [] fun d => varintField 4 d.toNat) ++
    (m.filename.elim [] fun name => lengthField 5 (textBytes name))

def ContentChunk.encode (m : ContentChunk) : Bytes :=
  uint64Field 1 m.requestId ++ uint64Field 2 m.sequence ++ bytesField 3 m.data

def CloseResponse.encode (m : CloseResponse) : Bytes := uint64Field 1 m.requestId

/-- The member of the oneof that is set. -/
def ClientMessage.encode (m : ClientMessage) : Bytes :=
  match m.data with
  | none => []
  | some (.emptyResponse m) => lengthField 1 m.encode
  | some (.contentHeader m) => lengthField 2 m.encode
  | some (.contentChunk m) => lengthField 3 m.encode
  | some (.closeResponse m) => lengthField 4 m.encode

/-- The message a chunk is sent in. -/
def ContentChunk.message (m : ContentChunk) : ClientMessage := ⟨some (.contentChunk m)⟩

theorem ContentChunk.length_encode (m : ContentChunk) :
    m.data.length ≤ m.encode.length ∧
      (m.data.length < 2 ^ 64 → m.encode.length ≤ m.data.length + 33) := by
  have hid := length_uint64Field_le (show 1 < 16 by decide) m.requestId
  have hseq := length_uint64Field_le (show 2 < 16 by decide) m.sequence
  have hlow := length_le_bytesField (show 3 < 16 by decide) m.data
  unfold ContentChunk.encode
  rw [List.length_append, List.length_append]
  refine ⟨by omega, fun h => ?_⟩
  have hdata := length_bytesField_le (show 3 < 16 by decide) h
  omega

/-- **A chunk on the wire** is longer than its data, by at most 44 bytes. -/
theorem ContentChunk.length_message (m : ContentChunk) :
    m.data.length < m.message.encode.length ∧
      (m.data.length < 2 ^ 62 → m.message.encode.length ≤ m.data.length + 44) := by
  obtain ⟨hlow, hup⟩ := m.length_encode
  have hlt := length_lt_lengthField (show 3 < 16 by decide) m.encode
  change m.data.length < (lengthField 3 m.encode).length ∧
    (_ → (lengthField 3 m.encode).length ≤ _)
  refine ⟨by omega, fun h => ?_⟩
  have hencode := hup (by omega)
  have hlt64 : m.encode.length < 2 ^ 64 := by omega
  have hmessage := length_lengthField_le (show 3 < 16 by decide) hlt64
  omega

/-! ## The limit -/

/-- The argument of `SetReadLimit`: `max(512, 2*int64(chunkSize))`. -/
def readLimit (chunkSize : UInt64) : Int64 := max 512 (2 * chunkSize.toInt64)

theorem toInt_readLimit_eq (C : UInt64) :
    (readLimit C).toInt = max 512 ((2 * (C.toNat : ℤ)).bmod (2 ^ 64)) := by
  rw [readLimit, toInt_max, toInt_two_mul_toInt64]
  rfl

/-- While the double of the chunk size is a signed integer it is the limit, from 512 on. -/
theorem toInt_readLimit {C : UInt64} (h : C.toNat < 2 ^ 62) :
    (readLimit C).toInt = max 512 (2 * (C.toNat : ℤ)) := by
  rw [toInt_readLimit_eq, Int.bmod_eq_of_le (by omega) (by omega)]

/-- Beyond that the limit is below the chunk size. -/
theorem readLimit_lt {C : UInt64} (h : 2 ^ 62 ≤ C.toNat) :
    512 ≤ (readLimit C).toInt ∧ (readLimit C).toInt < C.toNat := by
  have hC := C.toNat_lt
  have hmod : (2 * (C.toNat : ℤ)).bmod (2 ^ 64) < C.toNat := by
    rw [Int.bmod_def]
    omega
  rw [toInt_readLimit_eq]
  omega

/-! ## Accepted chunks -/

variable {ext : Externals}

/-- Every chunk that is accepted in a reachable state fits the read limit. -/
def ChunksFit (cfg : Config ext) : Prop :=
  ∀ (es : List Event) (s : St) (chunk : ContentChunk) (now : Time),
    (protocol cfg).run (.ok St.init) es = some (.ok s) → s.phase = .loop →
    accepts cfg s chunk.message now = true →
    (chunk.message.encode.length : ℤ) ≤ (readLimit cfg.chunkSize).toInt

/-- A media type of `mime.ParseMediaType` has no parameters in it, so no semicolon. -/
def PlainTypes (ext : Externals) : Prop :=
  ∀ value type params, ext.parseMediaType value = .ok (type, params) → ';' ∉ type.toList

variable {cfg : Config ext}

/-- An accepted chunk has at most the size of a chunk. -/
theorem length_le_of_accepts {s : St} {chunk : ContentChunk} {now : Time} (hinv : Inv cfg s)
    (hp : s.phase = .loop) (h : accepts cfg s chunk.message now = true) :
    chunk.data.length ≤ cfg.chunkSize.toNat := by
  obtain ⟨s₁, w, hb⟩ := begins_of_accepts hinv hp rfl h
  cases hb with
  | accept _ _ _ _ hlen =>
    rw [hlen]
    exact min_le_right _ _

/-- While the double fits, the overhead of a message is made up for by the 512 bytes for small chunks
and by the doubling for large ones. -/
theorem chunksFit_of_lt (h : cfg.chunkSize.toNat < 2 ^ 62) : ChunksFit cfg := by
  intro es s chunk now hrun hphase hacc
  have hlen := length_le_of_accepts (inv_of_run hrun) hphase hacc
  have hmessage := chunk.length_message.2 (by omega)
  rw [toInt_readLimit h]
  omega

/-! ## Chunks that are too long -/

/-- A content of `n` bytes for the first request of a connection. -/
def firstHeader (contentType : String) (n : UInt64) : ContentHeader where
  requestId := 1
  contentType := contentType
  contentSize := n
  maxCacheDuration := none
  filename := none

/-- The connection with its first request. -/
def requested (cfg : Config ext) : St := stateAfter cfg [.forwardRequest "" 0 true]

/-- The first request, and the header of its response. -/
def firstResponse (contentType : String) (n : UInt64) : List Event :=
  [.forwardRequest "" 0 true, .recv ⟨some (.contentHeader (firstHeader contentType n))⟩ 0]

/-- The whole content in one chunk. -/
def onlyChunk (n : UInt64) : ContentChunk := ⟨1, 0, List.replicate n.toNat 0⟩

/-- A header with an accepted type and a size up to the chunk size is admissible. -/
theorem admissible_firstHeader (hp : PlainTypes ext) {contentType : String}
    (ht : contentType ∈ cfg.options.constraints.acceptedContentTypes) {n : UInt64} (hn : n ≠ 0)
    (hle : n ≤ cfg.chunkSize) : Admissible cfg (firstHeader contentType n) where
  size_le := UInt64.le_trans hle cfg.constraints_checked.size_le
  size_ne := hn
  filename := by simp [firstHeader]
  type := by
    obtain ⟨params, hparse⟩ := cfg.parseMediaType_accepted ht
    have hplain : ∀ c ∈ contentType.toList, c ≠ ';' := by
      intro c hc e
      exact hp _ _ _ hparse (e ▸ hc)
    have hbase : baseContentType contentType = contentType := by
      rw [← String.toList_inj, toList_baseContentType]
      exact List.takeWhile_eq_self_iff.mpr (by simpa using hplain)
    change baseContentType contentType ∈ _
    rwa [hbase]

/-- **A content of at most one chunk is accepted as one**, by every configuration. -/
theorem accepts_onlyChunk (cfg : Config ext) (hp : PlainTypes ext) {n : UInt64} (hn : n ≠ 0)
    (hle : n ≤ cfg.chunkSize) :
    ∃ contentType s, (protocol cfg).run (.ok St.init) (firstResponse contentType n) = some (.ok s) ∧
      s.phase = .loop ∧ accepts cfg s (onlyChunk n).message 0 = true := by
  obtain ⟨contentType, ht⟩ := List.exists_mem_of_ne_nil _ cfg.constraints_checked.types_ne
  have hrun : (protocol cfg).run (.ok St.init) [.forwardRequest "" 0 true] =
      some (.ok (requested cfg)) := rfl
  have hinv := inv_of_run hrun
  have hadm := admissible_firstHeader hp ht hn hle
  set s := (requested cfg).put 0
    (((requested cfg).objs 0).answered (firstHeader contentType n) cfg.bufferSize 0)
  have hheader : onContentHeader cfg (requested cfg) (firstHeader contentType n) 0 = .ok s :=
    onContentHeader_of_admissible hinv.core (p := 0) rfl rfl hadm
  have hawaits : (requested cfg).Awaits 0 none := ⟨rfl, rfl, rfl⟩
  have hexpects : Expects cfg s 0 n.toNat 0 :=
    expects_of_header hinv.core rfl hawaits rfl hheader rfl
  have hdue : (onlyChunk n).data.length = due cfg.chunkSize.toNat n.toNat 0 := by
    have hle' := UInt64.le_iff_toNat_le.mp hle
    simp only [onlyChunk, List.length_replicate, due]
    omega
  have hrun' : (protocol cfg).run (.ok St.init) (firstResponse contentType n) = some (.ok s) := by
    refine (protocol cfg).run_snoc_eq_some.mpr ⟨_, hrun, ?_⟩
    change some ((onContentHeader cfg (requested cfg) (firstHeader contentType n) 0).map St.top) = _
    rw [hheader]
    rfl
  obtain ⟨s₁, w, s', hbegin, hfinish, -⟩ := hexpects.receive (onlyChunk n) rfl rfl hdue 0
  exact ⟨contentType, s, hrun', rfl, accepts_of_begins (inv_of_run hrun') rfl rfl hbegin⟩

theorem ParsesMediaTypes.plainTypes {lower : Char → Char} (h : ParsesMediaTypes ext lower) :
    PlainTypes ext := by
  intro value type params hparse hsemi
  obtain ⟨-, hcheck, -⟩ := MediaType.parse_ok_iff.mp ((h value type).mp ⟨params, hparse⟩)
  rcases MediaType.tokens_of_checkMediaTypeDisposition hcheck _ hsemi with hc | hc <;>
    exact absurd hc (by decide)

/-- **Accepted chunks fit the read limit**, for every chunk size of which the double is a signed
integer of 64 bits, and for no other. -/
theorem chunks_fit_iff (cfg : Config ext) (hp : PlainTypes ext) :
    ChunksFit cfg ↔ cfg.chunkSize.toNat < 2 ^ 62 := by
  refine ⟨fun h => ?_, chunksFit_of_lt⟩
  by_contra hlarge
  obtain ⟨hlow, hhigh⟩ := readLimit_lt (Nat.le_of_not_lt hlarge)
  -- one byte more than the limit
  have hC := cfg.chunkSize.toNat_lt
  have hn : (UInt64.ofNat ((readLimit cfg.chunkSize).toInt.toNat + 1)).toNat =
      (readLimit cfg.chunkSize).toInt.toNat + 1 := Nat.mod_eq_of_lt (by omega)
  set n := UInt64.ofNat ((readLimit cfg.chunkSize).toInt.toNat + 1)
  have hne : n ≠ 0 := by
    intro h0
    rw [h0] at hn
    cases hn
  have hle : n ≤ cfg.chunkSize := UInt64.le_iff_toNat_le.mpr (by omega)
  obtain ⟨contentType, s, hrun, hphase, hacc⟩ := accepts_onlyChunk cfg hp hne hle
  have hfits := h _ s (onlyChunk n) 0 hrun hphase hacc
  have hlong := (onlyChunk n).length_message.1
  have hdata : (onlyChunk n).data.length = n.toNat := List.length_replicate
  omega

theorem chunks_fit_iff_mimeConfig : ChunksFit mimeConfig ↔ 2 < 2 ^ 62 :=
  chunks_fit_iff mimeConfig parsesMediaTypes_mimeExternals.plainTypes

/-- Chunks and contents of up to 2^62 bytes. -/
def hugeConfig : Config mimeExternals where
  options := { mimeConfig.options with
    constraints := { mimeConfig.options.constraints with
      chunkSize := .ofNat (2 ^ 62)
      maxContentSize := .ofNat (2 ^ 62) } }
  valid := by decide +kernel

/-- A chunk of 513 bytes is accepted where the limit is 512 bytes. -/
theorem huge_chunk_size_refuses_chunk : ¬ ∀ (ext : Externals) (cfg : Config ext), PlainTypes ext →
    ∀ (es : List Event) (s : St) (chunk : ContentChunk) (now : Time),
      (protocol cfg).run (.ok St.init) es = some (.ok s) → s.phase = .loop →
      accepts cfg s chunk.message now = true →
      (chunk.message.encode.length : ℤ) ≤ (readLimit cfg.chunkSize).toInt := by
  intro h
  have hp : PlainTypes mimeExternals := parsesMediaTypes_mimeExternals.plainTypes
  obtain ⟨contentType, s, hrun, hphase, hacc⟩ :=
    accepts_onlyChunk hugeConfig (n := 513) hp (by decide) (by decide +kernel)
  have hfits := h mimeExternals hugeConfig hp _ s (onlyChunk 513) 0 hrun hphase hacc
  have hlong := (onlyChunk 513).length_message.1
  have hdata : (onlyChunk 513).data.length = (513 : UInt64).toNat := List.length_replicate
  have hn : (513 : UInt64).toNat = 513 := rfl
  have hlimit : (readLimit hugeConfig.chunkSize).toInt = 512 := by decide +kernel
  omega

end Loon
