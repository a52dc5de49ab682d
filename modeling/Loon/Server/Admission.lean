import Loon.Lib.MediaType
import Loon.Server.Mime
import Loon.Server.Safety

set_option autoImplicit false

/-!
# Admitted headers

What `onContentHeader` admits, and what `serve` makes of the content type of an admitted header. The
protocol loop compares the text in front of the first semicolon with the accepted types; `serve` runs
`mime.ParseMediaType` over the whole text.

* `admissible_of_onContentHeader`, `onContentHeader_of_admissible`: the checks of the header;
* **`admitted_type_served_iff`**: `serve` can use the type of an admitted header exactly if the text
  from the first semicolon on is well formed.
-/

namespace Loon

variable {ext : Externals}

/-- The checks of `onContentHeader` on the header itself. -/
structure Admissible (cfg : Config ext) (header : ContentHeader) : Prop where
  size_le : header.contentSize ≤ cfg.options.constraints.maxContentSize
  size_ne : header.contentSize ≠ 0
  filename : header.filename ≠ some ""
  type : baseContentType header.contentType ∈ cfg.options.constraints.acceptedContentTypes

section Checks

variable {cfg : Config ext} {s s' : St} {header : ContentHeader} {now : Time}

theorem admissible_of_onContentHeader (h : onContentHeader cfg s header now = .ok s')
    (hopen : ∀ reason msg, s' ≠ s.close reason msg) : Admissible cfg header := by
  unfold onContentHeader at h
  -- every rejection closes the connection
  have hclose : ∀ reason msg, Except.ok (s.close reason msg) = (Except.ok s' : Except Panic St) →
      False := fun reason msg he => hopen reason msg (Except.ok.inj he).symm
  split at h
  case h_1 => exact (hclose _ _ h).elim
  case h_2 p _ =>
    dsimp only at h
    by_cases hid : (s.objs p).id ≠ header.requestId
    · rw [if_pos hid] at h
      cases h
    rw [if_neg hid] at h
    by_cases hr : (s.objs p).hasResponse = true
    · rw [if_pos hr] at h
      exact (hclose _ _ h).elim
    rw [if_neg hr] at h
    by_cases hmax : header.contentSize > cfg.options.constraints.maxContentSize
    · rw [if_pos hmax] at h
      exact (hclose _ _ h).elim
    rw [if_neg hmax] at h
    by_cases hzero : header.contentSize = 0
    · rw [if_pos hzero] at h
      exact (hclose _ _ h).elim
    rw [if_neg hzero] at h
    by_cases hname : header.filename = some ""
    · rw [if_pos hname] at h
      exact (hclose _ _ h).elim
    rw [if_neg hname] at h
    by_cases htype : baseContentType header.contentType ∈
        cfg.options.constraints.acceptedContentTypes
    · exact ⟨UInt64.not_lt.mp hmax, hzero, hname, htype⟩
    · rw [if_pos htype] at h
      exact (hclose _ _ h).elim

/-- An admissible header becomes the response of a request that has none. -/
theorem onContentHeader_of_admissible {C : ℕ} (hcore : Core C none s) {p : Ptr}
    (hl : s.requests.lookup header.requestId = some p) (hr : (s.objs p).response = none)
    (h : Admissible cfg header) : onContentHeader cfg s header now =
      .ok (s.put p ((s.objs p).answered header cfg.bufferSize now)) := by
  have hid := (hcore.entry _ _ hl).2
  obtain ⟨hpend, -⟩ := (hcore.obj_of_lookup hl).fresh (hcore.present hl) hr
  unfold onContentHeader
  rw [hl]
  dsimp only
  rw [if_neg (not_not.mpr hid), if_neg (by simp [Request.hasResponse, hr]),
    if_neg (UInt64.not_lt.mpr h.size_le), if_neg h.size_ne, if_neg h.filename,
    if_neg (not_not.mpr h.type), Request.provideResponse_answered hr hpend]
  simp only [bind, Except.bind, if_neg h.size_ne]

end Checks

/-! ## Content types -/

open MediaType

/-- The white space of `unicode.IsSpace`, and any case mapping. -/
def goCharset (lower : Char → Char) : Charset where
  space c := c.toNat ∈ whiteSpace
  lower := lower
  space_outside c hc := by
    have h : ∀ n ∈ whiteSpace, n ≤ 0x20 ∨ 0x7f ≤ n := by decide
    exact h _ (by simpa using hc)

/-- `ext.parseMediaType` finds the media types that `mime.ParseMediaType` finds, and fails where that
fails. -/
def ParsesMediaTypes (ext : Externals) (lower : Char → Char) : Prop :=
  ∀ value type : String, (∃ params, ext.parseMediaType value = .ok (type, params)) ↔
    ∃ params, parse (goCharset lower) value.toList = .ok (type.toList, params)

/-- What stands behind the media type of a content type is well formed. -/
def WellFormedParams (lower : Char → Char) (contentType : String) : Prop :=
  WellFormed (goCharset lower) (tail contentType.toList)

theorem toList_baseContentType (contentType : String) :
    (baseContentType contentType).toList = base contentType.toList := by
  rw [baseContentType, String.toList_ofList]
  rfl

theorem base_base (v : List Char) : base (base v) = base v := by
  refine List.takeWhile_eq_self_iff.mpr ?_
  intro c hc
  exact List.mem_takeWhile_imp (p := fun c => decide (c ≠ ';')) hc

theorem checkContentType_ok {value : String} (h : checkContentType ext value = .ok ()) :
    ∃ params, ext.parseMediaType value = .ok (value, params) := by
  unfold checkContentType at h
  cases hp : ext.parseMediaType value with
  | error e => rw [hp] at h; cases h
  | ok result =>
    obtain ⟨sanitized, params⟩ := result
    rw [hp] at h
    dsimp only at h
    split_ifs at h with h1 h2
    rw [not_not.mp h2]
    exact ⟨params, rfl⟩

theorem forM_ok {α ε : Type} {f : α → Except ε Unit} {l : List α} (h : l.forM f = .ok ()) :
    ∀ a ∈ l, f a = .ok () := by
  induction l with
  | nil => simp
  | cons a l ih =>
    rw [List.forM] at h
    cases ha : f a with
    | error e => rw [ha] at h; cases h
    | ok u =>
      rw [ha] at h
      exact List.forall_mem_cons.mpr ⟨ha, ih h⟩

/-- Every accepted content type of a validated configuration is its own media type. -/
theorem Config.parseMediaType_accepted (cfg : Config ext) {value : String}
    (h : value ∈ cfg.options.constraints.acceptedContentTypes) :
    ∃ params, ext.parseMediaType value = .ok (value, params) :=
  checkContentType_ok (forM_ok cfg.constraints_checked.types value h)

section Served

variable {lower : Char → Char} {cfg : Config ext} {registry : ContentTypeRegistry}
  {written : List Bytes}

/-- An accepted type, as `NewServer` read it. -/
theorem newContentType_accepted (hs : newServer ext cfg.options.constraints.acceptedContentTypes =
      .ok (registry, written)) {value : String}
    (h : value ∈ cfg.options.constraints.acceptedContentTypes) :
    (cut (textBytes value) slash).isSome ∧ textBytes value ∈ written := by
  obtain ⟨types, -, rfl, -, hall⟩ := newServer_ok hs
  obtain ⟨t, ht, hv⟩ := (exists_of_forall₂ hall).1 value h
  obtain ⟨params, hp⟩ := cfg.parseMediaType_accepted h
  obtain ⟨parsed, params', root, sub, hp', hc, rfl⟩ := newContentType_eq_ok hv
  rw [hp] at hp'
  cases hp'
  exact ⟨by rw [hc]; rfl, List.mem_map.mpr ⟨_, ht, rfl⟩⟩

/-- The parser finds the accepted type in an admissible header, if it gets through. -/
theorem parseMediaType_admissible (hp : ParsesMediaTypes ext lower) {header : ContentHeader}
    (h : Admissible cfg header) {type : String} :
    (∃ params, ext.parseMediaType header.contentType = .ok (type, params)) ↔
      type = baseContentType header.contentType ∧ WellFormedParams lower header.contentType := by
  obtain ⟨hself, hcheck, -⟩ := parse_ok_iff.mp
    ((hp _ _).mp (cfg.parseMediaType_accepted h.type))
  rw [toList_baseContentType] at hself hcheck
  -- the media type of the header is the one of its base, which is the base itself
  have hmedia : mediaType (goCharset lower) header.contentType.toList =
      base header.contentType.toList := by
    rw [mediaType, base_base] at hself
    exact hself.symm
  rw [hp, parse_ok_iff, hmedia, ← toList_baseContentType, String.toList_inj]
  constructor
  · rintro ⟨h1, -, h2⟩
    exact ⟨h1, h2⟩
  · rintro ⟨rfl, h2⟩
    exact ⟨rfl, by rwa [toList_baseContentType], h2⟩

theorem acceptance_eq_invalidType_iff {header : ContentHeader} {accept : Bytes} :
    acceptance ext header accept = .invalidType ↔
      ¬ ∃ contentType, newContentType ext header.contentType = .ok contentType := by
  unfold acceptance
  cases newContentType ext header.contentType with
  | error e => simp
  | ok contentType =>
    dsimp only
    split_ifs <;> simp

/-- **Admitted types are servable if their parameters are well formed**, and only then: `serve` then
finds one of the accepted types, otherwise it reports an internal error. -/
theorem admitted_type_served_iff (hp : ParsesMediaTypes ext lower)
    (hs : newServer ext cfg.options.constraints.acceptedContentTypes = .ok (registry, written))
    {s s' : St} {header : ContentHeader} {now : Time}
    (h : onContentHeader cfg s header now = .ok s') (hopen : s'.done = false) :
    ((∃ contentType, newContentType ext header.contentType = .ok contentType ∧
      contentType.type ∈ written) ↔ WellFormedParams lower header.contentType) ∧
    ∀ accept : Bytes, acceptance ext header accept = .invalidType ↔
      ¬ WellFormedParams lower header.contentType := by
  have hadm : Admissible cfg header := by
    refine admissible_of_onContentHeader h fun reason msg he => ?_
    rw [he] at hopen
    cases hopen
  obtain ⟨hcut, hwritten⟩ := newContentType_accepted hs hadm.type
  have hsound : ∀ contentType, newContentType ext header.contentType = .ok contentType →
      WellFormedParams lower header.contentType := by
    intro contentType hc
    obtain ⟨parsed, params, root, sub, hparse, -⟩ := newContentType_eq_ok hc
    exact ((parseMediaType_admissible hp hadm).mp ⟨params, hparse⟩).2
  have hcomplete : WellFormedParams lower header.contentType →
      ∃ contentType, newContentType ext header.contentType = .ok contentType ∧
        contentType.type ∈ written := by
    intro hw
    obtain ⟨params, hparse⟩ := (parseMediaType_admissible hp hadm).mpr ⟨rfl, hw⟩
    obtain ⟨⟨root, sub⟩, hc⟩ := Option.isSome_iff_exists.mp hcut
    refine ⟨⟨textBytes (baseContentType header.contentType), trimSpace root, trimSpace sub, params⟩,
      ?_, hwritten⟩
    simp only [newContentType, hparse, hc]
  refine ⟨⟨?_, hcomplete⟩, fun accept => ?_⟩
  · rintro ⟨contentType, hc, -⟩
    exact hsound contentType hc
  · rw [acceptance_eq_invalidType_iff, not_iff_not]
    constructor
    · rintro ⟨contentType, hc⟩
      exact hsound contentType hc
    · intro hw
      obtain ⟨contentType, hc, -⟩ := hcomplete hw
      exact ⟨contentType, hc⟩

end Served

/-! ## A parameter without a value -/

/-- The library functions, with a reader for media types. -/
def mimeExternals : Externals :=
  { sampleExternals with
    parseMediaType := fun value =>
      match parse (goCharset Char.toLower) value.toList with
      | .ok (type, params) => .ok (String.ofList type, params.map fun (name, value) =>
          (String.ofList name, String.ofList value))
      | .error err => .error err.message }

theorem parsesMediaTypes_mimeExternals : ParsesMediaTypes mimeExternals Char.toLower := by
  intro value type
  simp only [mimeExternals]
  cases parse (goCharset Char.toLower) value.toList with
  | error e => simp
  | ok result =>
    obtain ⟨t, params⟩ := result
    simp only [Except.ok.injEq, Prod.mk.injEq, exists_and_left, exists_eq', and_true]
    rw [← String.toList_inj, String.toList_ofList]

def mimeConfig : Config mimeExternals where
  options := sampleConfig.options
  valid := by decide +kernel

theorem newContentType_mime : newContentType mimeExternals "text/html" = .ok sampleType := by
  decide +kernel

/-- The header of a two byte document with the given content type. -/
def headerOf (contentType : String) : ContentHeader where
  requestId := 1
  contentType := contentType
  contentSize := 2
  maxCacheDuration := none
  filename := none

/-- The connection after its first request. -/
def mimeState : St := stateAfter mimeConfig [.forwardRequest "a" 0 true]

/-- The connection after the header for its first request. -/
def mimeAnswered (contentType : String) : St :=
  mimeState.put 0 ((mimeState.objs 0).answered (headerOf contentType) mimeConfig.bufferSize 1)

theorem admitted_type_served_iff_utf8 :
    ((∃ contentType, newContentType mimeExternals "text/html; charset=utf-8" = .ok contentType ∧
      contentType.type ∈ [textBytes "text/html"]) ↔
        WellFormedParams Char.toLower "text/html; charset=utf-8") ∧
    ∀ accept : Bytes,
      acceptance mimeExternals (headerOf "text/html; charset=utf-8") accept = .invalidType ↔
        ¬ WellFormedParams Char.toLower "text/html; charset=utf-8" := by
  have h : onContentHeader mimeConfig mimeState (headerOf "text/html; charset=utf-8") 1 =
      .ok (mimeAnswered "text/html; charset=utf-8") := rfl
  exact admitted_type_served_iff parsesMediaTypes_mimeExternals
    (newServer_sampleType newContentType_mime) h rfl

/-- A header with the parameter "charset", which has no value, is admitted and not served. -/
theorem admitted_type_not_served : ¬ ∀ (ext : Externals) (lower : Char → Char)
    (cfg : Config ext) (registry : ContentTypeRegistry) (written : List Bytes) (es : List Event)
    (s s' : St) (header : ContentHeader) (now : Time), ParsesMediaTypes ext lower →
      newServer ext cfg.options.constraints.acceptedContentTypes = .ok (registry, written) →
      (protocol cfg).run (.ok St.init) es = some (.ok s) →
      onContentHeader cfg s header now = .ok s' → s'.done = false →
      (∃ contentType, newContentType ext header.contentType = .ok contentType ∧
        contentType.type ∈ written) ∧
      ∀ accept : Bytes, acceptance ext header accept ≠ .invalidType := by
  intro h
  obtain ⟨⟨contentType, hc, -⟩, -⟩ := h mimeExternals Char.toLower mimeConfig
    (multiRegistry [sampleType]) [textBytes "text/html"] [.forwardRequest "a" 0 true] mimeState
    (mimeAnswered "text/html; charset") (headerOf "text/html; charset") 1
    parsesMediaTypes_mimeExternals (newServer_sampleType newContentType_mime) rfl rfl rfl
  have herr : newContentType mimeExternals (headerOf "text/html; charset").contentType =
      .error "mime: invalid media parameter" := by decide +kernel
  rw [herr] at hc
  cases hc

end Loon
