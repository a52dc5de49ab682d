import Loon.Server.Mac
import Loon.Server.Serve

set_option autoImplicit false

/-!
# Content types and the Accept header

`mime.go` and its callers in `server.go`. An Accept header is a Go string that no decoder has looked
at, so the strings here are byte strings; what comes from a protobuf message is text (`textBytes`).

* `containsContentType_multi_iff`, `containsRootContentType_multi_iff`: the sets of an index hold what
  the types of its list have;
* `servesRange_congr`: whether a type serves a range depends on its name only;
* **`early_late_accept`**: the check in front of a request passes exactly if the one behind it passes
  for one of the accepted types, and it passes whenever that one does for a response.
-/

namespace Loon

/-- ',' -/
def comma : UInt8 := 44

/-- ';' -/
def semicolon : UInt8 := 59

/-- "*" -/
def wildcard : Bytes := [42]

/-- `strings.Cut` at one byte; nothing if the separator is not found. -/
def cut (s : Bytes) (sep : UInt8) : Option (Bytes × Bytes) :=
  (s.findIdx? (· = sep)).map fun i => (s.take i, s.drop (i + 1))

structure ContentType where
  type : Bytes
  rootType : Bytes
  subType : Bytes
  params : List (String × String)
  deriving DecidableEq, Repr

section Parse

variable (ext : Externals)

def newContentType (value : String) : Except String ContentType :=
  match ext.parseMediaType value with
  | .error err => .error err
  | .ok (parsed, params) =>
    match cut (textBytes parsed) slash with
    | none => .error "invalid content type"
    | some (root, sub) => .ok {
        type := textBytes parsed
        rootType := trimSpace root
        subType := trimSpace sub
        params := params }

def parseContentTypes (values : List String) : Except String (List ContentType) :=
  values.zipIdx.mapM fun (value, i) =>
    (newContentType ext value).mapError fun err =>
      "failed to parse content type: " ++ value.quote ++ " at index " ++ toString i ++ ": " ++ err

end Parse

/-! ## The registry -/

/-- The interface `ContentTypeIndex`. -/
structure ContentTypeIndex where
  contentTypes : List ContentType
  containsContentType : Bytes → Bool
  containsRootContentType : Bytes → Bool

def newSingleContentTypeIndex (contentType : ContentType) : ContentTypeIndex where
  contentTypes := [contentType]
  containsContentType value := contentType.type = value
  containsRootContentType value := contentType.rootType = value

structure MultiContentTypeIndex where
  values : List ContentType
  contentTypes : Finset Bytes
  rootContentTypes : Finset Bytes

namespace MultiContentTypeIndex

def empty : MultiContentTypeIndex where
  values := []
  contentTypes := ∅
  rootContentTypes := ∅

/-- One round of the loop in `NewMultiContentTypeIndex`. -/
def add (index : MultiContentTypeIndex) (value : ContentType) : MultiContentTypeIndex where
  values := index.values ++ [value]
  contentTypes := insert value.type index.contentTypes
  rootContentTypes := insert value.rootType index.rootContentTypes

def toIndex (i : MultiContentTypeIndex) : ContentTypeIndex where
  contentTypes := i.values
  containsContentType value := value ∈ i.contentTypes
  containsRootContentType value := value ∈ i.rootContentTypes

end MultiContentTypeIndex

def newMultiContentTypeIndex (contentTypes : List ContentType) : ContentTypeIndex :=
  (contentTypes.foldl .add .empty : MultiContentTypeIndex).toIndex

structure ContentTypeRegistry where
  index : ContentTypeIndex

/-- The registry that `NewServer` makes. -/
def multiRegistry (contentTypes : List ContentType) : ContentTypeRegistry :=
  ⟨newMultiContentTypeIndex contentTypes⟩

/-- The registry that `serve` makes for a response. -/
def singleRegistry (contentType : ContentType) : ContentTypeRegistry :=
  ⟨newSingleContentTypeIndex contentType⟩

namespace ContentTypeRegistry

/-- The body of the loop in `CanServeAccept`: this element lets it return true. -/
def servesRange (r : ContentTypeRegistry) (contentType : Bytes) : Bool :=
  let contentType :=
    match contentType.findIdx? (· = semicolon) with
    | some index => contentType.take index
    | none => contentType
  let contentType := trimSpace contentType
  match cut contentType slash with
  | none => false -- invalid
  | some (root, sub) =>
    if root.length = 0 || sub.length = 0 then false -- invalid
    else if sub = wildcard then
      if root = wildcard then true else r.index.containsRootContentType root
    else if root = wildcard then false -- invalid
    else r.index.containsContentType contentType

def canServeAccept (r : ContentTypeRegistry) (acceptValue : Bytes) : Bool :=
  (acceptValue.splitOn comma).any r.servesRange

end ContentTypeRegistry

/-! ## The server -/

/-- `NewContentTypeRegistryFromStrings`. -/
def newContentTypeRegistryFromStrings (ext : Externals) (values : List String) :
    Except String ContentTypeRegistry := do
  let result ← parseContentTypes ext values
  .ok (multiRegistry result)

inductive ServerError where
  | invalidContentType (message : String)
  /-- "an accepted content type may not have parameters: %q at index %d" -/
  | contentTypeParameters (value : ContentType) (index : ℕ)
  deriving DecidableEq, Repr

/-- The loop of `NewServer` over the registered types, which gives the list that is written back to
the configuration. -/
def sanitizedTypes (values : List ContentType) : Except ServerError (List Bytes) :=
  values.zipIdx.mapM fun (value, i) =>
    if value.params.length > 0 then .error (.contentTypeParameters value i) else .ok value.type

/-- `NewServer`, as far as it is about content types: the registry and the list it writes back. -/
def newServer (ext : Externals) (acceptedContentTypes : List String) :
    Except ServerError (ContentTypeRegistry × List Bytes) := do
  let registry ← (newContentTypeRegistryFromStrings ext acceptedContentTypes).mapError
    .invalidContentType
  let types ← sanitizedTypes registry.index.contentTypes
  .ok (registry, types)

/-- `serveRequest` lets the HTTP request pass its check. -/
def earlyAccept (contentTypes : ContentTypeRegistry) (accept : Bytes) : Bool :=
  !(accept.length > 0 && !contentTypes.canServeAccept accept)

/-- The content type checks of `serve`. -/
def acceptance (ext : Externals) (header : ContentHeader) (accept : Bytes) : Acceptance :=
  match newContentType ext header.contentType with
  | .error _ => .invalidType
  | .ok contentType =>
    let registry := singleRegistry contentType
    if accept.length > 0 && !registry.canServeAccept accept then .notAcceptable else .acceptable

/-! ## The two registries -/

variable {ext : Externals} {types : List ContentType}

theorem foldl_add (types : List ContentType) (index : MultiContentTypeIndex) :
    (types.foldl .add index : MultiContentTypeIndex) =
      { values := index.values ++ types
        contentTypes := (types.map ContentType.type).toFinset ∪ index.contentTypes
        rootContentTypes := (types.map ContentType.rootType).toFinset ∪ index.rootContentTypes } := by
  induction types generalizing index with
  | nil => simp
  | cons t types ih =>
    rw [List.foldl_cons, ih]
    simp [MultiContentTypeIndex.add, Finset.insert_union, Finset.union_insert]

@[simp] theorem contentTypes_multi : (newMultiContentTypeIndex types).contentTypes = types := by
  simp [newMultiContentTypeIndex, foldl_add, MultiContentTypeIndex.toIndex,
    MultiContentTypeIndex.empty]

theorem containsContentType_multi_iff {value : Bytes} :
    (newMultiContentTypeIndex types).containsContentType value = true ↔
      ∃ t ∈ types, (newSingleContentTypeIndex t).containsContentType value = true := by
  simp [newMultiContentTypeIndex, foldl_add, MultiContentTypeIndex.toIndex,
    MultiContentTypeIndex.empty, newSingleContentTypeIndex]

theorem containsRootContentType_multi_iff {value : Bytes} :
    (newMultiContentTypeIndex types).containsRootContentType value = true ↔
      ∃ t ∈ types, (newSingleContentTypeIndex t).containsRootContentType value = true := by
  simp [newMultiContentTypeIndex, foldl_add, MultiContentTypeIndex.toIndex,
    MultiContentTypeIndex.empty, newSingleContentTypeIndex]

theorem servesRange_multi_iff (h : types ≠ []) (contentType : Bytes) :
    (multiRegistry types).servesRange contentType = true ↔
      ∃ t ∈ types, (singleRegistry t).servesRange contentType = true := by
  unfold ContentTypeRegistry.servesRange
  simp only
  generalize trimSpace _ = range
  cases cut range slash with
  | none => simp
  | some parts =>
    obtain ⟨root, sub⟩ := parts
    simp only
    split_ifs
    · simp
    -- "*/*" is served by any type, and there is one
    · simpa using List.exists_mem_of_ne_nil types h
    · exact containsRootContentType_multi_iff
    · simp
    · exact containsContentType_multi_iff

theorem canServeAccept_multi_iff (h : types ≠ []) (accept : Bytes) :
    (multiRegistry types).canServeAccept accept = true ↔
      ∃ t ∈ types, (singleRegistry t).canServeAccept accept = true := by
  simp only [ContentTypeRegistry.canServeAccept, List.any_eq_true, servesRange_multi_iff h]
  constructor
  · rintro ⟨range, hr, t, ht, hs⟩
    exact ⟨t, ht, range, hr, hs⟩
  · rintro ⟨t, ht, range, hr, hs⟩
    exact ⟨range, hr, t, ht, hs⟩

/-! ## A response of the list -/

theorem newContentType_eq_ok {value : String} {contentType : ContentType}
    (h : newContentType ext value = .ok contentType) : ∃ parsed params root sub,
      ext.parseMediaType value = .ok (parsed, params) ∧
      cut (textBytes parsed) slash = some (root, sub) ∧
      contentType = ⟨textBytes parsed, trimSpace root, trimSpace sub, params⟩ := by
  unfold newContentType at h
  cases hp : ext.parseMediaType value with
  | error e => rw [hp] at h; cases h
  | ok result =>
    obtain ⟨parsed, params⟩ := result
    simp only [hp] at h
    cases hc : cut (textBytes parsed) slash with
    | none => rw [hc] at h; cases h
    | some parts =>
      obtain ⟨root, sub⟩ := parts
      rw [hc] at h
      cases h
      exact ⟨parsed, params, root, sub, rfl, hc, rfl⟩

/-- The root type is part of the type. -/
theorem rootType_eq_of_type_eq {v w : String} {t u : ContentType} (ht : newContentType ext v = .ok t)
    (hu : newContentType ext w = .ok u) (h : t.type = u.type) : t.rootType = u.rootType := by
  obtain ⟨p, ps, root, sub, -, hc, rfl⟩ := newContentType_eq_ok ht
  obtain ⟨q, qs, root', sub', -, hc', rfl⟩ := newContentType_eq_ok hu
  simp only at h
  rw [h, hc'] at hc
  cases hc
  rfl

theorem servesRange_congr {t u : ContentType} (ht : t.type = u.type) (hr : t.rootType = u.rootType)
    (contentType : Bytes) :
    (singleRegistry t).servesRange contentType = (singleRegistry u).servesRange contentType := by
  simp only [ContentTypeRegistry.servesRange, singleRegistry, newSingleContentTypeIndex, ht, hr]

theorem canServeAccept_congr {t u : ContentType} (ht : t.type = u.type)
    (hr : t.rootType = u.rootType) (accept : Bytes) :
    (singleRegistry t).canServeAccept accept = (singleRegistry u).canServeAccept accept := by
  simp only [ContentTypeRegistry.canServeAccept, funext (servesRange_congr ht hr)]

/-- A loop that stops at the first error gives one result for each element. -/
theorem mapM_zipIdx_ok {α β ε : Type} {f : α → ℕ → Except ε β} {l : List α} {k : ℕ} {r : List β}
    (h : (l.zipIdx k).mapM (fun x => f x.1 x.2) = .ok r) :
    List.Forall₂ (fun a b => ∃ i, f a i = .ok b) l r := by
  induction l generalizing k r with
  | nil => cases h; exact .nil
  | cons a l ih =>
    rw [List.zipIdx_cons, List.mapM_cons] at h
    cases ha : f a k with
    | error e => simp [ha, bind, Except.bind] at h
    | ok b =>
      cases hl : (l.zipIdx (k + 1)).mapM (fun x => f x.1 x.2) with
      | error e => simp [ha, hl, bind, Except.bind] at h
      | ok bs =>
        simp only [ha, hl, bind, Except.bind, pure, Except.pure] at h
        cases h
        exact .cons ⟨k, ha⟩ (ih hl)

theorem exists_of_forall₂ {α β : Type} {R : α → β → Prop} {l : List α} {r : List β}
    (h : List.Forall₂ R l r) : (∀ a ∈ l, ∃ b ∈ r, R a b) ∧ ∀ b ∈ r, ∃ a ∈ l, R a b := by
  induction h with
  | nil => simp
  | cons hab _ ih =>
    refine ⟨List.forall_mem_cons.mpr ⟨⟨_, List.mem_cons_self, hab⟩, fun a ha => ?_⟩,
      List.forall_mem_cons.mpr ⟨⟨_, List.mem_cons_self, hab⟩, fun b hb => ?_⟩⟩
    · obtain ⟨b, hb, hr⟩ := ih.1 a ha
      exact ⟨b, List.mem_cons_of_mem _ hb, hr⟩
    · obtain ⟨a, ha, hr⟩ := ih.2 b hb
      exact ⟨a, List.mem_cons_of_mem _ ha, hr⟩

theorem parseContentTypes_ok {values : List String} (h : parseContentTypes ext values = .ok types) :
    List.Forall₂ (fun value t => newContentType ext value = .ok t) values types := by
  have hl := mapM_zipIdx_ok (f := fun value i => (newContentType ext value).mapError fun err =>
    "failed to parse content type: " ++ value.quote ++ " at index " ++ toString i ++ ": " ++ err) h
  refine hl.imp ?_
  rintro value t ⟨i, hi⟩
  cases hv : newContentType ext value with
  | error e => rw [hv] at hi; cases hi
  | ok u => rw [hv] at hi; cases hi; rfl

theorem sanitizedTypes_ok {written : List Bytes} (h : sanitizedTypes types = .ok written) :
    written = types.map ContentType.type ∧ ∀ t ∈ types, t.params = [] := by
  have hl := mapM_zipIdx_ok (f := fun (value : ContentType) i =>
    if value.params.length > 0 then .error (ServerError.contentTypeParameters value i)
    else .ok value.type) h
  clear h
  induction hl with
  | nil => exact ⟨rfl, by simp⟩
  | cons hi _ ih =>
    obtain ⟨i, hi⟩ := hi
    split_ifs at hi with hp
    cases hi
    exact ⟨by rw [List.map_cons, ih.1], List.forall_mem_cons.mpr ⟨by simpa using hp, ih.2⟩⟩

/-- **What `NewServer` accepts**: types without parameters; it writes their names back. -/
theorem newServer_ok {values : List String} {registry : ContentTypeRegistry} {written : List Bytes}
    (h : newServer ext values = .ok (registry, written)) : ∃ types : List ContentType,
      registry = multiRegistry types ∧ written = types.map ContentType.type ∧
      (∀ t ∈ types, t.params = []) ∧
      List.Forall₂ (fun value t => newContentType ext value = .ok t) values types := by
  unfold newServer newContentTypeRegistryFromStrings at h
  cases hp : parseContentTypes ext values with
  | error e => simp [hp, bind, Except.bind, Except.mapError] at h
  | ok types =>
    cases hs : sanitizedTypes types with
    | error e => simp [hp, hs, bind, Except.bind, Except.mapError, multiRegistry] at h
    | ok w =>
      simp only [hp, hs, bind, Except.bind, Except.mapError, multiRegistry,
        contentTypes_multi] at h
      cases h
      obtain ⟨hw, hparams⟩ := sanitizedTypes_ok hs
      exact ⟨types, rfl, hw, hparams, parseContentTypes_ok hp⟩

/-- **Early and late check.** The check in front of a request passes exactly if the one behind it
would for one of the accepted types. So it passes whenever that one does for a response of the list,
and if it fails then no response of the list gets past the other one. -/
theorem early_late_accept (hne : types ≠ []) (accept : Bytes) :
    ((multiRegistry types).canServeAccept accept = true ↔
      ∃ t ∈ types, (singleRegistry t).canServeAccept accept = true) ∧
    ∀ (ext : Externals) (values : List String) (written : List Bytes),
      newServer ext values = .ok (multiRegistry types, written) →
      ∀ (header : ContentHeader) (contentType : ContentType),
        newContentType ext header.contentType = .ok contentType → contentType.type ∈ written →
        (acceptance ext header accept = .acceptable →
          earlyAccept (multiRegistry types) accept = true) ∧
        (earlyAccept (multiRegistry types) accept = false →
          acceptance ext header accept = .notAcceptable) := by
  refine ⟨canServeAccept_multi_iff hne accept, ?_⟩
  intro ext values written hs header contentType hc hmem
  obtain ⟨types', hreg, rfl, -, hparsed⟩ := newServer_ok hs
  have htypes : types = types' := by
    have := congrArg (fun r : ContentTypeRegistry => r.index.contentTypes) hreg
    simpa [multiRegistry] using this
  subst htypes
  -- the accepted type with the name of the response's type
  obtain ⟨t, ht, hname⟩ := List.mem_map.mp hmem
  obtain ⟨value, -, hv⟩ := (exists_of_forall₂ hparsed).2 t ht
  have hroot := rootType_eq_of_type_eq hv hc hname
  have himp : (singleRegistry contentType).canServeAccept accept = true →
      (multiRegistry types).canServeAccept accept = true := fun h =>
    (canServeAccept_multi_iff hne accept).mpr
      ⟨t, ht, by rwa [canServeAccept_congr hname hroot]⟩
  simp only [acceptance, hc, earlyAccept]
  by_cases h0 : accept.length > 0
  · cases hs : (singleRegistry contentType).canServeAccept accept with
    | true => simp [himp hs]
    | false => simp [h0]
  · simp [h0]

/-- The type that `NewServer` makes of "text/html". -/
def sampleType : ContentType where
  type := textBytes "text/html"
  rootType := textBytes "text"
  subType := textBytes "html"
  params := []

theorem newContentType_sample : newContentType sampleExternals "text/html" = .ok sampleType := by
  decide +kernel

theorem newServer_sampleType {ext : Externals}
    (h : newContentType ext "text/html" = .ok sampleType) : newServer ext ["text/html"] =
      .ok (multiRegistry [sampleType], [textBytes "text/html"]) := by
  have hp : parseContentTypes ext ["text/html"] = .ok [sampleType] := by
    simp [parseContentTypes, h, Except.mapError, bind, Except.bind, pure, Except.pure]
  have hs : sanitizedTypes [sampleType] = .ok [textBytes "text/html"] := by decide +kernel
  simp [newServer, newContentTypeRegistryFromStrings, hp, hs, bind, Except.bind, Except.mapError,
    multiRegistry]

theorem early_late_accept_sample :
    ((multiRegistry [sampleType]).canServeAccept (textBytes "image/png, text/*;q=0.5") = true ↔
      ∃ t ∈ [sampleType],
        (singleRegistry t).canServeAccept (textBytes "image/png, text/*;q=0.5") = true) ∧
    earlyAccept (multiRegistry [sampleType]) (textBytes "image/png, text/*;q=0.5") = true := by
  have h := early_late_accept (List.cons_ne_nil sampleType []) (textBytes "image/png, text/*;q=0.5")
  refine ⟨h.1, (h.2 sampleExternals ["text/html"] [textBytes "text/html"]
    (newServer_sampleType newContentType_sample)
    { requestId := 1, contentType := "text/html", contentSize := 1, maxCacheDuration := none,
      filename := none } sampleType newContentType_sample List.mem_cons_self).1 ?_⟩
  decide +kernel

end Loon
