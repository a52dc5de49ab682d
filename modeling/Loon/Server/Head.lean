import Loon.Server.Serve
import Loon.Server.Mime
import Loon.Server.Disposition

set_option autoImplicit false

/-!
# The head of an HTTP response

What `serve` puts in front of the body: the status code, the header fields and, for an error, the
text. A content may be stored by caches for as long as its client and the options allow, and of the
errors only the one for missing content may be stored.

* `cacheDurationInt`, `roundSeconds`: the limit of the options, in seconds;
* `head`: the head that a handler has written;
* `maxAge_le`, `storable_of_head`: **what caches may store**, and for how long.
-/

namespace Loon

/-- `Cache-Control` -/
inductive CacheControl where
  | noStore
  | maxAge (seconds : UInt32)
  deriving DecidableEq, Repr

/-- The head of a response; `text` is the body of an error. -/
structure Head where
  code : ℕ
  contentType : Option Bytes
  contentDisposition : Option Bytes
  /-- `Age` and `Cache-Control` -/
  caching : Option (ℕ × CacheControl)
  text : Option String
  deriving DecidableEq, Repr

/-- The head of an error. -/
def errorHead (code : ℕ) (text : String) : Head := ⟨code, none, none, none, some text⟩

def statusNotFoundCached : Head := { errorHead 404 "not found" with caching := some (0, .maxAge 10) }

def statusTimeout : Head := errorHead 504 "response timed out"

def statusInternalServerError : Head := errorHead 500 "internal server error"

def statusNotAcceptable : Head := errorHead 406 "client response content type not acceptable"

/-- `Round(time.Second).Seconds()` of a duration in nanoseconds. -/
def roundSeconds (d : Time) : ℤ :=
  if d < 0 then -((-d + 500000000) / 1000000000) else (d + 500000000) / 1000000000

/-- What a response needs from outside the repository. -/
structure HeadExternals where
  /-- `mime.FormatMediaType` -/
  formatMediaType : ContentType → Bytes
  /-- The conversion to `uint32` of a number of seconds that is out of its range. -/
  outOfRange : ℤ → UInt32

section Head

variable {ext : Externals} (cfg : Config ext) (fmt : HeadExternals)

/-- `CacheDurationInt`; validated options have a duration. -/
def cacheDurationInt : UInt32 :=
  let seconds := roundSeconds (cfg.options.constraints.cacheDuration.getD 0)
  if 0 ≤ seconds ∧ seconds < 2 ^ 32 then .ofNat seconds.toNat else fmt.outOfRange seconds

/-- The variable `maxAge` of `serve`, for the `MaxCacheDuration` of a header. -/
def maxAge (maxCacheDuration : Option UInt32) : UInt32 :=
  match maxCacheDuration with
  | none => 0
  | some cacheFor => min cacheFor (cacheDurationInt cfg fmt)

/-- The head of a content. -/
def contentHead (header : ContentHeader) : Head where
  code := 200
  contentType := (newContentType ext header.contentType).toOption.map fmt.formatMediaType
  contentDisposition := contentDisposition header
  caching :=
    let maxAge := maxAge cfg fmt header.maxCacheDuration
    some (0, if maxAge = 0 then .noStore else .maxAge maxAge)
  text := none

/-- The head that the handler `h` has written, if its response has the header `header`. -/
def head (h : Handler) (header : Option ContentHeader) : Option Head :=
  match h.status with
  | none => none
  | some .ok => header.map (contentHead cfg fmt)
  | some .notFound => some statusNotFoundCached
  | some .notAcceptable => some statusNotAcceptable
  | some .internalServerError => some statusInternalServerError
  | some .gatewayTimeout => some statusTimeout

variable {cfg fmt} {header : ContentHeader} {h : Handler} {H : Head} {n : UInt32} {age : ℕ}

/-- Both the client and the options limit the age. -/
theorem maxAge_le (d : UInt32) :
    maxAge cfg fmt (some d) ≤ d ∧ maxAge cfg fmt (some d) ≤ cacheDurationInt cfg fmt := by
  have hmin : maxAge cfg fmt (some d) =
      if d ≤ cacheDurationInt cfg fmt then d else cacheDurationInt cfg fmt := rfl
  rw [hmin]
  split
  · next hle => exact ⟨UInt32.le_refl d, hle⟩
  · next hle => exact ⟨UInt32.le_of_lt (UInt32.not_le.mp hle), UInt32.le_refl _⟩

/-- Who sets no age forbids storage. -/
theorem exists_of_maxAge {d : Option UInt32} (hn : n ≠ 0) (h : maxAge cfg fmt d = n) :
    ∃ d', d = some d' ∧ n ≤ d' ∧ n ≤ cacheDurationInt cfg fmt := by
  cases d with
  | none => exact absurd h.symm hn
  | some d' =>
      subst h
      exact ⟨d', rfl, maxAge_le d'⟩

theorem caching_contentHead :
    (contentHead cfg fmt header).caching = some (age, .maxAge n) ↔
      age = 0 ∧ n ≠ 0 ∧ maxAge cfg fmt header.maxCacheDuration = n := by
  simp only [contentHead]
  split
  · next h0 =>
      simp only [Option.some.injEq, Prod.mk.injEq, reduceCtorEq, and_false, false_iff]
      rintro ⟨-, hn, he⟩
      exact hn (he.symm.trans h0)
  · next h0 =>
      simp only [Option.some.injEq, Prod.mk.injEq, CacheControl.maxAge.injEq]
      constructor
      · rintro ⟨rfl, rfl⟩
        exact ⟨rfl, h0, rfl⟩
      · rintro ⟨rfl, -, rfl⟩
        exact ⟨rfl, rfl⟩

/-- **What may be stored**: a content, or that there is none. -/
theorem storable_of_head {header : Option ContentHeader} (hH : head cfg fmt h header = some H)
    (hc : H.caching = some (age, .maxAge n)) :
    (∃ x, h.status = some .ok ∧ header = some x ∧ H.code = 200 ∧ n ≠ 0 ∧
        maxAge cfg fmt x.maxCacheDuration = n) ∨
      h.status = some .notFound ∧ H.code = 404 ∧ n = 10 := by
  unfold head at hH
  split at hH
  · cases hH
  · next hst =>
      obtain ⟨x, rfl, rfl⟩ := Option.map_eq_some_iff.mp hH
      obtain ⟨-, hn, he⟩ := caching_contentHead.mp hc
      exact .inl ⟨x, hst, rfl, rfl, hn, he⟩
  · next hst =>
      cases hH
      cases hc
      exact .inr ⟨hst, rfl, rfl⟩
  all_goals
    cases hH
    cases hc

end Head

end Loon
