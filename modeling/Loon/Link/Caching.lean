import Loon.Client.RequestLimit
import Loon.Link.EndToEnd
import Loon.Server.Head

set_option autoImplicit false

/-!
# Caches between a browser and the client

A content carries the time for which it may be stored from the client to the head of the HTTP
response. The client relies on caches when it has the option `min_cache_duration`: it takes two
requests for one content within this time for too many.

* `stored_as_permitted`: **what may be stored** is a content, for no longer than its client and the
  options allow, or that there is none, for ten seconds;
* `min_cache_duration_iff`: requests for a content that are as far apart as it may be stored are
  **never too many** if and only if this is longer than `min_cache_duration`.
-/

namespace Loon

section Stored

variable {ext : Externals} {cfg : Config ext} {fmt : HeadExternals} {es : List RelayEvent} {n : Relay}
  {s : Sys} {p : Ptr}

/-- **What may be stored was permitted.** In every run of a connection whose sources supply exactly
what they announce: if the head of a response allows caches to store it, then it is the content that
the response announces, registered under the path of the request with a maximal duration, and
neither this one nor the one of the options is exceeded; or it is status 404, which may be stored
for ten seconds, and the client had no content under the path. -/
theorem stored_as_permitted (hes : ∀ e ∈ es, e.Exact) (hrun : (relay cfg).run Relay.init es = some n)
    (hs : n.server = .ok s) {h : Handler} (hh : s.handlers p = some h) {H : Head}
    (hH : head cfg fmt h (s.core.objs p).header = some H) {age : ℕ} {seconds : UInt32}
    (hc : H.caching = some (age, .maxAge seconds)) :
    (∃ source info r d, RelayEvent.client (.register source info) ∈ es ∧
        info.path = (s.core.objs p).path ∧
        (s.core.objs p).header = some ((newRequestHandler source info).contentHeader r) ∧
        info.maxCacheDuration = some d ∧ H.code = 200 ∧
        seconds ≠ 0 ∧ seconds ≤ d ∧ seconds ≤ cacheDurationInt cfg fmt) ∨
      H.code = 404 ∧ seconds = 10 ∧ Missing cfg es p (s.core.objs p).path := by
  obtain ⟨s', hI, hb⟩ := relayBooks_of_run hes hrun
  obtain rfl : s' = s := Except.ok.inj (hI.server.symm.trans hs)
  rcases storable_of_head hH hc with ⟨x, hst, hx, hcode, hne, hage⟩ | ⟨hst, hcode, rfl⟩
  · obtain ⟨i, r, hi, -, -, -, hpath, hheader, -⟩ := hb.body hI hh hst
    obtain rfl := Option.some.inj (hx.symm.trans hheader)
    obtain ⟨d, hd, hle, hle'⟩ := exists_of_maxAge hne hage
    exact .inl ⟨_, _, r, d, hb.registered i hi, hpath.symm, hheader, hd, hcode, hne, hle, hle'⟩
  · exact .inr ⟨hcode, rfl, hb.missing_of_notFound hI hh hst⟩

/-- The sample options with an hour of caching. -/
def cachingConfig : Config sampleExternals where
  options := { sampleConfig.options with
    constraints := { sampleConfig.options.constraints with cacheDuration := some 3600000000000 } }
  valid := by decide

def sampleHead : HeadExternals where
  formatMediaType contentType := contentType.type
  outOfRange _ := 0

/-- A page that may be stored for a minute, up to the head of its response. -/
def storedPage : List RelayEvent :=
  [.client (.register ⟨"text/html", 4, [1, 2, 3, 4]⟩ ⟨"page", some 60, none⟩),
   .server (.forwardRequest "page" 0 true), .deliver false true, .client (.serve 0 true),
   .client (.serve 0 true), .recv 1,
   .server (.serve 0 .takeResponse), .server (.serve 0 (.checkAccept .acceptable))]

/-- The connection with an hour of caching after the events `es`. -/
def cachingAfter (es : List RelayEvent) : Relay :=
  ((relay cachingConfig).run Relay.init es).getD Relay.init

theorem stored_as_permitted_storedPage : ∃ s h H, (cachingAfter storedPage).server = .ok s ∧
    s.handlers 0 = some h ∧ head cachingConfig sampleHead h (s.core.objs 0).header = some H ∧
    H.caching = some (0, .maxAge 60) ∧ H.code = 200 ∧
    ((∃ source info r d, RelayEvent.client (.register source info) ∈ storedPage ∧
        info.path = (s.core.objs 0).path ∧
        (s.core.objs 0).header = some ((newRequestHandler source info).contentHeader r) ∧
        info.maxCacheDuration = some d ∧ H.code = 200 ∧ (60 : UInt32) ≠ 0 ∧ 60 ≤ d ∧
        60 ≤ cacheDurationInt cachingConfig sampleHead) ∨
      H.code = 404 ∧ (60 : UInt32) = 10 ∧ Missing cachingConfig storedPage 0 (s.core.objs 0).path) := by
  have hes : ∀ e ∈ storedPage, e.Exact := by
    simp [storedPage, RelayEvent.Exact, ClientEvent.Exact]
  obtain ⟨n, hn⟩ : ∃ n, (relay cachingConfig).run Relay.init storedPage = some n :=
    ⟨cachingAfter storedPage, rfl⟩
  obtain rfl : cachingAfter storedPage = n := by rw [cachingAfter, hn, Option.getD_some]
  obtain ⟨s, hs⟩ : ∃ s, (cachingAfter storedPage).server = .ok s := ⟨_, rfl⟩
  obtain ⟨h, hh, H, hH, hc, hcode⟩ : ∃ h, s.handlers 0 = some h ∧
      ∃ H, head cachingConfig sampleHead h (s.core.objs 0).header = some H ∧
        H.caching = some (0, .maxAge 60) ∧ H.code = 200 := by
    cases hs
    exact ⟨_, rfl, _, rfl, rfl, rfl⟩
  exact ⟨s, h, H, hs, hh, hH, hc, hcode, stored_as_permitted hes hn hs hh hH hc⟩

end Stored

/-! ## Requests that are spaced out -/

section Limited

variable {ext : Externals} (cfg : Config ext) (fmt : HeadExternals)

/-- For how long a content may be stored, in the ticks of the clock. -/
def lifetime (info : ContentInfo) : ℤ := 1000000000 * (maxAge cfg fmt info.maxCacheDuration).toNat

/-- The requests for the handle `i` reach the client as far apart as its content may be stored. -/
def SpacedOut (s : LimitedClient) (i : ℕ) : Prop :=
  (arrivals (some i) s.checks).Pairwise fun t t' => lifetime cfg fmt (s.client.handlers i).info ≤ t' - t

variable {cfg fmt} {o : LimitOptions} {k : Constraints} {es : List LimitedEvent} {s : LimitedClient}
  {d : Int64} {i : ℕ}

theorem lifetime_nonneg (info : ContentInfo) : 0 ≤ lifetime cfg fmt info := by
  unfold lifetime
  omega

theorem mem_arrivals_of_admitted {checks : List Check} {t : ℤ} (ht : t ∈ admitted i checks) :
    t ∈ arrivals (some i) checks := by
  obtain ⟨c, hc, rfl⟩ := List.mem_map.mp ht
  obtain ⟨hc, hi⟩ := List.mem_filter.mp hc
  exact List.mem_map_of_mem (List.mem_filter.mpr ⟨hc, by simpa using (of_decide_eq_true hi).1⟩)

/-- A request that comes later than `min_cache_duration` after all others is let through. -/
theorem LimitedClient.admits (hr : (limitedClient o k).run (limitedClient o k).init es = some s)
    (hsteady : (s.checks.map Check.time).Pairwise (· ≤ ·)) (hd : o.minCacheDuration = some d)
    (hlt : ofSeconds d < lifetime cfg fmt (s.client.handlers i).info) (hspaced : SpacedOut cfg fmt s i)
    {c : Check} (hc : c ∈ s.checks) (hi : c.handle = some i) : c.limited = false := by
  obtain ⟨before, after, hsplit⟩ := List.append_of_mem hc
  have hpre : before ++ [c] <+: s.checks := ⟨after, by rw [hsplit, List.append_assoc]; rfl⟩
  obtain ⟨l, hl, hsorted, -, heq⟩ := LimitedClient.check_of_run hr hsteady hpre
  by_contra hlim
  have hlast : (l.lastRequest i).any (fun last => c.time - last ≤ ofSeconds d) = true := by
    by_contra hlast
    rw [heq, hi, RequestLimiter.checkRequestLimit_content hd, if_neg hlast] at hlim
    exact hlim rfl
  obtain ⟨t, ht, hle⟩ := (hl.limited_iff hsorted hd).mp hlast
  -- the earlier request is as far away as the content may be stored
  have hpair : (arrivals (some i) (before ++ [c])).Pairwise
      fun t t' => lifetime cfg fmt (s.client.handlers i).info ≤ t' - t :=
    hspaced.sublist ((hpre.sublist.filter _).map _)
  rw [arrivals_snoc, if_pos hi, List.pairwise_append] at hpair
  have hfar := hpair.2.2 t (mem_arrivals_of_admitted ht) c.time (by simp)
  omega

/-- **When `min_cache_duration` can be relied on.** For a client with this option that has accepted
the `Hello` message of the server, and for a content that it can register: in every run in which the
requests for the content arrive as far apart as it may be stored no request for it is too many, if
and only if it may be stored for longer than `min_cache_duration`. -/
theorem min_cache_duration_iff {source : ContentSource} {info : ContentInfo} {c : Client}
    (hd : o.minCacheDuration = some d) (hpos : 0 < d.toInt)
    (hc : o.accepts (cacheDurationInt cfg fmt) = true)
    (hreg : Client.init.registerContent k source info = .ok c) :
    (∀ es s i, (limitedClient o k).run (limitedClient o k).init es = some s →
      (s.checks.map Check.time).Pairwise (· ≤ ·) → (s.client.handlers i).info = info →
      SpacedOut cfg fmt s i → ∀ x ∈ s.checks, x.handle = some i → x.limited = false) ↔
    d.toInt < (maxAge cfg fmt info.maxCacheDuration).toNat := by
  have hseconds : ofSeconds d = 1000000000 * d.toInt := LimitOptions.ofSeconds_of_accepts hc hd hpos.le
  constructor
  · intro hall
    by_contra hle
    have hgap : lifetime cfg fmt info ≤ ofSeconds d := by
      unfold lifetime
      omega
    obtain ⟨s, hr, hchecks, hinfo⟩ := requestedTwice_run hd hreg hgap
    have hlim := hall _ s 0 hr (by simp [hchecks, lifetime_nonneg]) hinfo
      (by simp [SpacedOut, hchecks, hinfo, arrivals]) ⟨some 0, lifetime cfg fmt info, true⟩
      (by simp [hchecks]) rfl
    cases hlim
  · intro hlt es s i hr hsteady hinfo hspaced x hx hi
    refine LimitedClient.admits hr hsteady hd ?_ hspaced hx hi
    rw [hinfo, hseconds, lifetime]
    omega

end Limited

/-- A page that may not be stored: two requests for it, however they come, can be too many. -/
theorem min_cache_duration_iff_page :
    ∃ es s i, (limitedClient sampleLimits ⟨2, 100, ["text/html"]⟩).run
        (limitedClient sampleLimits ⟨2, 100, ["text/html"]⟩).init es = some s ∧
      (s.client.handlers i).info = ⟨"page", none, none⟩ ∧ SpacedOut cachingConfig sampleHead s i ∧
      ∃ x ∈ s.checks, x.handle = some i ∧ x.limited = true := by
  have hnot : ¬ (5 : Int64).toInt < (maxAge cachingConfig sampleHead none).toNat := by decide
  have hc : sampleLimits.accepts (cacheDurationInt cachingConfig sampleHead) = true := by decide
  have hiff := @min_cache_duration_iff _ cachingConfig sampleHead sampleLimits ⟨2, 100, ["text/html"]⟩ 5
    ⟨"text/html", 4, [1, 2, 3, 4]⟩ ⟨"page", none, none⟩ _ rfl (by decide) hc rfl
  by_contra hnone
  refine hnot (hiff.mp fun es s i hr _ hinfo hspaced x hx hi => ?_)
  by_contra hlim
  exact hnone ⟨es, s, i, hr, hinfo, hspaced, x, hx, hi, by simpa using hlim⟩

end Loon
