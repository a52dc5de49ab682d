import Mathlib.Algebra.Order.Group.Int
import Mathlib.Data.List.TakeWhile
import Loon.Lib.Machine
import Loon.Lib.SignedInt
import Loon.Lib.Window
import Loon.Client.Session

set_option autoImplicit false

/-!
# The limits on requests

`check_request_limit`: how often the content under one handle may be requested, and how many
requests for missing content there may be in a window of time. The history of the latter is pruned
whenever a request arrives, and `last_request` is the time of the last request that was let through.
The clock reads nanoseconds, the options are seconds and milliseconds: a comparison first converts
them, in 64 bits.

* `checkRequestLimit`: the check as the code makes it;
* `LimitedClient`: the client, whose requests are checked at the time they arrive;
* `ExactAt`: what the check of a request is to find, in terms of all requests before it;
* `LimitOptions.Converts`: the conversions do not change what is compared;
* `Remembers`, `LimitedClient.check_of_run`: what the limiter knows of the requests so far, in
  nanoseconds;
* `missingRequests_run`, `requestedTwice_run`: the runs that tell a wrong conversion;
* **`checks_exact`**: every check of every run finds what it is to find, and what is let through is
  spaced out, if and only if the options convert.
-/

namespace Loon

open SignedInt Window

/-- The options that limit requests: a duration in seconds, and one in milliseconds. -/
structure LimitOptions where
  minCacheDuration : Option Int64
  noContentRequestLimit : Option (UInt64 × Int64)
  deriving DecidableEq, Repr

/-- The checks of the constructor on them. It compares the seconds with milliseconds. -/
def LimitOptions.check (o : LimitOptions) : Except String Unit :=
  if o.minCacheDuration.any (1000 * · ≤ 0) then .error "min_cache_duration must be greater than zero"
  else
    match o.noContentRequestLimit with
    | none => .ok ()
    | some (count, duration) =>
      if count = -1 ∧ duration = 0 then
        .error "no_content_request_limit must be explicitly set to a value"
      else if count = 0 ∨ duration ≤ 0 then
        .error "no_content_request_limit pair values must be greater than zero"
      else .ok ()

/-- The check of `on_hello` on them, against the constraint of the server in seconds. -/
def LimitOptions.accepts (o : LimitOptions) (cacheDuration : UInt32) : Bool :=
  o.minCacheDuration.all fun min => cacheDuration ≠ 0 ∧ min.toInt ≤ (cacheDuration.toNat : ℤ)

/-- The comparison of a duration of the clock with one of seconds converts it to nanoseconds. -/
def ofSeconds (d : Int64) : ℤ := (1000000000 * d).toInt

/-- The same for milliseconds. -/
def ofMilliseconds (w : Int64) : ℤ := (1000000 * w).toInt

/-- What the check keeps between requests, with the readings of the clock. -/
structure RequestLimiter where
  /-- `last_request` of every handle. -/
  lastRequest : ℕ → Option ℤ
  noContentRequestHistory : List ℤ

/-- Nothing was requested yet; new handles start without a `last_request`. -/
def RequestLimiter.init : RequestLimiter := ⟨fun _ => none, []⟩

/-- `check_request_limit` for the handle `it`, if content was found. -/
def RequestLimiter.checkRequestLimit (o : LimitOptions) (l : RequestLimiter) (it : Option ℕ)
    (now : ℤ) : RequestLimiter × Bool :=
  match it, o.minCacheDuration, o.noContentRequestLimit with
  | some i, some duration, _ =>
    if (l.lastRequest i).any fun last => now - last ≤ ofSeconds duration then (l, true)
    else ({ l with lastRequest := Function.update l.lastRequest i (some now) }, false)
  | none, _, some (count, duration) =>
    let history := prune (ofMilliseconds duration) now l.noContentRequestHistory ++ [now]
    ({ l with noContentRequestHistory := history }, decide (history.length > count.toNat))
  | _, _, _ => (l, false)

/-- A call of `check_request_limit` and what it returned. -/
structure Check where
  handle : Option ℕ
  time : ℤ
  limited : Bool
  deriving DecidableEq, Repr

/-- The client within one connection, with the calls of `check_request_limit` so far. -/
structure LimitedClient where
  client : Client
  limiter : RequestLimiter
  checks : List Check

/-- A request arrives at the time `now`, or anything else happens in the client. -/
inductive LimitedEvent where
  | request (id : UInt64) (path : String) (now : ℤ)
  | other (e : ClientEvent)
  deriving DecidableEq, Repr

/-- The event is the message `Request`. -/
def ClientEvent.isRequest : ClientEvent → Bool
  | .message (.request _ _) _ _ => true
  | _ => false

namespace LimitedClient

def init : LimitedClient := ⟨.init, .init, []⟩

/-- One step. A request whose id is in use is not checked; nothing is sent while a request is
handled. -/
def step (o : LimitOptions) (k : Constraints) (s : LimitedClient) : LimitedEvent → Option LimitedClient
  | .request id path now =>
    if (s.client.requests id).isSome then
      (s.client.step k (.message (.request id path) false true)).map fun (c, _) => { s with client := c }
    else
      let it := s.client.content path
      let (limiter, limited) := s.limiter.checkRequestLimit o it now
      (s.client.step k (.message (.request id path) limited true)).map fun (c, _) =>
        ⟨c, limiter, s.checks ++ [⟨it, now, limited⟩]⟩
  | .other e =>
    if e.isRequest then none else (s.client.step k e).map fun (c, _) => { s with client := c }

end LimitedClient

def limitedClient (o : LimitOptions) (k : Constraints) : Machine LimitedClient LimitedEvent where
  init := .init
  step := LimitedClient.step o k

/-! ## The checks so far -/

/-- When the requests that found `it` arrived. -/
def arrivals (it : Option ℕ) (checks : List Check) : List ℤ :=
  (checks.filter fun c => c.handle = it).map Check.time

/-- When the requests for the handle `i` arrived that were let through. -/
def admitted (i : ℕ) (checks : List Check) : List ℤ :=
  (checks.filter fun c => c.handle = some i ∧ c.limited = false).map Check.time

/-- The check `c` after the checks `before` returned what the options say. -/
structure ExactAt (o : LimitOptions) (before : List Check) (c : Check) : Prop where
  noContent : ∀ m w, o.noContentRequestLimit = some (m, w) → c.handle = none →
    (c.limited = true ↔
      m.toNat < (recent (1000000 * w.toInt) c.time (arrivals none (before ++ [c]))).length)
  content : ∀ d i, o.minCacheDuration = some d → c.handle = some i →
    (c.limited = true ↔ ∃ t ∈ admitted i before, c.time - t ≤ 1000000000 * d.toInt)

/-- Every check was exact, and what was let through is spaced out. -/
structure Exact (o : LimitOptions) (checks : List Check) : Prop where
  exactAt : ∀ before c, before ++ [c] <+: checks → ExactAt o before c
  spaced : ∀ d i, o.minCacheDuration = some d →
    (admitted i checks).Pairwise fun t t' => 1000000000 * d.toInt < t' - t

/-- The time frame has fewer than `2 ^ 63` nanoseconds, and a negative `min_cache_duration` has a
negative number of them. -/
structure LimitOptions.Converts (o : LimitOptions) : Prop where
  limit : ∀ m w, o.noContentRequestLimit = some (m, w) → 1000000 * w.toInt < 2 ^ 63
  duration : ∀ d, o.minCacheDuration = some d → d.toInt < 0 → ofSeconds d < 0

/-- What the limiter knows of the checks so far, in nanoseconds. -/
structure Remembers (o : LimitOptions) (l : RequestLimiter) (checks : List Check) : Prop where
  history : ∀ m w, o.noContentRequestLimit = some (m, w) → 0 ≤ ofMilliseconds w →
    Keeps (ofMilliseconds w) (arrivals none checks) l.noContentRequestHistory
  last : ∀ d i, o.minCacheDuration = some d → l.lastRequest i = (admitted i checks).getLast?
  spaced : ∀ d i, o.minCacheDuration = some d →
    (admitted i checks).Pairwise fun t t' => ofSeconds d < t' - t

variable {o : LimitOptions} {k : Constraints} {l : RequestLimiter} {checks before : List Check}
  {c : Check} {i : ℕ} {m : UInt64} {w d : Int64} {now : ℤ} {cacheDuration : UInt32}

@[simp] theorem arrivals_snoc (it : Option ℕ) (checks : List Check) (c : Check) :
    arrivals it (checks ++ [c]) = arrivals it checks ++ if c.handle = it then [c.time] else [] := by
  unfold arrivals
  rw [List.filter_append, List.map_append, List.filter_singleton]
  by_cases h : c.handle = it <;> simp [h]

@[simp] theorem admitted_snoc (i : ℕ) (checks : List Check) (c : Check) :
    admitted i (checks ++ [c]) =
      admitted i checks ++ if c.handle = some i ∧ c.limited = false then [c.time] else [] := by
  unfold admitted
  rw [List.filter_append, List.map_append, List.filter_singleton]
  by_cases h : c.handle = some i ∧ c.limited = false <;> simp [h]

theorem mem_arrivals_le {it : Option ℕ} (h : ∀ c ∈ checks, c.time ≤ now) :
    ∀ t ∈ arrivals it checks, t ≤ now := by
  intro t ht
  obtain ⟨c, hc, rfl⟩ := List.mem_map.mp ht
  exact h c (List.mem_filter.mp hc).1

theorem mem_admitted_le (h : ∀ c ∈ checks, c.time ≤ now) : ∀ t ∈ admitted i checks, t ≤ now := by
  intro t ht
  obtain ⟨c, hc, rfl⟩ := List.mem_map.mp ht
  exact h c (List.mem_filter.mp hc).1

theorem admitted_sorted (h : (checks.map Check.time).Pairwise (· ≤ ·)) :
    (admitted i checks).Pairwise (· ≤ ·) := h.sublist (List.filter_sublist.map _)

/-! ## The conversions -/

theorem LimitOptions.pos_of_check (ho : o.check = .ok ()) (hl : o.noContentRequestLimit = some (m, w)) :
    0 < w.toInt ∧ 0 < m.toNat := by
  unfold check at ho
  split at ho
  · cases ho
  · simp only [hl] at ho
    split at ho
    · cases ho
    · split at ho
      · cases ho
      · rename_i h
        refine ⟨?_, ?_⟩
        · have hw : ¬ w.toInt ≤ 0 := fun hw => h (.inr (Int64.le_iff_toInt_le.mpr hw))
          omega
        · have hm : ¬ m.toNat = 0 := fun hm => h (.inl (UInt64.toNat_inj.mp hm))
          omega

/-- A time frame of fewer than `2 ^ 63` nanoseconds is converted to them. -/
theorem ofMilliseconds_of_fits (h0 : 0 < w.toInt) (h : 1000000 * w.toInt < 2 ^ 63) :
    ofMilliseconds w = 1000000 * w.toInt := by
  have hunit : (1000000 : Int64).toInt = 1000000 := rfl
  rw [ofMilliseconds, Int64.toInt_mul, hunit, Int.bmod_eq_of_le (by omega) (by omega)]

/-- What comes out of the conversion is even. -/
theorem ofMilliseconds_lt (w : Int64) : ofMilliseconds w < 2 ^ 63 - 1 := by
  have hunit : (1000000 : Int64).toInt = 1000000 := rfl
  have hlt := (1000000 * w).toInt_lt
  have hmod : (1000000 * w.toInt).bmod (2 ^ 64) % 2 = 0 := by
    rw [Int.bmod_def]
    omega
  rw [ofMilliseconds]
  rw [Int64.toInt_mul, hunit] at hlt ⊢
  omega

/-- A duration that the server accepts is converted to nanoseconds, or it is negative. -/
theorem LimitOptions.ofSeconds_of_accepts (hc : o.accepts cacheDuration = true)
    (hd : o.minCacheDuration = some d) (h0 : 0 ≤ d.toInt) : ofSeconds d = 1000000000 * d.toInt := by
  have hunit : (1000000000 : Int64).toInt = 1000000000 := rfl
  have hle : d.toInt ≤ cacheDuration.toNat := by
    rw [accepts, hd, Option.all_some, decide_eq_true_eq] at hc
    exact hc.2
  have hlt := cacheDuration.toNat_lt
  rw [ofSeconds, Int64.toInt_mul, hunit, Int.bmod_eq_of_le (by omega) (by omega)]

/-- **The comparison of a time that is not negative** is the one that is meant. -/
theorem LimitOptions.Converts.le_iff (h : o.Converts) (hc : o.accepts cacheDuration = true)
    (hd : o.minCacheDuration = some d) {x : ℤ} (hx : 0 ≤ x) :
    x ≤ ofSeconds d ↔ x ≤ 1000000000 * d.toInt := by
  rcases Int.lt_or_le d.toInt 0 with hneg | hpos
  · have hlt := h.duration d hd hneg
    omega
  · rw [LimitOptions.ofSeconds_of_accepts hc hd hpos]

/-- Of times in their order the last one is the latest. -/
theorem exists_recent_iff {times : List ℤ} {x : ℤ} (ht : times.Pairwise (· ≤ ·)) :
    (∃ t ∈ times, now - t ≤ x) ↔ times.getLast?.any (fun last => now - last ≤ x) = true := by
  cases times using List.reverseRecOn with
  | nil => simp
  | append_singleton times last =>
    rw [List.getLast?_concat, Option.any_some, decide_eq_true_eq]
    constructor
    · rintro ⟨t, hmem, hle⟩
      rcases List.mem_append.mp hmem with hmem | hmem
      · have hlate : t ≤ last := (List.pairwise_append.mp ht).2.2 t hmem last (by simp)
        omega
      · rwa [List.mem_singleton.mp hmem] at hle
    · exact fun hle => ⟨last, by simp, hle⟩

namespace RequestLimiter

theorem checkRequestLimit_content (hd : o.minCacheDuration = some d) :
    l.checkRequestLimit o (some i) now =
      if (l.lastRequest i).any fun last => now - last ≤ ofSeconds d then (l, true)
      else ({ l with lastRequest := Function.update l.lastRequest i (some now) }, false) := by
  simp only [checkRequestLimit, hd]

theorem checkRequestLimit_noContent (hl : o.noContentRequestLimit = some (m, w)) :
    l.checkRequestLimit o none now =
      ({ l with
          noContentRequestHistory := prune (ofMilliseconds w) now l.noContentRequestHistory ++ [now] },
        decide ((prune (ofMilliseconds w) now l.noContentRequestHistory ++ [now]).length >
          m.toNat)) := by
  simp only [checkRequestLimit, hl]

theorem history_of_content :
    (l.checkRequestLimit o (some i) now).1.noContentRequestHistory = l.noContentRequestHistory := by
  cases hd : o.minCacheDuration with
  | none => simp only [checkRequestLimit, hd]
  | some d =>
    rw [checkRequestLimit_content hd]
    split <;> rfl

theorem lastRequest_of_noContent :
    (l.checkRequestLimit o none now).1.lastRequest = l.lastRequest := by
  cases hl : o.noContentRequestLimit with
  | none => simp only [checkRequestLimit, hl]
  | some limit => simp only [checkRequestLimit, hl]

end RequestLimiter

namespace Remembers

open RequestLimiter

theorem init (o : LimitOptions) : Remembers o .init [] :=
  ⟨fun _ _ _ _ => .nil _, fun _ _ _ => rfl, fun _ _ _ => .nil⟩

theorem limited_iff (h : Remembers o l checks) (hsteady : (checks.map Check.time).Pairwise (· ≤ ·))
    (hd : o.minCacheDuration = some d) :
    (l.lastRequest i).any (fun last => now - last ≤ ofSeconds d) = true ↔
      ∃ t ∈ admitted i checks, now - t ≤ ofSeconds d := by
  rw [h.last d i hd]
  exact (exists_recent_iff (admitted_sorted hsteady)).symm

/-- **A check is exact.** -/
theorem exactAt (h : Remembers o l checks) (ho : o.check = .ok ())
    (hc : o.accepts cacheDuration = true) (hconv : o.Converts)
    (hsteady : (checks.map Check.time).Pairwise (· ≤ ·)) (hnow : ∀ c ∈ checks, c.time ≤ now)
    (it : Option ℕ) : ExactAt o checks ⟨it, now, (l.checkRequestLimit o it now).2⟩ := by
  constructor
  · rintro m w hl ⟨⟩
    obtain ⟨hw, -⟩ := LimitOptions.pos_of_check ho hl
    have hfits := ofMilliseconds_of_fits hw (hconv.limit m w hl)
    have hpos : 0 ≤ ofMilliseconds w := by omega
    obtain ⟨heq, -⟩ := (h.history m w hl hpos).push hpos (mem_arrivals_le hnow)
    rw [checkRequestLimit_noContent hl, heq, decide_eq_true_eq, arrivals_snoc, if_pos rfl, hfits]
  · rintro d i hd ⟨⟩
    have hiff : (∃ t ∈ admitted i checks, now - t ≤ 1000000000 * d.toInt) ↔
        ∃ t ∈ admitted i checks, now - t ≤ ofSeconds d := by
      refine exists_congr fun t => and_congr_right fun ht => (hconv.le_iff hc hd ?_).symm
      have hle := mem_admitted_le hnow t ht
      omega
    rw [hiff, ← h.limited_iff hsteady hd, checkRequestLimit_content hd]
    split <;> simp_all

/-- **A check is remembered.** -/
theorem check (h : Remembers o l checks) (hsteady : (checks.map Check.time).Pairwise (· ≤ ·))
    (hnow : ∀ c ∈ checks, c.time ≤ now) (it : Option ℕ) :
    Remembers o (l.checkRequestLimit o it now).1
      (checks ++ [⟨it, now, (l.checkRequestLimit o it now).2⟩]) := by
  cases it with
  | none =>
    refine ⟨fun m w hl hpos => ?_, fun d i hd => ?_, fun d i hd => ?_⟩
    · rw [checkRequestLimit_noContent hl, arrivals_snoc, if_pos rfl]
      exact ((h.history m w hl hpos).push hpos (mem_arrivals_le hnow)).2
    · rw [lastRequest_of_noContent, admitted_snoc, if_neg (by simp), List.append_nil]
      exact h.last d i hd
    · rw [admitted_snoc, if_neg (by simp), List.append_nil]
      exact h.spaced d i hd
  | some i =>
    refine ⟨fun m w hl hpos => ?_, fun d j hd => ?_, fun d j hd => ?_⟩
    · rw [history_of_content, arrivals_snoc, if_neg (by simp), List.append_nil]
      exact h.history m w hl hpos
    · rw [checkRequestLimit_content hd]
      split
      · rw [admitted_snoc, if_neg (by simp), List.append_nil]
        exact h.last d j hd
      · by_cases hj : j = i
        · subst hj
          rw [admitted_snoc, if_pos ⟨rfl, rfl⟩, List.getLast?_concat]
          exact Function.update_self _ _ _
        · rw [admitted_snoc, if_neg fun hi => hj (Option.some.inj hi.1).symm, List.append_nil,
            ← h.last d j hd]
          exact Function.update_of_ne hj _ _
    · rw [checkRequestLimit_content hd]
      split
      · rw [admitted_snoc, if_neg (by simp), List.append_nil]
        exact h.spaced d j hd
      · rename_i hnot
        rw [admitted_snoc]
        split
        · rename_i hij
          obtain ⟨⟨⟩, -⟩ := hij
          rw [h.limited_iff hsteady hd] at hnot
          refine List.pairwise_append.mpr
            ⟨h.spaced d i hd, List.pairwise_singleton _ _, fun t ht now' hnow' => ?_⟩
          rw [List.mem_singleton.mp hnow']
          exact lt_of_not_ge fun hle => hnot ⟨t, ht, hle⟩
        · rw [List.append_nil]
          exact h.spaced d j hd

/-- What is spaced out in nanoseconds is so in seconds. -/
theorem spaced_seconds (h : Remembers o l checks) (hc : o.accepts cacheDuration = true)
    (hconv : o.Converts) (hsteady : (checks.map Check.time).Pairwise (· ≤ ·))
    (hd : o.minCacheDuration = some d) (i : ℕ) :
    (admitted i checks).Pairwise fun t t' => 1000000000 * d.toInt < t' - t := by
  refine ((h.spaced d i hd).and (admitted_sorted hsteady)).imp fun {t t'} htt' => ?_
  have hx : 0 ≤ t' - t := by
    have hle := htt'.2
    omega
  have hiff := hconv.le_iff hc hd hx
  have hlt := htt'.1
  omega

end Remembers

/-! ## The client -/

namespace LimitedClient

variable {s s' : LimitedClient}

/-- A step makes one check or none. -/
theorem step_cases {e : LimitedEvent} (h : s.step o k e = some s') :
    (s'.limiter = s.limiter ∧ s'.checks = s.checks) ∨
    ∃ id path now, e = .request id path now ∧
      let (limiter, limited) := s.limiter.checkRequestLimit o (s.client.content path) now
      s'.limiter = limiter ∧ s'.checks = s.checks ++ [⟨s.client.content path, now, limited⟩] := by
  cases e with
  | request id path now =>
    unfold step at h
    simp only at h
    split at h
    · obtain ⟨_, -, rfl⟩ := Option.map_eq_some_iff.mp h
      exact .inl ⟨rfl, rfl⟩
    · obtain ⟨_, -, rfl⟩ := Option.map_eq_some_iff.mp h
      exact .inr ⟨id, path, now, rfl, rfl, rfl⟩
  | other e =>
    unfold step at h
    simp only at h
    split at h
    · cases h
    · obtain ⟨_, -, rfl⟩ := Option.map_eq_some_iff.mp h
      exact .inl ⟨rfl, rfl⟩

/-- **What a limiter knows in a run**, if the clock is steady. -/
theorem remembers_of_run {es : List LimitedEvent}
    (hr : (limitedClient o k).run (limitedClient o k).init es = some s)
    (hsteady : (s.checks.map Check.time).Pairwise (· ≤ ·)) : Remembers o s.limiter s.checks := by
  revert hsteady
  refine Machine.run_induction (M := limitedClient o k)
    (P := fun _ s => (s.checks.map Check.time).Pairwise (· ≤ ·) → Remembers o s.limiter s.checks)
    (fun _ => .init o) ?_ hr
  intro _ s _ s' _ ih hs hsteady
  rcases LimitedClient.step_cases hs with ⟨hl, hc⟩ | ⟨id, path, now, -, hl, hc⟩
  · rw [hc] at hsteady
    rw [hl, hc]
    exact ih hsteady
  · rw [hc, List.map_append, List.pairwise_append] at hsteady
    rw [hl, hc]
    exact (ih hsteady.1).check hsteady.1
      (fun c hmem => hsteady.2.2 c.time (List.mem_map_of_mem hmem) now (by simp)) _

/-- **Every check of a run** was made by a limiter that remembers those before it. -/
theorem check_of_run {es : List LimitedEvent}
    (hr : (limitedClient o k).run (limitedClient o k).init es = some s)
    (hsteady : (s.checks.map Check.time).Pairwise (· ≤ ·)) (h : before ++ [c] <+: s.checks) :
    ∃ l, Remembers o l before ∧ (before.map Check.time).Pairwise (· ≤ ·) ∧
      (∀ c' ∈ before, c'.time ≤ c.time) ∧
      c = ⟨c.handle, c.time, (l.checkRequestLimit o c.handle c.time).2⟩ := by
  revert hsteady h
  refine Machine.run_induction (M := limitedClient o k)
    (P := fun _ s => (s.checks.map Check.time).Pairwise (· ≤ ·) → before ++ [c] <+: s.checks →
      ∃ l, Remembers o l before ∧ (before.map Check.time).Pairwise (· ≤ ·) ∧
        (∀ c' ∈ before, c'.time ≤ c.time) ∧
        c = ⟨c.handle, c.time, (l.checkRequestLimit o c.handle c.time).2⟩) ?_ ?_ hr
  · intro _ h
    simp [limitedClient, LimitedClient.init] at h
  · intro es s _ s' hr ih hs hsteady hprefix
    rcases LimitedClient.step_cases hs with ⟨-, hchecks⟩ | ⟨id, path, now, -, -, hchecks⟩
    · rw [hchecks] at hsteady hprefix
      exact ih hsteady hprefix
    · rw [hchecks, List.map_append, List.pairwise_append] at hsteady
      rw [hchecks, List.prefix_concat_iff] at hprefix
      rcases hprefix with heq | hprefix
      · obtain ⟨rfl, ⟨⟩⟩ := List.append_inj' heq rfl
        exact ⟨s.limiter, remembers_of_run hr hsteady.1, hsteady.1,
          fun c hmem => hsteady.2.2 c.time (List.mem_map_of_mem hmem) now (by simp), rfl⟩
      · exact ih hsteady.1 hprefix

end LimitedClient

/-! ## What goes wrong -/

/-- `n` requests for missing content at the time 0, each with its response. -/
def missingRequests : ℕ → List LimitedEvent
  | 0 => []
  | n + 1 => missingRequests n ++
    [.request (.ofNat (n + 1)) "" 0, .other (.emptyResponse true)]

/-- The client after `n` requests for missing content. -/
def seenRequests (n : ℕ) : Client := { Client.init with seen := n }

/-- **As many requests for missing content as there may be** are not too many. -/
theorem missingRequests_run (hl : o.noContentRequestLimit = some (m, w)) {n : ℕ} (hn : n ≤ m.toNat) :
    ∃ history, history.length ≤ n ∧ (∀ t ∈ history, t = 0) ∧
      (limitedClient o k).run .init (missingRequests n) =
        some ⟨seenRequests n, ⟨fun _ => none, history⟩, List.replicate n ⟨none, 0, false⟩⟩ := by
  induction n with
  | zero => exact ⟨[], le_rfl, nofun, rfl⟩
  | succ n ih =>
    obtain ⟨history, hlen, hzero, hrun⟩ := ih (by omega)
    -- whatever the window is, the history does not become longer than there were requests
    have hpruned : (prune (ofMilliseconds w) 0 history ++ [0]).length ≤ n + 1 := by
      have hle : (prune (ofMilliseconds w) 0 history).length ≤ history.length :=
        (List.dropWhile_sublist _).length_le
      rw [List.length_append, List.length_singleton]
      omega
    refine ⟨prune (ofMilliseconds w) 0 history ++ [0], hpruned, fun t ht => ?_, ?_⟩
    · rcases List.mem_append.mp ht with ht | ht
      · exact hzero t ((List.dropWhile_sublist _).subset ht)
      · exact List.mem_singleton.mp ht
    · have hcheck : RequestLimiter.checkRequestLimit o ⟨fun _ => none, history⟩ none 0 =
          (⟨fun _ => none, prune (ofMilliseconds w) 0 history ++ [0]⟩, false) := by
        rw [RequestLimiter.checkRequestLimit_noContent hl,
          decide_eq_false (Nat.not_lt.mpr (hpruned.trans hn))]
      rw [missingRequests, Machine.run_append, hrun, Option.bind_some, Machine.run_cons]
      have hfree : (seenRequests n).requests (.ofNat (n + 1)) = none := rfl
      have hnone : (seenRequests n).content "" = none := rfl
      simp only [limitedClient, LimitedClient.step, hfree, hnone, hcheck, Option.isSome_none,
        Bool.false_eq_true, if_false]
      rw [List.replicate_succ']
      rfl

/-- The checks of `n` such requests, and of one as late as the clock can tell. -/
def missingChecks (n : ℕ) : List Check :=
  List.replicate n ⟨none, 0, false⟩ ++ [⟨none, 2 ^ 63 - 1, false⟩]

theorem missingChecks_sorted (n : ℕ) : ((missingChecks n).map Check.time).Pairwise (· ≤ ·) := by
  rw [missingChecks, List.map_append, List.map_replicate, List.pairwise_append]
  refine ⟨List.pairwise_replicate.mpr (.inr le_rfl), List.pairwise_singleton _ _, fun t ht t' ht' => ?_⟩
  rw [List.eq_of_mem_replicate ht, List.mem_singleton.mp ht']
  decide

/-- A window that overflows does not reach back to the first requests. -/
theorem missingChecks_run (ho : o.check = .ok ()) (hl : o.noContentRequestLimit = some (m, w)) :
    ∃ s, (limitedClient o k).run .init (missingRequests m.toNat ++ [.request 0 "" (2 ^ 63 - 1)]) =
      some s ∧ s.checks = missingChecks m.toNat := by
  obtain ⟨-, hm⟩ := LimitOptions.pos_of_check ho hl
  obtain ⟨history, -, hzero, hrun⟩ := missingRequests_run (k := k) hl le_rfl
  have hpruned : prune (ofMilliseconds w) (2 ^ 63 - 1) history = [] := by
    rw [prune, List.dropWhile_eq_nil_iff]
    intro t ht
    rw [hzero t ht, decide_eq_true_eq]
    have hlt := ofMilliseconds_lt w
    omega
  have hcheck : RequestLimiter.checkRequestLimit o ⟨fun _ => none, history⟩ none (2 ^ 63 - 1) =
      (⟨fun _ => none, [2 ^ 63 - 1]⟩, false) := by
    rw [RequestLimiter.checkRequestLimit_noContent hl, hpruned]
    exact congrArg _ (decide_eq_false (Nat.not_lt.mpr hm))
  have hfree : (seenRequests m.toNat).requests 0 = none := rfl
  have hnone : (seenRequests m.toNat).content "" = none := rfl
  refine ⟨⟨(seenRequests m.toNat).onRequest 0 "" false, ⟨fun _ => none, [2 ^ 63 - 1]⟩,
    missingChecks m.toNat⟩, ?_, rfl⟩
  rw [Machine.run_append, hrun, Option.bind_some, Machine.run_cons]
  simp only [limitedClient, LimitedClient.step, hfree, hnone, hcheck, Option.isSome_none,
    Bool.false_eq_true, if_false]
  rfl

/-- All of them are in a window of `2 ^ 63` nanoseconds or more. -/
theorem recent_missingChecks {x : ℤ} (hx : 2 ^ 63 ≤ x) (n : ℕ) :
    (recent x (2 ^ 63 - 1) (arrivals none (missingChecks n))).length = n + 1 := by
  have hall : arrivals none (missingChecks n) = List.replicate n 0 ++ [2 ^ 63 - 1] := by
    rw [missingChecks, arrivals_snoc, if_pos rfl, arrivals, List.filter_eq_self.mpr, List.map_replicate]
    intro c hc
    rw [List.eq_of_mem_replicate hc]
    rfl
  have hrecent : recent x (2 ^ 63 - 1) (List.replicate n 0 ++ [2 ^ 63 - 1]) =
      List.replicate n 0 ++ [2 ^ 63 - 1] := by
    refine List.filter_eq_self.mpr fun t ht => decide_eq_true ?_
    rcases List.mem_append.mp ht with ht | ht
    · rw [List.eq_of_mem_replicate ht]
      omega
    · rw [List.mem_singleton.mp ht]
      omega
  rw [hall, hrecent, List.length_append, List.length_replicate, List.length_singleton]

/-- The client after `source` was registered with `info`. -/
def registeredClient (source : ContentSource) (info : ContentInfo) : Client :=
  { Client.init.put 0 (newRequestHandler source info) with
    content := Function.update Client.init.content info.path (some 0)
    registered := 1 }

/-- A content, and two requests for it that are `gap` apart. -/
def requestedTwice (source : ContentSource) (info : ContentInfo) (gap : ℤ) : List LimitedEvent :=
  [.other (.register source info), .request 1 info.path 0, .request 2 info.path gap]

/-- **The second of two requests is too many** if it comes too soon. -/
theorem requestedTwice_run {source : ContentSource} {info : ContentInfo} {c : Client} {gap : ℤ}
    (hd : o.minCacheDuration = some d) (hreg : Client.init.registerContent k source info = .ok c)
    (hgap : gap ≤ ofSeconds d) : ∃ s,
      (limitedClient o k).run .init (requestedTwice source info gap) = some s ∧
      s.checks = [⟨some 0, 0, false⟩, ⟨some 0, gap, true⟩] ∧ (s.client.handlers 0).info = info := by
  obtain rfl : c = registeredClient source info := Client.registerContent_eq_ok hreg
  have hcontent : (registeredClient source info).content info.path = some 0 := Function.update_self _ _ _
  -- the client after the registration, and after each request
  let s₁ : LimitedClient := ⟨registeredClient source info, .init, []⟩
  let l₁ : RequestLimiter := { RequestLimiter.init with
    lastRequest := Function.update RequestLimiter.init.lastRequest 0 (some 0) }
  let s₂ : LimitedClient :=
    ⟨(registeredClient source info).onRequest 1 info.path false, l₁, [⟨some 0, 0, false⟩]⟩
  let s₃ : LimitedClient :=
    ⟨s₂.client.onRequest 2 info.path true, l₁, [⟨some 0, 0, false⟩, ⟨some 0, gap, true⟩]⟩
  have hcontent₂ : s₂.client.content info.path = some 0 := by
    simp only [s₂, Client.onRequest, hcontent]
    exact hcontent
  have h1 : (limitedClient o k).step .init (.other (.register source info)) = some s₁ := by
    change (Client.init.step k (.register source info)).map _ = _
    simp only [Client.step, hreg]
    rfl
  have h2 : (limitedClient o k).step s₁ (.request 1 info.path 0) = some s₂ := by
    have hcheck : RequestLimiter.init.checkRequestLimit o (some 0) 0 = (l₁, false) := by
      rw [RequestLimiter.checkRequestLimit_content hd]
      rfl
    change (limitedClient o k).step ⟨registeredClient source info, .init, []⟩ _ = _
    simp only [limitedClient, LimitedClient.step, hcontent, hcheck]
    rfl
  have h3 : (limitedClient o k).step s₂ (.request 2 info.path gap) = some s₃ := by
    have hcheck : l₁.checkRequestLimit o (some 0) gap = (l₁, true) := by
      rw [RequestLimiter.checkRequestLimit_content hd]
      simp [l₁, hgap]
    have hfree : s₂.client.requests 2 = none := by
      simp only [s₂, Client.onRequest, hcontent]
      rfl
    have hready : s₂.client.unregistering = none ∧ s₂.client.responding = none := by
      simp only [s₂, Client.onRequest, hcontent]
      exact ⟨rfl, rfl⟩
    have hstep : s₂.client.step k (.message (.request 2 info.path) true true) =
        some (s₃.client, []) := by
      simp only [Client.step, hready.1, hready.2, Option.isNone_none, and_self, if_true]
      rfl
    have hlimiter : s₂.limiter = l₁ := rfl
    simp only [limitedClient, LimitedClient.step, hfree, hcontent₂, hlimiter, hcheck, hstep,
      Option.isSome_none, Bool.false_eq_true, if_false, Option.map_some]
    rfl
  refine ⟨s₃, ?_, rfl, ?_⟩
  · rw [requestedTwice, Machine.run_cons, h1, Option.bind_some, Machine.run_cons, h2, Option.bind_some,
      Machine.run_cons, h3]
    rfl
  · simp only [s₃, s₂, Client.onRequest, hcontent]
    rfl

/-- A time frame that overflows lets a request through that is too many. -/
theorem limit_of_exact (ho : o.check = .ok ()) (hl : o.noContentRequestLimit = some (m, w))
    (hall : ∀ es s, (limitedClient o k).run .init es = some s →
      (s.checks.map Check.time).Pairwise (· ≤ ·) → Exact o s.checks) : 1000000 * w.toInt < 2 ^ 63 := by
  by_contra hover
  obtain ⟨s, hrun, hchecks⟩ := missingChecks_run (k := k) ho hl
  have hexact := hall _ s hrun (by rw [hchecks]; exact missingChecks_sorted _)
  rw [hchecks] at hexact
  have hiff := (hexact.exactAt _ _ List.prefix_rfl).noContent m w hl rfl
  have hlen := recent_missingChecks (Int.not_lt.mp hover) m.toNat
  have hlim := hiff.mpr (hlen ▸ Nat.lt_succ_self _)
  cases hlim

/-- A content and constraints that allow it. -/
def permitted : Constraints := ⟨2, 100, ["text/plain"]⟩

/-- A negative duration that is not converted to one stops requests that are not too many. -/
theorem duration_of_exact (hd : o.minCacheDuration = some d) (hneg : d.toInt < 0)
    (hall : ∀ es s, (limitedClient o permitted).run .init es = some s →
      (s.checks.map Check.time).Pairwise (· ≤ ·) → Exact o s.checks) : ofSeconds d < 0 := by
  by_contra hover
  have hreg : Client.init.registerContent permitted ⟨"text/plain", 1, [7]⟩ ⟨"one", none, none⟩ =
      .ok (registeredClient ⟨"text/plain", 1, [7]⟩ ⟨"one", none, none⟩) := rfl
  obtain ⟨s, hrun, hchecks, -⟩ := requestedTwice_run hd hreg (Int.not_lt.mp hover)
  have hexact := hall _ s hrun (by rw [hchecks]; decide)
  rw [hchecks] at hexact
  have hiff := (hexact.exactAt [⟨some 0, 0, false⟩] _ List.prefix_rfl).content d 0 hd rfl
  obtain ⟨t, ht, hle⟩ := hiff.mp rfl
  have ht : t = 0 := List.mem_singleton.mp ht
  rw [ht] at hle
  change (0 : ℤ) - 0 ≤ _ at hle
  omega

/-- **The checks are exact if and only if the options convert.** For options that the constructor and
`on_hello` accept: in every run whose requests are checked at times that do not decrease, every check
returned what the options say of the checks before it, and the requests for one handle that were let
through are further apart than `min_cache_duration`, exactly if the time frame has fewer than `2 ^ 63`
nanoseconds and a negative `min_cache_duration` is converted to a negative duration. -/
theorem checks_exact (ho : o.check = .ok ()) (hc : o.accepts cacheDuration = true) :
    (∀ k es s, (limitedClient o k).run .init es = some s →
      (s.checks.map Check.time).Pairwise (· ≤ ·) → Exact o s.checks) ↔ o.Converts := by
  constructor
  · intro hall
    refine ⟨fun m w hl => limit_of_exact ho hl (hall permitted), fun d hd hneg => ?_⟩
    exact duration_of_exact hd hneg (hall permitted)
  · intro hconv k es s hr hsteady
    refine ⟨fun before c hprefix => ?_, fun d i hd => ?_⟩
    · obtain ⟨l, hl, hsorted, hnow, heq⟩ := LimitedClient.check_of_run hr hsteady hprefix
      rw [heq]
      exact hl.exactAt ho hc hconv hsorted hnow _
    · exact (LimitedClient.remembers_of_run hr hsteady).spaced_seconds hc hconv hsteady hd i

/-- A request for content every six seconds, and one for missing content in five. -/
def sampleLimits : LimitOptions := ⟨some 5, some (1, 5000)⟩

/-- Requests at the edge of their window and just behind it. -/
def edgeRequests : List LimitedEvent :=
  [.other (.register ⟨"text/plain", 1, [7]⟩ ⟨"one", none, none⟩), .request 1 "one" 0,
    .request 2 "one" 5000000000, .request 3 "one" 5000000001, .request 4 "two" 5000000001,
    .other (.emptyResponse true), .request 5 "two" 10000000002, .other (.emptyResponse true),
    .request 6 "two" 15000000002]

/-- The client after the requests. -/
def edgeClient : LimitedClient :=
  ((limitedClient sampleLimits permitted).run .init edgeRequests).getD .init

theorem checks_exact_edges :
    edgeClient.checks =
      [⟨some 0, 0, false⟩, ⟨some 0, 5000000000, true⟩, ⟨some 0, 5000000001, false⟩,
        ⟨none, 5000000001, false⟩, ⟨none, 10000000002, false⟩, ⟨none, 15000000002, true⟩] ∧
    Exact sampleLimits edgeClient.checks := by
  have hconv : sampleLimits.Converts := by
    refine ⟨?_, ?_⟩
    · rintro m w ⟨⟩
      decide
    · rintro d ⟨⟩ hneg
      exact absurd hneg (by decide)
  have hrun : (limitedClient sampleLimits permitted).run .init edgeRequests = some edgeClient := rfl
  have hc : sampleLimits.accepts 60 = true := by decide
  exact ⟨by decide, (checks_exact (by decide) hc).mpr hconv permitted _ _ hrun (by decide)⟩

/-- One request for missing content in the longest time frame there is. -/
def longestFrame : LimitOptions := ⟨none, some (1, .maxValue)⟩

/-- Two requests for missing content, of which the second is not stopped. -/
def unstopped : LimitedClient :=
  ((limitedClient longestFrame permitted).run .init
    [.request 1 "one" 0, .other (.emptyResponse true), .request 2 "two" 1]).getD .init

theorem longestFrame_not_exact :
    longestFrame.check = .ok () ∧ longestFrame.accepts 0 = true ∧
    (limitedClient longestFrame permitted).run .init
      [.request 1 "one" 0, .other (.emptyResponse true), .request 2 "two" 1] = some unstopped ∧
    unstopped.checks = [⟨none, 0, false⟩, ⟨none, 1, false⟩] ∧ ¬ Exact longestFrame unstopped.checks := by
  have hchecks : unstopped.checks = [⟨none, 0, false⟩, ⟨none, 1, false⟩] := by decide
  refine ⟨by decide, by decide, rfl, hchecks, fun hexact => ?_⟩
  rw [hchecks] at hexact
  have hiff := (hexact.exactAt [⟨none, 0, false⟩] _ List.prefix_rfl).noContent 1 .maxValue rfl rfl
  have hlim := hiff.mpr (by decide)
  cases hlim

end Loon
