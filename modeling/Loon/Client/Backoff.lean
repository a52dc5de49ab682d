import Mathlib.Algebra.Order.Ring.Int
import Loon.Lib.SignedInt
import Loon.Client.Steps

set_option autoImplicit false

/-!
# The delay of reconnects

`next_reconnect_delay` as a closed form. The first reconnect comes at once, the second one after the
configured delay; from then on the delay doubles up to its maximum, if there is one. The doubling may
overflow, which the comparison with the configured delay makes up for. The counter of the calls has 64
bits: after 2⁶⁴ calls the delays begin again.

* `checkReconnects`: what the constructor checks;
* `nthDelay`: what the calls return one after the other;
* `Backoff`: the `n`-th delay as the options describe it;
* **`reconnect_backoff`**: the delays of a validated client, after a reset and in every run.
-/

namespace Loon

open SignedInt

/-- The checks of the constructor on the options for reconnects. -/
def ClientOptions.checkReconnects (o : ClientOptions) : Except String Unit :=
  if o.reconnectDelay.any (· ≤ 0) then .error "the reconnect delay must be greater than zero"
  else
    match o.maxReconnectDelay, o.reconnectDelay with
    | none, _ => .ok ()
    | some _, none =>
      .error "the maximum reconnect delay may only be setwhen a reconnect delay is set"
    | some maxDelay, some delay =>
      if maxDelay ≤ delay then
        .error "the maximum reconnect delay must be greater than the reconnect delay"
      else .ok ()

/-- What the `n`-th call of `next_reconnect_delay` since a reset returns, while the counter goes
up. -/
def nthDelay (o : ClientOptions) : ℕ → Int64
  | 0 => 0
  | 1 => 0
  | 2 => o.reconnectDelay.getD 1000
  | n + 3 =>
    match o.maxReconnectDelay with
    | none => nthDelay o (n + 2)
    | some maxDelay =>
      let next := min maxDelay (2 * nthDelay o (n + 2))
      o.reconnectDelay.elim next fun delay => max delay next

/-- The `n`-th delay `r` of a client with the reconnect delay `d`. -/
structure Backoff (o : ClientOptions) (d : Int64) (n : ℕ) (r : Int64) : Prop where
  first : n = 1 → r = 0
  constant : o.maxReconnectDelay = none → 2 ≤ n → r = d
  doubled : ∀ maxDelay, o.maxReconnectDelay = some maxDelay → 2 * maxDelay.toInt < 2 ^ 63 → 2 ≤ n →
    r.toInt = min maxDelay.toInt (d.toInt * 2 ^ (n - 2))
  bounded : ∀ maxDelay, o.maxReconnectDelay = some maxDelay → 2 ≤ n → d ≤ r ∧ r ≤ maxDelay

variable {o : ClientOptions} {d maxDelay : Int64}

/-! ## Options -/

theorem ClientOptions.pos_of_checkReconnects (h : o.checkReconnects = .ok ())
    (hd : o.reconnectDelay = some d) : 0 < d.toInt := by
  unfold checkReconnects at h
  split at h
  · cases h
  · rename_i hpos
    rw [hd, Option.any_some, decide_eq_true_eq, Int64.le_iff_toInt_le] at hpos
    exact Int.lt_of_not_ge hpos

theorem ClientOptions.lt_of_checkReconnects (h : o.checkReconnects = .ok ())
    (hd : o.reconnectDelay = some d) (hm : o.maxReconnectDelay = some maxDelay) :
    d.toInt < maxDelay.toInt := by
  unfold checkReconnects at h
  split at h
  · cases h
  · simp only [hd, hm] at h
    split at h
    · cases h
    · rename_i hle
      rw [Int64.le_iff_toInt_le] at hle
      exact Int.lt_of_not_ge hle

/-! ## The closed form -/

theorem nthDelay_two (hd : o.reconnectDelay = some d) : nthDelay o 2 = d := by
  rw [nthDelay, hd, Option.getD_some]

/-- Every further delay. -/
theorem nthDelay_succ (hd : o.reconnectDelay = some d) (hm : o.maxReconnectDelay = some maxDelay)
    (n : ℕ) : nthDelay o (n + 3) = max d (min maxDelay (2 * nthDelay o (n + 2))) := by
  simp only [nthDelay, hm, hd, Option.elim_some]

theorem nthDelay_constant (hd : o.reconnectDelay = some d) (hm : o.maxReconnectDelay = none) (n : ℕ) :
    nthDelay o (n + 2) = d := by
  induction n with
  | zero => exact nthDelay_two hd
  | succ n ih => simpa only [nthDelay, hm] using ih

/-- **The delays stay within their bounds**, also if the doubling overflows. -/
theorem nthDelay_bounded (hd : o.reconnectDelay = some d) (hm : o.maxReconnectDelay = some maxDelay)
    (hlt : d.toInt < maxDelay.toInt) (n : ℕ) :
    d.toInt ≤ (nthDelay o (n + 2)).toInt ∧ (nthDelay o (n + 2)).toInt ≤ maxDelay.toInt := by
  cases n with
  | zero =>
    rw [nthDelay_two hd]
    exact ⟨le_refl _, hlt.le⟩
  | succ n =>
    rw [nthDelay_succ hd hm, toInt_max, toInt_min]
    omega

/-- **The delays double** until they reach the maximum. -/
theorem nthDelay_doubled (hd : o.reconnectDelay = some d) (hm : o.maxReconnectDelay = some maxDelay)
    (hpos : 0 < d.toInt) (hlt : d.toInt < maxDelay.toInt) (hfits : 2 * maxDelay.toInt < 2 ^ 63)
    (n : ℕ) : (nthDelay o (n + 2)).toInt = min maxDelay.toInt (d.toInt * 2 ^ n) := by
  induction n with
  | zero =>
    rw [nthDelay_two hd, pow_zero, mul_one]
    omega
  | succ n ih =>
    obtain ⟨hlow, hhigh⟩ := nthDelay_bounded hd hm hlt n
    have hdouble : (2 * nthDelay o (n + 2)).toInt = 2 * (nthDelay o (n + 2)).toInt :=
      toInt_two_mul_of_fits (by omega) (by omega)
    have hpow : d.toInt * 2 ^ (n + 1) = 2 * (d.toInt * 2 ^ n) := by
      rw [pow_succ, ← mul_assoc, mul_comm]
    have hgrown : d.toInt ≤ d.toInt * 2 ^ n :=
      le_mul_of_one_le_right hpos.le (one_le_pow₀ (by omega))
    rw [nthDelay_succ hd hm, toInt_max, toInt_min, hdouble, ih, hpow]
    omega

/-- **The `n`-th delay.** -/
theorem backoff_nthDelay (ho : o.checkReconnects = .ok ()) (hd : o.reconnectDelay = some d) (n : ℕ) :
    Backoff o d n (nthDelay o n) := by
  have hpos := ClientOptions.pos_of_checkReconnects ho hd
  have hsplit : 2 ≤ n → n = n - 2 + 2 := by omega
  refine ⟨?_, fun hm hn => ?_, fun maxDelay hm hfits hn => ?_, fun maxDelay hm hn => ?_⟩
  · rintro rfl
    rfl
  · rw [hsplit hn]
    exact nthDelay_constant hd hm _
  · have hlt := ClientOptions.lt_of_checkReconnects ho hd hm
    have h := nthDelay_doubled hd hm hpos hlt hfits (n - 2)
    rwa [← hsplit hn] at h
  · have hlt := ClientOptions.lt_of_checkReconnects ho hd hm
    have h := nthDelay_bounded hd hm hlt (n - 2)
    rw [← hsplit hn] at h
    exact ⟨Int64.le_iff_toInt_le.mpr h.1, Int64.le_iff_toInt_le.mpr h.2⟩

/-- **Behind the 65th delay nothing changes**: it has come to its maximum. -/
theorem Backoff.succ {n : ℕ} {r : Int64} (h : Backoff o d n r) (hpos : 0 < d.toInt) (hn : 65 ≤ n) :
    Backoff o d (n + 1) r := by
  refine ⟨fun h1 => by omega, fun hm _ => h.constant hm (by omega), fun maxDelay hm hfits _ => ?_,
    fun maxDelay hm _ => h.bounded maxDelay hm (by omega)⟩
  have hgrown : ∀ k, 63 ≤ k → maxDelay.toInt ≤ d.toInt * 2 ^ k := by
    intro k hk
    have hpow : (2 : Int) ^ 63 ≤ 2 ^ k := pow_le_pow_right₀ (by decide) hk
    have hle : (2 : Int) ^ k ≤ d.toInt * 2 ^ k :=
      le_mul_of_one_le_left (pow_nonneg (by decide) k) (by omega)
    omega
  rw [h.doubled maxDelay hm hfits (by omega), min_eq_left (hgrown _ (by omega)),
    min_eq_left (hgrown _ (by omega))]

/-! ## The client -/

namespace ClientImpl

variable {s s' : ClientImpl} {e : ClientImplEvent}

/-- The delay is the one of the last attempt, if there was one since the counter was zero. -/
def OnSchedule (o : ClientOptions) (s : ClientImpl) : Prop :=
  1 ≤ s.reconnectAttempt.toNat → s.reconnectDelay = nthDelay o s.reconnectAttempt.toNat

theorem nextReconnectDelay_attempt :
    (s.nextReconnectDelay o).reconnectAttempt.toNat = (s.reconnectAttempt.toNat + 1) % 2 ^ 64 :=
  UInt64.toNat_add s.reconnectAttempt 1

/-- A call that does not bring the counter back to zero. -/
theorem nextReconnectDelay_delay (h : s.OnSchedule o) (hlt : s.reconnectAttempt.toNat + 1 < 2 ^ 64) :
    (s.nextReconnectDelay o).reconnectDelay = nthDelay o (s.reconnectAttempt.toNat + 1) := by
  have hattempt : (s.reconnectAttempt + 1).toNat = s.reconnectAttempt.toNat + 1 :=
    (nextReconnectDelay_attempt (o := o)).trans (Nat.mod_eq_of_lt hlt)
  have heq : ∀ k : UInt64, s.reconnectAttempt + 1 = k ↔ s.reconnectAttempt.toNat + 1 = k.toNat := by
    intro k
    rw [← UInt64.toNat_inj, hattempt]
  unfold nextReconnectDelay
  simp only [heq, UInt64.lt_iff_toNat_lt, hattempt]
  match hn : s.reconnectAttempt.toNat with
  | 0 => rfl
  | 1 => rfl
  | n + 2 =>
    have hdelay := h (by omega)
    rw [hn] at hdelay
    have h1 : n + 2 + 1 ≠ (1 : UInt64).toNat := fun h1 => by cases h1
    have h2 : n + 2 + 1 ≠ (2 : UInt64).toNat := fun h2 => by cases h2
    have h3 : (2 : UInt64).toNat < n + 2 + 1 := by
      show 2 < n + 2 + 1
      omega
    rw [if_neg h1, if_neg h2, if_pos h3, hdelay]
    rfl

/-- The call that brings the counter back to zero leaves the delay as it is. -/
theorem nextReconnectDelay_wraps (hlast : s.reconnectAttempt.toNat + 1 = 2 ^ 64) :
    (s.nextReconnectDelay o).reconnectDelay = s.reconnectDelay := by
  have hzero : s.reconnectAttempt + 1 = 0 := by
    rw [← UInt64.toNat_inj]
    refine (nextReconnectDelay_attempt (o := o)).trans ?_
    rw [hlast]
    rfl
  unfold nextReconnectDelay
  simp only [hzero]
  rfl

/-- **The next delay**, in the round of the counter. -/
theorem OnSchedule.backoff (h : s.OnSchedule o) (ho : o.checkReconnects = .ok ())
    (hd : o.reconnectDelay = some d) :
    Backoff o d (s.reconnectAttempt.toNat + 1) (s.nextReconnectDelay o).reconnectDelay := by
  by_cases hlt : s.reconnectAttempt.toNat + 1 < 2 ^ 64
  · rw [nextReconnectDelay_delay h hlt]
    exact backoff_nthDelay ho hd _
  · have hlast : s.reconnectAttempt.toNat + 1 = 2 ^ 64 := by
      have := s.reconnectAttempt.toNat_lt
      omega
    rw [nextReconnectDelay_wraps hlast, h (by omega)]
    exact (backoff_nthDelay ho hd _).succ (ClientOptions.pos_of_checkReconnects ho hd) (by omega)

theorem onSchedule_of_reset (hn : s.reconnectAttempt = 0) : s.OnSchedule o := by
  intro h
  rw [hn] at h
  exact absurd h (by decide)

namespace OnSchedule

theorem nextReconnectDelay (h : s.OnSchedule o) : (s.nextReconnectDelay o).OnSchedule o := by
  intro hpos
  rw [nextReconnectDelay_attempt] at hpos ⊢
  have hlt : s.reconnectAttempt.toNat + 1 < 2 ^ 64 := by
    have := s.reconnectAttempt.toNat_lt
    omega
  rw [Nat.mod_eq_of_lt hlt]
  exact nextReconnectDelay_delay h hlt

/-- **The calls after a reset.** -/
theorem iterate (s : ClientImpl) (n : ℕ) :
    ((ClientImpl.nextReconnectDelay o)^[n] s.resetReconnectDelay).OnSchedule o ∧
      ((ClientImpl.nextReconnectDelay o)^[n] s.resetReconnectDelay).reconnectAttempt.toNat =
        n % 2 ^ 64 := by
  induction n with
  | zero => exact ⟨onSchedule_of_reset rfl, rfl⟩
  | succ n ih =>
    obtain ⟨hsched, hattempt⟩ := ih
    rw [Function.iterate_succ_apply']
    refine ⟨hsched.nextReconnectDelay, ?_⟩
    rw [nextReconnectDelay_attempt, hattempt]
    omega

theorem of_called (h : s.OnSchedule o) (hc : Called s s') : s'.OnSchedule o := by
  obtain ⟨_, _, _, _, -, rfl⟩ := hc
  exact h

theorem internalStart_if (h : s.OnSchedule o) (b : Bool) :
    (if b then s.internalStart else s).OnSchedule o := by
  cases b <;> exact h

theorem finishInternalStop (h : s.OnSchedule o) : (s.finishInternalStop o).OnSchedule o := by
  unfold ClientImpl.finishInternalStop
  simp only
  split
  · exact onSchedule_of_reset rfl
  · exact h

theorem restart (h : s.OnSchedule o) : s.restart.OnSchedule o := by
  unfold ClientImpl.restart
  split <;> exact h

theorem managerTracksIdling (h : s.OnSchedule o) (now : Int) (doTrack : Bool) :
    (s.managerTracksIdling o now doTrack).OnSchedule o := by
  unfold ClientImpl.managerTracksIdling
  simp only
  split
  · exact h
  split
  · exact h
  split <;> exact h

theorem managerQueues (h : s.OnSchedule o) (now : Int) (doQueue : Bool) :
    (s.managerQueues o now doQueue).OnSchedule o := by
  cases doQueue with
  | false => exact h
  | true =>
    have hq : OnSchedule o { s with queueReconnect := none, reconnectTimePoint := none } := h
    exact hq.nextReconnectDelay

/-- **A step keeps the delay on schedule.** -/
theorem step (h : s.OnSchedule o) (hs : Steps o s e s') : s'.OnSchedule o := by
  cases hs with
  | startAgain => exact (h.of_called (called_setIdle false)).internalStart_if _
  | stopped | destroyStopped | idleStopped | restarted | failed => exact h.finishInternalStop
  | registerContent i source info =>
      exact (h.internalStart_if _).of_called (registerContent_spec i source info)
  | waitUntilReady i => exact (h.internalStart_if _).of_called (waitUntilReady_spec i .ready)
  | connectionSettled i _ purpose => exact h.of_called (called_awaitHello i purpose)
  | connectionTimedOut i purpose => exact h.of_called (called_throwCall i purpose _)
  | helloSettled i _ purpose => exact h.of_called (called_afterHello i purpose)
  | unregister g => exact h.of_called (called_unregister g)
  | websocketOpen =>
      unfold onWebsocketOpen
      simp only
      split
      · exact onSchedule_of_reset rfl
      · exact h
  | websocketClose =>
      unfold onWebsocketClose
      simp only
      split <;> exact h
  | restart => exact h.restart
  | respondFails => exact h.restart
  | hello =>
      unfold acceptHello
      simp only
      split <;> exact h
  | managerTracks now doTrack => exact h.managerTracksIdling now doTrack
  | managerQueues now doQueue => exact h.managerQueues now doQueue
  | _ => exact h

end OnSchedule

end ClientImpl

open ClientImpl

/-- **The backoff of reconnects.** For every client with validated options: the calls of
`next_reconnect_delay` after a reset return the delays of their numbers up to `2 ^ 64`, and from
then on these delays again; and so does the next call in every state that a run reaches. -/
theorem reconnect_backoff {o : ClientOptions} (ho : o.checkReconnects = .ok ()) {d : Int64}
    (hd : o.reconnectDelay = some d) :
    (∀ (s : ClientImpl) (n : ℕ), 1 ≤ n → Backoff o d ((n - 1) % 2 ^ 64 + 1)
      ((nextReconnectDelay o)^[n] s.resetReconnectDelay).reconnectDelay) ∧
    ∀ (es : List ClientImplEvent) (s : ClientImpl), (machine o).run init es = some s →
      Backoff o d (s.reconnectAttempt.toNat + 1) (s.nextReconnectDelay o).reconnectDelay := by
  constructor
  · intro s n hn
    obtain ⟨k, rfl⟩ := Nat.exists_eq_add_of_le' hn
    obtain ⟨hsched, hattempt⟩ := OnSchedule.iterate (o := o) s k
    rw [Function.iterate_succ_apply', Nat.add_sub_cancel, ← hattempt]
    exact hsched.backoff ho hd
  · intro es s hr
    have hsched : s.OnSchedule o :=
      Machine.run_inv (M := machine o) (fun _ _ _ h hs => OnSchedule.step h (steps_of_step hs))
        (onSchedule_of_reset rfl) hr
    exact hsched.backoff ho hd

/-- A second, doubled up to ten. -/
def doublingOptions : ClientOptions :=
  { sampleOptions with maxReconnectDelay := some 10000 }

theorem reconnect_backoff_doubling :
    ((nextReconnectDelay doublingOptions)^[5] init.resetReconnectDelay).reconnectDelay.toInt = 8000 ∧
    ((nextReconnectDelay doublingOptions)^[6] init.resetReconnectDelay).reconnectDelay.toInt =
      10000 := by
  obtain ⟨h, -⟩ := reconnect_backoff (o := doublingOptions) (d := 1000) rfl rfl
  exact ⟨(h init 5 (by decide)).doubled 10000 rfl (by decide) (by decide),
    (h init 6 (by decide)).doubled 10000 rfl (by decide) (by decide)⟩

/-- After `2 ^ 64` calls the counter is zero again, so the next call returns no delay. -/
theorem backoff_begins_again :
    ((nextReconnectDelay doublingOptions)^[2 ^ 64 + 1] init.resetReconnectDelay).reconnectDelay = 0 ∧
    ¬ Backoff doublingOptions 1000 (2 ^ 64 + 1)
      ((nextReconnectDelay doublingOptions)^[2 ^ 64 + 1] init.resetReconnectDelay).reconnectDelay := by
  have hzero : ((nextReconnectDelay doublingOptions)^[2 ^ 64 + 1]
      init.resetReconnectDelay).reconnectDelay = 0 := by
    obtain ⟨hsched, hattempt⟩ := OnSchedule.iterate (o := doublingOptions) init (2 ^ 64)
    rw [Function.iterate_succ_apply']
    exact (hsched.backoff rfl rfl).first (by rw [hattempt, Nat.mod_self])
  refine ⟨hzero, fun h => ?_⟩
  rw [hzero] at h
  exact absurd (h.bounded 10000 rfl (by omega)).1 (by decide)

end Loon
