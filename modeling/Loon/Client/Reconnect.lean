import Loon.Client.Steps

set_option autoImplicit false

/-!
# Reconnects

A reconnect is asked for when the connection is closed (`m_queue_reconnect`), scheduled in a later
pass of the manager (`m_reconnect_attempt` and the time point) and carried out in another. Nothing
withdraws it in between but `internal_stop`, and `on_websocket_open` for what is scheduled, while the
user may start the connection at any time.

* `ReconnectPending`: a reconnect is queued or scheduled;
* `Reconnects`, `TakesRequest`: the passes that carry out a reconnect and that take a request;
* `ReconnectInv`: the invariant; while a reconnect is pending there is no connection;
* **`reconnects_when_disconnected`**: what these passes assert about the connection and about idling
  holds on every run on which no call starts the connection while a reconnect is pending, the
  connection does not open while one is queued, and idling does not begin in front of a request.

That a started client takes the request (`assert(m_started)`) is not part of it: whether the client is
started when the manager acts is the subject of `stopped_client_never_starts`.
-/

namespace Loon

namespace ClientImpl

variable (o : ClientOptions) (s : ClientImpl)

/-- A reconnect is queued, or the reconnect timer runs. -/
def ReconnectPending : Prop :=
  s.queueReconnect = some true ∨ 0 < s.reconnectAttempt ∧ s.reconnectTimePoint.isSome = true

instance : Decidable s.ReconnectPending := inferInstanceAs (Decidable (_ ∨ _ ∧ _))

/-- The manager waits for the end of the idling after it has seen to `m_track_idling`. -/
def idlesOn : Bool :=
  s.trackIdling = some true && s.started && s.connected &&
    (s.idleWaiting || o.disconnectAfterIdle.isSome)

/-- The pass takes a request from `m_queue_reconnect`. -/
structure TakesRequest (now : Int) : Prop extends s.Attentive now where
  action : s.managerAction = .nothing
  request : s.queueReconnect.isSome = true

/-- The pass calls `internal_reconnect`. -/
structure Reconnects (now : Int) : Prop extends s.Attentive now where
  action : s.managerAction = .nothing
  request : s.queueReconnect = none
  attempt : 0 < s.reconnectAttempt
  expired : expired now s.reconnectTimePoint = true

/-- The assertions about the connection and about idling in a pass of the manager: `!m_idle_waiting`
where it takes a request, and the three of `internal_reconnect`. -/
structure AssertionsHold (now : Int) : Prop where
  request : s.TakesRequest now → s.idleWaiting = false
  reconnect : s.Reconnects now →
    s.connected = false ∧ s.connecting = false ∧ s.idleWaiting = false

/-- The steps that do not get in the way of a reconnect. -/
structure Unrivalled (e : ClientImplEvent) : Prop where
  call : s.callStarts e = true → ¬ s.ReconnectPending
  opened : e = .websocketOpen → s.queueReconnect ≠ some true
  idle : ∀ now, e = .manager now → s.idlesOn o = true → s.queueReconnect = none

/-- **The invariant of reconnects.** -/
structure ReconnectInv : Prop where
  idle : s.idleWaiting = true → s.connected = true ∨ s.trackIdling.isSome = true
  queued : s.queueReconnect.isSome = true → s.idleWaiting = true → s.trackIdling.isSome = true
  down : s.ReconnectPending → s.connected = false ∧ s.connecting = false

variable {o s} {s' : ClientImpl} {e : ClientImplEvent} {now : Int}

/-- A pass that takes a request. -/
theorem TakesRequest.managerIteration (h : s.TakesRequest now) :
    ∃ doQueue, s.managerIteration o now = some (s.managerQueues o now doQueue).loopHead := by
  obtain ⟨doQueue, hq⟩ := Option.isSome_iff_exists.mp h.request
  refine ⟨doQueue, ?_⟩
  have hwakes : s.managerWakes now = true := by
    simp [managerWakes, managerCondition, h.request]
  have hidle : (s.idleWaiting && ClientImpl.expired now s.idleTimePoint) = false := by
    cases hw : s.idleWaiting with
    | false => rfl
    | true => rw [h.idle hw, Bool.true_and]
  simp [ClientImpl.managerIteration, h.manager, hwakes, h.stopManagerLoop, h.trackIdling, hidle,
    h.action, hq]

/-- A pass that reconnects. -/
theorem Reconnects.managerIteration (h : s.Reconnects now) :
    s.managerIteration o now = some { s.internalStart with reconnectTimePoint := none }.loopHead := by
  have hwakes : s.managerWakes now = true := by
    simp [managerWakes, h.expired]
  have hidle : (s.idleWaiting && ClientImpl.expired now s.idleTimePoint) = false := by
    cases hw : s.idleWaiting with
    | false => rfl
    | true => rw [h.idle hw, Bool.true_and]
  simp [ClientImpl.managerIteration, h.manager, hwakes, h.stopManagerLoop, h.trackIdling, hidle,
    h.action, h.request, h.attempt, h.expired]

namespace ReconnectInv

theorem assertionsHold (h : s.ReconnectInv) (now : Int) : s.AssertionsHold now := by
  have hnone : s.trackIdling = none → s.trackIdling.isSome = true → False := by
    intro h1 h2
    rw [h1] at h2
    cases h2
  refine ⟨fun ht => ?_, fun hr => ?_⟩
  · cases hw : s.idleWaiting with
    | false => rfl
    | true => exact absurd (h.queued ht.request hw) (hnone ht.trackIdling)
  · have htime : s.reconnectTimePoint.isSome = true := by
      have := hr.expired
      cases hp : s.reconnectTimePoint with
      | none => simp [ClientImpl.expired, hp] at this
      | some t => rfl
    obtain ⟨h1, h2⟩ := h.down (.inr ⟨hr.attempt, htime⟩)
    refine ⟨h1, h2, ?_⟩
    cases hw : s.idleWaiting with
    | false => rfl
    | true =>
        rcases h.idle hw with hc | ht
        · rw [h1] at hc
          cases hc
        · exact absurd ht (hnone hr.trackIdling)

theorem of_calm (h : s.ReconnectInv) (hc : Calm s s') : s'.ReconnectInv := by
  have htrack : s.trackIdling.isSome = true → s'.trackIdling.isSome = true := by
    intro ht
    rcases hc.trackIdling with h' | h'
    · rw [h', ht]
    · exact h'
  refine ⟨?_, ?_, ?_⟩
  · rw [hc.idleWaiting, hc.connected]
    intro hw
    exact (h.idle hw).imp_right htrack
  · rw [hc.queueReconnect, hc.idleWaiting]
    intro hq hw
    exact htrack (h.queued hq hw)
  · unfold ReconnectPending
    rw [hc.queueReconnect, hc.reconnectAttempt, hc.reconnectTimePoint, hc.connected, hc.connecting]
    exact h.down

theorem internalStart (h : s.ReconnectInv) (hp : ¬ s.ReconnectPending) :
    s.internalStart.ReconnectInv :=
  ⟨h.idle, h.queued, fun hp' => absurd hp' hp⟩

theorem internalStart_if (h : s.ReconnectInv) {b : Bool} (hp : b = true → ¬ s.ReconnectPending) :
    (if b then s.internalStart else s).ReconnectInv := by
  cases b with
  | false => exact h
  | true => exact h.internalStart (hp rfl)

theorem loopHead (h : s.ReconnectInv) : s.loopHead.ReconnectInv := by
  refine ⟨h.idle, h.queued, fun hp => h.down ?_⟩
  rcases hp with hp | ⟨hn, ht⟩
  · exact .inl hp
  · refine .inr ⟨hn, ?_⟩
    have hn' : s.reconnectAttempt ≠ 0 := UInt64.pos_iff_ne_zero.mp hn
    simpa only [ClientImpl.loopHead, if_neg hn'] using ht

/-- `internal_stop` withdraws every reconnect. -/
theorem of_withdrawn (ht : s.trackIdling = some false) (hq : s.queueReconnect = some false)
    (hn : s.reconnectAttempt = 0) : s.ReconnectInv := by
  have htrack : s.trackIdling.isSome = true := by rw [ht]; rfl
  refine ⟨fun _ => .inr htrack, fun _ _ => htrack, fun hp => ?_⟩
  rcases hp with hp | ⟨hp, -⟩
  · rw [hq] at hp
    cases hp
  · exact absurd hn (UInt64.pos_iff_ne_zero.mp hp)

theorem managerTracksIdling (h : s.ReconnectInv) {doTrack : Bool}
    (ht : s.trackIdling = some doTrack) (hi : s.idlesOn o = true → s.queueReconnect = none) :
    (s.managerTracksIdling o now doTrack).ReconnectInv := by
  unfold ClientImpl.managerTracksIdling
  simp only
  split
  · exact ⟨by rintro ⟨⟩, by rintro - ⟨⟩, h.down⟩
  rename_i hn
  simp only [Bool.or_eq_true, Bool.not_eq_true', not_or, Bool.not_eq_false] at hn
  obtain ⟨⟨rfl, hs⟩, hc⟩ := hn
  -- the connection idles on only in front of no request
  have hqueue : (s.idleWaiting || o.disconnectAfterIdle.isSome) = true →
      s.queueReconnect.isSome = true → False := by
    intro hw hq
    rw [hi (by simp only [idlesOn, ht, hs, hc, hw, decide_true, Bool.and_self])] at hq
    cases hq
  split
  · rename_i hw
    refine ⟨fun _ => .inl hc, fun hq _ => ?_, h.down⟩
    exact (hqueue (by rw [hw, Bool.true_or]) hq).elim
  · rename_i hw
    split
    · exact ⟨fun hw' => absurd hw' hw, fun _ hw' => absurd hw' hw, h.down⟩
    · rename_i d hd
      refine ⟨fun _ => .inl hc, fun hq _ => ?_, h.down⟩
      exact (hqueue (by rw [hd, Option.isSome_some, Bool.or_true]) hq).elim

theorem managerQueues (h : s.ReconnectInv) {doQueue : Bool}
    (hq : s.queueReconnect = some doQueue) :
    (s.managerQueues o now doQueue).ReconnectInv := by
  cases doQueue with
  | false =>
      refine ⟨h.idle, by rintro ⟨⟩, fun hp => ?_⟩
      rcases hp with hp | ⟨-, hp⟩ <;> cases hp
  | true => exact ⟨h.idle, by rintro ⟨⟩, fun _ => h.down (.inl hq)⟩

theorem onWebsocketOpen (ho : o.withReconnect = true) (h : s.ReconnectInv)
    (hq : s.queueReconnect ≠ some true) : (s.onWebsocketOpen o).ReconnectInv := by
  simp only [ClientImpl.onWebsocketOpen, ho, if_true]
  refine ⟨fun _ => .inl rfl, h.queued, fun hp => ?_⟩
  rcases hp with hp | ⟨hp, -⟩
  · exact absurd hp hq
  · cases hp

theorem onWebsocketClose : (s.onWebsocketClose o).ReconnectInv := by
  unfold ClientImpl.onWebsocketClose
  simp only
  split <;> exact ⟨fun _ => .inr rfl, fun _ _ => rfl, fun _ => ⟨rfl, rfl⟩⟩

/-- **A step keeps the invariant**, unless it gets in the way of a reconnect. -/
theorem step (ho : o.withReconnect = true) (h : s.ReconnectInv) (hu : s.Unrivalled o e)
    (hs : Steps o s e s') : s'.ReconnectInv := by
  have hfinish : (s.finishInternalStop o).trackIdling = some false ∧
      (s.finishInternalStop o).queueReconnect = some false ∧
      (s.finishInternalStop o).reconnectAttempt = 0 := by
    simp only [finishInternalStop, ho, if_true]
    exact ⟨rfl, rfl, rfl⟩
  obtain ⟨h1, h2, h3⟩ := hfinish
  cases hs with
  | startAgain hst =>
      refine (h.of_calm (called_setIdle false).calm).internalStart_if fun hb => ?_
      have hb : (!s.connected && !s.connecting) = true := hb
      exact hu.call (by simp only [callStarts, hb, Bool.or_true])
  | start hst =>
      have hp := hu.call (by simp only [callStarts, hst, Bool.not_false, Bool.true_or])
      have hI := h.of_calm (called_setIdle false).calm
      exact ⟨hI.idle, hI.queued, fun hp' => absurd hp' hp⟩
  | stopped | destroyStopped => exact of_withdrawn h1 h2 h3
  | idle state => exact h.of_calm (called_setIdle state).calm
  | registerContent i source info =>
      exact (h.internalStart_if hu.call).of_calm (registerContent_spec i source info).calm
  | waitUntilReady i => exact (h.internalStart_if hu.call).of_calm (waitUntilReady_spec i .ready).calm
  | connectionSettled i _ purpose => exact h.of_calm (called_awaitHello i purpose).calm
  | connectionTimedOut i purpose => exact h.of_calm (called_throwCall i purpose _).calm
  | helloSettled i _ purpose => exact h.of_calm (called_afterHello i purpose).calm
  | unregister g => exact h.of_calm (called_unregister g).calm
  | websocketOpen => exact onWebsocketOpen ho h (hu.opened rfl)
  | websocketClose => exact onWebsocketClose
  | restart =>
      unfold ClientImpl.restart
      split <;> exact ⟨h.idle, h.queued, h.down⟩
  | respondFails =>
      have hr : s.restart.ReconnectInv := by
        unfold ClientImpl.restart
        split <;> exact ⟨h.idle, h.queued, h.down⟩
      exact ⟨hr.idle, hr.queued, hr.down⟩
  | hello k =>
      unfold acceptHello
      simp only
      split
      · exact ⟨fun _ => .inr rfl, fun _ _ => rfl, h.down⟩
      · exact ⟨h.idle, h.queued, h.down⟩
  | managerTracks now doTrack hm hl ht =>
      exact (h.managerTracksIdling ht (hu.idle now rfl)).loopHead
  | managerQueues now doQueue _ _ hq => exact (h.managerQueues hq).loopHead
  | managerReconnects now _ _ hq =>
      refine loopHead ⟨h.idle, h.queued, fun hp => ?_⟩
      rcases hp with hp | ⟨-, hp⟩
      · change s.queueReconnect = some true at hp
        rw [hq] at hp
        cases hp
      · cases hp
  | managerPasses => exact h.loopHead
  | idleStopped | restarted | failed => exact loopHead (of_withdrawn h1 h2 h3)
  | _ => exact ⟨h.idle, h.queued, h.down⟩

theorem init : ClientImpl.init.ReconnectInv := by
  refine ⟨by rintro ⟨⟩, by rintro ⟨⟩, ?_⟩
  rintro (hp | ⟨hp, -⟩) <;> cases hp

end ReconnectInv

end ClientImpl

open ClientImpl

/-- **Reconnects fire only when disconnected**, on every run on which no step gets in the way of a
reconnect: when the manager carries out a reconnect there is no connection and none is being opened,
and when it takes a request it does not wait for the end of idling. -/
theorem reconnects_when_disconnected {o : ClientOptions} (ho : o.withReconnect = true)
    {es : List ClientImplEvent} {s : ClientImpl} (hr : (machine o).run init es = some s)
    (hC : (machine o).Along (Unrivalled o) init es) (now : Int) : s.AssertionsHold now := by
  refine ReconnectInv.assertionsHold ?_ now
  refine hC.inv (P := ReconnectInv) (fun s e s' h hu hs => ?_) ReconnectInv.init hr
  exact h.step ho hu (steps_of_step hs)

/-! ## Sample runs -/

/-- The first attempt to connect fails, and so does the reconnect right after it. -/
def reconnectScheduled : List ClientImplEvent :=
  [.start, .manager 0, .websocketClose, .manager 0, .manager 0, .manager 0, .websocketClose,
    .manager 0, .manager 0]

theorem unrivalled_of_ne {o : ClientOptions} {s : ClientImpl} {e : ClientImplEvent}
    (h1 : s.callStarts e = false) (h2 : e ≠ .websocketOpen) (h3 : s.idlesOn o = false) :
    s.Unrivalled o e where
  call h := by rw [h1] at h; cases h
  opened h := absurd h h2
  idle _ _ h := by rw [h3] at h; cases h

theorem reconnects_when_disconnected_reconnectScheduled :
    (clientAfter reconnectScheduled).reconnectTimePoint = some 1000 ∧
      (clientAfter reconnectScheduled).AssertionsHold 1000 := by
  have hrun : (machine sampleOptions).run init reconnectScheduled =
      some (clientAfter reconnectScheduled) := rfl
  refine ⟨rfl, reconnects_when_disconnected rfl hrun ?_ 1000⟩
  refine ⟨⟨fun _ => by decide, by rintro ⟨⟩, by rintro _ ⟨⟩⟩, ?_⟩
  rintro _ ⟨⟩
  iterate 8
    refine ⟨unrivalled_of_ne rfl (by rintro ⟨⟩) rfl, ?_⟩
    rintro _ ⟨⟩
  trivial

/-- The user calls `start` while the reconnect timer runs; the timer expires while the client is
connecting. -/
theorem start_before_reconnect_connects_twice :
    (machine sampleOptions).run init (reconnectScheduled ++ [.start, .manager 0]) =
      some (clientAfter (reconnectScheduled ++ [.start, .manager 0])) ∧
    (clientAfter (reconnectScheduled ++ [.start, .manager 0])).Reconnects 1000 ∧
    (clientAfter (reconnectScheduled ++ [.start, .manager 0])).connecting = true ∧
    ¬ (clientAfter (reconnectScheduled ++ [.start, .manager 0])).AssertionsHold 1000 := by
  have hr : (clientAfter (reconnectScheduled ++ [.start, .manager 0])).Reconnects 1000 :=
    ⟨⟨rfl, rfl, rfl, by rintro ⟨⟩⟩, rfl, rfl, by decide, rfl⟩
  exact ⟨rfl, hr, rfl, fun h => by cases (h.reconnect hr).2.1⟩

end Loon
