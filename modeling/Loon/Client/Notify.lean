import Loon.Lib.Alternate
import Loon.Client.Steps
import Loon.Client.Handles

set_option autoImplicit false

/-!
# Ready and disconnect

A client with the connections of its websocket, of which no more is known than what its interface
says: each connection that was opened is closed once, and `stop` may return before the connection is
closed. Messages may come at any time, also when no connection is open. An attempt to connect that
fails closes without having opened.

* `Wired`, `wiredStep`: the client with the number of its open connections;
* `Notice`, `notice_of_steps`: what a step does to the connection, to Hello and to the callbacks;
* `Prompt`: the steps that wait for the connection of before to be closed, with no Hello outside of a
  connection;
* `WiredInv`: the invariant; the client is ready only on the one open connection, and has said so;
* **`ready_disconnect_alternate`**: the callbacks alternate on every run of such steps.
-/

namespace Loon

open ClientImpl

/-- A client and how many connections of its websocket are open. -/
structure Wired where
  client : ClientImpl
  opened : ℕ

inductive WiredEvent where
  | client (e : ClientImplEvent)
  | connectFailed
  deriving DecidableEq, Repr

def wiredStep (o : ClientOptions) (w : Wired) : WiredEvent → Option Wired
  | .client .websocketOpen =>
    (ClientImpl.step o w.client .websocketOpen).map fun s => ⟨s, w.opened + 1⟩
  | .client .websocketClose =>
    if w.opened = 0 then none
    else (ClientImpl.step o w.client .websocketClose).map fun s => ⟨s, w.opened - 1⟩
  | .client e => (ClientImpl.step o w.client e).map fun s => ⟨s, w.opened⟩
  | .connectFailed => (ClientImpl.step o w.client .websocketClose).map fun s => ⟨s, w.opened⟩

/-- The client with the options `o` and its websocket. -/
def wired (o : ClientOptions) : Machine Wired WiredEvent := ⟨⟨.init, 0⟩, wiredStep o⟩

/-- Only opens and closes change the connections of the websocket. -/
theorem wiredStep_client {o : ClientOptions} {w : Wired} {e : ClientImplEvent}
    (ho : e ≠ .websocketOpen) (hc : e ≠ .websocketClose) :
    wiredStep o w (.client e) = (ClientImpl.step o w.client e).map fun s => ⟨s, w.opened⟩ := by
  cases e with
  | websocketOpen => exact absurd rfl ho
  | websocketClose => exact absurd rfl hc
  | _ => rfl

/-! ## What a step does to the connection -/

namespace ClientImpl

/-- The calls of `m_ready_callback` and `m_disconnect_callback`. -/
def notifications (s : ClientImpl) : List ClientCallback := s.callbacks.filter (· ≠ .failed)

/-- The event is the end of an `internal_stop`. -/
def stopEnds : ClientImplEvent → Bool
  | .stopped => true
  | .managerResume => true
  | .destroyStopped => true
  | _ => false

/-- What the event `e` does to the connection, to Hello and to the callbacks. -/
inductive Notice (s : ClientImpl) : ClientImplEvent → ClientImpl → Prop
  | none (e : ClientImplEvent) {s' : ClientImpl} (hc : s'.connected = s.connected)
      (hh : s'.hello = s.hello) (hn : s'.notifications = s.notifications) : Notice s e s'
  | opens {s' : ClientImpl} (hc : s'.connected = true) (hh : s'.hello = s.hello)
      (hn : s'.notifications = s.notifications) : Notice s .websocketOpen s'
  | closes {s' : ClientImpl} (hc : s'.connected = false) (hh : s'.hello = Option.none)
      (hn : s'.notifications =
        if s.connected && s.hello.isSome then s.notifications ++ [.disconnect]
        else s.notifications) : Notice s .websocketClose s'
  | ready (c : Option (Constraints × UInt32)) {s' : ClientImpl} (h : s.hello = Option.none)
      (hc : s'.connected = s.connected) (hh : s'.hello.isSome = true)
      (hn : s'.notifications = s.notifications ++ [.ready]) : Notice s (.websocketMessage (.hello c)) s'
  | resets (e : ClientImplEvent) {s' : ClientImpl} (he : stopEnds e = true)
      (hc : s'.connected = s.connected) (hh : s'.hello = Option.none)
      (hn : s'.notifications = s.notifications) : Notice s e s'

variable {o : ClientOptions} {s s' : ClientImpl} {e : ClientImplEvent}

theorem notice_of_calm (h : Calm s s') : Notice s e s' :=
  .none e h.connected h.hello (by rw [notifications, h.callbacks, notifications])

theorem notice_start_if {b : Bool} (h : Calm (if b then s.internalStart else s) s') :
    Notice s e s' := by
  have hc := h.connected
  have hh := h.hello
  have hn := h.callbacks
  cases b with
  | false => exact notice_of_calm h
  | true => exact .none e hc hh (by rw [notifications, hn]; rfl)

theorem finishInternalStop_spec : (s.finishInternalStop o).connected = s.connected ∧
    (s.finishInternalStop o).hello = none ∧ (s.finishInternalStop o).callbacks = s.callbacks := by
  unfold finishInternalStop
  simp only
  split <;> exact ⟨rfl, rfl, rfl⟩

theorem onWebsocketOpen_spec : (s.onWebsocketOpen o).connected = true ∧
    (s.onWebsocketOpen o).hello = s.hello ∧
    (s.onWebsocketOpen o).notifications = s.notifications := by
  unfold onWebsocketOpen
  simp only
  split <;> exact ⟨rfl, rfl, rfl⟩

theorem onWebsocketClose_spec : (s.onWebsocketClose o).connected = false ∧
    (s.onWebsocketClose o).hello = none ∧
    (s.onWebsocketClose o).notifications =
      if s.connected && s.hello.isSome then s.notifications ++ [.disconnect]
      else s.notifications := by
  have hn : (s.onWebsocketClose o).callbacks =
      if s.connected && s.hello.isSome then s.callbacks ++ [.disconnect] else s.callbacks := by
    unfold onWebsocketClose
    simp only
    split <;> rfl
  have hc : (s.onWebsocketClose o).connected = false ∧ (s.onWebsocketClose o).hello = none := by
    unfold onWebsocketClose
    simp only
    split <;> exact ⟨rfl, rfl⟩
  refine ⟨hc.1, hc.2, ?_⟩
  rw [notifications, hn]
  split
  · rw [List.filter_append]
    rfl
  · rfl

theorem notice_acceptHello (c : Option (Constraints × UInt32)) (k : Constraints) (h : s.hello = none) :
    Notice s (.websocketMessage (.hello c)) (s.acceptHello o k) := by
  have hn : (s.callbacks ++ [ClientCallback.ready]).filter (· ≠ .failed) =
      s.callbacks.filter (· ≠ .failed) ++ [.ready] := by
    rw [List.filter_append]
    rfl
  unfold acceptHello
  simp only
  split <;> exact .ready c h rfl rfl hn

/-- **What a step does to the connection.** -/
theorem notice_of_steps (h : Steps o s e s') : Notice s e s' := by
  obtain ⟨hc, hh, hn⟩ := finishInternalStop_spec (o := o) (s := s)
  have hfilter : (s.finishInternalStop o).notifications = s.notifications := by
    rw [notifications, hn, notifications]
  have hrestart : s.restart.connected = s.connected ∧ s.restart.hello = s.hello ∧
      s.restart.notifications = s.notifications := by
    unfold ClientImpl.restart
    split <;> exact ⟨rfl, rfl, rfl⟩
  cases h with
  | startAgain =>
      unfold ensureStarted
      split <;> exact .none _ rfl rfl rfl
  | idle state => exact notice_of_calm (called_setIdle state).calm
  | registerContent i source info => exact notice_start_if (registerContent_spec i source info).calm
  | waitUntilReady i => exact notice_start_if (waitUntilReady_spec i .ready).calm
  | connectionSettled i _ purpose => exact notice_of_calm (called_awaitHello i purpose).calm
  | connectionTimedOut i purpose => exact notice_of_calm (called_throwCall i purpose _).calm
  | helloSettled i _ purpose => exact notice_of_calm (called_afterHello i purpose).calm
  | unregister g => exact notice_of_calm (called_unregister g).calm
  | websocketOpen =>
      obtain ⟨hc, hh, hn⟩ := onWebsocketOpen_spec (o := o) (s := s)
      exact .opens hc hh hn
  | websocketClose =>
      obtain ⟨hc, hh, hn⟩ := onWebsocketClose_spec (o := o) (s := s)
      exact .closes hc hh hn
  | restart => exact .none _ hrestart.1 hrestart.2.1 hrestart.2.2
  | respondFails => exact .none _ hrestart.1 hrestart.2.1 hrestart.2.2
  | hello k cacheDuration h => exact notice_acceptHello _ k h
  | managerTracks =>
      unfold managerTracksIdling
      simp only
      repeat' split
      all_goals exact .none _ rfl rfl rfl
  | managerQueues _ doQueue => cases doQueue <;> exact .none _ rfl rfl rfl
  | stopped | idleStopped | restarted | destroyStopped => exact .resets _ rfl hc hh hfilter
  | failed =>
      refine .resets _ rfl hc hh ?_
      rw [← hfilter, notifications]
      exact (List.filter_append _ _).trans (List.append_nil _)
  | _ => exact .none _ rfl rfl rfl

end ClientImpl

/-! ## Steps that wait for the close -/

/-- No `internal_stop` ends while the client is ready, while a connection is open no other one opens
or fails to, and while none is open no Hello is handled. -/
structure Prompt (w : Wired) (e : WiredEvent) : Prop where
  stop : ∀ e', e = .client e' → stopEnds e' = true → w.client.hello = none
  opened : e = .client .websocketOpen → w.opened = 0
  failed : e = .connectFailed → w.opened = 0
  hello : ∀ c, e = .client (.websocketMessage (.hello c)) → w.opened ≠ 0

/-- **The invariant of the callbacks.** -/
structure WiredInv (w : Wired) : Prop where
  opened : w.opened ≤ 1
  connected : w.client.connected = true ↔ w.opened = 1
  hello : w.client.hello.isSome = true → w.opened = 1
  alternates : Alternates .ready .disconnect w.client.notifications
  ready : w.client.hello.isSome = true ↔ w.client.notifications.length % 2 = 1

namespace WiredInv

variable {o : ClientOptions} {w w' : Wired} {s' : ClientImpl}

/-- The client is ready exactly on a connection that has had its Hello. -/
theorem connected_of_hello (h : WiredInv w) (hh : w.client.hello.isSome = true) :
    w.client.connected = true := h.connected.mpr (h.hello hh)

theorem same (h : WiredInv w) (hc : s'.connected = w.client.connected)
    (hh : s'.hello = w.client.hello) (hn : s'.notifications = w.client.notifications) :
    WiredInv ⟨s', w.opened⟩ where
  opened := h.opened
  connected := by rw [hc]; exact h.connected
  hello := by rw [hh]; exact h.hello
  alternates := by rw [hn]; exact h.alternates
  ready := by rw [hh, hn]; exact h.ready

theorem opens (h : WiredInv w) (h0 : w.opened = 0) (hc : s'.connected = true)
    (hh : s'.hello = w.client.hello) (hn : s'.notifications = w.client.notifications) :
    WiredInv ⟨s', w.opened + 1⟩ where
  opened := by simp only [h0]; omega
  connected := by simp only [hc, h0]
  hello _ := by simp only [h0]
  alternates := by rw [hn]; exact h.alternates
  ready := by rw [hh, hn]; exact h.ready

/-- The close of a ready connection is the disconnect of its ready callback. -/
theorem closes (h : WiredInv w) {n : ℕ} (hn0 : n = 0) (hc : s'.connected = false)
    (hh : s'.hello = none)
    (hn : s'.notifications = if w.client.connected && w.client.hello.isSome then
      w.client.notifications ++ [.disconnect] else w.client.notifications) :
    WiredInv ⟨s', n⟩ := by
  have hready : (w.client.connected && w.client.hello.isSome) = true ↔
      w.client.notifications.length % 2 = 1 := by
    rw [Bool.and_eq_true, ← h.ready]
    exact ⟨fun hr => hr.2, fun hr => ⟨h.connected_of_hello hr, hr⟩⟩
  have hcallbacks : Alternates .ready .disconnect s'.notifications ∧
      s'.notifications.length % 2 = 0 := by
    rw [hn]
    split
    · rename_i hr
      have hodd := hready.mp hr
      refine ⟨h.alternates.snoc_snd hodd, ?_⟩
      rw [List.length_append, List.length_singleton]
      omega
    · rename_i hr
      have heven : w.client.notifications.length % 2 ≠ 1 := fun hodd => hr (hready.mpr hodd)
      exact ⟨h.alternates, by omega⟩
  refine ⟨by simp only [hn0]; omega, ?_, ?_, hcallbacks.1, ?_⟩
  · simp only [hc, hn0, Bool.false_eq_true, false_iff]
    omega
  · simp only [hh, Option.isSome_none, Bool.false_eq_true, false_imp_iff]
  · simp only [hh, Option.isSome_none, Bool.false_eq_true, false_iff, hcallbacks.2]
    omega

theorem becomesReady (h : WiredInv w) (h1 : w.opened = 1) (hnone : w.client.hello = none)
    (hc : s'.connected = w.client.connected) (hh : s'.hello.isSome = true)
    (hn : s'.notifications = w.client.notifications ++ [.ready]) :
    WiredInv ⟨s', w.opened⟩ := by
  have heven : w.client.notifications.length % 2 = 0 := by
    have := h.ready
    simp only [hnone, Option.isSome_none, Bool.false_eq_true, false_iff] at this
    omega
  refine ⟨h.opened, ?_, fun _ => h1, ?_, ?_⟩
  · rw [hc]
    exact h.connected
  · rw [hn]
    exact h.alternates.snoc_fst heven
  · simp only [hh, hn, List.length_append, List.length_singleton, true_iff]
    omega

/-- An event of the client that is none of the websocket's opens and closes. -/
theorem clientStep (h : WiredInv w) {e : ClientImplEvent} (hp : Prompt w (.client e))
    (ho : e ≠ .websocketOpen) (hc : e ≠ .websocketClose)
    (hs : ClientImpl.step o w.client e = some s') : WiredInv ⟨s', w.opened⟩ := by
  cases notice_of_steps (steps_of_step hs) with
  | none _ hc hh hn => exact h.same hc hh hn
  | opens => exact absurd rfl ho
  | closes => exact absurd rfl hc
  | ready c hnone hc hh hn =>
      have hle := h.opened
      have hopen := hp.hello c rfl
      exact h.becomesReady (by omega) hnone hc hh hn
  | resets _ he hc hh hn => exact h.same hc (by rw [hh, hp.stop _ rfl he]) hn

/-- The close callback, after which no connection is open. -/
theorem closeStep (h : WiredInv w) {n : ℕ} (hn0 : n = 0)
    (hs : ClientImpl.step o w.client .websocketClose = some s') : WiredInv ⟨s', n⟩ := by
  simp only [ClientImpl.step] at hs
  split at hs
  · cases hs
  · cases hs
    obtain ⟨hc, hh, hn⟩ := onWebsocketClose_spec (o := o) (s := w.client)
    exact h.closes hn0 hc hh hn

/-- **A prompt step keeps the invariant.** -/
theorem step (h : WiredInv w) {e : WiredEvent} (hp : Prompt w e)
    (hs : wiredStep o w e = some w') : WiredInv w' := by
  cases e with
  | connectFailed =>
      obtain ⟨s', hs', rfl⟩ := Option.map_eq_some_iff.mp hs
      exact h.closeStep (hp.failed rfl) hs'
  | client e =>
      cases e with
      | websocketOpen =>
          cases hs
          obtain ⟨hc, hh, hn⟩ := onWebsocketOpen_spec (o := o) (s := w.client)
          exact h.opens (hp.opened rfl) hc hh hn
      | websocketClose =>
          simp only [wiredStep] at hs
          split at hs
          · cases hs
          · obtain ⟨s', hs', rfl⟩ := Option.map_eq_some_iff.mp hs
            have := h.opened
            exact h.closeStep (by omega) hs'
      | _ =>
          rw [wiredStep_client (by rintro ⟨⟩) (by rintro ⟨⟩)] at hs
          obtain ⟨s', hs', rfl⟩ := Option.map_eq_some_iff.mp hs
          exact h.clientStep hp (by rintro ⟨⟩) (by rintro ⟨⟩) hs'

theorem init : WiredInv ⟨.init, 0⟩ := by
  refine ⟨by simp, ?_, ?_, .nil, ?_⟩
  · simp [ClientImpl.init]
  · rintro ⟨⟩
  · simp [ClientImpl.init, notifications]

end WiredInv

/-- **The ready and the disconnect callback alternate**, ready first, on every run whose steps wait
for the connection of before to be closed and that handles no Hello outside of a connection; and the
disconnect of a ready connection has been called once no connection is open. -/
theorem ready_disconnect_alternate {o : ClientOptions} {es : List WiredEvent} {w : Wired}
    (hr : (wired o).run ⟨.init, 0⟩ es = some w) (hC : (wired o).Along Prompt ⟨.init, 0⟩ es) :
    Alternates .ready .disconnect w.client.notifications ∧
      (w.opened = 0 → w.client.notifications.length % 2 = 0) := by
  have h : WiredInv w :=
    hC.inv (P := WiredInv) (fun _ _ _ h hp hs => h.step hp hs) WiredInv.init hr
  refine ⟨h.alternates, fun h0 => ?_⟩
  have hnone : ¬ w.client.hello.isSome = true := by
    intro hh
    have := h.hello hh
    omega
  rw [h.ready] at hnone
  omega

/-! ## Sample runs -/

/-- The state after `es`, with the options of the samples. -/
def wiredAfter (es : List WiredEvent) : Wired :=
  ((wired sampleOptions).run ⟨.init, 0⟩ es).getD ⟨.init, 0⟩

/-- A connection becomes ready; what it receives then cannot be parsed, and the manager stops it. -/
def restartWhileReady : List WiredEvent :=
  [.client .start, .client .websocketOpen,
    .client (.websocketMessage (.hello (some (sampleConstraints, 0)))),
    .client (.websocketMessage .unparsable), .client (.manager 0), .client (.manager 0)]

/-- A new connection becomes ready. -/
def readyAgain : List WiredEvent :=
  [.client .websocketOpen, .client (.websocketMessage (.hello (some (sampleConstraints, 0))))]

theorem prompt_of_ne {w : Wired} {e : WiredEvent}
    (h1 : (∀ e', e = .client e' → stopEnds e' = false) ∨ w.client.hello = none)
    (h2 : (e ≠ .client .websocketOpen ∧ e ≠ .connectFailed) ∨ w.opened = 0)
    (h3 : (∀ c, e ≠ .client (.websocketMessage (.hello c))) ∨ w.opened = 1) : Prompt w e where
  stop e' he hs := by
    rcases h1 with h1 | h1
    · rw [h1 e' he] at hs
      cases hs
    · exact h1
  opened he := h2.elim (fun h => absurd he h.1) id
  failed he := h2.elim (fun h => absurd he h.2) id
  hello c he := h3.elim (fun h => absurd he (h c)) fun h => by rw [h]; exact Nat.one_ne_zero

/-- `on_close` runs before `stop` of the websocket returns. -/
theorem ready_disconnect_alternate_closedFirst :
    (wiredAfter (restartWhileReady ++ [.client .websocketClose, .client .managerResume] ++
      readyAgain)).client.notifications = [.ready, .disconnect, .ready] ∧
    Alternates .ready .disconnect (wiredAfter (restartWhileReady ++ [.client .websocketClose,
      .client .managerResume] ++ readyAgain)).client.notifications := by
  have hrun : (wired sampleOptions).run ⟨.init, 0⟩ (restartWhileReady ++ [.client .websocketClose,
      .client .managerResume] ++ readyAgain) = some (wiredAfter (restartWhileReady ++
        [.client .websocketClose, .client .managerResume] ++ readyAgain)) := rfl
  refine ⟨rfl, (ready_disconnect_alternate hrun ?_).1⟩
  iterate 2
    refine ⟨prompt_of_ne (.inr rfl) (.inr rfl) (.inl (by rintro _ ⟨⟩)), ?_⟩
    rintro _ ⟨⟩
  refine ⟨prompt_of_ne (.inl (by rintro _ ⟨⟩; rfl)) (.inl ⟨by rintro ⟨⟩, by rintro ⟨⟩⟩) (.inr rfl), ?_⟩
  rintro _ ⟨⟩
  iterate 4
    refine ⟨prompt_of_ne (.inl (by rintro _ ⟨⟩; rfl)) (.inl ⟨by rintro ⟨⟩, by rintro ⟨⟩⟩)
      (.inl (by rintro _ ⟨⟩)), ?_⟩
    rintro _ ⟨⟩
  iterate 2
    refine ⟨prompt_of_ne (.inr rfl) (.inr rfl) (.inl (by rintro _ ⟨⟩)), ?_⟩
    rintro _ ⟨⟩
  refine ⟨prompt_of_ne (.inl (by rintro _ ⟨⟩; rfl)) (.inl ⟨by rintro ⟨⟩, by rintro ⟨⟩⟩) (.inr rfl), ?_⟩
  rintro _ ⟨⟩
  trivial

/-- `on_close` runs after `stop` of the websocket has returned: Hello is forgotten by then, so the
disconnect callback is not called. -/
theorem late_close_loses_disconnect :
    (wired sampleOptions).run ⟨.init, 0⟩ (restartWhileReady ++ [.client .managerResume,
      .client .websocketClose] ++ readyAgain) = some (wiredAfter (restartWhileReady ++
        [.client .managerResume, .client .websocketClose] ++ readyAgain)) ∧
    (wiredAfter (restartWhileReady ++ [.client .managerResume, .client .websocketClose] ++
      readyAgain)).client.notifications = [.ready, .ready] ∧
    ¬ Alternates .ready .disconnect (wiredAfter (restartWhileReady ++ [.client .managerResume,
      .client .websocketClose] ++ readyAgain)).client.notifications := by
  refine ⟨rfl, rfl, fun h => ?_⟩
  cases h 1 .ready rfl

end Loon
