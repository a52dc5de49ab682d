import Loon.Client.ClientImpl

set_option autoImplicit false

/-!
# The steps of the client

`ClientImpl.step` as a relation, with one constructor for each way that an event can go.

* `asksRestart`: the events that make the client call `restart`;
* `Steps`: the relation;
* **`steps_of_step`**: every step is one of it;
* `Called`, `Calm`: what a call of the user leaves alone once it does not start the connection.
-/

namespace Loon

namespace ClientImpl

/-- The event makes the client call `restart`. -/
def asksRestart (s : ClientImpl) : ClientImplEvent → Bool
  | .websocketMessage .unparsable => true
  | .websocketMessage (.request _ refused) => s.hello.isSome && refused
  | .websocketMessage .close => s.hello.isSome
  | .websocketMessage .unrecognized => s.hello.isSome
  | .sendFailed _ => true
  | _ => false

/-- The manager waits in its loop, which goes on, and has no idling to see to. -/
structure Attentive (s : ClientImpl) (now : Int) : Prop where
  manager : s.manager = .waiting
  stopManagerLoop : s.stopManagerLoop = false
  trackIdling : s.trackIdling = none
  idle : s.idleWaiting = true → expired now s.idleTimePoint = false

/-- The steps of the client. -/
inductive Steps (o : ClientOptions) (s : ClientImpl) : ClientImplEvent → ClientImpl → Prop
  | startAgain (h : s.started = true) : Steps o s .start (s.setIdle false).ensureStarted
  | start (h : s.started = false) :
      Steps o s .start { s.setIdle false with started := true }.internalStart
  | stopAgain (h : s.started = false) : Steps o s .stop s
  | stop (h : s.started = true) :
      Steps o s .stop { s with started := false, stopping := s.stopping + 1 }
  | stopped (h : s.stopping ≠ 0) (hr : s.responding = false) :
      Steps o s .stopped { s.finishInternalStop o with stopping := s.stopping - 1 }
  | idle (state : Bool) : Steps o s (.idle state) (s.setIdle state)
  | registerContent (i : ℕ) (source : Option ContentSource) (info : ContentInfo)
      (h : s.calls i = .idle) :
      Steps o s (.registerContent i source info) (s.registerContent i source info)
  | waitUntilReady (i : ℕ) (h : s.calls i = .idle) :
      Steps o s (.waitUntilReady i) (s.waitUntilReady i .ready)
  | connectionSettled (i : ℕ) (timedOut : Bool) (purpose : Purpose)
      (h : s.calls i = .connection purpose) (hc : s.connecting = false ∨ s.connected = true) :
      Steps o s (.wake i timedOut) (s.awaitHello i purpose)
  | connectionTimedOut (i : ℕ) (purpose : Purpose) (h : s.calls i = .connection purpose)
      (hc : s.connected = false) :
      Steps o s (.wake i true)
        (s.throwCall i purpose (.clientNotConnected "the client is not connected"))
  | helloSettled (i : ℕ) (timedOut : Bool) (purpose : Purpose)
      (h : s.calls i = .hello purpose) : Steps o s (.wake i timedOut) (s.afterHello i purpose)
  | badHandle (handle : ContentHandle) : Steps o s (.unregisterContent handle) s
  | unregister (g : ℕ) (h : g < s.registry.created) :
      Steps o s (.unregisterContent (.internal g)) (s.unregister o g)
  | onUnregistered (g : ℕ) (h : g < s.registry.created) :
      Steps o s (.onUnregistered g) { s with registry := s.registry.onUnregistered g }
  | websocketOpen : Steps o s .websocketOpen (s.onWebsocketOpen o)
  | websocketClose (hr : s.responding = false) :
      Steps o s .websocketClose (s.onWebsocketClose o)
  | restart (e : ClientImplEvent) (h : s.asksRestart e = true) : Steps o s e s.restart
  | respondFails (hr : s.responding = true) :
      Steps o s (.sendFailed none) { s.restart with responding := false }
  | fail (m : WebsocketMessage) (h : s.asksRestart (.websocketMessage m) = false) :
      Steps o s (.websocketMessage m) s.fail
  | hello (k : Constraints) (cacheDuration : UInt32) (h : s.hello = none) :
      Steps o s (.websocketMessage (.hello (some (k, cacheDuration)))) (s.acceptHello o k)
  | respond (path : String) (h : path ∉ s.registry.content) (hr : s.responding = false) :
      Steps o s (.websocketMessage (.request path false)) { s with responding := true }
  | handled (m : WebsocketMessage) (h : s.asksRestart (.websocketMessage m) = false)
      (hh : s.hello ≠ none) (hr : s.responding = false) : Steps o s (.websocketMessage m) s
  | sent (hr : s.responding = true) : Steps o s .sent { s with responding := false }
  | managerTracks (now : Int) (doTrack : Bool) (hm : s.manager = .waiting)
      (hl : s.stopManagerLoop = false) (ht : s.trackIdling = some doTrack) :
      Steps o s (.manager now) (s.managerTracksIdling o now doTrack).loopHead
  | managerIdles (now : Int) (hm : s.manager = .waiting) (hl : s.stopManagerLoop = false)
      (ht : s.trackIdling = none) (hi : s.idleWaiting = true) :
      Steps o s (.manager now) { s with manager := .idleStop }
  | managerRestarts (now : Int) (h : s.Attentive now) (ha : s.managerAction = .restart) :
      Steps o s (.manager now) { s with manager := .internalRestart }
  | managerFails (now : Int) (h : s.Attentive now) (ha : s.managerAction = .fail) :
      Steps o s (.manager now) { s with manager := .internalStopAndReset }
  | managerQueues (now : Int) (doQueue : Bool) (h : s.Attentive now)
      (ha : s.managerAction = .nothing) (hq : s.queueReconnect = some doQueue) :
      Steps o s (.manager now) (s.managerQueues o now doQueue).loopHead
  | managerReconnects (now : Int) (h : s.Attentive now) (ha : s.managerAction = .nothing)
      (hq : s.queueReconnect = none) (hn : 0 < s.reconnectAttempt)
      (ht : s.reconnectTimePoint.isSome = true) :
      Steps o s (.manager now) { s.internalStart with reconnectTimePoint := none }.loopHead
  | managerPasses (now : Int) (h : s.Attentive now) : Steps o s (.manager now) s.loopHead
  | managerReturns (now : Int) (hm : s.manager = .waiting) (hl : s.stopManagerLoop = true) :
      Steps o s (.manager now) { s with manager := .returned }
  | idleStopped (hm : s.manager = .idleStop) (hr : s.responding = false) :
      Steps o s .managerResume
        { s.finishInternalStop o with idleTimePoint := none, idleWaiting := false }.loopHead
  | restarted (hm : s.manager = .internalRestart) (hr : s.responding = false) :
      Steps o s .managerResume
        { (s.finishInternalStop o).internalStart with managerAction := .nothing }.loopHead
  | failed (hm : s.manager = .internalStopAndReset) (hr : s.responding = false) :
      Steps o s .managerResume { s.finishInternalStop o with
        started := false
        callbacks := (s.finishInternalStop o).callbacks ++ [ClientCallback.failed]
        managerAction := .nothing }.loopHead
  | destroy (h : s.destructor = .notCalled) :
      Steps o s .destroy { s with destructor := .internalStop }
  | destroyStopped (h : s.destructor = .internalStop) (hr : s.responding = false) :
      Steps o s .destroyStopped { s.finishInternalStop o with destructor := .stopped }
  | destroyLoop (h : s.destructor = .stopped) :
      Steps o s .destroyLoop { s with stopManagerLoop := true }

variable {o : ClientOptions} {s s' : ClientImpl}

theorem steps_wake {i : ℕ} {timedOut : Bool} (h : s.wake i timedOut = some s') :
    Steps o s (.wake i timedOut) s' := by
  unfold wake at h
  split at h
  · rename_i purpose hi
    split at h
    · rename_i hc
      cases h
      refine .connectionSettled i timedOut purpose hi ?_
      simpa using hc
    · rename_i hc
      split at h
      · rename_i ht
        cases h
        subst ht
        simp only [Bool.or_eq_true, not_or, Bool.not_eq_true] at hc
        exact .connectionTimedOut i purpose hi hc.2
      · cases h
  · rename_i purpose hi
    split at h
    · cases h
      exact .helloSettled i timedOut purpose hi
    · cases h
  · cases h

theorem steps_onWebsocketMessage {m : WebsocketMessage} (h : s.onWebsocketMessage o m = some s') :
    Steps o s (.websocketMessage m) s' := by
  have hsome : ¬ s.hello.isNone = true → s.hello.isSome = true := by
    cases s.hello <;> simp
  have hnone : s.hello.isNone = true → s.hello.isSome = false := by
    cases s.hello <;> simp
  cases m with
  | unparsable =>
      cases h
      exact .restart _ rfl
  | hello constraints =>
      simp only [onWebsocketMessage] at h
      split at h
      · cases h
        exact .fail _ rfl
      · rename_i hh
        cases h
        unfold onHello
        split
        · exact .fail _ rfl
        · rename_i k cacheDuration
          split
          · exact .fail _ rfl
          · exact .hello k cacheDuration (by simpa using hh)
  | request path refused =>
      simp only [onWebsocketMessage] at h
      split at h
      · rename_i hh
        cases h
        refine .fail _ ?_
        simp only [asksRestart, hnone hh, Bool.false_and]
      · rename_i hh
        split at h
        · cases h
        · rename_i hr
          have hr : s.responding = false := by simpa using hr
          cases h
          unfold onRequest
          split
          · rename_i href
            refine .restart _ ?_
            simp only [asksRestart, href, Bool.and_true]
            exact hsome hh
          · rename_i href
            have href : refused = false := by simpa using href
            subst href
            split
            · refine .handled _ ?_ (by simpa using hh) hr
              simp only [asksRestart, Bool.and_false]
            · rename_i hp
              exact .respond path hp hr
  | success =>
      simp only [onWebsocketMessage] at h
      split at h
      · cases h
        exact .fail _ rfl
      · rename_i hh
        split at h
        · cases h
        · rename_i hr
          cases h
          exact .handled _ rfl (by simpa using hh) (by simpa using hr)
  | requestClosed =>
      simp only [onWebsocketMessage] at h
      split at h
      · cases h
        exact .fail _ rfl
      · rename_i hh
        split at h
        · cases h
        · rename_i hr
          cases h
          exact .handled _ rfl (by simpa using hh) (by simpa using hr)
  | close =>
      simp only [onWebsocketMessage] at h
      split at h
      · rename_i hh
        cases h
        exact .fail _ (hnone hh)
      · rename_i hh
        cases h
        exact .restart _ (hsome hh)
  | unrecognized =>
      simp only [onWebsocketMessage] at h
      split at h
      · rename_i hh
        cases h
        exact .fail _ (hnone hh)
      · rename_i hh
        cases h
        exact .restart _ (hsome hh)

theorem steps_managerIteration {now : Int} (h : s.managerIteration o now = some s') :
    Steps o s (.manager now) s' := by
  unfold managerIteration at h
  split at h
  · cases h
  rename_i hw
  have hm : s.manager = .waiting := by simp at hw; exact hw.1
  split at h
  · rename_i hl
    cases h
    exact .managerReturns now hm hl
  rename_i hl
  have hl : s.stopManagerLoop = false := by simpa using hl
  split at h
  · rename_i doTrack ht
    cases h
    exact .managerTracks now doTrack hm hl ht
  rename_i ht
  split at h
  · rename_i hi
    cases h
    simp only [Bool.and_eq_true] at hi
    exact .managerIdles now hm hl ht hi.1
  rename_i hi
  have hatt : s.Attentive now := by
    refine ⟨hm, hl, ht, fun hw => ?_⟩
    simpa [hw] using hi
  split at h
  · rename_i ha
    cases h
    exact .managerRestarts now hatt ha
  · rename_i ha
    cases h
    exact .managerFails now hatt ha
  rename_i ha
  split at h
  · rename_i doQueue hq
    cases h
    exact .managerQueues now doQueue hatt ha hq
  rename_i hq
  split at h
  · rename_i ht
    cases h
    simp only [Bool.and_eq_true, decide_eq_true_eq] at ht
    refine .managerReconnects now hatt ha hq ht.1 ?_
    cases hp : s.reconnectTimePoint with
    | none => simp [expired, hp] at ht
    | some t => rfl
  · cases h
    exact .managerPasses now hatt

/-- **What a step can do.** -/
theorem steps_of_step {e : ClientImplEvent} (h : step o s e = some s') : Steps o s e s' := by
  cases e with
  | start =>
      cases h
      unfold ClientImpl.start
      simp only
      split
      · rename_i hs
        exact .startAgain hs
      · rename_i hs
        have hs : s.started = false := by simpa [setIdle] using hs
        exact .start hs
  | stop =>
      cases h
      unfold ClientImpl.stop
      split
      · rename_i hs
        exact .stopAgain (by simpa using hs)
      · rename_i hs
        exact .stop (by simpa using hs)
  | stopped =>
      simp only [step] at h
      split at h
      · cases h
      · rename_i hn
        cases h
        simp only [not_or, Bool.not_eq_true] at hn
        exact .stopped hn.1 hn.2
  | idle state =>
      cases h
      exact .idle state
  | registerContent i source info =>
      simp only [step] at h
      split at h
      · rename_i hi
        cases h
        exact .registerContent i source info hi
      · cases h
  | waitUntilReady i =>
      simp only [step] at h
      split at h
      · rename_i hi
        cases h
        exact .waitUntilReady i hi
      · cases h
  | wake i timedOut => exact steps_wake h
  | unregisterContent handle =>
      simp only [step] at h
      split at h
      · rename_i hmade
        cases handle with
        | null => cases h; exact .badHandle _
        | foreign => cases h; exact .badHandle _
        | internal g =>
            cases h
            exact .unregister g (by simpa [ContentHandle.made] using hmade)
      · cases h
  | onUnregistered g =>
      simp only [step] at h
      split at h
      · rename_i hg
        cases h
        exact .onUnregistered g hg
      · cases h
  | websocketOpen =>
      cases h
      exact .websocketOpen
  | websocketClose =>
      simp only [step] at h
      split at h
      · cases h
      · rename_i hr
        cases h
        exact .websocketClose (by simpa using hr)
  | websocketMessage m => exact steps_onWebsocketMessage h
  | sent =>
      simp only [step] at h
      split at h
      · rename_i hr
        cases h
        exact .sent hr
      · cases h
  | sendFailed thread =>
      cases thread with
      | none =>
          simp only [step, sendFailed] at h
          split at h
          · rename_i hr
            cases h
            exact .respondFails hr
          · cases h
      | some i =>
          simp only [step, sendFailed] at h
          split at h
          · cases h
            exact .restart _ rfl
          · cases h
  | manager now => exact steps_managerIteration h
  | managerResume =>
      simp only [step] at h
      split at h
      · cases h
      · rename_i hr
        have hr : s.responding = false := by simpa using hr
        unfold ClientImpl.managerResume at h
        split at h
        · rename_i hm
          cases h
          exact .idleStopped hm hr
        · rename_i hm
          cases h
          exact .restarted hm hr
        · rename_i hm
          cases h
          exact .failed hm hr
        · cases h
  | destroy =>
      simp only [step] at h
      split at h
      · rename_i hd
        cases h
        exact .destroy hd
      · cases h
  | destroyStopped =>
      simp only [step] at h
      split at h
      · rename_i hd
        cases h
        exact .destroyStopped hd.1 (by simpa using hd.2)
      · cases h
  | destroyLoop =>
      simp only [step] at h
      split at h
      · rename_i hd
        cases h
        exact .destroyLoop hd
      · cases h

/-! ## Calls of the user -/

/-- `s'` has the connection and the manager of `s`; the manager may have been told to look after the
idling. -/
structure Calm (s s' : ClientImpl) : Prop where
  started : s'.started = s.started
  connected : s'.connected = s.connected
  connecting : s'.connecting = s.connecting
  hello : s'.hello = s.hello
  manager : s'.manager = s.manager
  stopManagerLoop : s'.stopManagerLoop = s.stopManagerLoop
  managerAction : s'.managerAction = s.managerAction
  queueReconnect : s'.queueReconnect = s.queueReconnect
  idleWaiting : s'.idleWaiting = s.idleWaiting
  reconnectAttempt : s'.reconnectAttempt = s.reconnectAttempt
  reconnectTimePoint : s'.reconnectTimePoint = s.reconnectTimePoint
  connStarts : s'.connStarts = s.connStarts
  callbacks : s'.callbacks = s.callbacks
  trackIdling : s'.trackIdling = s.trackIdling ∨ s'.trackIdling.isSome = true

/-- `s'` is `s` but for its calls, its content and handles, and what the manager was told about the
idling. -/
def Called (s s' : ClientImpl) : Prop :=
  ∃ (calls : ℕ → CallPoint) (registry : Registry) (returns : List HandleReturn)
    (trackIdling : Option Bool), (trackIdling = s.trackIdling ∨ trackIdling.isSome = true) ∧
      s' = { s with
        calls := calls, registry := registry, returns := returns, trackIdling := trackIdling }

/-- Calls, content and handles may change. -/
theorem Called.of (calls : ℕ → CallPoint) (registry : Registry) (returns : List HandleReturn) :
    Called s { s with calls := calls, registry := registry, returns := returns } :=
  ⟨calls, registry, returns, s.trackIdling, .inl rfl, rfl⟩

theorem Called.refl (s : ClientImpl) : Called s s := .of s.calls s.registry s.returns

theorem Called.trans {s₁ : ClientImpl} (h : Called s s₁) (h' : Called s₁ s') : Called s s' := by
  obtain ⟨_, _, _, _, ht, rfl⟩ := h
  obtain ⟨calls, registry, returns, trackIdling, ht', rfl⟩ := h'
  refine ⟨calls, registry, returns, trackIdling, ?_, rfl⟩
  rcases ht' with rfl | ht'
  · exact ht
  · exact .inr ht'

theorem Called.calm (h : Called s s') : Calm s s' := by
  obtain ⟨_, _, _, _, ht, rfl⟩ := h
  exact ⟨rfl, rfl, rfl, rfl, rfl, rfl, rfl, rfl, rfl, rfl, rfl, rfl, rfl, ht⟩

theorem called_setIdle (state : Bool) : Called s (s.setIdle state) :=
  ⟨s.calls, s.registry, s.returns, some state, .inr rfl, rfl⟩

theorem called_setCall (i : ℕ) (point : CallPoint) : Called s (s.setCall i point) :=
  .of _ s.registry s.returns

theorem called_leaveCall (purpose : Purpose) : Called s (s.leaveCall purpose) := by
  cases purpose with
  | register => exact called_setIdle _
  | ready => exact .refl s

theorem called_throwCall (i : ℕ) (purpose : Purpose) (e : CallException) :
    Called s (s.throwCall i purpose e) :=
  (called_setCall i _).trans (called_leaveCall purpose)

theorem called_finishCall (i : ℕ) (purpose : Purpose) (k : Constraints) :
    Called s (s.finishCall i purpose k) := by
  cases purpose with
  | ready => exact called_setCall i _
  | register source info =>
      simp only [finishCall]
      split
      · exact called_throwCall i _ _
      · exact .trans (.of s.calls _ _) ((called_setCall i _).trans (called_leaveCall _))

theorem called_afterHello (i : ℕ) (purpose : Purpose) : Called s (s.afterHello i purpose) := by
  unfold afterHello
  split
  · exact called_throwCall i _ _
  · split
    · exact called_throwCall i _ _
    · exact called_finishCall i _ _

theorem called_awaitHello (i : ℕ) (purpose : Purpose) : Called s (s.awaitHello i purpose) := by
  unfold awaitHello
  split
  · exact called_afterHello i purpose
  · exact called_setCall i _

theorem called_unregister (g : ℕ) : Called s (s.unregister o g) := by
  have hr : Called s { s with registry := s.registry.unregisterContent g } := .of s.calls _ s.returns
  unfold unregister
  simp only
  split
  · exact hr.trans (called_setIdle true)
  · exact hr

variable (s) in
/-- The call starts the connection: it is not connected and not connecting, or `start` finds the
client stopped. -/
def callStarts : ClientImplEvent → Bool
  | .start => !s.started || !s.connected && !s.connecting
  | .waitUntilReady _ => s.started && !s.connected && !s.connecting
  | .registerContent _ (some source) info =>
    source.size ≠ 0 && info.path ∉ s.registry.content && s.started && !s.connected && !s.connecting
  | _ => false

theorem waitUntilReady_spec (i : ℕ) (purpose : Purpose) :
    Called (if s.started && !s.connected && !s.connecting then s.internalStart else s)
      (s.waitUntilReady i purpose) := by
  unfold waitUntilReady
  by_cases hready : (s.started && s.connected && s.hello.isSome) = true
  · rw [if_pos hready]
    simp only [Bool.and_eq_true] at hready
    simp only [hready.1.2, Bool.not_true, Bool.and_false, Bool.false_and, Bool.false_eq_true,
      if_false]
    exact called_afterHello i purpose
  rw [if_neg hready]
  by_cases hs : s.started = true
  · have he : s.ensureStarted =
        if s.started && !s.connected && !s.connecting then s.internalStart else s := by
      rw [ensureStarted, hs, Bool.true_and]
    rw [← he]
    simp only [hs, Bool.not_true, Bool.false_eq_true, if_false]
    split
    · exact called_awaitHello i purpose
    · exact called_setCall i _
  · have hs : s.started = false := by simpa using hs
    simp only [hs, Bool.not_false, if_true, Bool.false_and, Bool.false_eq_true, if_false]
    exact called_throwCall i purpose _

/-- A call of `register_content` starts the connection, or leaves it alone. -/
theorem registerContent_spec (i : ℕ) (source : Option ContentSource) (info : ContentInfo) :
    Called (if s.callStarts (.registerContent i source info) then s.internalStart else s)
      (s.registerContent i source info) := by
  cases source with
  | none => exact called_setCall i _
  | some source =>
      simp only [registerContent, callStarts]
      by_cases hz : source.size = 0
      · simp only [hz, if_true, ne_eq, not_true_eq_false, decide_false, Bool.false_and,
          Bool.false_eq_true, if_false]
        exact called_setCall i _
      · simp only [hz, if_false, ne_eq, not_false_eq_true, decide_true, Bool.true_and]
        by_cases hp : info.path ∈ s.registry.content
        · have hp' : info.path ∈ (s.setIdle false).registry.content := hp
          simp only [hp, hp', not_true_eq_false, decide_false, Bool.false_and, Bool.false_eq_true,
            if_false, if_true]
          exact (called_setIdle false).trans (called_throwCall i _ _)
        · have hw := waitUntilReady_spec (s := s.setIdle false) i (.register source info)
          have hp' : info.path ∉ (s.setIdle false).registry.content := hp
          simp only [hp, hp', not_false_eq_true, decide_true, Bool.true_and, if_false]
          refine .trans ?_ hw
          change Called _ (if (s.started && !s.connected && !s.connecting) = true then _ else _)
          split
          · exact called_setIdle (s := s.internalStart) false
          · exact called_setIdle false

end ClientImpl

end Loon
