import Loon.Client.Steps

set_option autoImplicit false

/-!
# Idling without automatic idling

With `automatic_idling` off the client is to idle only if its user asks for it. Three of the four
places that tell the manager to idle heed that; the scope guard of `register_content` does not: it
asks whether there is content, also when the call throws.

* `registerThrows`: `register_content` throws after it has put the client out of idle;
* `Tells`: what a step can tell the manager about the idling;
* `IdlesIfAsked`: the manager is told to idle, or idles, only if that is what was asked for last;
* **`idles_only_if_asked`**: it holds in every run on which no such call throws while there is no
  content.
-/

namespace Loon

namespace ClientImpl

variable (o : ClientOptions) (s : ClientImpl)

/-- A call that puts the client into idle or out of it. -/
def isIdleCall : ClientImplEvent → Bool
  | .idle _ => true
  | .start => true
  | .registerContent _ _ _ => true
  | _ => false

/-- The source is rejected before `register_content` does anything. -/
def sourceRejected : ClientImplEvent → Bool
  | .registerContent _ none _ => true
  | .registerContent _ (some source) _ => source.size = 0
  | _ => false

/-- The last call that puts the client into idle or out of it. -/
def lastIdleCall (es : List ClientImplEvent) : Option ClientImplEvent :=
  (es.filter isIdleCall).getLast?

/-- The last such call that had an effect. -/
def lastIdleRequest (es : List ClientImplEvent) : Option ClientImplEvent :=
  (es.filter fun e => isIdleCall e && !sourceRejected e).getLast?

/-- The content does not fit the constraints of the server. -/
def unacceptable (source : ContentSource) (info : ContentInfo) (k : Constraints) : Bool :=
  (Client.checkContentConstraints k source info).toOption.isNone

/-- A call of `register_content` throws in this step, not because of its source. -/
def registerThrows : ClientImplEvent → Bool
  | .registerContent _ (some source) info =>
    source.size ≠ 0 && (info.path ∈ s.registry.content || !s.started ||
      s.connected && s.hello.any (unacceptable source info))
  | .wake i timedOut =>
    match s.calls i with
    | .connection (.register source info) =>
      if !s.connecting || s.connected then !s.connected || s.hello.any (unacceptable source info)
      else timedOut
    | .hello (.register source info) => !s.connected || s.hello.all (unacceptable source info)
    | _ => false
  | _ => false

/-- No call of `register_content` throws while there is no content, but for its source. -/
def KeepsContent (s : ClientImpl) (e : ClientImplEvent) : Prop :=
  s.contentEmpty = true → s.registerThrows e = false

/-- No source is rejected while the manager has yet to see to a request to idle. -/
def KeepsRequest (s : ClientImpl) (e : ClientImplEvent) : Prop :=
  s.trackIdling = some true → sourceRejected e = false

instance (e : ClientImplEvent) : Decidable (KeepsContent s e) := inferInstanceAs (Decidable (_ → _))

instance (e : ClientImplEvent) : Decidable (KeepsRequest s e) := inferInstanceAs (Decidable (_ → _))

/-- What a step can tell the manager: nothing, not to idle, or what it takes itself. -/
def Tells (s s' : ClientImpl) : Prop :=
  s'.trackIdling = s.trackIdling ∧ s'.idleWaiting = s.idleWaiting ∨ s'.trackIdling = some false ∨
    s'.trackIdling = none ∧ (s'.idleWaiting = true → s.trackIdling = some true)

/-- The manager is told to idle, or idles, only if `A`. -/
structure IdlesIf (s : ClientImpl) (A : Prop) : Prop where
  told : s.trackIdling = some true → A
  waits : s.trackIdling = none → s.idleWaiting = true → A

variable {o s} {s' : ClientImpl} {e : ClientImplEvent} {A : Prop}

/-! ## Registering content -/

theorem contentEmpty_register (path : String) :
    (s.registry.register path).content.entries.isEmpty = false := by
  simp only [Registry.register]
  split
  · rename_i hmem
    rw [AList.mem_keys, AList.keys] at hmem
    cases hn : s.registry.content.entries with
    | nil => rw [hn] at hmem; cases hmem
    | cons => rfl
  · rfl

theorem trackIdling_throwCall (i : ℕ) (source : ContentSource) (info : ContentInfo)
    (ex : CallException) :
    (s.throwCall i (.register source info) ex).trackIdling = some s.contentEmpty := rfl

/-- The call returns a handle, or the content is not acceptable. -/
theorem trackIdling_finishCall {i : ℕ} {source : ContentSource} {info : ContentInfo} {k : Constraints}
    (h : s.contentEmpty = true → unacceptable source info k = false) :
    (s.finishCall i (.register source info) k).trackIdling = some false := by
  unfold unacceptable at h
  simp only [finishCall]
  split
  · rename_i ex hk
    rw [trackIdling_throwCall]
    rw [hk] at h
    cases hc : s.contentEmpty with
    | false => rfl
    | true => cases h hc
  · exact congrArg some (contentEmpty_register info.path)

theorem trackIdling_afterHello {i : ℕ} {source : ContentSource} {info : ContentInfo}
    (h : s.contentEmpty = true →
      (!s.connected || s.hello.all (unacceptable source info)) = false) :
    (s.afterHello i (.register source info)).trackIdling = some false := by
  have hthrow : (!s.connected || s.hello.all (unacceptable source info)) = true →
      s.contentEmpty = false := by
    intro ht
    cases hc : s.contentEmpty with
    | false => rfl
    | true => rw [h hc] at ht; cases ht
  unfold afterHello
  split
  · rename_i hc
    rw [trackIdling_throwCall, hthrow (by rw [hc, Bool.true_or])]
  · rename_i hc
    split
    · rename_i hh
      rw [trackIdling_throwCall, hthrow (by rw [hh, Option.all_none, Bool.or_true])]
    · rename_i k hk
      refine trackIdling_finishCall fun hce => ?_
      have hno := h hce
      simp only [hk, Option.all_some, Bool.or_eq_false_iff] at hno
      exact hno.2

/-- A call that waits for `Hello` leaves the manager alone. -/
theorem trackIdling_awaitHello {i : ℕ} {source : ContentSource} {info : ContentInfo}
    (h : s.contentEmpty = true →
      (!s.connected || s.hello.any (unacceptable source info)) = false) :
    (s.awaitHello i (.register source info)).trackIdling = some false ∨
      (s.awaitHello i (.register source info)).trackIdling = s.trackIdling := by
  unfold awaitHello
  split
  · rename_i hready
    refine .inl (trackIdling_afterHello fun hce => ?_)
    have hno := h hce
    rw [Bool.or_eq_false_iff] at hno
    rw [Bool.or_eq_true] at hready
    rw [Bool.or_eq_false_iff]
    refine ⟨hno.1, ?_⟩
    rcases hready with hready | hready
    · rw [hno.1] at hready
      cases hready
    · obtain ⟨k, hk⟩ := Option.isSome_iff_exists.mp hready
      rw [hk, Option.all_some]
      rw [hk, Option.any_some] at hno
      exact hno.2
  · exact .inr rfl

theorem trackIdling_waitUntilReady {i : ℕ} {source : ContentSource} {info : ContentInfo}
    (ht : s.trackIdling = some false)
    (h : s.contentEmpty = true →
      (!s.started || s.connected && s.hello.any (unacceptable source info)) = false) :
    (s.waitUntilReady i (.register source info)).trackIdling = some false := by
  unfold waitUntilReady
  split
  · rename_i hready
    simp only [Bool.and_eq_true] at hready
    obtain ⟨k, hk⟩ := Option.isSome_iff_exists.mp hready.2
    refine trackIdling_afterHello fun hce => ?_
    have hno := h hce
    rw [hready.1.1, hready.1.2, hk] at hno
    rw [hready.1.2, hk]
    exact hno
  split
  · rename_i hs
    rw [trackIdling_throwCall]
    cases hce : s.contentEmpty with
    | false => rfl
    | true => have hno := h hce; rw [hs] at hno; cases hno
  · rename_i hs
    simp only
    split
    · rename_i hc
      -- past `ensure_started` the client is not connecting only if it is connected
      have hconn : s.connected = true ∧ s.ensureStarted = s := by
        unfold ensureStarted at hc ⊢
        cases hcc : s.connected with
        | true => exact ⟨rfl, by rw [Bool.not_true, Bool.false_and, if_neg Bool.false_ne_true]⟩
        | false =>
          rw [hcc, Bool.not_false, Bool.true_and] at hc
          split at hc
          · rw [Bool.or_eq_true, show s.internalStart.connected = s.connected from rfl, hcc] at hc
            rcases hc with hc | hc <;> cases hc
          · rename_i hcon
            rw [hcc, Bool.or_false] at hc
            exact absurd hc hcon
      rw [hconn.2, ← ht]
      refine (trackIdling_awaitHello fun hce => ?_).elim (fun h' => h'.trans ht.symm) id
      have hno := h hce
      rw [hconn.1, Bool.true_and, Bool.or_eq_false_iff] at hno
      rw [hconn.1]
      exact hno.2
    · unfold ensureStarted
      split <;> exact ht

theorem trackIdling_registerContent {i : ℕ} {source : ContentSource} {info : ContentInfo}
    (hz : source.size ≠ 0) (h : s.KeepsContent (.registerContent i (some source) info)) :
    (s.registerContent i (some source) info).trackIdling = some false := by
  have hno : s.contentEmpty = true → (decide (info.path ∈ s.registry.content) || !s.started ||
      s.connected && s.hello.any (unacceptable source info)) = false := by
    intro hce
    simpa only [registerThrows, decide_true, Bool.true_and, hz, ne_eq, not_false_eq_true] using h hce
  unfold registerContent
  simp only [hz, if_false]
  split
  · rename_i hp
    rw [trackIdling_throwCall]
    cases hce : (s.setIdle false).contentEmpty with
    | false => rfl
    | true =>
      have hthrow := hno hce
      rw [show (decide (info.path ∈ s.registry.content)) = true from decide_eq_true hp] at hthrow
      cases hthrow
  · refine trackIdling_waitUntilReady rfl fun hce => ?_
    have hthrow := hno hce
    rw [Bool.or_assoc, Bool.or_eq_false_iff] at hthrow
    exact hthrow.2

/-! ## Waiting until the client is ready -/

theorem trackIdling_afterHello_ready (i : ℕ) : (s.afterHello i .ready).trackIdling = s.trackIdling := by
  unfold afterHello
  split
  · rfl
  · split <;> rfl

theorem trackIdling_awaitHello_ready (i : ℕ) : (s.awaitHello i .ready).trackIdling = s.trackIdling := by
  unfold awaitHello
  split
  · exact trackIdling_afterHello_ready i
  · rfl

theorem trackIdling_waitUntilReady_ready (i : ℕ) :
    (s.waitUntilReady i .ready).trackIdling = s.trackIdling := by
  have he : s.ensureStarted.trackIdling = s.trackIdling := by
    unfold ensureStarted
    split <;> rfl
  unfold waitUntilReady
  split
  · exact trackIdling_afterHello_ready i
  split
  · rfl
  · simp only
    split
    · rw [trackIdling_awaitHello_ready, he]
    · exact he

/-! ## What the manager is told -/

theorem Tells.refl (s : ClientImpl) : s.Tells s := .inl ⟨rfl, rfl⟩

theorem Tells.of_calm (hc : Calm s s') (ht : s'.trackIdling = s.trackIdling) : s.Tells s' :=
  .inl ⟨ht, hc.idleWaiting⟩

theorem Tells.of_false (ht : s'.trackIdling = some false) : s.Tells s' := .inr (.inl ht)

theorem tells_restart : s.Tells s.restart := by
  unfold restart
  split <;> exact .refl s

theorem trackIdling_finishInternalStop : (s.finishInternalStop o).trackIdling = some false := by
  unfold finishInternalStop
  simp only
  split <;> rfl

theorem tells_managerTracksIdling {now : Int} {doTrack : Bool} (ht : s.trackIdling = some doTrack) :
    s.Tells (s.managerTracksIdling o now doTrack).loopHead := by
  refine .inr (.inr ?_)
  unfold managerTracksIdling
  cases doTrack with
  | false => exact ⟨rfl, by rintro ⟨⟩⟩
  | true =>
    simp only
    split
    · exact ⟨rfl, by rintro ⟨⟩⟩
    split
    · exact ⟨rfl, fun _ => ht⟩
    split <;> exact ⟨rfl, fun _ => ht⟩

theorem tells_managerQueues {now : Int} {doQueue : Bool} :
    s.Tells (s.managerQueues o now doQueue).loopHead := by
  unfold managerQueues
  simp only
  split <;> exact .refl s

/-- **What a step tells the manager**, unless it is a call that is to. -/
theorem tells_step (ho : o.automaticIdling = false) (hk : s.KeepsContent e)
    (he : (isIdleCall e && !sourceRejected e) = false) (hs : Steps o s e s') : s.Tells s' := by
  cases hs with
  | startAgain | start | idle => cases he
  | registerContent i source info hi =>
      cases source with
      | none => exact .refl s
      | some source =>
          by_cases hz : source.size = 0
          · rw [show s.registerContent i (some source) info = s.setCall i _ from if_pos hz]
            exact .refl s
          · simp [isIdleCall, sourceRejected, hz] at he
  | waitUntilReady i =>
      have hidle : (s.waitUntilReady i .ready).idleWaiting = s.idleWaiting := by
        rw [(waitUntilReady_spec i .ready).calm.idleWaiting]
        split <;> rfl
      exact .inl ⟨trackIdling_waitUntilReady_ready i, hidle⟩
  | connectionSettled i timedOut purpose hi hc =>
      have hcalm := (called_awaitHello (s := s) i purpose).calm
      cases purpose with
      | ready => exact .of_calm hcalm (trackIdling_awaitHello_ready i)
      | register source info =>
          have hcond : (!s.connecting || s.connected) = true := by
            rcases hc with hc | hc <;> simp [hc]
          have hno : s.contentEmpty = true →
              (!s.connected || s.hello.any (unacceptable source info)) = false := by
            intro hce
            simpa only [registerThrows, hi, hcond, if_true] using hk hce
          rcases trackIdling_awaitHello (i := i) hno with ht | ht
          · exact .of_false ht
          · exact .of_calm hcalm ht
  | connectionTimedOut i purpose hi hc =>
      cases purpose with
      | ready => exact .refl s
      | register source info =>
          refine .of_false ?_
          rw [trackIdling_throwCall]
          cases hce : s.contentEmpty with
          | false => rfl
          | true =>
              have hthrow := hk hce
              simp only [registerThrows, hi, hc] at hthrow
              split at hthrow <;> cases hthrow
  | helloSettled i timedOut purpose hi =>
      cases purpose with
      | ready =>
          exact .of_calm (called_afterHello i .ready).calm (trackIdling_afterHello_ready i)
      | register source info =>
          refine .of_false (trackIdling_afterHello fun hce => ?_)
          simpa only [registerThrows, hi] using hk hce
  | unregister g =>
      unfold unregister
      rw [ho]
      simp only [Bool.and_false, Bool.false_eq_true, if_false]
      exact .refl s
  | websocketClose =>
      refine .of_false ?_
      unfold onWebsocketClose
      simp only
      split <;> rfl
  | websocketOpen =>
      unfold onWebsocketOpen
      simp only
      split <;> exact .refl s
  | restart => exact tells_restart
  | respondFails => exact tells_restart
  | hello =>
      unfold acceptHello
      rw [ho]
      simp only [Bool.and_false, Bool.false_eq_true, if_false]
      exact .refl s
  | managerTracks now doTrack _ _ ht => exact tells_managerTracksIdling ht
  | managerQueues => exact tells_managerQueues
  | stopped | destroyStopped | idleStopped | restarted | failed =>
      exact .of_false trackIdling_finishInternalStop
  | _ => exact .refl s

theorem isIdleCall_of_asksRestart (h : s.asksRestart e = true) : isIdleCall e = false := by
  cases e <;> first | rfl | cases h

/-- **What a call tells the manager.** -/
theorem request_step (hk : s.KeepsContent e) (he : (isIdleCall e && !sourceRejected e) = true)
    (hs : Steps o s e s') : e = .idle true ∨ s'.trackIdling = some false := by
  cases hs with
  | startAgain =>
      refine .inr ?_
      unfold ensureStarted
      split <;> rfl
  | start => exact .inr rfl
  | idle state =>
      cases state with
      | true => exact .inl rfl
      | false => exact .inr rfl
  | registerContent i source info =>
      cases source with
      | none => cases he
      | some source =>
          have hz : source.size ≠ 0 := by simpa [isIdleCall, sourceRejected] using he
          exact .inr (trackIdling_registerContent hz hk)
  | restart _ h =>
      rw [isIdleCall_of_asksRestart h] at he
      cases he
  | _ => cases he

/-! ## Runs -/

theorem IdlesIf.of_false (ht : s.trackIdling = some false) : s.IdlesIf A := by
  constructor
  · intro h1
    rw [ht] at h1
    cases h1
  · intro h1
    rw [ht] at h1
    cases h1

theorem IdlesIf.of_tells (h : s.IdlesIf A) (ht : s.Tells s') : s'.IdlesIf A := by
  rcases ht with ⟨ht, hw⟩ | ht | ⟨ht, hw⟩
  · exact ⟨fun h1 => h.told (ht ▸ h1), fun h1 h2 => h.waits (ht ▸ h1) (hw ▸ h2)⟩
  · exact .of_false ht
  · refine ⟨fun h1 => ?_, fun _ h2 => h.told (hw h2)⟩
    rw [ht] at h1
    cases h1

theorem lastIdleRequest_snoc (es : List ClientImplEvent) (e : ClientImplEvent) :
    lastIdleRequest (es ++ [e]) =
      if isIdleCall e && !sourceRejected e then some e else lastIdleRequest es := by
  unfold lastIdleRequest
  rw [List.filter_append, List.filter_singleton]
  cases isIdleCall e && !sourceRejected e with
  | false => rw [cond_false, List.append_nil, if_neg Bool.false_ne_true]
  | true => rw [cond_true, List.getLast?_concat, if_pos rfl]

theorem lastIdleCall_snoc (es : List ClientImplEvent) (e : ClientImplEvent) :
    lastIdleCall (es ++ [e]) = if isIdleCall e then some e else lastIdleCall es := by
  unfold lastIdleCall
  rw [List.filter_append, List.filter_singleton]
  cases isIdleCall e with
  | false => rw [cond_false, List.append_nil, if_neg Bool.false_ne_true]
  | true => rw [cond_true, List.getLast?_concat, if_pos rfl]

/-- **The invariant.** -/
theorem idlesIf_lastIdleRequest (ho : o.automaticIdling = false) {es : List ClientImplEvent}
    (hr : (machine o).run init es = some s) (hk : (machine o).Along KeepsContent init es) :
    s.IdlesIf (lastIdleRequest es = some (.idle true)) := by
  refine Machine.Along.induction (M := machine o) (C := KeepsContent)
    (P := fun es s => s.IdlesIf (lastIdleRequest es = some (.idle true))) ?_ ?_ hk hr
  · exact ⟨by rintro ⟨⟩, by rintro - ⟨⟩⟩
  · intro es s e s' _ ih hk hs
    have hs := steps_of_step hs
    rw [lastIdleRequest_snoc]
    split
    · rename_i he
      rcases request_step hk he hs with rfl | ht
      · exact ⟨fun _ => rfl, fun _ _ => rfl⟩
      · exact .of_false ht
    · rename_i he
      exact ih.of_tells (tells_step ho hk (by simpa using he) hs)

/-- The same for all calls, as far as the manager is told to idle. -/
theorem told_lastIdleCall (ho : o.automaticIdling = false) {es : List ClientImplEvent}
    (hr : (machine o).run init es = some s) (hk : (machine o).Along KeepsContent init es)
    (hq : (machine o).Along KeepsRequest init es) (ht : s.trackIdling = some true) :
    lastIdleCall es = some (.idle true) := by
  revert ht
  refine Machine.Along.induction (M := machine o)
    (C := fun s e => KeepsContent s e ∧ KeepsRequest s e)
    (P := fun es s => s.trackIdling = some true → lastIdleCall es = some (.idle true)) ?_ ?_
    (hk.and hq) hr
  · rintro ⟨⟩
  · intro es s e s' _ ih ⟨hk, hq⟩ hs ht
    have hs := steps_of_step hs
    rw [lastIdleCall_snoc]
    by_cases he : (isIdleCall e && !sourceRejected e) = true
    · rcases request_step hk he hs with rfl | ht'
      · rfl
      · rw [ht] at ht'
        cases ht'
    · have htold : s.trackIdling = some true := by
        rcases tells_step ho hk (by simpa using he) hs with ⟨h', -⟩ | h' | ⟨h', -⟩
        · rw [← h', ht]
        · rw [ht] at h'
          cases h'
        · rw [ht] at h'
          cases h'
      have hcall : isIdleCall e = false := by
        rw [hq htold] at he
        simpa using he
      rw [hcall, if_neg Bool.false_ne_true]
      exact ih htold

/-- A pass of the manager that begins to wait has taken a request to idle. -/
theorem told_of_waits {now : Int} (hs : Steps o s (.manager now) s') (h : s.idleWaiting = false)
    (h' : s'.idleWaiting = true) : s.trackIdling = some true := by
  have hsame : s'.idleWaiting = s.idleWaiting → s.trackIdling = some true := by
    intro heq
    rw [heq, h] at h'
    cases h'
  cases hs with
  | restart _ hr => cases hr
  | managerTracks _ doTrack _ _ ht =>
      rcases tells_managerTracksIdling ht with ⟨-, hw⟩ | ht' | ⟨-, hw⟩
      · exact hsame hw
      · revert ht'
        unfold managerTracksIdling
        simp only
        split
        · rintro ⟨⟩
        split
        · rintro ⟨⟩
        split <;> rintro ⟨⟩
      · exact hw h'
  | managerQueues now doQueue =>
      refine hsame ?_
      unfold managerQueues
      simp only
      split <;> rfl
  | _ => exact hsame rfl

end ClientImpl

open ClientImpl

/-- **Idling without automatic idling.** With `automatic_idling` off, in every run on which no call
of `register_content` throws while there is no content, but for its source: if the manager begins to
wait for the end of the idling, or disconnects, then the last call that put the client into idle or
out of it was `idle(true)`. When it begins to wait this counts calls whose source was rejected as
well, if there were none while a request to idle was pending. -/
theorem idles_only_if_asked {o : ClientOptions} (ho : o.automaticIdling = false)
    {es : List ClientImplEvent} {s s' : ClientImpl} {now : Int}
    (hr : (machine o).run init es = some s) (hs : step o s (.manager now) = some s')
    (hk : (machine o).Along KeepsContent init es) :
    (s.idleWaiting = false → s'.idleWaiting = true → lastIdleRequest es = some (.idle true)) ∧
    (s'.manager = .idleStop → lastIdleRequest es = some (.idle true)) ∧
    ((machine o).Along KeepsRequest init es → s.idleWaiting = false → s'.idleWaiting = true →
      lastIdleCall es = some (.idle true)) := by
  have hinv := idlesIf_lastIdleRequest ho hr hk
  have hs := steps_of_step hs
  refine ⟨fun h h' => hinv.told (told_of_waits hs h h'), fun hstop => ?_, fun hq h h' => ?_⟩
  · cases hs with
    | restart _ hr => cases hr
    | managerIdles _ _ _ ht hi => exact hinv.waits ht hi
    | managerQueues => cases hstop
    | _ => cases hstop
  · exact told_lastIdleCall ho hr hk hq (told_of_waits hs h h')

/-! ## Sample runs -/

/-- A client that disconnects a second after it has begun to idle. -/
def impatientOptions : ClientOptions := { sampleOptions with disconnectAfterIdle := some 1000 }

/-- The client is ready for content. -/
def untilReady : List ClientImplEvent :=
  [.start, .websocketOpen, .websocketMessage (.hello (some (⟨1024, 4096, ["text/plain"]⟩, 0)))]

/-- The client after the events `es`. -/
def impatientAfter (es : List ClientImplEvent) : ClientImpl :=
  ((machine impatientOptions).run init es).getD init

theorem idles_only_if_asked_idle :
    (impatientAfter (untilReady ++ [.idle true, .manager 0])).idleWaiting = true ∧
    lastIdleCall (untilReady ++ [.idle true]) = some (.idle true) := by
  have hwaits : (impatientAfter (untilReady ++ [.idle true, .manager 0])).idleWaiting = true := by decide
  have hrun : (machine impatientOptions).run init (untilReady ++ [.idle true]) =
      some (impatientAfter (untilReady ++ [.idle true])) := rfl
  have hpass : step impatientOptions (impatientAfter (untilReady ++ [.idle true])) (.manager 0) =
      some (impatientAfter (untilReady ++ [.idle true, .manager 0])) := rfl
  have h := idles_only_if_asked rfl hrun hpass (by decide)
  exact ⟨hwaits, h.2.2 (by decide) (by decide) hwaits⟩

/-- Content that the server does not accept is to be registered while there is no other. -/
def registerImage : List ClientImplEvent :=
  untilReady ++ [.registerContent 0 (some ⟨"image/png", 1, [7]⟩) ⟨"image", none, none⟩]

/-- The call throws, and the client disconnects for idling a second later. -/
theorem rejected_content_idles :
    (machine impatientOptions).run init registerImage = some (impatientAfter registerImage) ∧
    impatientOptions.automaticIdling = false ∧
    step impatientOptions (impatientAfter registerImage) (.manager 0) =
      some (impatientAfter (registerImage ++ [.manager 0])) ∧
    (impatientAfter registerImage).idleWaiting = false ∧
    (impatientAfter (registerImage ++ [.manager 0])).idleWaiting = true ∧
    lastIdleCall registerImage ≠ some (.idle true) ∧
    (impatientAfter (registerImage ++ [.manager 0, .manager 1000])).manager = .idleStop :=
  ⟨rfl, rfl, rfl, by decide, by decide, by decide, by decide⟩

end Loon
