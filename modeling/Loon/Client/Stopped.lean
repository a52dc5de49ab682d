import Loon.Client.Steps

set_option autoImplicit false

/-!
# A stopped client

What the manager thread goes by is a part of the state of the client (`Control`), and a step changes
it in one of a few ways (`Moves`, `Steps.moves`). The manager will start the connection by itself if
it is in `internal_restart`, or if it waits and finds a restart, a queued reconnect or a reconnect
timer (`Control.Armed`). `stop` clears `m_started` before `m_conn->stop()` and all of these only
after it, and a restart may be asked for at any time.

* `Quiet`: the invariant; a client that is not started is not armed;
* `armed_canStart`: an armed client that is not started can start a connection;
* **`stopped_client_never_starts`**: a connection is started only by a started client, on every run
  on which `stop` does not find the client armed and no restart is asked for while it is stopped; and
  after any other step the connection of a stopped client can be started.
-/

namespace Loon

/-- What the manager goes by, with what `m_conn->start()` saw. -/
structure Control where
  started : Bool
  manager : ManagerPoint
  stopManagerLoop : Bool
  managerAction : ManagerAction
  queueReconnect : Option Bool
  reconnectAttempt : UInt64
  reconnectTimePoint : Option Int
  connStarts : List Bool

namespace Control

variable (o : ClientOptions) (c : Control)

def internalStart : Control := { c with connStarts := c.connStarts ++ [c.started] }

def finishInternalStop : Control :=
  { c with
    queueReconnect := if o.withReconnect then some false else c.queueReconnect
    reconnectAttempt := if o.withReconnect then 0 else c.reconnectAttempt
    managerAction := .nothing }

def restart : Control :=
  { c with managerAction := if c.managerAction = .nothing then .restart else c.managerAction }

def loopHead : Control :=
  { c with
    manager := .waiting
    reconnectTimePoint := if c.reconnectAttempt = 0 then none else c.reconnectTimePoint }

/-- The manager waits in its loop, which goes on, and no action is pending. -/
def Receptive : Prop :=
  c.manager = .waiting ∧ c.stopManagerLoop = false ∧ c.managerAction = .nothing

/-- A reconnect is queued, or the reconnect timer runs. -/
def Reconnecting : Prop :=
  c.queueReconnect = some true ∨
    c.queueReconnect = none ∧ 0 < c.reconnectAttempt ∧ c.reconnectTimePoint.isSome = true

/-- The manager is about to start the connection. -/
def Armed : Prop :=
  c.manager = .internalRestart ∨
    (c.manager = .waiting ∧ c.stopManagerLoop = false ∧ c.managerAction = .restart) ∨
    (c.Receptive ∧ c.Reconnecting)

instance : Decidable c.Receptive := inferInstanceAs (Decidable (_ ∧ _ ∧ _))

instance : Decidable c.Reconnecting := inferInstanceAs (Decidable (_ ∨ _ ∧ _ ∧ _))

instance : Decidable c.Armed := inferInstanceAs (Decidable (_ ∨ (_ ∧ _ ∧ _) ∨ _ ∧ _))

end Control

namespace ClientImpl

variable (s : ClientImpl)

def control : Control where
  started := s.started
  manager := s.manager
  stopManagerLoop := s.stopManagerLoop
  managerAction := s.managerAction
  queueReconnect := s.queueReconnect
  reconnectAttempt := s.reconnectAttempt
  reconnectTimePoint := s.reconnectTimePoint
  connStarts := s.connStarts

/-- `stop` is not called on an armed client, and a restart is not asked for while the client is
stopped and the manager ready to take it. -/
def Undisturbed (e : ClientImplEvent) : Prop :=
  (e = .stop → s.started = true → ¬ s.control.Armed) ∧
    (s.asksRestart e = true → s.started = false → ¬ s.control.Receptive)

instance (e : ClientImplEvent) : Decidable (s.Undisturbed e) :=
  inferInstanceAs (Decidable ((_ → _ → ¬ _) ∧ (_ → _ → ¬ _)))

/-! ## What a step can do -/

/-- What an event can do to what the manager goes by; `asks` says whether it asks for a restart. -/
inductive Moves (o : ClientOptions) (asks : Prop) (c : Control) : ClientImplEvent → Control → Prop
  | keep (e : ClientImplEvent) : Moves o asks c e c
  | start : Moves o asks c .start { c with started := true }.internalStart
  | ensureStarted (e : ClientImplEvent) (h : c.started = true) : Moves o asks c e c.internalStart
  | stop (h : c.started = true) : Moves o asks c .stop { c with started := false }
  | finishStop (e : ClientImplEvent) : Moves o asks c e (c.finishInternalStop o)
  | resetDelay (e : ClientImplEvent) : Moves o asks c e { c with reconnectAttempt := 0 }
  | queue (e : ClientImplEvent) (h : c.started = true) (ho : o.withReconnect = true) :
      Moves o asks c e { c with queueReconnect := some true }
  | restart (e : ClientImplEvent) (h : asks) : Moves o asks c e c.restart
  | fail (e : ClientImplEvent) : Moves o asks c e { c with managerAction := .fail }
  | loopHead (e : ClientImplEvent) (h : c.manager = .waiting) : Moves o asks c e c.loopHead
  | idleStop (e : ClientImplEvent) : Moves o asks c e { c with manager := .idleStop }
  | internalRestart (e : ClientImplEvent) (h : c.Armed) :
      Moves o asks c e { c with manager := .internalRestart }
  | internalStopAndReset (e : ClientImplEvent) :
      Moves o asks c e { c with manager := .internalStopAndReset }
  | dequeue (e : ClientImplEvent) (h : c.Receptive) :
      Moves o asks c e { c with queueReconnect := none, reconnectTimePoint := none }.loopHead
  | setTimer (e : ClientImplEvent) (t : Int) (h : c.Armed) (hq : c.queueReconnect = some true) :
      Moves o asks c e { c with
        queueReconnect := none
        reconnectAttempt := c.reconnectAttempt + 1
        reconnectTimePoint := some t }.loopHead
  | reconnect (e : ClientImplEvent) (h : c.Armed) :
      Moves o asks c e { c.internalStart with reconnectTimePoint := none }.loopHead
  | idleStopped (e : ClientImplEvent) : Moves o asks c e (c.finishInternalStop o).loopHead
  | restarted (e : ClientImplEvent) (h : c.Armed) :
      Moves o asks c e (c.finishInternalStop o).internalStart.loopHead
  | failed (e : ClientImplEvent) :
      Moves o asks c e { c.finishInternalStop o with started := false }.loopHead
  | returned (e : ClientImplEvent) : Moves o asks c e { c with manager := .returned }
  | stopLoop (e : ClientImplEvent) : Moves o asks c e { c with stopManagerLoop := true }

variable {s} {o : ClientOptions} {asks : Prop}

theorem Calm.control {s' : ClientImpl} (h : Calm s s') : s'.control = s.control := by
  simp only [ClientImpl.control, h.started, h.manager, h.stopManagerLoop, h.managerAction,
    h.queueReconnect, h.reconnectAttempt, h.reconnectTimePoint, h.connStarts]

@[simp] theorem loopHead_control : s.loopHead.control = s.control.loopHead := rfl

@[simp] theorem finishInternalStop_control :
    (s.finishInternalStop o).control = s.control.finishInternalStop o := by
  unfold finishInternalStop Control.finishInternalStop
  cases o.withReconnect <;> rfl

@[simp] theorem restart_control : s.restart.control = s.control.restart := by
  unfold restart
  cases h : s.managerAction <;> simp [Control.restart, control, h]

theorem moves_ensureStarted (e : ClientImplEvent) (h : s.started = true) :
    Moves o asks s.control e s.ensureStarted.control := by
  unfold ensureStarted
  split
  · exact .ensureStarted e h
  · exact .keep e

theorem moves_waitUntilReady (e : ClientImplEvent) (i : ℕ) (purpose : Purpose) :
    Moves o asks s.control e (s.waitUntilReady i purpose).control := by
  rw [(waitUntilReady_spec i purpose).calm.control]
  split
  · rename_i h
    simp only [Bool.and_eq_true] at h
    exact .ensureStarted e h.1.1
  · exact .keep e

theorem moves_registerContent (e : ClientImplEvent) (i : ℕ) (source : Option ContentSource)
    (info : ContentInfo) : Moves o asks s.control e (s.registerContent i source info).control := by
  rw [(registerContent_spec i source info).calm.control]
  split
  · rename_i h
    cases source with
    | none => cases h
    | some source =>
        simp only [callStarts, Bool.and_eq_true] at h
        exact .ensureStarted e h.1.1.2
  · exact .keep e

theorem moves_onWebsocketOpen (e : ClientImplEvent) :
    Moves o asks s.control e (s.onWebsocketOpen o).control := by
  unfold onWebsocketOpen
  simp only
  split
  · exact .resetDelay e
  · exact .keep e

theorem moves_onWebsocketClose (e : ClientImplEvent) :
    Moves o asks s.control e (s.onWebsocketClose o).control := by
  unfold onWebsocketClose
  simp only
  split
  · rename_i h
    simp only [Bool.and_eq_true] at h
    exact .queue e h.1.1 h.1.2
  · exact .keep e

theorem managerTracksIdling_control (now : Int) (doTrack : Bool) :
    (s.managerTracksIdling o now doTrack).control = s.control := by
  unfold managerTracksIdling
  simp only
  split
  · rfl
  · split
    · rfl
    · split <;> rfl

theorem acceptHello_control (k : Constraints) : (s.acceptHello o k).control = s.control := by
  unfold acceptHello
  simp only
  split <;> rfl

/-- **What a step can do to what the manager goes by.** -/
theorem Steps.moves {e : ClientImplEvent} {s' : ClientImpl} (h : Steps o s e s') :
    Moves o (s.asksRestart e = true) s.control e s'.control := by
  cases h with
  | startAgain hs => exact moves_ensureStarted (s := s.setIdle false) _ hs
  | start => exact .start
  | stop hs => exact .stop hs
  | stopped =>
      show Moves o _ s.control _ (s.finishInternalStop o).control
      rw [finishInternalStop_control]
      exact .finishStop _
  | registerContent i source info => exact moves_registerContent _ i source info
  | waitUntilReady i => exact moves_waitUntilReady _ i .ready
  | connectionSettled i _ purpose =>
      rw [(called_awaitHello i purpose).calm.control]
      exact .keep _
  | connectionTimedOut i purpose =>
      rw [(called_throwCall i purpose _).calm.control]
      exact .keep _
  | helloSettled i _ purpose =>
      rw [(called_afterHello i purpose).calm.control]
      exact .keep _
  | unregister g =>
      rw [(called_unregister g).calm.control]
      exact .keep _
  | websocketOpen => exact moves_onWebsocketOpen _
  | websocketClose => exact moves_onWebsocketClose _
  | restart _ ha =>
      rw [restart_control]
      exact .restart _ ha
  | respondFails =>
      show Moves o _ s.control _ s.restart.control
      rw [restart_control]
      exact .restart _ rfl
  | fail => exact .fail _
  | hello k =>
      rw [acceptHello_control]
      exact .keep _
  | managerTracks now doTrack hm =>
      rw [loopHead_control, managerTracksIdling_control]
      exact .loopHead _ hm
  | managerIdles => exact .idleStop _
  | managerRestarts now h ha =>
      exact .internalRestart _ (.inr (.inl ⟨h.manager, h.stopManagerLoop, ha⟩))
  | managerFails => exact .internalStopAndReset _
  | managerQueues now doQueue h ha hq =>
      cases doQueue with
      | false => exact .dequeue _ ⟨h.manager, h.stopManagerLoop, ha⟩
      | true =>
          exact .setTimer _ _ (.inr (.inr ⟨⟨h.manager, h.stopManagerLoop, ha⟩, .inl hq⟩)) hq
  | managerReconnects now h ha hq hn ht =>
      exact .reconnect _ (.inr (.inr ⟨⟨h.manager, h.stopManagerLoop, ha⟩, .inr ⟨hq, hn, ht⟩⟩))
  | managerPasses now h => exact .loopHead _ h.manager
  | managerReturns => exact .returned _
  | idleStopped =>
      show Moves o _ s.control _ (s.finishInternalStop o).control.loopHead
      rw [finishInternalStop_control]
      exact .idleStopped _
  | restarted hm =>
      show Moves o _ s.control _
        { (s.finishInternalStop o).control.internalStart with managerAction := .nothing }.loopHead
      rw [finishInternalStop_control]
      exact .restarted _ (.inl hm)
  | failed =>
      show Moves o _ s.control _
        { (s.finishInternalStop o).control with started := false, managerAction := .nothing }.loopHead
      rw [finishInternalStop_control]
      exact .failed _
  | destroyStopped =>
      show Moves o _ s.control _ (s.finishInternalStop o).control
      rw [finishInternalStop_control]
      exact .finishStop _
  | destroyLoop => exact .stopLoop _
  | stopAgain | idle | badHandle | onUnregistered | respond | handled | sent | destroy =>
      exact .keep _

end ClientImpl

/-! ## The invariant -/

open ClientImpl

/-- The connection was started only by a started client, and is not going to be started by a client
that is not; without a reconnect delay there are no reconnects. -/
structure Quiet (o : ClientOptions) (c : Control) : Prop where
  starts : false ∉ c.connStarts
  unarmed : c.started = false → ¬ c.Armed
  reconnect : o.withReconnect = false → c.queueReconnect = none ∧ c.reconnectAttempt = 0

namespace Quiet

variable {o : ClientOptions} {asks : Prop} {c c' : Control} {e : ClientImplEvent}

/-- A started client is quiet whatever the manager does, if no connection was started otherwise. -/
theorem of_started (h : Quiet o c) (hs : c'.started = true) (hc : c'.connStarts = c.connStarts ∨
    c'.connStarts = c.connStarts ++ [true]) (hr : o.withReconnect = false →
    c'.queueReconnect = none ∧ c'.reconnectAttempt = 0) : Quiet o c' := by
  refine ⟨?_, ?_, hr⟩
  · rcases hc with hc | hc
    · rw [hc]
      exact h.starts
    · rw [hc, List.mem_append, List.mem_singleton]
      rintro (hm | hm)
      · exact h.starts hm
      · cases hm
  · intro hs'
    rw [hs] at hs'
    cases hs'

/-- `internal_stop` disarms a manager that is not in `internal_restart`. -/
theorem not_armed_finishInternalStop (h : Quiet o c) (hm : c.manager ≠ .internalRestart) :
    ¬ (c.finishInternalStop o).Armed := by
  rintro (ha | ⟨-, -, ha⟩ | ⟨-, hq | ⟨-, hq, -⟩⟩)
  · exact hm ha
  · cases ha
  · simp only [Control.finishInternalStop] at hq
    split at hq
    · cases hq
    · rename_i ho
      rw [(h.reconnect (by simpa using ho)).1] at hq
      cases hq
  · simp only [Control.finishInternalStop] at hq
    split at hq
    · exact UInt64.lt_irrefl 0 hq
    · rename_i ho
      rw [(h.reconnect (by simpa using ho)).2] at hq
      exact UInt64.lt_irrefl 0 hq

theorem reconnect_finishInternalStop (h : Quiet o c) (ho : o.withReconnect = false) :
    (c.finishInternalStop o).queueReconnect = none ∧
      (c.finishInternalStop o).reconnectAttempt = 0 := by
  simp only [Control.finishInternalStop, ho, Bool.false_eq_true, if_false]
  exact h.reconnect ho

theorem finishInternalStop (h : Quiet o c) : Quiet o (c.finishInternalStop o) := by
  refine ⟨h.starts, ?_, h.reconnect_finishInternalStop⟩
  intro hs
  exact h.not_armed_finishInternalStop fun hm => h.unarmed hs (.inl hm)

theorem armed_of_loopHead (hm : c.manager = .waiting) (ha : c.loopHead.Armed) : c.Armed := by
  rcases ha with ha | ⟨-, hl, ha⟩ | ⟨⟨-, hl, ha⟩, hq | ⟨hq, hn, ht⟩⟩
  · cases ha
  · exact .inr (.inl ⟨hm, hl, ha⟩)
  · exact .inr (.inr ⟨⟨hm, hl, ha⟩, .inl hq⟩)
  · refine .inr (.inr ⟨⟨hm, hl, ha⟩, .inr ⟨hq, hn, ?_⟩⟩)
    have hn' : c.reconnectAttempt ≠ 0 := UInt64.pos_iff_ne_zero.mp hn
    simpa only [Control.loopHead, if_neg hn'] using ht

/-- The manager is not armed when it is back in its loop after `internal_stop`. -/
theorem not_armed_stopped (h : Quiet o c) : ¬ (c.finishInternalStop o).loopHead.Armed := by
  intro ha
  have hw : Quiet o { c with manager := .waiting, started := true } :=
    h.of_started rfl (.inl rfl) h.reconnect
  exact hw.not_armed_finishInternalStop nofun (armed_of_loopHead rfl ha)

/-- **A move keeps the client quiet**, unless it stops an armed one or asks a stopped one to
restart. -/
theorem moves (h : Quiet o c) (hstop : e = .stop → c.started = true → ¬ c.Armed)
    (hasks : asks → c.started = false → ¬ c.Receptive) (hm : Moves o asks c e c') :
    Quiet o c' := by
  have started : c.Armed → c.started = true := by
    intro ha
    cases hs : c.started with
    | false => exact absurd ha (h.unarmed hs)
    | true => rfl
  cases hm with
  | keep => exact h
  | start => exact h.of_started rfl (.inr rfl) h.reconnect
  | ensureStarted _ hs =>
      refine h.of_started hs (.inr ?_) h.reconnect
      rw [Control.internalStart, hs]
  | stop hs => exact ⟨h.starts, fun _ => hstop rfl hs, h.reconnect⟩
  | finishStop => exact h.finishInternalStop
  | resetDelay =>
      refine ⟨h.starts, ?_, fun ho => ⟨(h.reconnect ho).1, rfl⟩⟩
      rintro hs (ha | ha | ⟨hr, hq | ⟨-, hq, -⟩⟩)
      · exact h.unarmed hs (.inl ha)
      · exact h.unarmed hs (.inr (.inl ha))
      · exact h.unarmed hs (.inr (.inr ⟨hr, .inl hq⟩))
      · exact absurd hq (UInt64.lt_irrefl 0)
  | queue _ hs ho =>
      refine h.of_started hs (.inl rfl) fun ho' => ?_
      rw [ho] at ho'
      cases ho'
  | restart _ ha =>
      refine ⟨h.starts, ?_, h.reconnect⟩
      rintro hs (hm | ⟨hm, hl, hr⟩ | ⟨⟨-, -, hr⟩, -⟩)
      · exact h.unarmed hs (.inl hm)
      · simp only [Control.restart] at hr
        split at hr
        · rename_i hn
          exact hasks ha hs ⟨hm, hl, hn⟩
        · exact h.unarmed hs (.inr (.inl ⟨hm, hl, hr⟩))
      · simp only [Control.restart] at hr
        split at hr
        · cases hr
        · rename_i hn
          exact hn hr
  | fail =>
      refine ⟨h.starts, ?_, h.reconnect⟩
      rintro hs (hm | ⟨-, -, hr⟩ | ⟨⟨-, -, hr⟩, -⟩)
      · exact h.unarmed hs (.inl hm)
      · cases hr
      · cases hr
  | loopHead _ hm =>
      exact ⟨h.starts, fun hs ha => h.unarmed hs (armed_of_loopHead hm ha), h.reconnect⟩
  | idleStop =>
      refine ⟨h.starts, ?_, h.reconnect⟩
      rintro - (hm | ⟨hm, -⟩ | ⟨⟨hm, -⟩, -⟩) <;> cases hm
  | internalRestart _ ha => exact h.of_started (started ha) (.inl rfl) h.reconnect
  | internalStopAndReset =>
      refine ⟨h.starts, ?_, h.reconnect⟩
      rintro - (hm | ⟨hm, -⟩ | ⟨⟨hm, -⟩, -⟩) <;> cases hm
  | dequeue _ hr =>
      refine ⟨h.starts, ?_, fun ho => ⟨rfl, (h.reconnect ho).2⟩⟩
      intro hs ha
      rcases ha with hm | ⟨-, -, hm⟩ | ⟨-, hq | ⟨-, -, ht⟩⟩
      · cases hm
      · have hn : ManagerAction.nothing = .restart := hr.2.2.symm.trans hm
        cases hn
      · cases hq
      · simp [Control.loopHead] at ht
  | setTimer _ t ha hq =>
      refine h.of_started (started ha) (.inl rfl) fun ho => ?_
      rw [(h.reconnect ho).1] at hq
      cases hq
  | reconnect _ ha =>
      refine h.of_started (started ha) (.inr ?_) h.reconnect
      show c.connStarts ++ [c.started] = _
      rw [started ha]
  | idleStopped =>
      exact ⟨h.starts, fun _ => h.not_armed_stopped, h.reconnect_finishInternalStop⟩
  | restarted _ ha =>
      refine h.of_started (started ha) (.inr ?_) h.reconnect_finishInternalStop
      show c.connStarts ++ [c.started] = _
      rw [started ha]
  | failed => exact ⟨h.starts, fun _ => h.not_armed_stopped, h.reconnect_finishInternalStop⟩
  | returned =>
      refine ⟨h.starts, ?_, h.reconnect⟩
      rintro - (hm | ⟨hm, -⟩ | ⟨⟨hm, -⟩, -⟩) <;> cases hm
  | stopLoop =>
      refine ⟨h.starts, ?_, h.reconnect⟩
      rintro hs (hm | ⟨-, hl, -⟩ | ⟨⟨-, hl, -⟩, -⟩)
      · exact h.unarmed hs (.inl hm)
      · cases hl
      · cases hl

end Quiet

namespace ClientImpl

variable {o : ClientOptions} {s s' : ClientImpl} {e : ClientImplEvent}

theorem quiet_init : Quiet o init.control := by
  refine ⟨nofun, ?_, fun _ => ⟨rfl, rfl⟩⟩
  rintro - (hm | ⟨-, -, hm⟩ | ⟨-, hq | ⟨-, hq, -⟩⟩)
  · cases hm
  · cases hm
  · cases hq
  · cases hq

theorem quiet_step (h : Quiet o s.control) (he : s.Undisturbed e) (hs : step o s e = some s') :
    Quiet o s'.control := h.moves he.1 he.2 ((steps_of_step hs).moves)

/-- Only `start` starts a client. -/
theorem started_step (he : e ≠ .start) (hf : s.started = false) (hs : step o s e = some s') :
    s'.started = false := by
  have hm := (steps_of_step hs).moves
  rw [show s'.started = s'.control.started from rfl]
  generalize s'.control = c' at hm ⊢
  cases hm with
  | start => exact absurd rfl he
  | _ => first | exact hf | rfl

/-- A step starts the connection at most once, for the client as it is after the step. -/
theorem connStarts_step (hs : step o s e = some s') :
    s'.connStarts = s.connStarts ∨ s'.connStarts = s.connStarts ++ [s'.started] := by
  have hm := (steps_of_step hs).moves
  rw [show s'.connStarts = s'.control.connStarts from rfl,
    show s'.started = s'.control.started from rfl]
  generalize s'.control = c' at hm ⊢
  cases hm with
  | start => exact .inr rfl
  | ensureStarted => exact .inr rfl
  | reconnect => exact .inr rfl
  | restarted => exact .inr rfl
  | _ => exact .inl rfl

/-- A stopped client does not start a connection, until it is started again. -/
theorem connStarts_stopped {es : List ClientImplEvent} (hstart : .start ∉ es)
    (h : Quiet o s.control) (hf : s.started = false)
    (hC : (machine o).Along Undisturbed s es) (hr : (machine o).run s es = some s') :
    s'.connStarts = s.connStarts := by
  induction es generalizing s with
  | nil => cases hr; rfl
  | cons e es ih =>
      rw [Machine.run_cons, Option.bind_eq_some_iff] at hr
      obtain ⟨s₁, h1, h2⟩ := hr
      rw [List.mem_cons, not_or] at hstart
      have hq := quiet_step h hC.1 h1
      have hf₁ := started_step (Ne.symm hstart.1) hf h1
      have hsame : s₁.connStarts = s.connStarts := by
        rcases connStarts_step h1 with hc | hc
        · exact hc
        · refine absurd ?_ hq.starts
          show false ∈ s₁.connStarts
          rw [hc, hf₁]
          exact List.mem_append_right _ List.mem_cons_self
      rw [ih hstart.2 hq hf₁ (hC.2 s₁ h1) h2, hsame]

/-! ## An armed client that is not started -/

variable (o s) in
/-- Steps other than `start` can start the connection, and do so for a client that is not started. -/
def CanStart : Prop :=
  ∃ es s', .start ∉ es ∧ (machine o).run s es = some s' ∧
    s'.connStarts = s.connStarts ++ [false]

theorem CanStart.step (hs : step o s e = some s') (he : e ≠ .start)
    (hc : s'.connStarts = s.connStarts) (h : CanStart o s') : CanStart o s := by
  obtain ⟨es, s'', hes, hr, hc'⟩ := h
  refine ⟨e :: es, s'', ?_, ?_, ?_⟩
  · rw [List.mem_cons, not_or]
    exact ⟨he.symm, hes⟩
  · rw [Machine.run_cons, show (machine o).step s e = some s' from hs]
    exact hr
  · rw [hc', hc]

theorem canStart_of_step (hs : ClientImpl.step o s e = some s') (he : e ≠ .start)
    (hc : s'.connStarts = s.connStarts ++ [false]) : CanStart o s := by
  refine ⟨[e], s', ?_, ?_, hc⟩
  · rw [List.mem_singleton]
    exact he.symm
  · rw [Machine.run_cons, show (machine o).step s e = some s' from hs]
    rfl

theorem canStart_internalRestart (hf : s.started = false) (hm : s.manager = .internalRestart) :
    CanStart o s := by
  -- The rest of `internal_stop` waits for a response that is being sent.
  have idle : ∀ s : ClientImpl, s.started = false → s.manager = .internalRestart →
      s.responding = false → CanStart o s := by
    intro s hf hm hn
    have hs : ClientImpl.step o s .managerResume = some { (s.finishInternalStop o).internalStart with
        managerAction := .nothing }.loopHead := by
      simp only [ClientImpl.step, hn, managerResume, hm, Bool.false_eq_true, if_false]
    refine canStart_of_step hs (by rintro ⟨⟩) ?_
    show ((s.finishInternalStop o).control.internalStart).connStarts = _
    rw [finishInternalStop_control, ← hf]
    rfl
  cases hn : s.responding with
  | false => exact idle s hf hm hn
  | true =>
      have hs : ClientImpl.step o s .sent = some { s with responding := false } := by
        simp only [ClientImpl.step, hn, if_true]
      exact CanStart.step hs (by rintro ⟨⟩) rfl (idle { s with responding := false } hf hm rfl)

/-- The manager waits, and has no idling to see to. -/
structure Settled (s : ClientImpl) : Prop where
  started : s.started = false
  manager : s.manager = .waiting
  stopManagerLoop : s.stopManagerLoop = false
  trackIdling : s.trackIdling = none
  idleWaiting : s.idleWaiting = false

theorem canStart_restart (h : Settled s) (ha : s.managerAction = .restart) : CanStart o s := by
  have hs : ClientImpl.step o s (.manager 0) = some { s with manager := .internalRestart } := by
    simp [ClientImpl.step, managerIteration, managerWakes, managerCondition, h.manager,
      h.stopManagerLoop, h.trackIdling, h.idleWaiting, ha]
  exact CanStart.step hs (by rintro ⟨⟩) rfl (canStart_internalRestart h.started rfl)

/-- A message that cannot be parsed asks for a restart. -/
theorem canStart_asked (h : Settled s) (ha : s.managerAction = .nothing) : CanStart o s := by
  have hrestart : s.restart = { s with managerAction := .restart } := by
    rw [ClientImpl.restart, ha]
  refine CanStart.step (e := .websocketMessage .unparsable) rfl (by rintro ⟨⟩) ?_ ?_
  · rw [hrestart]
  · rw [hrestart]
    exact canStart_restart ⟨h.started, h.manager, h.stopManagerLoop, h.trackIdling, h.idleWaiting⟩ rfl

theorem canStart_timer (h : Settled s) (ha : s.managerAction = .nothing)
    (hq : s.queueReconnect = none) (hn : 0 < s.reconnectAttempt)
    (ht : s.reconnectTimePoint.isSome = true) : CanStart o s := by
  obtain ⟨t, ht⟩ := Option.isSome_iff_exists.mp ht
  have hs : ClientImpl.step o s (.manager t) =
      some { s.internalStart with reconnectTimePoint := none }.loopHead := by
    simp [ClientImpl.step, managerIteration, managerWakes, managerCondition, expired, h.manager,
      h.stopManagerLoop, h.trackIdling, h.idleWaiting, ha, hq, hn, ht]
  refine canStart_of_step hs (by rintro ⟨⟩) ?_
  rw [← h.started]
  rfl

theorem canStart_queue (h : Settled s) (ha : s.managerAction = .nothing)
    (hq : s.queueReconnect = some true) : CanStart o s := by
  have hs : ClientImpl.step o s (.manager 0) = some (s.managerQueues o 0 true).loopHead := by
    simp [ClientImpl.step, managerIteration, managerWakes, managerCondition, h.manager,
      h.stopManagerLoop, h.trackIdling, h.idleWaiting, ha, hq]
  have hsettled : Settled (s.managerQueues o 0 true).loopHead :=
    ⟨h.started, rfl, h.stopManagerLoop, h.trackIdling, h.idleWaiting⟩
  refine CanStart.step hs (by rintro ⟨⟩) rfl ?_
  by_cases hn : s.reconnectAttempt + 1 = 0
  · -- the counter has wrapped around, and no timer runs
    exact canStart_asked hsettled ha
  · refine canStart_timer hsettled ha rfl (UInt64.pos_iff_ne_zero.mpr hn) ?_
    show (if s.reconnectAttempt + 1 = 0 then none else some _).isSome = true
    rw [if_neg hn]
    rfl

/-- **An armed client that is not started can start a connection.** -/
theorem armed_canStart (hf : s.started = false) (ha : s.control.Armed) : CanStart o s := by
  rcases ha with hm | ha
  · exact canStart_internalRestart hf hm
  have hm : s.manager = .waiting := ha.elim (·.1) (·.1.1)
  have hl : s.stopManagerLoop = false := ha.elim (·.2.1) (·.1.2.1)
  -- The user ends the idling first, so that the manager does not disconnect for it.
  let s₁ : ClientImpl := { s with trackIdling := none, idleTimePoint := none, idleWaiting := false }
  have h1 : ClientImpl.step o (s.setIdle false) (.manager 0) = some s₁.loopHead := by
    simp [ClientImpl.step, managerIteration, managerWakes, managerCondition, setIdle, hm, hl,
      managerTracksIdling, s₁]
  have hsettled : Settled s₁.loopHead := ⟨hf, rfl, hl, rfl, rfl⟩
  refine CanStart.step (e := .idle false) rfl (by rintro ⟨⟩) rfl ?_
  refine CanStart.step h1 (by rintro ⟨⟩) rfl ?_
  rcases ha with ⟨-, -, ha⟩ | ⟨⟨-, -, ha⟩, hq | ⟨hq, hn, ht⟩⟩
  · exact canStart_restart hsettled ha
  · exact canStart_queue hsettled ha hq
  · refine canStart_timer hsettled ha hq hn ?_
    have hne : s.reconnectAttempt ≠ 0 := UInt64.pos_iff_ne_zero.mp hn
    show (if s.reconnectAttempt = 0 then none else s.reconnectTimePoint).isSome = true
    rw [if_neg hne]
    exact ht

theorem asksRestart_control (ha : s.asksRestart e = true) (hs : ClientImpl.step o s e = some s') :
    s'.control = s.control.restart := by
  have h := steps_of_step hs
  cases h with
  | restart => exact restart_control
  | respondFails => exact restart_control
  | fail _ hn | handled _ hn =>
      rw [ha] at hn
      cases hn
  | respond =>
      simp only [asksRestart, Bool.and_false] at ha
      cases ha
  | _ => cases ha

/-- A step that stops an armed client, or asks a stopped one to restart, leaves it armed. -/
theorem armed_of_disturbed (he : ¬ s.Undisturbed e) (hs : ClientImpl.step o s e = some s') :
    s'.started = false ∧ s'.control.Armed := by
  rw [Undisturbed, not_and_or] at he
  rcases he with he | he
  · simp only [Classical.not_imp, not_not] at he
    obtain ⟨rfl, hst, ha⟩ := he
    have h1 : s' = { s with started := false, stopping := s.stopping + 1 } := by
      simpa [ClientImpl.step, stop, hst] using hs.symm
    rw [h1]
    exact ⟨rfl, ha⟩
  · simp only [Classical.not_imp, not_not] at he
    obtain ⟨ha, hst, hm, hl, hn⟩ := he
    have hc := asksRestart_control ha hs
    constructor
    · show s'.control.started = false
      rw [hc]
      exact hst
    · rw [hc]
      refine .inr (.inl ⟨hm, hl, ?_⟩)
      rw [Control.restart, hn]
      rfl

end ClientImpl

/-- **A stopped client never starts a connection**, on every run on which `stop` is not called on an
armed client and no restart is asked for that the manager of a stopped client can take: each start of
the connection is by a client that is started, and there is none between the stop of a client and the
next call of `start`. On no other run is this safe: after a step that breaks the condition the
connection can be started without a call of `start`. -/
theorem stopped_client_never_starts (o : ClientOptions) {es : List ClientImplEvent} {s : ClientImpl}
    (hr : (machine o).run init es = some s) :
    ((machine o).Along Undisturbed init es →
      (∀ started ∈ s.connStarts, started = true) ∧
      ∀ es' s', s.started = false → .start ∉ es' → (machine o).Along Undisturbed s es' →
        (machine o).run s es' = some s' → s'.connStarts = s.connStarts) ∧
    ∀ e s', ¬ s.Undisturbed e → step o s e = some s' → CanStart o s' := by
  constructor
  · intro hC
    have hq : Quiet o s.control :=
      Machine.Along.inv (P := fun s => Quiet o s.control) (fun _ _ _ => quiet_step) quiet_init hC hr
    constructor
    · intro started hs
      cases started with
      | true => rfl
      | false => exact absurd hs hq.starts
    · intro es' s' hf hes hC' hr'
      exact connStarts_stopped hes hq hf hC' hr'
  · intro e s' he hs
    obtain ⟨hf, ha⟩ := armed_of_disturbed he hs
    exact armed_canStart hf ha

/-! ## Sample runs -/

/-- The connection is restarted after a message that is not understood, and then stopped. -/
def restartAndStop : List ClientImplEvent :=
  [.start, .websocketOpen, .manager 0, .websocketMessage .unparsable, .manager 0, .managerResume,
    .manager 0, .manager 0, .stop, .stopped]

theorem stopped_client_never_starts_restartAndStop :
    (clientAfter restartAndStop).connStarts = [true, true] ∧
      ∀ started ∈ (clientAfter restartAndStop).connStarts, started = true := by
  have hrun : (machine sampleOptions).run init restartAndStop =
      some (clientAfter restartAndStop) := rfl
  refine ⟨rfl, ((stopped_client_never_starts sampleOptions hrun).1 ?_).1⟩
  iterate 10
    refine ⟨by decide, ?_⟩
    rintro _ ⟨⟩
  trivial

/-- The user stops the client while the manager, about to restart it, is in `m_conn->stop()`; the call
of `stop` returns before the manager goes on. -/
def stopDuringRestart : List ClientImplEvent :=
  [.start, .websocketOpen, .manager 0, .websocketMessage .unparsable, .manager 0, .stop, .stopped,
    .managerResume]

theorem stop_during_restart_starts :
    (machine sampleOptions).run init stopDuringRestart = some (clientAfter stopDuringRestart) ∧
    (clientAfter stopDuringRestart).stopping = 0 ∧
    (clientAfter stopDuringRestart).started = false ∧
    (clientAfter stopDuringRestart).connecting = true ∧
    (clientAfter stopDuringRestart).connStarts = [true, false] ∧
    ¬ ∀ started ∈ (clientAfter stopDuringRestart).connStarts, started = true := by
  refine ⟨rfl, rfl, rfl, rfl, rfl, ?_⟩
  decide

end Loon
