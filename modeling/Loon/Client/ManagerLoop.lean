import Loon.Client.Steps

set_option autoImplicit false

/-!
# The manager loop

The loop waits until its condition holds or one of its two time points has passed. It must not miss
a time point, and it must not come round again and again while there is nothing to do: each pass
that the condition lets through may arm what another pass sees to, most of all through
`internal_stop`.

* `DeadlinesInv`: the time points are in step with the fields that the condition reads;
* `managerCondition_of_expired`: the condition holds when a time point has passed;
* `Alone`: the steps of the manager while nobody calls the client and the clock stands still;
* `weight`: what is left to do, priced by what it may arm;
* **`manager_loop_settles`**: the loop comes to rest after finitely many passes: in a wait whose
  condition does not hold, or past the loop if it is to stop.
-/

namespace Loon

namespace ClientImpl

variable (o : ClientOptions) (s : ClientImpl)

/-- The manager has come to the head of its loop with this event. -/
def isPass : ClientImplEvent → Bool
  | .manager _ => true
  | .managerResume => true
  | _ => false

/-- **The invariant of the time points**: the one of the idling is finite while the client idles. A
loop that has returned was to stop. -/
def DeadlinesInv : Prop :=
  s.idleTimePoint.isSome = s.idleWaiting ∧ (s.manager = .returned → s.stopManagerLoop = true)

/-- The manager has nothing to do at the time `now`, or has returned since it was to stop. -/
def AtRest (now : Int) : Prop :=
  if s.stopManagerLoop then s.manager = .returned
  else s.manager = .waiting ∧ s.managerCondition now = false

/-- What goes on in the client at the time `now` without its users, the server or the network: the
passes of the manager that its condition lets through; while it stops the connection, the end of that
and of the sending of an empty response, and `on_websocket_close`. -/
def Alone (now : Int) (s : ClientImpl) : ClientImplEvent → Prop
  | .manager now' => now' = now ∧ s.managerCondition now = true
  | .managerResume => True
  | .websocketClose => s.manager ≠ .waiting ∧ s.manager ≠ .returned
  | .sent => True
  | .sendFailed none => True
  | _ => False

/-! ## What is left to do -/

def trackWeight : ℕ :=
  match s.trackIdling with
  | none => 0
  | some false => 1
  | some true => 5

def waitWeight : ℕ := if s.idleWaiting then 4 else 0

def queueWeight : ℕ :=
  match s.queueReconnect with
  | none => 0
  | some false => 1
  | some true => 2

def timerWeight : ℕ := if s.reconnectTimePoint.isSome then 1 else 0

def actionWeight : ℕ := if s.managerAction = .nothing then 0 else 4

/-- The sending of an empty response may fail, which asks for a restart. -/
def sendWeight : ℕ := if s.responding then 5 else 0

def stopWeight : ℕ := if s.stopManagerLoop then 1 else 0

/-- What is queued once `internal_stop` is through. -/
def stoppedWeight : ℕ := if o.withReconnect then 1 else s.queueWeight

/-- What the manager has left to do. If it stops the connection it leaves behind a request not to idle
and what is queued then, whatever is asked of it meanwhile. -/
def loopWeight : ℕ :=
  match s.manager with
  | .waiting =>
    s.stopWeight + s.trackWeight + s.waitWeight + s.queueWeight + s.timerWeight + s.actionWeight
  | .idleStop => s.stopWeight + s.stoppedWeight o + s.timerWeight + 2
  | .internalRestart => s.stopWeight + s.stoppedWeight o + s.timerWeight + s.waitWeight + 2
  | .internalStopAndReset => s.stopWeight + s.stoppedWeight o + s.timerWeight + s.waitWeight + 2
  | .returned => 0

def weight : ℕ := s.sendWeight + s.loopWeight o

variable {o s} {s' : ClientImpl} {e : ClientImplEvent} {now : Int}

theorem queueWeight_le : s.queueWeight ≤ 2 := by
  unfold queueWeight
  split <;> omega

theorem stoppedWeight_le : s.stoppedWeight o ≤ s.queueWeight + 1 := by
  unfold stoppedWeight
  split <;> omega

theorem weight_le : s.weight o ≤ 22 := by
  have htrack : s.trackWeight ≤ 5 := by unfold trackWeight; split <;> omega
  have hwait : s.waitWeight ≤ 4 := by unfold waitWeight; split <;> omega
  have htimer : s.timerWeight ≤ 1 := by unfold timerWeight; split <;> omega
  have haction : s.actionWeight ≤ 4 := by unfold actionWeight; split <;> omega
  have hsend : s.sendWeight ≤ 5 := by unfold sendWeight; split <;> omega
  have hstop : s.stopWeight ≤ 1 := by unfold stopWeight; split <;> omega
  have hqueue := queueWeight_le (s := s)
  have hstopped := stoppedWeight_le (o := o) (s := s)
  unfold weight loopWeight
  split <;> omega

/-! ## Passes -/

theorem timerWeight_loopHead : s.loopHead.timerWeight ≤ s.timerWeight := by
  unfold timerWeight loopHead
  simp only
  split
  · simp
  · exact le_refl _

/-- The head of the loop. -/
theorem weight_loopHead :
    s.loopHead.weight o ≤ s.sendWeight +
      (s.stopWeight + s.trackWeight + s.waitWeight + s.queueWeight + s.timerWeight + s.actionWeight) :=
  Nat.add_le_add_left (Nat.add_le_add_right (Nat.add_le_add_left timerWeight_loopHead _) _) _

theorem weight_waiting (h : s.manager = .waiting) :
    s.weight o = s.sendWeight +
      (s.stopWeight + s.trackWeight + s.waitWeight + s.queueWeight + s.timerWeight +
        s.actionWeight) := by
  rw [weight, loopWeight, h]

theorem weight_managerTracksIdling {doTrack : Bool} (hm : s.manager = .waiting)
    (ht : s.trackIdling = some doTrack) :
    (s.managerTracksIdling o now doTrack).loopHead.weight o < s.weight o := by
  have hpaid : (s.managerTracksIdling o now doTrack).waitWeight < s.waitWeight + s.trackWeight := by
    unfold managerTracksIdling
    cases doTrack with
    | false => simp [waitWeight, trackWeight, ht]
    | true =>
      have hle : (s.managerTracksIdling o now true).waitWeight ≤ 4 := by
        unfold waitWeight
        split <;> omega
      have h5 : s.trackWeight = 5 := by rw [trackWeight, ht]
      unfold managerTracksIdling at hle
      omega
  have hsame : ∀ t : ClientImpl, t = s.managerTracksIdling o now doTrack →
      t.sendWeight = s.sendWeight ∧ t.stopWeight = s.stopWeight ∧ t.trackWeight = 0 ∧
        t.queueWeight = s.queueWeight ∧ t.timerWeight = s.timerWeight ∧
        t.actionWeight = s.actionWeight := by
    rintro _ rfl
    unfold managerTracksIdling
    simp only
    split
    · exact ⟨rfl, rfl, rfl, rfl, rfl, rfl⟩
    split
    · exact ⟨rfl, rfl, rfl, rfl, rfl, rfl⟩
    split <;> exact ⟨rfl, rfl, rfl, rfl, rfl, rfl⟩
  obtain ⟨h1, h2, h3, h4, h5, h6⟩ := hsame _ rfl
  have hhead := weight_loopHead (o := o) (s := s.managerTracksIdling o now doTrack)
  rw [weight_waiting hm]
  omega

theorem weight_managerQueues {doQueue : Bool} (hm : s.manager = .waiting)
    (hq : s.queueReconnect = some doQueue) :
    (s.managerQueues o now doQueue).loopHead.weight o < s.weight o := by
  have hhead := weight_loopHead (o := o) (s := s.managerQueues o now doQueue)
  rw [weight_waiting hm]
  cases doQueue with
  | false =>
    have hqueue : s.queueWeight = 1 := by rw [queueWeight, hq]
    have hsame : (s.managerQueues o now false).queueWeight = 0 ∧
      (s.managerQueues o now false).timerWeight = 0 := ⟨rfl, rfl⟩
    change _ ≤ s.sendWeight +
      (s.stopWeight + s.trackWeight + s.waitWeight + _ + _ + s.actionWeight) at hhead
    omega
  | true =>
    have hqueue : s.queueWeight = 2 := by rw [queueWeight, hq]
    have hsame : (s.managerQueues o now true).queueWeight = 0 ∧
      (s.managerQueues o now true).timerWeight = 1 := ⟨rfl, rfl⟩
    change _ ≤ s.sendWeight +
      (s.stopWeight + s.trackWeight + s.waitWeight + _ + _ + s.actionWeight) at hhead
    omega

theorem weight_managerReconnects (hm : s.manager = .waiting)
    (ht : s.reconnectTimePoint.isSome = true) :
    { s.internalStart with reconnectTimePoint := none }.loopHead.weight o < s.weight o := by
  have hhead := weight_loopHead (o := o) (s := { s.internalStart with reconnectTimePoint := none })
  have htimer : s.timerWeight = 1 := if_pos ht
  rw [weight_waiting hm]
  change _ ≤ s.sendWeight +
    (s.stopWeight + s.trackWeight + s.waitWeight + s.queueWeight + 0 + s.actionWeight) at hhead
  omega

/-- The pass that only takes the time point of a reconnect that was called off. -/
theorem weight_loopHead_lt (hm : s.manager = .waiting) (hn : s.reconnectAttempt = 0)
    (ht : s.reconnectTimePoint.isSome = true) : s.loopHead.weight o < s.weight o := by
  have htimer : s.timerWeight = 1 := if_pos ht
  have hnone : s.loopHead.timerWeight = 0 := by
    simp only [timerWeight, loopHead, hn, if_true, Option.isSome_none, Bool.false_eq_true, if_false]
  rw [weight_waiting hm]
  change s.sendWeight + (s.stopWeight + s.trackWeight + s.waitWeight + s.queueWeight + _ +
    s.actionWeight) < _
  omega

/-- The pass that begins to stop the connection. -/
theorem weight_stops {point : ManagerPoint} (hm : s.manager = .waiting)
    (h : point = .idleStop ∧ s.waitWeight = 4 ∨
      (point = .internalRestart ∨ point = .internalStopAndReset) ∧ s.actionWeight = 4) :
    { s with manager := point }.weight o < s.weight o := by
  have hstopped := stoppedWeight_le (o := o) (s := s)
  rw [weight_waiting hm]
  rcases h with ⟨rfl, hw⟩ | ⟨rfl | rfl, ha⟩
  · change s.sendWeight + (s.stopWeight + s.stoppedWeight o + s.timerWeight + 2) < _
    omega
  · change s.sendWeight + (s.stopWeight + s.stoppedWeight o + s.timerWeight + s.waitWeight + 2) < _
    omega
  · change s.sendWeight + (s.stopWeight + s.stoppedWeight o + s.timerWeight + s.waitWeight + 2) < _
    omega

/-- **A pass leaves less to do**, if the condition holds. -/
theorem weight_managerIteration (hc : s.managerCondition now = true)
    (h : s.managerIteration o now = some s') : s'.weight o < s.weight o := by
  unfold managerIteration at h
  split at h
  · cases h
  rename_i hw
  have hm : s.manager = .waiting := by simp at hw; exact hw.1
  split at h
  · rename_i hl
    cases h
    have hstop : s.stopWeight = 1 := if_pos hl
    rw [weight_waiting hm]
    change s.sendWeight + 0 < _
    omega
  rename_i hl
  split at h
  · rename_i doTrack ht
    cases h
    exact weight_managerTracksIdling hm ht
  rename_i ht
  split at h
  · rename_i hi
    cases h
    rw [Bool.and_eq_true] at hi
    exact weight_stops hm (.inl ⟨rfl, if_pos hi.1⟩)
  rename_i hi
  split at h
  · rename_i ha
    cases h
    exact weight_stops hm (.inr ⟨.inl rfl, if_neg (by rw [ha]; rintro ⟨⟩)⟩)
  · rename_i ha
    cases h
    exact weight_stops hm (.inr ⟨.inr rfl, if_neg (by rw [ha]; rintro ⟨⟩)⟩)
  rename_i ha
  split at h
  · rename_i doQueue hq
    cases h
    exact weight_managerQueues hm hq
  rename_i hq
  split at h
  · rename_i ht
    cases h
    rw [Bool.and_eq_true] at ht
    have hsome : s.reconnectTimePoint.isSome = true := by
      cases hp : s.reconnectTimePoint with
      | none => simp [expired, hp] at ht
      | some t => rfl
    exact weight_managerReconnects hm hsome
  · rename_i ht
    cases h
    have hl : s.stopManagerLoop = false := by simpa using hl
    simp only [managerCondition, hl, ht, hi, ha, hq, ‹s.trackIdling = none›] at hc
    simp at hc
    exact weight_loopHead_lt hm hc.1 hc.2

/-! ## The end of a pass that stops the connection -/

/-- What `internal_stop` leaves to do. -/
theorem weights_finishInternalStop :
    (s.finishInternalStop o).trackWeight = 1 ∧
    (s.finishInternalStop o).queueWeight = s.stoppedWeight o ∧
    (s.finishInternalStop o).actionWeight = 0 ∧
    (s.finishInternalStop o).timerWeight = s.timerWeight ∧
    (s.finishInternalStop o).waitWeight = s.waitWeight ∧
    (s.finishInternalStop o).stopWeight = s.stopWeight ∧
    (s.finishInternalStop o).sendWeight = s.sendWeight := by
  unfold finishInternalStop stoppedWeight
  cases hr : o.withReconnect <;> exact ⟨rfl, rfl, rfl, rfl, rfl, rfl, rfl⟩

/-- The state `t` at the head of the loop after such a pass, with what is left to wait for. -/
theorem weight_afterStop {t : ClientImpl} {w : ℕ} (hs : s.weight o =
      s.sendWeight + (s.stopWeight + s.stoppedWeight o + s.timerWeight + w + 2))
    (hsend : t.sendWeight = s.sendWeight) (hstop : t.stopWeight = s.stopWeight)
    (htrack : t.trackWeight = 1) (hqueue : t.queueWeight = s.stoppedWeight o)
    (htimer : t.timerWeight = s.timerWeight) (haction : t.actionWeight = 0) (hwait : t.waitWeight = w) :
    t.loopHead.weight o < s.weight o := by
  have hhead := weight_loopHead (o := o) (s := t)
  omega

/-- **The end of such a pass leaves less to do.** -/
theorem weight_managerResume (h : s.managerResume o = some s') : s'.weight o < s.weight o := by
  obtain ⟨htrack, hqueue, haction, htimer, hwait, hstop, hsend⟩ :=
    weights_finishInternalStop (o := o) (s := s)
  unfold managerResume at h
  split at h
  · rename_i hm
    cases h
    have hweight : s.weight o =
        s.sendWeight + (s.stopWeight + s.stoppedWeight o + s.timerWeight + 0 + 2) := by
      rw [weight, loopWeight, hm]
    exact weight_afterStop hweight hsend hstop htrack hqueue htimer haction rfl
  · rename_i hm
    cases h
    have hweight : s.weight o =
        s.sendWeight + (s.stopWeight + s.stoppedWeight o + s.timerWeight + s.waitWeight + 2) := by
      rw [weight, loopWeight, hm]
    exact weight_afterStop hweight hsend hstop htrack hqueue htimer rfl hwait
  · rename_i hm
    cases h
    have hweight : s.weight o =
        s.sendWeight + (s.stopWeight + s.stoppedWeight o + s.timerWeight + s.waitWeight + 2) := by
      rw [weight, loopWeight, hm]
    exact weight_afterStop (t := { s.finishInternalStop o with
      started := false
      callbacks := (s.finishInternalStop o).callbacks ++ [ClientCallback.failed]
      managerAction := .nothing }) hweight hsend hstop htrack hqueue htimer rfl hwait
  · cases h

/-- While the connection is stopped it does not matter what is asked of the manager. -/
theorem weight_onWebsocketClose (hm : s.manager ≠ .waiting) :
    (s.onWebsocketClose o).weight o = s.weight o := by
  have hsame : (s.onWebsocketClose o).manager = s.manager ∧
      (s.onWebsocketClose o).sendWeight = s.sendWeight ∧
      (s.onWebsocketClose o).stopWeight = s.stopWeight ∧
      (s.onWebsocketClose o).stoppedWeight o = s.stoppedWeight o ∧
      (s.onWebsocketClose o).timerWeight = s.timerWeight ∧
      (s.onWebsocketClose o).waitWeight = s.waitWeight := by
    unfold onWebsocketClose stoppedWeight
    simp only
    split
    · rename_i hc
      rw [Bool.and_eq_true, Bool.and_eq_true] at hc
      refine ⟨rfl, rfl, rfl, ?_, rfl, rfl⟩
      rw [if_pos hc.1.2, if_pos hc.1.2]
    · exact ⟨rfl, rfl, rfl, rfl, rfl, rfl⟩
  obtain ⟨h1, h2, h3, h4, h5, h6⟩ := hsame
  unfold weight loopWeight
  rw [h1, h2, h3, h4, h5, h6]
  cases hp : s.manager with
  | waiting => exact absurd hp hm
  | _ => rfl

/-! ## The end of a send -/

/-- An empty response has been sent. -/
theorem weight_sent (hr : s.responding = true) :
    { s with responding := false }.weight o < s.weight o := by
  have hsend : s.sendWeight = 5 := if_pos hr
  have hsame : { s with responding := false }.weight o = 0 + s.loopWeight o := rfl
  rw [hsame, weight, hsend]
  omega

theorem loopWeight_restart : s.restart.loopWeight o ≤ s.loopWeight o + 4 := by
  unfold restart
  split
  · rename_i ha
    have haction : s.actionWeight = 0 := if_pos ha
    unfold loopWeight
    cases hm : s.manager with
    | waiting =>
      simp only
      rw [haction]
      exact Nat.add_le_add_left (le_refl 4) _
    | _ =>
      simp only
      exact Nat.le_add_right _ _
  · exact Nat.le_add_right _ _
  · exact Nat.le_add_right _ _

/-- The restart that a failed send asks for weighs less than the send. -/
theorem weight_respondFails (hr : s.responding = true) :
    { s.restart with responding := false }.weight o < s.weight o := by
  have hsend : s.sendWeight = 5 := if_pos hr
  have hsame : { s.restart with responding := false }.weight o = 0 + s.restart.loopWeight o := rfl
  have hle := loopWeight_restart (o := o) (s := s)
  rw [hsame, weight, hsend]
  omega

/-! ## The time points -/

namespace DeadlinesInv

theorem of_called (h : s.DeadlinesInv) (hc : Called s s') : s'.DeadlinesInv := by
  obtain ⟨_, _, _, _, -, rfl⟩ := hc
  exact h

theorem internalStart_if (h : s.DeadlinesInv) (b : Bool) :
    (if b then s.internalStart else s).DeadlinesInv := by
  cases b <;> exact h

theorem restart (h : s.DeadlinesInv) : s.restart.DeadlinesInv := by
  unfold ClientImpl.restart
  split <;> exact h

theorem finishInternalStop (h : s.DeadlinesInv) : (s.finishInternalStop o).DeadlinesInv := by
  unfold ClientImpl.finishInternalStop
  simp only
  split <;> exact h

theorem managerTracksIdling (h : s.DeadlinesInv) (now : Int) (doTrack : Bool) :
    (s.managerTracksIdling o now doTrack).loopHead.DeadlinesInv := by
  unfold ClientImpl.managerTracksIdling
  simp only
  split
  · exact ⟨rfl, by rintro ⟨⟩⟩
  split
  · exact ⟨h.1, by rintro ⟨⟩⟩
  split
  · exact ⟨h.1, by rintro ⟨⟩⟩
  · exact ⟨rfl, by rintro ⟨⟩⟩

/-- **A step keeps the time points in step.** -/
theorem step (h : s.DeadlinesInv) (hs : Steps o s e s') : s'.DeadlinesInv := by
  cases hs with
  | startAgain => exact (h.of_called (called_setIdle false)).internalStart_if _
  | stopped | destroyStopped => exact h.finishInternalStop
  | registerContent i source info =>
      exact (h.internalStart_if _).of_called (registerContent_spec i source info)
  | waitUntilReady i => exact (h.internalStart_if _).of_called (waitUntilReady_spec i .ready)
  | connectionSettled i _ purpose => exact h.of_called (called_awaitHello i purpose)
  | connectionTimedOut i purpose => exact h.of_called (called_throwCall i purpose _)
  | helloSettled i _ purpose => exact h.of_called (called_afterHello i purpose)
  | unregister g => exact h.of_called (called_unregister g)
  | websocketOpen =>
      unfold onWebsocketOpen
      simp only
      split <;> exact h
  | websocketClose =>
      unfold onWebsocketClose
      simp only
      split <;> exact h
  | restart => exact h.restart
  | respondFails => exact h.restart
  | hello =>
      unfold acceptHello
      simp only
      split <;> exact h
  | managerTracks now doTrack => exact h.managerTracksIdling now doTrack
  | managerIdles | managerRestarts | managerFails => exact ⟨h.1, by rintro ⟨⟩⟩
  | managerQueues now doQueue => cases doQueue <;> exact ⟨h.1, by rintro ⟨⟩⟩
  | managerReconnects | managerPasses => exact ⟨h.1, by rintro ⟨⟩⟩
  | managerReturns now hm hl => exact ⟨h.1, fun _ => hl⟩
  | idleStopped => exact ⟨rfl, by rintro ⟨⟩⟩
  | restarted | failed => exact ⟨h.finishInternalStop.1, by rintro ⟨⟩⟩
  | destroyLoop => exact ⟨h.1, fun _ => rfl⟩
  | _ => exact h

theorem of_run {es : List ClientImplEvent} (hr : (machine o).run init es = some s) :
    s.DeadlinesInv :=
  Machine.run_inv (M := machine o) (fun _ _ _ h hs => step h (steps_of_step hs)) ⟨rfl, by rintro ⟨⟩⟩ hr

end DeadlinesInv

theorem attempt_of_loopHead (h : s.loopHead.reconnectTimePoint.isSome = true) :
    0 < s.loopHead.reconnectAttempt := by
  refine UInt64.pos_iff_ne_zero.mpr fun hn => ?_
  have hnone : s.loopHead.reconnectTimePoint = none := if_pos hn
  rw [hnone] at h
  cases h

/-- **A pass ends at the head of the loop**, or it stops the connection, or it is the last one. -/
theorem attempt_of_pass (hs : Steps o s e s') (he : isPass e = true) (hm : s'.manager = .waiting)
    (ht : s'.reconnectTimePoint.isSome = true) : 0 < s'.reconnectAttempt := by
  cases hs with
  | managerTracks | managerQueues | managerReconnects | managerPasses | idleStopped | restarted
    | failed => exact attempt_of_loopHead ht
  | managerIdles | managerRestarts | managerFails | managerReturns => cases hm
  | restart _ h =>
      have hno : isPass e = false := by cases e <;> first | rfl | cases h
      rw [hno] at he
      cases he
  | _ => cases he

/-- **No time point is missed.** -/
theorem managerCondition_of_expired (h : s.DeadlinesInv)
    (he : (expired now s.idleTimePoint || expired now s.reconnectTimePoint) = true) :
    s.managerCondition now = true := by
  have hsome : ∀ timePoint, expired now timePoint = true → timePoint.isSome = true := by
    intro timePoint ht
    cases timePoint with
    | none => cases ht
    | some t => rfl
  unfold managerCondition
  rcases Bool.or_eq_true _ _ ▸ he with he | he
  · have hw : s.idleWaiting = true := h.1 ▸ hsome _ he
    simp only [hw, he, Bool.and_self, Bool.or_true, Bool.true_or]
  · by_cases hn : s.reconnectAttempt = 0
    · simp only [hn, hsome _ he, decide_true, Bool.and_self, Bool.or_true]
    · simp only [UInt64.pos_iff_ne_zero.mpr hn, he, decide_true, Bool.and_self, Bool.or_true,
        Bool.true_or]

/-! ## Runs -/

/-- **A step of the manager alone.** -/
theorem weight_alone (ha : Alone now s e) (hs : step o s e = some s') :
    (if e = .websocketClose then s'.weight o else s'.weight o + 1) ≤ s.weight o := by
  cases e with
  | manager now' =>
    obtain ⟨rfl, hc⟩ := ha
    exact weight_managerIteration hc hs
  | managerResume =>
    simp only [step] at hs
    split at hs
    · cases hs
    · exact weight_managerResume hs
  | websocketClose =>
    simp only [step] at hs
    split at hs
    · cases hs
    · cases hs
      exact (weight_onWebsocketClose ha.1).le
  | sent =>
    simp only [step] at hs
    split at hs
    · rename_i hr
      cases hs
      exact weight_sent hr
    · cases hs
  | sendFailed thread =>
    cases thread with
    | none =>
      simp only [step, sendFailed] at hs
      split at hs
      · rename_i hr
        cases hs
        exact weight_respondFails hr
      · cases hs
    | some => exact absurd ha id
  | _ => exact absurd ha id

/-- **A run of the manager alone** has no more passes than there is to do. -/
theorem countP_isPass_le {es : List ClientImplEvent} (ha : (machine o).Along (Alone now) s es)
    (hr : (machine o).run s es = some s') : es.countP isPass + s'.weight o ≤ s.weight o := by
  induction es generalizing s with
  | nil =>
    cases hr
    exact (Nat.zero_add _).le
  | cons e es ih =>
    rw [Machine.run_cons, Option.bind_eq_some_iff] at hr
    obtain ⟨s₁, h1, h2⟩ := hr
    have hstep := weight_alone ha.1 h1
    have hrest := ih (ha.2 s₁ h1) h2
    rw [List.countP_cons]
    cases e with
    | websocketClose =>
      rw [if_pos rfl] at hstep
      rw [if_neg (by rintro ⟨⟩)]
      omega
    | _ =>
      rw [if_neg (by rintro ⟨⟩)] at hstep
      split <;> omega

/-- The manager alone does not stop its loop, and returns only from one that is to stop. -/
theorem alone_keeps (hs : s.manager = .returned → s.stopManagerLoop = true) (ha : Alone now s e)
    (h : step o s e = some s') :
    s'.stopManagerLoop = s.stopManagerLoop ∧
      (s'.manager = .returned → s'.stopManagerLoop = true) := by
  have hrestart : s.restart.stopManagerLoop = s.stopManagerLoop ∧
      (s.restart.manager = .returned → s.restart.stopManagerLoop = true) := by
    unfold restart
    split <;> exact ⟨rfl, hs⟩
  have hstop : (s.finishInternalStop o).stopManagerLoop = s.stopManagerLoop := by
    unfold finishInternalStop
    simp only
    split <;> rfl
  cases steps_of_step h with
  | websocketClose =>
      unfold onWebsocketClose
      simp only
      split <;> exact ⟨rfl, hs⟩
  | restart => exact hrestart
  | respondFails => exact hrestart
  | sent => exact ⟨rfl, hs⟩
  | managerTracks =>
      unfold managerTracksIdling
      simp only
      split
      · exact ⟨rfl, by rintro ⟨⟩⟩
      split
      · exact ⟨rfl, by rintro ⟨⟩⟩
      split <;> exact ⟨rfl, by rintro ⟨⟩⟩
  | managerQueues now doQueue => cases doQueue <;> exact ⟨rfl, by rintro ⟨⟩⟩
  | managerIdles | managerRestarts | managerFails | managerReconnects | managerPasses =>
      exact ⟨rfl, by rintro ⟨⟩⟩
  | managerReturns now hm hl => exact ⟨rfl, fun _ => hl⟩
  | idleStopped | restarted | failed => exact ⟨hstop, by rintro ⟨⟩⟩
  | _ => exact absurd ha id

theorem exists_managerIteration (hm : s.manager = .waiting) (hc : s.managerCondition now = true) :
    ∃ s', s.managerIteration o now = some s' := by
  have hwakes : s.managerWakes now = true := by simp only [managerWakes, hc, Bool.true_or]
  unfold managerIteration
  split
  · rename_i hno
    simp [hm, hwakes] at hno
  split
  · exact ⟨_, rfl⟩
  split
  · exact ⟨_, rfl⟩
  split
  · exact ⟨_, rfl⟩
  split
  · exact ⟨_, rfl⟩
  · exact ⟨_, rfl⟩
  split
  · exact ⟨_, rfl⟩
  split <;> exact ⟨_, rfl⟩

/-- **Unless the manager is at rest it goes on by itself.** -/
theorem exists_alone (hs : s.manager = .returned → s.stopManagerLoop = true) (hrest : ¬ s.AtRest now) :
    ∃ e s', Alone now s e ∧ e ≠ .websocketClose ∧ step o s e = some s' := by
  have hresume : (∃ s', s.managerResume o = some s') →
      ∃ e s', Alone now s e ∧ e ≠ .websocketClose ∧ step o s e = some s' := by
    rintro ⟨s', h⟩
    cases hr : s.responding with
    | true => exact ⟨.sent, _, trivial, by rintro ⟨⟩, if_pos hr⟩
    | false => exact ⟨.managerResume, s', trivial, by rintro ⟨⟩, by simpa [step, hr] using h⟩
  cases hm : s.manager with
  | waiting =>
      have hc : s.managerCondition now = true := by
        cases hl : s.stopManagerLoop with
        | true => simp only [managerCondition, hl, Bool.true_or]
        | false =>
            unfold AtRest at hrest
            rw [hl, if_neg Bool.false_ne_true] at hrest
            exact Bool.not_eq_false _ ▸ fun hc => hrest ⟨hm, hc⟩
      obtain ⟨s', h⟩ := exists_managerIteration (o := o) hm hc
      exact ⟨.manager now, s', ⟨rfl, hc⟩, by rintro ⟨⟩, h⟩
  | returned =>
      refine absurd ?_ hrest
      unfold AtRest
      rw [if_pos (hs hm)]
      exact hm
  | idleStop => exact hresume ⟨_, by rw [managerResume, hm]⟩
  | internalRestart => exact hresume ⟨_, by rw [managerResume, hm]⟩
  | internalStopAndReset => exact hresume ⟨_, by rw [managerResume, hm]⟩

/-- **A run of the manager alone.** -/
theorem run_alone {es : List ClientImplEvent} (hs : s.manager = .returned → s.stopManagerLoop = true)
    (ha : (machine o).Along (Alone now) s es) (hr : (machine o).run s es = some s') :
    s'.stopManagerLoop = s.stopManagerLoop ∧
      (s'.manager = .returned → s'.stopManagerLoop = true) := by
  refine Machine.Along.inv (M := machine o) (C := Alone now)
    (P := fun t => t.stopManagerLoop = s.stopManagerLoop ∧
      (t.manager = .returned → t.stopManagerLoop = true)) ?_ ⟨rfl, hs⟩ ha hr
  intro t e t' ht ha h
  obtain ⟨hstop, hret⟩ := alone_keeps ht.2 ha h
  exact ⟨hstop.trans ht.1, hret⟩

/-- **The manager comes to rest**, by induction on what is left to do. -/
theorem exists_atRest (n : ℕ) (hn : s.weight o ≤ n)
    (hs : s.manager = .returned → s.stopManagerLoop = true) :
    ∃ es s', (machine o).Along (Alone now) s es ∧ (machine o).run s es = some s' ∧ s'.AtRest now := by
  induction n generalizing s with
  | zero =>
      by_cases hrest : s.AtRest now
      · exact ⟨[], s, trivial, rfl, hrest⟩
      · obtain ⟨e, s₁, ha, he, h⟩ := exists_alone (o := o) hs hrest
        have hlt := weight_alone ha h
        rw [if_neg he] at hlt
        omega
  | succ n ih =>
      by_cases hrest : s.AtRest now
      · exact ⟨[], s, trivial, rfl, hrest⟩
      · obtain ⟨e, s₁, ha, he, h⟩ := exists_alone (o := o) hs hrest
        have hlt := weight_alone ha h
        rw [if_neg he] at hlt
        obtain ⟨es, s', hal, hrun, hat⟩ := ih (by omega) (alone_keeps hs ha h).2
        refine ⟨e :: es, s', ⟨ha, fun s₂ h₂ => ?_⟩, ?_, hat⟩
        · rw [show (machine o).step s e = some s₁ from h] at h₂
          cases h₂
          exact hal
        · rw [Machine.run_cons, show (machine o).step s e = some s₁ from h]
          exact hrun

end ClientImpl

open ClientImpl

/-- **The manager loop.** In every reachable state the time point of the idling is finite exactly
while the client idles, at the head of the loop that of a reconnect only if there was an attempt,
and the condition of the wait holds as soon as one of them has passed. From every state in which the
loop has not returned the manager, left alone while the clock stands still, comes to rest after at
most 22 passes: in a wait whose condition does not hold, or past the loop if it is to stop. -/
theorem manager_loop_settles (o : ClientOptions) :
    (∀ es s, (machine o).run init es = some s →
      (s.idleTimePoint.isSome = true ↔ s.idleWaiting = true) ∧
      (∀ es' e, es = es' ++ [e] → isPass e = true → s.manager = .waiting →
        s.reconnectTimePoint.isSome = true → 0 < s.reconnectAttempt) ∧
      ∀ now, s.manager = .waiting →
        (expired now s.idleTimePoint || expired now s.reconnectTimePoint) = true →
          s.managerCondition now = true) ∧
    ∀ s now, s.manager ≠ .returned →
      (∀ es s', (machine o).Along (Alone now) s es → (machine o).run s es = some s' →
        es.countP isPass ≤ 22 ∧
          (s'.AtRest now ∨ ∃ e s'', Alone now s' e ∧ e ≠ .websocketClose ∧ step o s' e = some s'')) ∧
      ∃ es s', (machine o).Along (Alone now) s es ∧ (machine o).run s es = some s' ∧ s'.AtRest now := by
  refine ⟨fun es s hr => ?_, fun s now hm => ⟨fun es s' ha hr => ?_, ?_⟩⟩
  · have hinv := DeadlinesInv.of_run hr
    refine ⟨by rw [hinv.1], ?_, fun now _ he => managerCondition_of_expired hinv he⟩
    rintro es' e rfl he hm ht
    obtain ⟨s₁, -, h⟩ := (machine o).run_snoc_eq_some.mp hr
    exact attempt_of_pass (steps_of_step h) he hm ht
  · have hle := countP_isPass_le ha hr
    have hbound := weight_le (o := o) (s := s)
    refine ⟨by omega, ?_⟩
    by_cases hrest : s'.AtRest now
    · exact .inl hrest
    · exact .inr (exists_alone (run_alone (fun h => absurd h hm) ha hr).2 hrest)
  · exact exists_atRest _ (le_refl _) fun h => absurd h hm

/-! ## Sample runs -/

/-- The connection is lost, and a reconnect is scheduled at once. -/
def untilReconnect : List ClientImplEvent :=
  [.start, .websocketOpen, .websocketClose, .manager 0, .manager 0]

/-- The condition holds when the time point has come, and one pass later the manager is at rest. -/
theorem manager_loop_settles_reconnect :
    (clientAfter untilReconnect).managerCondition 0 = true ∧
    (clientAfter (untilReconnect ++ [.manager 0])).AtRest 0 ∧
    ∃ es s', (machine sampleOptions).Along (Alone 0) (clientAfter untilReconnect) es ∧
      (machine sampleOptions).run (clientAfter untilReconnect) es = some s' ∧ s'.AtRest 0 := by
  obtain ⟨h1, h2⟩ := manager_loop_settles sampleOptions
  have hrun : (machine sampleOptions).run init untilReconnect = some (clientAfter untilReconnect) := rfl
  exact ⟨(h1 _ _ hrun).2.2 0 rfl (by decide), ⟨rfl, by decide⟩,
    (h2 (clientAfter untilReconnect) 0 (by decide)).2⟩

/-- The client is destroyed while the manager waits. -/
def destroyed : List ClientImplEvent := [.destroy, .destroyStopped, .destroyLoop]

/-- A loop that is to stop does not come to wait for anything. -/
theorem destroyed_never_waits :
    (machine sampleOptions).run init destroyed = some (clientAfter destroyed) ∧
    (clientAfter destroyed).manager = .waiting ∧
    ∀ now es s', (machine sampleOptions).Along (Alone now) (clientAfter destroyed) es →
      (machine sampleOptions).run (clientAfter destroyed) es = some s' →
        ¬ (s'.manager = .waiting ∧ s'.managerCondition now = false) := by
  refine ⟨rfl, rfl, fun now es s' ha hr hrest => ?_⟩
  have hstop := (run_alone (by rintro ⟨⟩) ha hr).1
  have hcond : s'.managerCondition now = true := by
    rw [managerCondition, hstop]
    rfl
  rw [hrest.2] at hcond
  cases hcond

end Loon
