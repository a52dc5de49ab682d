import Loon.Server.Discarder

set_option autoImplicit false

/-!
# Shutdown of a connection

After `done` was closed and every handler has returned, `Run` waits for the protocol loop and the
discarder. Two things can keep it from returning. A call of `Close` that sees `done` returns without
handing its channel over, so the loop may wait on a full channel that nobody reads. And the discarder
leaves a request only when it is closed, so it stays forever with a request that was completed.

* `Orderly`: the steps that do not lead there;
* **`shutdown_completes`**: in every run of orderly steps, once `done` is closed and every handler has
  returned, the loop can return and the discarder can exit.
-/

namespace Loon

open Chunking

/-- The steps of the loop and the discarder after the last message. -/
def SysEvent.isShutdown : SysEvent → Bool
  | .write | .complete | .drain | .ret _ => true
  | .discardTake | .discardStop | .discardExit => true
  | _ => false

section Shutdown

variable {ext : Externals} (cfg : Config ext)

/-- The steps after which a shutdown is not in danger. -/
structure OrderlyStep (s : Sys) (e : SysEvent) : Prop where
  /-- `Close` does not return because of `done` while the loop waits on the channel of its request and
  the discarder is elsewhere. -/
  close : ∀ p e' h message after, e = .serve p e' →
    (e' = .closeStep ∨ ∃ signal, e' = .closeSees signal) → s.handlers p = some h →
    (h.pc = .closing .checkDone message after ∨ h.pc = .closing .offerDiscard message after) →
    s.core.done = true → ∀ w, s.Waits w → w.ptr = p → s.discarder = .serving p
  /-- The loop does not take a chunk of an open request whose channel is full and whose handler has
  returned, unless the discarder reads the channel. -/
  take : ∀ m now chunk core w h, e = .recv m now → m.data = some (.contentChunk chunk) →
    beginChunk cfg s.core chunk now = .ok (.inr (core, w)) →
    (s.core.objs w.ptr).isClosed = false → (s.core.objs w.ptr).chunksFull = true →
    s.handlers w.ptr = some h → h.pc = .finished → s.discarder = .serving w.ptr
  /-- The last chunk of an open request does not arrive while the discarder reads its channel. -/
  last : ∀ m now chunk core w, e = .recv m now → m.data = some (.contentChunk chunk) →
    beginChunk cfg s.core chunk now = .ok (.inr (core, w)) →
    (s.core.objs w.ptr).isClosed = false → w.last = true → s.discarder ≠ .serving w.ptr
  /-- The discarder is not given the channel of a request whose last chunk has arrived. -/
  start : ∀ p, e = .discardStart p → ¬ s.LastReceived p

/-- `OrderlyStep`, as a condition on the steps of `system`. -/
def Orderly : Except Panic Sys → SysEvent → Prop
  | .ok s, e => OrderlyStep cfg s e
  | .error _, _ => True

/-- Steps of the loop and the discarder lead from `s` to `s'`. -/
def WindsDown (s s' : Sys) : Prop :=
  (system cfg).Leads (fun e => e.isShutdown = true) (.ok s) (.ok s')

/-- `Run` can return: the loop is not left alone in front of a full channel, and the steps of the loop
and the discarder lead to their end. -/
structure ShutsDown (s : Sys) : Prop where
  read : ∀ w, s.Waits w → s.discarder = .serving w.ptr
  returns : ∃ s', WindsDown cfg s s' ∧ s'.core.phase = .returned ∧ s'.discarder = .exited

/-- The invariant of orderly runs. -/
structure Tidy (s : Sys) : Prop where
  inv : SysInv cfg s
  handled : s.core.phase = .loop → ∀ p, p < s.core.created → ∃ h, s.handlers p = some h
  waits : ∀ w h, s.Waits w → s.handlers w.ptr = some h → h.pc = .finished →
    s.discarder = .serving w.ptr
  serves : ∀ q, s.discarder = .serving q → ¬ s.LastReceived q

variable {cfg} {s s' : Sys} {e : SysEvent} {w : PendingWrite}

/-! ## The invariant -/

theorem OrderlyStep.released (h : OrderlyStep cfg s e) : ReleasedStep cfg s e := ⟨h.last, h.start⟩

theorem SysSteps.phase_loop (hL : LoopInv cfg s.pc s.core) (hs : SysSteps cfg s e s')
    (hp' : s'.core.phase = .loop) : s.core.phase = .loop := by
  cases hs with
  | loop _ _ hst | start _ hst | closeTrigger _ _ _ hst | successTrigger _ _ _ hst =>
    exact hst.phase_loop hp'
  | begin _ _ hp => exact hp
  | finish hpc | last hpc =>
    rw [hpc] at hL
    exact hL.2
  | complete hpc | drain hpc =>
    rw [hpc] at hL
    exact hL.1.phase
  | _ => exact hp'

/-- A handler stays, in whatever position. -/
theorem Sys.setHandler_some {p : Ptr} (hh : ∃ h, s.handlers p = some h) (q : Ptr) (h' : Handler) :
    ∃ h, (s.setHandler q h').handlers p = some h := by
  by_cases hp : p = q
  · subst hp
    exact ⟨h', Sys.setHandler_self _ _ _⟩
  · rw [Sys.setHandler_ne _ _ hp]
    exact hh

theorem SysSteps.handler_some (hs : SysSteps cfg s e s') {p : Ptr}
    (hh : ∃ h, s.handlers p = some h) : ∃ h, s'.handlers p = some h := by
  cases hs with
  | start | discardStart | serves | takeResponse | takeChunk => exact Sys.setHandler_some hh _ _
  | closeTrigger | successTrigger => exact Sys.setHandler_some hh _ _
  | _ => exact hh

/-- While the loop runs, every request has a handler. -/
theorem SysSteps.handled (hI : SysInv cfg s) (hs : SysSteps cfg s e s')
    (hh : s.core.phase = .loop → ∀ p, p < s.core.created → ∃ h, s.handlers p = some h)
    (hp : s'.core.phase = .loop) (p : Ptr) (hlt : p < s'.core.created) :
    ∃ h, s'.handlers p = some h := by
  have hold : p < s.core.created → ∃ h, s'.handlers p = some h := fun hlt =>
    hs.handler_some (hh (hs.phase_loop hI.loop hp) p hlt)
  rcases hs.created with hc | ⟨path, now, sendOk, rfl, hst, -⟩
  · exact hold (hc ▸ hlt)
  rcases hst.created with hc | ⟨hc, -⟩
  · exact hold (hc ▸ hlt)
  rw [hc] at hlt
  rcases Nat.lt_succ_iff_lt_or_eq.mp hlt with hlt | rfl
  · exact hold hlt
  -- a new request has a handler, unless it could not be sent
  cases hs with
  | start => exact ⟨_, Sys.setHandler_self _ _ _⟩
  | loop _ he =>
    rcases he with ⟨-, he⟩ | ⟨_, _, -, he⟩ | ⟨_, -, he⟩ | ⟨_, _, -, he⟩ | ⟨_, _, -, he, -⟩ <;>
      cases he
    cases hst with
    | forward => cases hp

/-! ### Handlers that return -/

/-- A call of `Close` that returns while the loop waits on the channel of its request saw `done`, or
has handed the channel over. -/
theorem CloseStep.returns_waiting {p : Ptr} {h : Handler} {call : CloseCall} {message : String}
    {after : After} (hI : SysInv cfg s) (hh : s.handlers p = some h)
    (hpc : h.pc = .closing call message after) (hn : CloseStep s p call none) (hw : s.Waits w)
    (hp : w.ptr = p) :
    s.discarder = .serving p ∨ s.core.done = true ∧ (call = .checkDone ∨ call = .offerDiscard) := by
  subst hp
  have hopen := hw.isOpen
  have hcomp := (hI.waiting hw.pc).1
  -- a signal that is there can only be `done`
  have hsig : ∀ signal, s.signalled w.ptr signal = true → s.core.done = true := by
    intro signal hs
    cases signal with
    | completed =>
      change (s.core.objs w.ptr).isCompleted = true at hs
      rw [hcomp] at hs; cases hs
    | closed =>
      change (s.core.objs w.ptr).isClosed = true at hs
      rw [hopen] at hs; cases hs
    | done => exact hs
  cases hn with
  | closed hc => rw [hopen] at hc; cases hc
  | done hd => exact .inr ⟨hd, .inl rfl⟩
  | completed hc => rw [hcomp] at hc; cases hc
  | discardSees signal hs => exact .inr ⟨hsig signal hs, .inr rfl⟩
  | triggerSees =>
    exact .inl (((hI.handler _ h hh).closing _ _ _ hpc).2.2.1 rfl hopen hcomp)

/-- A handler that returns while the loop waits on the channel of its request leaves the discarder
there. -/
theorem Serves.finished_waiting {p : Ptr} {h h' : Handler} {e : ServeEvent} (hI : SysInv cfg s)
    (ho : OrderlyStep cfg s (.serve p e)) (hh : s.handlers p = some h) (hs : Serves s p h e h')
    (hfin : h'.pc = .finished) (hw : s.Waits w) (hp : w.ptr = p) :
    h.pc = .finished ∨ s.discarder = .serving p := by
  cases hs with
  | timedOut | cut | refused | accepted | mismatch | forwarded | wrote | writeFails => cases hfin
  | @close call message after next _ hpc hn he =>
    cases next with
    | some call' => cases hfin
    | none =>
      right
      rcases hn.returns_waiting hI hh hpc hw hp with hd | ⟨hdone, rfl | rfl⟩
      · exact hd
      · exact ho.close p e h message after rfl he hh (.inl hpc) hdone w hw hp
      · exact ho.close p e h message after rfl he hh (.inr hpc) hdone w hw hp
  | success => exact .inl hfin

/-- **A loop that waits is read from**, by the handler or by the discarder. -/
theorem SysSteps.waits (hI : SysInv cfg s) (ho : OrderlyStep cfg s e) (hs : SysSteps cfg s e s')
    (hn : ∀ w h, s.Waits w → s.handlers w.ptr = some h → h.pc = .finished →
      s.discarder = .serving w.ptr) (w : PendingWrite) (h : Handler) (hw : s'.Waits w)
    (hh : s'.handlers w.ptr = some h) (hfin : h.pc = .finished) :
    s'.discarder = .serving w.ptr := by
  have hnot : ∀ {pc}, s'.pc = pc → pc = .sending w := fun h => h.symm.trans hw.pc
  cases hs with
  | loop hpc | start hpc | closeTrigger _ _ hpc | successTrigger _ _ hpc => cases hnot hpc
  | finish | last | complete | drain => cases hnot rfl
  | @begin m chunk now core w' hpc hm hph hb hr =>
    cases hnot rfl
    obtain ⟨-, h2, h3⟩ := hb.unsettled w.ptr
    exact ho.take m now chunk core w h rfl hm hr (h2 ▸ hw.isOpen) (h3 ▸ hw.full) hh hfin
  | disconnect => exact hn w h ⟨hw.pc, hw.isOpen, hw.full⟩ hh hfin
  | @discardStart p h₁ message after hd hh₁ =>
    by_cases hp : w.ptr = p
    · subst hp
      rw [Sys.setHandler_self] at hh
      cases hh
      cases hfin
    · rw [Sys.setHandler_ne _ _ hp] at hh
      have := hn w h ⟨hw.pc, hw.isOpen, hw.full⟩ hh hfin
      rw [hd] at this; cases this
  | @discardTake p rsp o c hd hr hrecv =>
    by_cases hp : w.ptr = p
    · rw [hp]; exact hd
    · have hobj : ∀ r, (s.core.put p r).objs w.ptr = s.core.objs w.ptr :=
        fun r => St.put_objs_ne _ _ hp
      exact hn w h ⟨hw.pc, hobj _ ▸ hw.isOpen, hobj _ ▸ hw.full⟩ hh hfin
  | @discardStop p hd hc =>
    have := hn w h ⟨hw.pc, hw.isOpen, hw.full⟩ hh hfin
    rw [hd] at this
    cases this
    have hopen := hw.isOpen
    change (s.core.objs w.ptr).isClosed = false at hopen
    rw [hc] at hopen; cases hopen
  | discardExit hd =>
    have := hn w h ⟨hw.pc, hw.isOpen, hw.full⟩ hh hfin
    rw [hd] at this; cases this
  | @serves p h₁ h' e hh₁ hsv =>
    have hw' : s.Waits w := ⟨hw.pc, hw.isOpen, hw.full⟩
    by_cases hp : w.ptr = p
    · subst hp
      rw [Sys.setHandler_self] at hh
      cases hh
      rcases hsv.finished_waiting hI ho hh₁ hfin hw' rfl with hfin' | hd
      · exact hn w h₁ hw' hh₁ hfin'
      · exact hd
    · rw [Sys.setHandler_ne _ _ hp] at hh
      exact hn w h hw' hh hfin
  | @takeResponse p h₁ o c hh₁ hpc hr =>
    by_cases hp : w.ptr = p
    · subst hp
      rw [Sys.setHandler_self] at hh
      cases hh
      rcases o with _ | _ | header <;> cases hfin
    · have hobj : ∀ r, (s.core.put p r).objs w.ptr = s.core.objs w.ptr :=
        fun r => St.put_objs_ne _ _ hp
      rw [Sys.setHandler_ne _ _ hp] at hh
      exact hn w h ⟨hw.pc, hobj _ ▸ hw.isOpen, hobj _ ▸ hw.full⟩ hh hfin
  | @takeChunk p h₁ rsp chunk c hh₁ =>
    by_cases hp : w.ptr = p
    · subst hp
      rw [Sys.setHandler_self] at hh
      cases hh
      cases hfin
    · have hobj : ∀ r, (s.core.put p r).objs w.ptr = s.core.objs w.ptr :=
        fun r => St.put_objs_ne _ _ hp
      rw [Sys.setHandler_ne _ _ hp] at hh
      exact hn w h ⟨hw.pc, hobj _ ▸ hw.isOpen, hobj _ ▸ hw.full⟩ hh hfin

theorem Tidy.step (ht : Tidy cfg s) (ho : OrderlyStep cfg s e) (hs : SysSteps cfg s e s') :
    Tidy cfg s' where
  inv := hs.sysInv ht.inv
  handled := hs.handled ht.inv ht.handled
  waits := hs.waits ht.inv ho ht.waits
  serves := hs.not_lastReceived ht.inv ho.released ht.serves

theorem tidy_init : Tidy cfg Sys.init where
  inv := sysInv_init
  handled _ p hp := absurd hp (Nat.not_lt_zero p)
  waits w h hw := by cases hw.pc
  serves q hd := by cases hd

/-- **Orderly runs are tidy.** -/
theorem tidy_of_run {es : List SysEvent}
    (h : (system cfg).run (.ok Sys.init) es = some (.ok s))
    (hC : (system cfg).Along (Orderly cfg) (.ok Sys.init) es) : Tidy cfg s := by
  refine hC.inv (P := fun c => ∀ s, c = .ok s → Tidy cfg s) ?_ ?_ h s rfl
  · rintro (_ | s₁) e c hP ho hs s₂ rfl
    · cases hs
    · exact (hP s₁ rfl).step ho (sysSteps_of_step (hP s₁ rfl).inv hs)
  · rintro s₁ ⟨⟩
    exact tidy_init

/-- A step is in question only if it is one of a handler, a message or a hand-over. -/
theorem orderlyStep_of_ne (h1 : ∀ p e', e ≠ .serve p e') (h2 : ∀ m now, e ≠ .recv m now)
    (h3 : ∀ p, e ≠ .discardStart p) : OrderlyStep cfg s e where
  close p e' _ _ _ h := absurd h (h1 p e')
  take m now _ _ _ _ h := absurd h (h2 m now)
  last m now _ _ _ h := absurd h (h2 m now)
  start p h := absurd h (h3 p)

theorem orderlyStep_of_isShutdown (he : e.isShutdown = true) : OrderlyStep cfg s e := by
  refine orderlyStep_of_ne ?_ ?_ ?_ <;> intros <;> rintro rfl <;> cases he

/-! ## The end of the loop and the discarder -/

variable (cfg) in
/-- What a shutdown can rely on: an orderly history, `done`, and no handler that still runs. -/
structure Stopping (s : Sys) : Prop extends Tidy cfg s where
  done : s.core.done = true
  left : ∀ p h, s.handlers p = some h → h.pc = .finished

theorem SysSteps.handlers_of_isShutdown (hs : SysSteps cfg s e s') (he : e.isShutdown = true) :
    s'.handlers = s.handlers := by
  cases hs with
  | start | discardStart | serves | takeResponse | takeChunk => cases he
  | closeTrigger | successTrigger => cases he
  | _ => rfl

theorem Stopping.step (hS : Stopping cfg s) (he : e.isShutdown = true)
    (hs : (system cfg).step (.ok s) e = some (.ok s')) : Stopping cfg s' := by
  have hst := sysSteps_of_step hS.inv hs
  refine ⟨hS.toTidy.step (orderlyStep_of_isShutdown he) hst, (hst.grows hS.inv.loop).done hS.done, ?_⟩
  rw [hst.handlers_of_isShutdown he]
  exact hS.left

theorem Stopping.windsDown (hS : Stopping cfg s) (h : WindsDown cfg s s') : Stopping cfg s' := by
  refine h.inv (P := fun c => ∀ s, c = .ok s → Stopping cfg s) ?_ ?_ s' rfl
  · rintro (_ | s₁) e c he hP hs s₂ rfl
    · cases hs
    · exact (hP s₁ rfl).step he hs
  · rintro s₁ ⟨⟩
    exact hS

theorem Stopping.drains (hS : Stopping cfg s) {p : Ptr} (hpc : s.pc = .draining p) :
    ∃ s', WindsDown cfg s s' ∧ s'.pc = .select := by
  obtain ⟨s', h1, -⟩ := drainStep_spec hS.inv.loop hpc
  have hstep : (system cfg).step (.ok s) .drain = some (.ok s') := by
    change sysStep cfg s .drain = _
    simp only [sysStep, hpc]
    rw [h1]
  exact ⟨s', .step rfl hstep, (sysSteps_of_step hS.inv hstep).advances⟩

theorem Stopping.completes (hS : Stopping cfg s) {p : Ptr} (hpc : s.pc = .completing p) :
    ∃ s', WindsDown cfg s s' ∧ s'.pc = .select := by
  obtain ⟨s₁, h1, -⟩ := completeStep_spec hS.inv.loop hpc
  have hstep : (system cfg).step (.ok s) .complete = some (.ok s₁) := by
    change sysStep cfg s .complete = _
    simp only [sysStep, hpc]
    rw [h1]
  obtain ⟨q, hpc₁⟩ := (sysSteps_of_step hS.inv hstep).advances
  obtain ⟨s', h2, h3⟩ := (hS.step rfl hstep).drains hpc₁
  exact ⟨s', .trans (.step rfl hstep) h2, h3⟩

theorem Stopping.sends (hS : Stopping cfg s) (hpc : s.pc = .sending w) (hroom : ¬ s.Waits w) :
    ∃ s', WindsDown cfg s s' ∧ s'.pc = .select := by
  obtain ⟨s₁, hstep, hst, -⟩ := loop_sends hS.inv hpc hroom
  rcases hst.advances with h1 | ⟨p, h1⟩
  · exact ⟨s₁, .step rfl hstep, h1⟩
  · obtain ⟨s', h2, h3⟩ := (hS.step rfl hstep).completes h1
    exact ⟨s', .trans (.step rfl hstep) h2, h3⟩

/-- The loop waits on a channel that the discarder reads. -/
theorem Stopping.read (hS : Stopping cfg s) (hw : s.Waits w) : s.discarder = .serving w.ptr := by
  have hL := hS.inv.loop
  rw [hw.pc] at hL
  obtain ⟨h, hh⟩ := hS.handled hL.2 w.ptr (hL.1.lt_created (hL.1.writing w rfl).2.1)
  exact hS.waits w h hw hh (hS.left _ h hh)

/-- **The loop comes back to its select.** -/
theorem Stopping.selects (hS : Stopping cfg s) : ∃ s', WindsDown cfg s s' ∧ s'.pc = .select := by
  cases hpc : s.pc with
  | select => exact ⟨s, .refl _, hpc⟩
  | draining p => exact hS.drains hpc
  | completing p => exact hS.completes hpc
  | sending w =>
    by_cases hw : s.Waits w
    · obtain ⟨-, rsp, hr, hcap⟩ := hS.inv.waiting hpc
      obtain ⟨s₁, h1, h2, h3⟩ := discarder_makes_room cfg (hS.read hw) hr hcap
      have hd : WindsDown cfg s s₁ := by
        obtain ⟨es, hA, hes⟩ := h1
        exact ⟨es, fun e he => by rw [hA e he]; rfl, hes⟩
      obtain ⟨s', h4, h5⟩ := (hS.windsDown hd).sends (h2.trans hpc)
        fun hw => by rw [hw.full] at h3; cases h3
      exact ⟨s', hd.trans h4, h5⟩
    · exact hS.sends hpc hw

/-- **The loop returns from its select.** -/
theorem Stopping.returns (hS : Stopping cfg s) (hpc : s.pc = .select) :
    ∃ s', WindsDown cfg s s' ∧ s'.core.phase = .returned ∧ s'.pc = .select := by
  by_cases hp : s.core.phase = .returned
  · exact ⟨s, .refl _, hp, hpc⟩
  have henum : Enumerates s.core s.core.requests.keys.toList :=
    ⟨Finset.nodup_toList _, Finset.toList_toFinset _⟩
  obtain ⟨core, h1, -⟩ := closeAll_spec s.core s.core.requests.keys.toList
  refine ⟨{ s with core := { core with requests := ∅, phase := .returned } },
    .step (e := .ret s.core.requests.keys.toList) rfl ?_, rfl, hpc⟩
  change sysStep cfg s (.ret _) = _
  simp only [sysStep, loopStep, hpc, if_true, Loon.step, if_pos (⟨hp, hS.done, henum⟩ : _ ∧ _ ∧ _), h1,
    Option.map_some]
  rfl

/-- **The discarder exits once the loop has returned.** -/
theorem Stopping.exits (hS : Stopping cfg s) (hp : s.core.phase = .returned)
    (hpc : s.pc = .select) :
    ∃ s', WindsDown cfg s s' ∧ s'.core.phase = .returned ∧ s'.discarder = .exited := by
  -- an idle discarder sees `done`
  have hidle : ∀ {s : Sys}, s.discarder = .idle → s.core.done = true →
      WindsDown cfg s { s with discarder := .exited } := by
    intro s hd hdone
    refine .step (e := .discardExit) rfl ?_
    change sysStep cfg s .discardExit = _
    simp only [sysStep, hd, hdone, and_self, if_true]
  cases hd : s.discarder with
  | exited => exact ⟨s, .refl _, hp, hd⟩
  | idle => exact ⟨_, hidle hd hS.done, hp, rfl⟩
  | serving q =>
    -- the loop has closed the request
    have hL := hS.inv.loop
    rw [hpc] at hL
    obtain ⟨h, hh, -⟩ := hS.inv.serving q hd
    have hlt := (hS.inv.handler q h hh).lt
    have hc : (s.core.objs q).isClosed = true := by
      rcases (hL.core.obj q hlt).settled with hpres | hcomp | hc
      · unfold St.Present at hpres
        rw [(hL.returned hp).1, Finmap.lookup_empty] at hpres
        cases hpres
      · exact absurd (.inl hcomp) (hS.serves q hd)
      · exact hc
    have hstop : WindsDown cfg s { s with discarder := .idle } := by
      refine .step (e := .discardStop) rfl ?_
      change sysStep cfg s .discardStop = _
      simp only [sysStep, hd, hc, if_true]
    exact ⟨_, hstop.trans (hidle rfl hS.done), hp, rfl⟩

/-- **Shutdown completes.** In every run of orderly steps, once `done` is closed and every handler has
returned, the loop does not wait on a channel that nobody reads, and it can return and the discarder
can exit. -/
theorem shutdown_completes {es : List SysEvent}
    (h : (system cfg).run (.ok Sys.init) es = some (.ok s))
    (hC : (system cfg).Along (Orderly cfg) (.ok Sys.init) es) (hdone : s.core.done = true)
    (hleft : ∀ p h, s.handlers p = some h → h.pc = .finished) : ShutsDown cfg s := by
  have hS : Stopping cfg s := ⟨tidy_of_run h hC, hdone, hleft⟩
  obtain ⟨s₁, h1, h2⟩ := hS.selects
  have hS₁ := hS.windsDown h1
  obtain ⟨s₂, h3, h4, h5⟩ := hS₁.returns h2
  obtain ⟨s₃, h6, h7, h8⟩ := (hS₁.windsDown h3).exits h4 h5
  exact ⟨fun w hw => hS.read hw, s₃, (h1.trans h3).trans h6, h7, h8⟩

/-! ## Orderly runs -/

theorem beginChunk_inr {s core : St} {chunk : ContentChunk} {now : Time}
    (h : beginChunk cfg s chunk now = .ok (.inr (core, w))) :
    (s.objs w.ptr).isCompleted = false := by
  unfold beginChunk at h
  split at h
  · cases h
  dsimp only at h
  split_ifs at h with h1 h2 h3
  · cases h
  · cases h
  split at h
  · cases h
  rename_i rsp hr
  cases hn : rsp.nextChunkInfo cfg.chunkSize with
  | error e => rw [hn] at h; cases h
  | ok x =>
    rw [hn] at h
    simp only [bind, Except.bind] at h
    split_ifs at h <;> cases h
    simpa using h3

/-- Before a disconnect, and with an idle discarder, only a hand-over is in question. -/
theorem orderlyStep_of_connected (hI : SysInv cfg s) (hdone : s.core.done = false)
    (hd : s.discarder = .idle) (he : ∀ p, e ≠ .discardStart p) : OrderlyStep cfg s e where
  close _ _ _ _ _ _ _ _ _ hdone' := by rw [hdone] at hdone'; cases hdone'
  take m now chunk core w h h1 h2 h3 hc _ hh hfin := by
    -- the handler of an open request returns only after the disconnect
    rcases (hI.handler _ h hh).finished hfin hdone with hcomp | hclosed
    · rw [beginChunk_inr h3] at hcomp; cases hcomp
    · rw [hc] at hclosed; cases hclosed
  last m now chunk core w _ _ _ _ _ hd' := by rw [hd] at hd'; cases hd'
  start p h1 := absurd h1 (he p)

/-- A run without a hand-over leaves the discarder where it is. -/
theorem SysSteps.idle (hs : SysSteps cfg s e s') (hd : s.discarder = .idle)
    (hdone : s.core.done = false) (he : ∀ p, e ≠ .discardStart p) : s'.discarder = .idle := by
  cases hs with
  | discardStart => exact absurd rfl (he _)
  | discardStop => rfl
  | discardExit _ hdone' => rw [hdone] at hdone'; cases hdone'
  | _ => exact hd

/-- **Up to a disconnect, a run without a hand-over is orderly.** -/
theorem orderly_of_connected {es : List SysEvent}
    (h : (system cfg).run (.ok Sys.init) es = some (.ok s)) (hdone : s.core.done = false)
    (hes : ∀ p, .discardStart p ∉ es) : (system cfg).Along (Orderly cfg) (.ok Sys.init) es := by
  refine ((system_induction (P := fun es s => s.core.done = false →
    (∀ p, .discardStart p ∉ es) → (system cfg).Along (Orderly cfg) (.ok Sys.init) es ∧
      s.discarder = .idle) (fun _ _ => ⟨trivial, rfl⟩) ?_ h).2 hdone hes).1
  intro es s e s' hrun hI hP hs hdone' hes
  have hdone : s.core.done = false := by
    cases hx : s.core.done with
    | false => rfl
    | true => rw [(hs.grows hI.loop).done hx] at hdone'; cases hdone'
  have he : ∀ p, e ≠ .discardStart p := fun p h' => hes p (by rw [h']; simp)
  obtain ⟨hA, hd⟩ := hP hdone fun p hp => hes p (List.mem_append_left _ hp)
  refine ⟨hA.snoc fun c hc => ?_, hs.idle hd hdone he⟩
  rw [hrun] at hc
  cases hc
  exact orderlyStep_of_connected hI hdone hd he

theorem shutdown_completes_finishedDownload :
    ShutsDown sampleConfig (sysAfter sampleConfig (finishedDownload ++ [.disconnect])) := by
  have hrun : (system sampleConfig).run (.ok Sys.init) finishedDownload =
      some (.ok (sysAfter sampleConfig finishedDownload)) := rfl
  have hrun' : (system sampleConfig).run (.ok Sys.init) (finishedDownload ++ [.disconnect]) =
      some (.ok (sysAfter sampleConfig (finishedDownload ++ [.disconnect]))) := rfl
  refine shutdown_completes hrun' ?_ rfl fun p h hh => ?_
  · refine (orderly_of_connected hrun rfl fun p hp => ?_).snoc fun c _ => ?_
    · simp [finishedDownload, sampleDownload] at hp
    · cases c with
      | error => trivial
      | ok s => exact orderlyStep_of_ne nofun nofun nofun
  · -- there is one request
    have hlt := ((sysInv_of_run hrun').handler p h hh).lt
    obtain rfl : p = 0 := Nat.lt_one_iff.mp hlt
    cases hh
    rfl

/-- The connection drops while the loop waits on the channel of a request, and the HTTP peer of that
request is gone too: its `Close` sees `done`. -/
def droppedDownload : List SysEvent :=
  [.forwardRequest "a" 0 true, .recv ⟨some (.contentHeader (longHeader 1))⟩ 1,
    .serve 0 .takeResponse, .serve 0 (.checkAccept .acceptable),
    .recv ⟨some (.contentChunk ⟨1, 0, [1, 2]⟩)⟩ 2, .write, .serve 0 .takeChunk,
    .recv ⟨some (.contentChunk ⟨1, 1, [3, 4]⟩)⟩ 3, .write,
    .recv ⟨some (.contentChunk ⟨1, 2, [5, 6]⟩)⟩ 4, .disconnect, .serve 0 (.writeFails 0),
    .serve 0 .closeStep, .serve 0 .closeStep, .serve 0 .closeStep, .serve 0 .closeStep]

theorem dropped_download_leaks_the_loop :
    ¬ ∀ (es : List SysEvent) (s : Sys),
      (system sampleConfig).run (.ok Sys.init) es = some (.ok s) → s.core.done = true →
      (∀ p h, s.handlers p = some h → h.pc = .finished) → ShutsDown sampleConfig s := by
  intro hall
  have hrun : (system sampleConfig).run (.ok Sys.init) droppedDownload =
      some (.ok (sysAfter sampleConfig droppedDownload)) := rfl
  have hw : Sys.Waits (sysAfter sampleConfig droppedDownload)
      { ptr := 0, data := [5, 6], last := false } := ⟨rfl, rfl, rfl⟩
  have hs := hall _ _ hrun rfl fun p h hh => by
    have hlt := ((sysInv_of_run hrun).handler p h hh).lt
    obtain rfl : p = 0 := Nat.lt_one_iff.mp hlt
    cases hh
    rfl
  cases hs.read _ hw

end Shutdown

end Loon
