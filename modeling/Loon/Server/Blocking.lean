import Loon.Server.Forwarding

set_option autoImplicit false

/-!
# A loop that waits for room on a chunk channel

The protocol loop sends the chunks of every request itself, so a request whose channel is full and
whose handler no longer reads stops the whole connection. `Request.Close` therefore hands the channel
to the discarder before it asks the loop to close the request; but there is one discarder, and it
stays with a request until that request is closed.

* `Blocked`: the loop waits on the full channel of a request whose handler is in `Close`;
* **`blocked_loop_recovers_iff`**: the calls of `Close` and the discarder can get the loop going again
  if and only if the discarder is not with another request that is still open.
-/

namespace Loon

/-- The steps of the loop, the discarder and the calls of `Close`, without new messages, requests or
a disconnect. -/
def SysEvent.isInternal : SysEvent → Bool
  | .write | .complete | .drain => true
  | .discardStart _ | .discardTake | .discardStop | .discardExit => true
  | .serve _ .closeStep | .serve _ (.closeSees _) | .serve _ (.closeTrigger _ _) => true
  | _ => false

/-- The loop waits for room on the channel of the request of `w`. -/
structure Sys.Waits (s : Sys) (w : PendingWrite) : Prop where
  pc : s.pc = .sending w
  isOpen : (s.core.objs w.ptr).isClosed = false
  full : (s.core.objs w.ptr).chunksFull = true

/-- The connection is open, the loop waits on the channel of the request of `w`, and the handler of
that request is in a call of `Close`. -/
structure Blocked (s : Sys) (w : PendingWrite) : Prop extends s.Waits w where
  connected : s.core.done = false
  abandoned : ∃ h call message after, s.handlers w.ptr = some h ∧
    h.pc = .closing call message after

section Blocking

variable {ext : Externals} (cfg : Config ext)

/-- The internal steps can get the loop past the send it waits in. -/
def CanUnblock (s : Sys) : Prop :=
  ∃ s', (system cfg).Leads (fun e => e.isInternal = true) (.ok s) (.ok s') ∧ s'.pc ≠ s.pc

variable {cfg} {s s' : Sys} {e : SysEvent} {w : PendingWrite}

/-! ## The discarder makes room -/

variable (cfg) in
/-- The discarder empties the channel of the request it is with. -/
theorem discarder_makes_room {p : Ptr} {rsp : Response} (hd : s.discarder = .serving p)
    (hr : (s.core.objs p).response = some rsp) (hcap : 0 < rsp.chunks.cap) :
    ∃ s', (system cfg).Leads (fun e => e = .discardTake) (.ok s) (.ok s') ∧ s'.pc = s.pc ∧
      (s'.core.objs p).chunksFull = false := by
  -- the number of chunks on the channel decreases
  induction hn : rsp.chunks.buffer.length generalizing s rsp with
  | zero =>
    refine ⟨s, .refl _, rfl, ?_⟩
    simp only [Request.chunksFull, hr, Option.elim_some, Chan.full, hn, decide_eq_false_iff_not]
    omega
  | succ n ih =>
    obtain ⟨a, rest, hb⟩ := List.exists_cons_of_length_eq_add_one hn
    have hstep : (system cfg).step (.ok s) .discardTake =
        some (.ok (s.putObj p (s.core.objs p).popChunk)) := by
      change sysStep cfg s .discardTake = _
      simp [sysStep, hd, hr, Chan.recv, hb, Request.popChunk, Chan.pop]
    have hr' : ((s.putObj p (s.core.objs p).popChunk).core.objs p).response =
        some { rsp with chunks := rsp.chunks.pop } := by
      change ((s.core.put p _).objs p).response = _
      rw [St.put_objs_self, Request.popChunk, hr]
      rfl
    have hlen : rsp.chunks.pop.buffer.length = n := by simp [Chan.pop, hn]
    obtain ⟨s', h1, h2, h3⟩ := ih (s := s.putObj p (s.core.objs p).popChunk) hd hr' hcap hlen
    exact ⟨s', .trans (Machine.Leads.step (A := fun e => e = .discardTake) rfl hstep) h1, h2, h3⟩

/-- A loop that does not wait gets past the send. -/
theorem loop_sends (hI : SysInv cfg s) (hpc : s.pc = .sending w) (hroom : ¬ s.Waits w) :
    ∃ s', (system cfg).step (.ok s) .write = some (.ok s') ∧ SysSteps cfg s .write s' ∧
      s'.pc ≠ s.pc := by
  have hstep : ∃ c, writeStep s w = some c := by
    unfold writeStep
    split
    · exact ⟨_, rfl⟩
    split
    · rename_i hc hf
      exact absurd ⟨hpc, by simpa using hc, hf⟩ hroom
    · exact ⟨_, rfl⟩
  obtain ⟨c, hc⟩ := hstep
  obtain ⟨s', rfl, hst⟩ := writeStep_spec hI.loop hpc hc
  refine ⟨s', ?_, hst, ?_⟩
  · change sysStep cfg s .write = _
    simp only [sysStep, hpc]
    exact hc
  · rcases hst.advances with h | ⟨p, h⟩
    · rw [h, hpc]
      rintro ⟨⟩
    · rw [h, hpc]
      rintro ⟨⟩

/-! ## A call of `Close` hands its channel to the discarder -/

/-- The discarder is free, and a call of `Close` on `p` finds no reason to return. -/
structure HandsOver (s : Sys) (p : Ptr) : Prop where
  idle : s.discarder = .idle
  connected : s.core.done = false
  isOpen : (s.core.objs p).isClosed = false
  incomplete : (s.core.objs p).isCompleted = false
  answered : (s.core.objs p).response.isSome

/-- The next position of a call of `Close` that finds no reason to return. -/
def CloseCall.next : CloseCall → CloseCall
  | .checkClosed => .checkDone
  | .checkDone => .checkCompleted
  | .checkCompleted => .readResponse
  | .readResponse => .offerDiscard
  | call => call

/-- One step of a call of `Close` towards the discarder. -/
theorem HandsOver.step {p : Ptr} {h : Handler} {call : CloseCall} {message : String} {after : After}
    (ho : HandsOver s p) (hh : s.handlers p = some h) (hpc : h.pc = .closing call message after)
    (h1 : call ≠ .offerDiscard) (h2 : call ≠ .offerTrigger) :
    (system cfg).Leads (fun e => e.isInternal = true) (.ok s)
      (.ok (s.setHandler p (h.closeAt call.next message after))) := by
  refine .step (e := .serve p .closeStep) rfl ?_
  change sysStep cfg s (.serve p .closeStep) = _
  simp only [sysStep, hh]
  cases call with
  | checkClosed => simp [serveStep, hpc, ho.isOpen, CloseCall.next]
  | checkDone => simp [serveStep, hpc, ho.connected, CloseCall.next]
  | checkCompleted => simp [serveStep, hpc, ho.incomplete, CloseCall.next]
  | readResponse => simp [serveStep, hpc, Request.hasResponse, ho.answered, CloseCall.next]
  | offerDiscard => exact absurd rfl h1
  | offerTrigger => exact absurd rfl h2

/-- The number of steps of a call of `Close` before it offers its channel. -/
def CloseCall.distance : CloseCall → ℕ
  | .checkClosed => 4
  | .checkDone => 3
  | .checkCompleted => 2
  | .readResponse => 1
  | .offerDiscard => 0
  | .offerTrigger => 0

variable (cfg) in
/-- **The hand-over.** A call of `Close` that finds no reason to return reaches the idle
discarder. -/
theorem HandsOver.serves {p : Ptr} {h : Handler} {call : CloseCall} {message : String}
    {after : After} (ho : HandsOver s p) (hh : s.handlers p = some h)
    (hpc : h.pc = .closing call message after) (hcall : call ≠ .offerTrigger) :
    ∃ s', (system cfg).Leads (fun e => e.isInternal = true) (.ok s) (.ok s') ∧
      s'.discarder = .serving p ∧ s'.pc = s.pc ∧ s'.core = s.core := by
  induction hn : call.distance generalizing s h call with
  | zero =>
    have hoffer : call = .offerDiscard := by
      cases call <;> first | rfl | exact absurd rfl hcall | cases hn
    subst hoffer
    refine ⟨{ s with discarder := .serving p }.setHandler p
      (h.closeAt .offerTrigger message after), .step (e := .discardStart p) rfl ?_, rfl, rfl, rfl⟩
    change sysStep cfg s (.discardStart p) = _
    simp only [sysStep, ho.idle, hh, hpc]
  | succ n ih =>
    have hoffer : call ≠ .offerDiscard := fun h' => by subst h'; cases hn
    have hstep : (system cfg).Leads (fun e => e.isInternal = true) (.ok s)
        (.ok (s.setHandler p (h.closeAt call.next message after))) :=
      ho.step hh hpc hoffer hcall
    have hnext : call.next ≠ .offerTrigger ∧ call.next.distance = n := by
      cases call <;> cases hn <;> exact ⟨by rintro ⟨⟩, rfl⟩
    obtain ⟨s', h1, h2⟩ := ih (s := s.setHandler p (h.closeAt call.next message after))
      ⟨ho.idle, ho.connected, ho.isOpen, ho.incomplete, ho.answered⟩
      (Sys.setHandler_self _ _ _) rfl hnext.1 hnext.2
    exact ⟨s', hstep.trans h1, h2⟩

/-! ## Recovery -/

theorem leads_internal (h : (system cfg).Leads (fun e => e = .discardTake) (.ok s) (.ok s')) :
    (system cfg).Leads (fun e => e.isInternal = true) (.ok s) (.ok s') := by
  obtain ⟨es, hA, hes⟩ := h
  exact ⟨es, fun e he => by rw [hA e he]; rfl, hes⟩

/-- What a loop that waits on a channel knows of its request. -/
theorem SysInv.waiting (hI : SysInv cfg s) (hpc : s.pc = .sending w) :
    (s.core.objs w.ptr).isCompleted = false ∧
      ∃ rsp, (s.core.objs w.ptr).response = some rsp ∧ 0 < rsp.chunks.cap := by
  have hL := hI.loop
  rw [hpc] at hL
  obtain ⟨-, hpres, hd, hr⟩ := hL.1.writing w rfl
  obtain ⟨rsp, hr⟩ := Option.isSome_iff_exists.mp hr
  exact ⟨hd, rsp, hr, ((hL.1.obj _ (hL.1.lt_created hpres)).response rsp hr).cap⟩

/-- The invariant after steps that do not crash. -/
theorem SysInv.leads {A : SysEvent → Prop} (hI : SysInv cfg s)
    (h : (system cfg).Leads A (.ok s) (.ok s')) : SysInv cfg s' := by
  obtain ⟨es, -, hes⟩ := h
  exact (hI.run hes).1

/-- A discarder that is with the request of the blocked loop gets it going. -/
theorem canUnblock_of_serving (hI : SysInv cfg s) (hpc : s.pc = .sending w)
    (hd : s.discarder = .serving w.ptr) : CanUnblock cfg s := by
  obtain ⟨-, rsp, hr, hcap⟩ := hI.waiting hpc
  obtain ⟨s₁, h1, h2, h3⟩ := discarder_makes_room cfg hd hr hcap
  have hI₁ := hI.leads h1
  have hroom : ¬ s₁.Waits w := fun hw => by rw [hw.full] at h3; cases h3
  obtain ⟨s₂, h4, -, h5⟩ := loop_sends hI₁ (h2.trans hpc) hroom
  exact ⟨s₂, (leads_internal h1).trans (.step rfl h4), by rw [← h2]; exact h5⟩

/-- An idle discarder gets the loop going after the hand-over. -/
theorem canUnblock_of_idle (hI : SysInv cfg s) (hb : Blocked s w) (hd : s.discarder = .idle) :
    CanUnblock cfg s := by
  obtain ⟨hcomp, rsp, hr, -⟩ := hI.waiting hb.pc
  obtain ⟨h, call, message, after, hh, hpc⟩ := hb.abandoned
  have ho : HandsOver s w.ptr := ⟨hd, hb.connected, hb.isOpen, hcomp, by rw [hr]; rfl⟩
  -- a call that already offers to close the request has handed its channel over
  have hcall : call ≠ .offerTrigger := by
    intro he
    have := ((hI.handler _ h hh).closing _ _ _ hpc).2.2.1 he hb.isOpen hcomp
    rw [hd] at this; cases this
  obtain ⟨s₁, h1, h2, h3, h4⟩ := ho.serves cfg hh hpc hcall
  obtain ⟨s₂, h5, h6⟩ := canUnblock_of_serving (hI.leads h1) (h3.trans hb.pc) h2
  exact ⟨s₂, h1.trans h5, by rw [← h3]; exact h6⟩

/-! ## A circular wait -/

/-- The loop waits on a channel, and the discarder is not there and cannot come: it is with another
request that only the loop can close, or it has returned. -/
structure Wedged (s : Sys) (w : PendingWrite) : Prop extends s.Waits w where
  busy : s.discarder ≠ .idle
  elsewhere : ∀ q, s.discarder = .serving q → q ≠ w.ptr ∧ (s.core.objs q).isClosed = false

/-- **An internal step does not end a circular wait.** -/
theorem SysSteps.wedged (hs : SysSteps cfg s e s') (he : e.isInternal = true) (hw : Wedged s w) :
    Wedged s' w := by
  have hopen := hw.isOpen
  have hfull := hw.full
  have hpcw : ∀ {pc}, s.pc = pc → pc = .sending w := fun h => h.symm.trans hw.pc
  cases hs with
  | loop _ hev =>
    rcases hev with ⟨-, rfl⟩ | ⟨_, _, -, rfl⟩ | ⟨_, -, rfl⟩ | ⟨_, _, -, rfl⟩ | ⟨_, _, -, rfl, -⟩ <;>
      cases he
  | start | begin | disconnect | takeResponse | takeChunk | successTrigger => cases he
  | finish hpc _ hroom =>
    cases hpcw hpc
    rw [hopen, hfull] at hroom
    simp at hroom
  | last hpc _ hroom =>
    cases hpcw hpc
    rw [hfull] at hroom; cases hroom
  | complete hpc => cases hpcw hpc
  | drain hpc => cases hpcw hpc
  | closeTrigger _ _ hpc => cases hpcw hpc
  | discardStart hd => exact absurd hd hw.busy
  | discardExit hd => exact absurd hd hw.busy
  | discardStop hd hc =>
    rw [(hw.elsewhere _ hd).2] at hc; cases hc
  | @discardTake q _ _ _ hd =>
    obtain ⟨hq, hqc⟩ := hw.elsewhere q hd
    have hobj : ∀ r, (s.core.put q r).objs w.ptr = s.core.objs w.ptr :=
      fun r => St.put_objs_ne _ _ hq.symm
    refine ⟨⟨hw.pc, ?_, ?_⟩, hw.busy, fun q' hq' => ?_⟩
    · change ((s.core.put q _).objs w.ptr).isClosed = false
      rw [hobj]; exact hopen
    · change ((s.core.put q _).objs w.ptr).chunksFull = true
      rw [hobj]; exact hfull
    · have hqq : q' = q := by
        change s.discarder = _ at hq'
        rw [hd] at hq'
        cases hq'; rfl
      subst hqq
      refine ⟨hq, ?_⟩
      change ((s.core.put q' _).objs q').isClosed = false
      rw [St.put_objs_self]; exact hqc
  | serves => exact ⟨⟨hw.pc, hopen, hfull⟩, hw.busy, hw.elsewhere⟩

theorem Wedged.not_canUnblock (hI : SysInv cfg s) (hw : Wedged s w) : ¬ CanUnblock cfg s := by
  rintro ⟨s', hl, hne⟩
  have hkeep : ∀ s₁, (Except.ok s' : Except Panic Sys) = .ok s₁ → SysInv cfg s₁ ∧ Wedged s₁ w := by
    refine hl.inv (P := fun c => ∀ s₁, c = .ok s₁ → SysInv cfg s₁ ∧ Wedged s₁ w) ?_ ?_
    · rintro (_ | s₁) e c he hP hs s₂ rfl
      · cases hs
      · obtain ⟨hI₁, hw₁⟩ := hP s₁ rfl
        have hst := sysSteps_of_step hI₁ hs
        exact ⟨hst.sysInv hI₁, hst.wedged he hw₁⟩
    · rintro s₁ ⟨⟩
      exact ⟨hI, hw⟩
  exact hne ((hkeep s' rfl).2.pc.trans hw.pc.symm)

/-- **When a blocked loop can go on.** The loop waits on the full channel of a request whose handler
is in `Close`. The loop, the discarder and the calls of `Close` can get it going again if and only if
the discarder is idle, is with this request, or is with a request that is closed. -/
theorem blocked_loop_recovers_iff {es : List SysEvent}
    (h : (system cfg).run (.ok Sys.init) es = some (.ok s)) (hb : Blocked s w) :
    CanUnblock cfg s ↔ s.discarder = .idle ∨ s.discarder = .serving w.ptr ∨
      ∃ q, s.discarder = .serving q ∧ (s.core.objs q).isClosed = true := by
  have hI := sysInv_of_run h
  constructor
  · intro hcan
    by_contra hno
    refine Wedged.not_canUnblock hI ⟨hb.toWaits, fun hd => hno (.inl hd), fun q hq => ⟨?_, ?_⟩⟩ hcan
    · rintro rfl
      exact hno (.inr (.inl hq))
    · cases hc : (s.core.objs q).isClosed with
      | false => rfl
      | true => exact absurd (.inr (.inr ⟨q, hq, hc⟩)) hno
  · rintro (hd | hd | ⟨q, hd, hc⟩)
    · exact canUnblock_of_idle hI hb hd
    · exact canUnblock_of_serving hI hb.pc hd
    · -- the discarder leaves the closed request first
      have hstep : (system cfg).step (.ok s) .discardStop =
          some (.ok { s with discarder := .idle }) := by
        change sysStep cfg s .discardStop = _
        simp only [sysStep, hd, hc, if_true]
      have hl : (system cfg).Leads (fun e => e.isInternal = true) (.ok s)
          (.ok { s with discarder := .idle }) := .step rfl hstep
      have hb' : Blocked { s with discarder := .idle } w :=
        ⟨⟨hb.pc, hb.isOpen, hb.full⟩, hb.connected, hb.abandoned⟩
      obtain ⟨s', h1, h2⟩ := canUnblock_of_idle (hI.leads hl) hb' rfl
      exact ⟨s', hl.trans h1, h2⟩

/-! ## Two requests -/

/-- A header for the request `id` that announces eight bytes. -/
def longHeader (id : UInt64) : ContentHeader := { sampleHeader with requestId := id, contentSize := 8 }

/-- Two requests with contents of four chunks, both accepted. -/
def twoDownloads : List SysEvent :=
  [.forwardRequest "a" 0 true, .forwardRequest "b" 0 true,
    .recv ⟨some (.contentHeader (longHeader 1))⟩ 1, .recv ⟨some (.contentHeader (longHeader 2))⟩ 1,
    .serve 0 .takeResponse, .serve 0 (.checkAccept .acceptable),
    .serve 1 .takeResponse, .serve 1 (.checkAccept .acceptable)]

/-- The HTTP peer of the first request is gone; its `Close` hands the channel to the discarder. -/
def firstAbandoned : List SysEvent :=
  [.recv ⟨some (.contentChunk ⟨1, 0, [1, 2]⟩)⟩ 2, .write, .serve 0 .takeChunk,
    .serve 0 (.writeFails 0), .serve 0 .closeStep, .serve 0 .closeStep, .serve 0 .closeStep,
    .serve 0 .closeStep, .discardStart 0]

/-- The second request gets three chunks, and its HTTP peer is gone after the first one. -/
def secondAbandoned : List SysEvent :=
  [.recv ⟨some (.contentChunk ⟨2, 0, [1, 2]⟩)⟩ 3, .write, .serve 1 .takeChunk,
    .recv ⟨some (.contentChunk ⟨2, 1, [3, 4]⟩)⟩ 3, .write,
    .recv ⟨some (.contentChunk ⟨2, 2, [5, 6]⟩)⟩ 3, .serve 1 (.writeFails 0)]

/-- The chunk in front of the full channel of the second request. -/
def thirdChunk : PendingWrite := { ptr := 1, data := [5, 6], last := false }

theorem two_abandoned_downloads_wedge_the_loop :
    ¬ ∀ (es : List SysEvent) (s : Sys) (w : PendingWrite),
      (system sampleConfig).run (.ok Sys.init) es = some (.ok s) → Blocked s w →
      CanUnblock sampleConfig s := by
  intro hall
  have hrun : (system sampleConfig).run (.ok Sys.init)
      (twoDownloads ++ firstAbandoned ++ secondAbandoned) =
      some (.ok (sysAfter sampleConfig (twoDownloads ++ firstAbandoned ++ secondAbandoned))) := rfl
  have hw : Sys.Waits (sysAfter sampleConfig (twoDownloads ++ firstAbandoned ++ secondAbandoned))
      thirdChunk := ⟨rfl, rfl, rfl⟩
  refine Wedged.not_canUnblock (sysInv_of_run hrun) ⟨hw, nofun, fun q hq => ?_⟩
    (hall _ _ _ hrun ⟨hw, rfl, _, _, _, _, rfl, rfl⟩)
  cases hq
  exact ⟨nofun, rfl⟩

/-- With one abandoned request the loop recovers. -/
theorem blocked_loop_recovers_iff_oneAbandoned :
    CanUnblock sampleConfig (sysAfter sampleConfig (twoDownloads ++ secondAbandoned)) := by
  have hrun : (system sampleConfig).run (.ok Sys.init) (twoDownloads ++ secondAbandoned) =
      some (.ok (sysAfter sampleConfig (twoDownloads ++ secondAbandoned))) := rfl
  have hb : Blocked (sysAfter sampleConfig (twoDownloads ++ secondAbandoned)) thirdChunk :=
    ⟨⟨rfl, rfl, rfl⟩, rfl, _, _, _, _, rfl, rfl⟩
  exact (blocked_loop_recovers_iff hrun hb).mpr (.inl rfl)

end Blocking

end Loon
