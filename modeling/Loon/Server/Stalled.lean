import Loon.Server.Blocking

set_option autoImplicit false

/-!
# A download that stalls

The protocol loop sends the chunks of all requests itself. An HTTP peer that stops reading keeps the
handler of its request in `w.Write`, and once the chunk channel of this request is full, the next
chunk of it holds the loop up.

* `St.unread`: the state of the loop without what others have received from its channels, and
  without `done`;
* `Stalled.step`, `Stalled.run`: what the other goroutines can do;
* **`stalled_download_stalls_connection`**: as long as the one handler does not move, the loop takes
  no step, also when the connection is closed;
* `stalled_download_resumes`: when the write ends, the loop goes on.
-/

namespace Loon

/-! ## What others cannot change -/

def Request.unread (r : Request) : Request :=
  { r with
    pendingResponse := r.pendingResponse.unread
    response := r.response.map fun rsp => { rsp with chunks := rsp.chunks.unread } }

/-- The state of the loop, but for what others have received and for `done`. -/
def St.unread (s : St) : St := { s with objs := fun p => (s.objs p).unread, done := false }

theorem St.unread_put {s : St} {p : Ptr} {r : Request} (h : r.unread = (s.objs p).unread) :
    (s.put p r).unread = s.unread := by
  have hobjs : (fun q => ((s.put p r).objs q).unread) = fun q => (s.objs q).unread := by
    funext q
    by_cases hq : q = p
    · rw [hq, St.put_objs_self, h]
    · rw [St.put_objs_ne _ _ hq]
  simp only [St.unread, hobjs]
  rfl

theorem Request.unread_pendingResponse {r : Request} {o : Option (Option ContentHeader)}
    {c : Chan (Option ContentHeader)} (h : r.pendingResponse.recv = some (o, c)) :
    { r with pendingResponse := c }.unread = r.unread := by
  simp only [Request.unread, Chan.unread_of_recv h]

theorem Request.unread_chunks {r : Request} {rsp : Response} {o : Option Bytes} {c : Chan Bytes}
    (hr : r.response = some rsp) (h : rsp.chunks.recv = some (o, c)) :
    { r with response := some { rsp with chunks := c } }.unread = r.unread := by
  simp only [Request.unread, hr, Option.map_some, Chan.unread_of_recv h]

/-- The steps of the protocol loop; a call that it takes at its select is one of them. -/
def SysEvent.isLoop : SysEvent → Bool
  | .recv _ _ | .write | .complete | .drain | .forwardRequest _ _ _ | .countRequests | .timeout _ _
  | .ret _ | .serve _ (.closeTrigger _ _) | .serve _ (.successTrigger _) => true
  | _ => false

section Stalled

variable {ext : Externals} (cfg : Config ext)

/-- The loop waits for room on the channel of `w`, whose handler `h` is in `w.Write`. -/
structure Stalled (s : Sys) (w : PendingWrite) (h : Handler) : Prop extends s.Waits w where
  handler : s.handlers w.ptr = some h
  writing : ∃ chunk, h.pc = .writing chunk

variable {cfg} {s s' : Sys} {e : SysEvent} {w : PendingWrite} {h : Handler}

theorem Stalled.not_left (hw : Stalled s w h) : ¬ h.Left := by
  obtain ⟨chunk, hpc⟩ := hw.writing
  exact Handler.not_left hpc nofun nofun

/-- A step that changes neither the request of `w` nor its handler. -/
theorem Stalled.congr (hw : Stalled s w h) (hpc : s'.pc = s.pc)
    (hobj : s'.core.objs w.ptr = s.core.objs w.ptr) (hh : s'.handlers w.ptr = s.handlers w.ptr) :
    Stalled s' w h :=
  ⟨⟨hpc.trans hw.pc, hobj ▸ hw.isOpen, hobj ▸ hw.full⟩, hh.trans hw.handler, hw.writing⟩

theorem Stalled.setHandler (hw : Stalled s w h) {p : Ptr} (hp : p ≠ w.ptr) (h' : Handler) :
    Stalled (s.setHandler p h') w h :=
  hw.congr rfl rfl (Function.update_of_ne hp.symm _ _)

theorem Stalled.putObj (hw : Stalled s w h) {p : Ptr} (hp : p ≠ w.ptr) (r : Request) :
    Stalled (s.putObj p r) w h :=
  hw.congr rfl (St.put_objs_ne _ _ hp.symm) rfl

/-- **A step of somebody else.** -/
theorem Stalled.step (hI : SysInv cfg s) (hw : Stalled s w h) (hs : SysSteps cfg s e s')
    (he : ∀ e', e ≠ .serve w.ptr e') :
    Stalled s' w h ∧ s'.core.unread = s.core.unread ∧ e.isLoop = false := by
  have hpcw : ∀ {pc}, s.pc = pc → pc = .sending w := fun h => h.symm.trans hw.pc
  cases hs with
  | loop hpc | start hpc | begin hpc | complete hpc | drain hpc => cases hpcw hpc
  | closeTrigger _ _ hpc | successTrigger _ _ hpc => cases hpcw hpc
  | finish hpc _ hroom =>
      cases hpcw hpc
      rw [hw.isOpen, hw.full] at hroom
      rcases hroom with hroom | hroom <;> cases hroom
  | last hpc _ hroom =>
      cases hpcw hpc
      rw [hw.full] at hroom
      cases hroom
  | disconnect => exact ⟨hw.congr rfl rfl rfl, rfl, rfl⟩
  | @discardStart p h' message after hd hh hpc =>
      have hp : p ≠ w.ptr := by
        rintro rfl
        rw [hw.handler] at hh
        cases hh
        obtain ⟨chunk, hpc'⟩ := hw.writing
        rw [hpc'] at hpc
        cases hpc
      have hw' : Stalled { s with discarder := .serving p } w h := hw.congr rfl rfl rfl
      exact ⟨hw'.setHandler hp _, rfl, rfl⟩
  | @discardTake p rsp o c hd hr hc =>
      -- the discarder is with another request
      have hp : p ≠ w.ptr := by
        rintro rfl
        exact hI.not_serving hw.handler hw.not_left hd
      exact ⟨hw.putObj hp _, St.unread_put (Request.unread_chunks hr hc), rfl⟩
  | discardStop | discardExit => exact ⟨hw.congr rfl rfl rfl, rfl, rfl⟩
  | @serves p h' h'' e' hh hst =>
      have hp : p ≠ w.ptr := fun hp => he e' (hp ▸ rfl)
      refine ⟨hw.setHandler hp _, rfl, ?_⟩
      cases hst with
      | close _ _ he' => rcases he' with rfl | ⟨signal, rfl⟩ <;> rfl
      | success _ he' => rcases he' with rfl | ⟨signal, rfl⟩ <;> rfl
      | _ => rfl
  | @takeResponse p h' o c hh hpc hr =>
      have hp : p ≠ w.ptr := fun hp => he .takeResponse (hp ▸ rfl)
      exact ⟨(hw.putObj hp _).setHandler hp _, St.unread_put (Request.unread_pendingResponse hr), rfl⟩
  | @takeChunk p h' rsp chunk c hh hpc hr hc =>
      have hp : p ≠ w.ptr := fun hp => he .takeChunk (hp ▸ rfl)
      exact ⟨(hw.putObj hp _).setHandler hp _, St.unread_put (Request.unread_chunks hr hc), rfl⟩

theorem Stalled.run (hI : SysInv cfg s) (hw : Stalled s w h) {es : List SysEvent}
    {c : Except Panic Sys} (hr : (system cfg).run (.ok s) es = some c)
    (hes : ∀ e', .serve w.ptr e' ∉ es) :
    ∃ s', c = .ok s' ∧ Stalled s' w h ∧ s'.core.unread = s.core.unread ∧
      ∀ e ∈ es, e.isLoop = false := by
  induction es generalizing s with
  | nil =>
      cases hr
      exact ⟨s, rfl, hw, rfl, nofun⟩
  | cons e es ih =>
      rw [Machine.run_cons, Option.bind_eq_some_iff] at hr
      obtain ⟨c₁, hs, hr⟩ := hr
      rcases sysStep_spec hI.loop hs with ⟨s₁, rfl, hst⟩ | ⟨-, m, now, rfl, -⟩
      · obtain ⟨hw₁, hu, hloop⟩ := hw.step hI hst fun e' he => hes e' (he ▸ List.mem_cons_self)
        obtain ⟨s', rfl, hw', hu', hl⟩ :=
          ih (hst.sysInv hI) hw₁ hr fun e' he => hes e' (List.mem_cons_of_mem e he)
        refine ⟨s', rfl, hw', hu'.trans hu, fun e' he' => ?_⟩
        rcases List.mem_cons.mp he' with rfl | he'
        · exact hloop
        · exact hl e' he'
      · -- the loop receives no message where it waits
        change sysStep cfg s (.recv m now) = some c₁ at hs
        rw [sysStep, hw.pc, if_neg (by rintro ⟨⟩)] at hs
        cases hs

/-- **A stalled download stalls the connection.** While the loop waits with a chunk for a request
whose HTTP peer does not read, it takes no step until the handler of this request does, whatever the
other goroutines do and also when the connection is closed: it receives no message, forwards, closes
and completes no request, and checks no timeout; what it holds stays as it is, but for what others
receive from their channels. -/
theorem stalled_download_stalls_connection {es es' : List SysEvent} {c : Except Panic Sys}
    {chunk : Bytes} (hr : (system cfg).run (.ok Sys.init) es = some (.ok s)) (hw : s.Waits w)
    (hh : s.handlers w.ptr = some h) (hpc : h.pc = .writing chunk)
    (hr' : (system cfg).run (.ok s) es' = some c) (hes : ∀ e', .serve w.ptr e' ∉ es') :
    ∃ s', c = .ok s' ∧ s'.pc = s.pc ∧ s'.core.unread = s.core.unread ∧ ∀ e ∈ es', e.isLoop = false := by
  have hstalled : Stalled s w h := ⟨hw, hh, chunk, hpc⟩
  obtain ⟨s', rfl, hw', hu, hl⟩ := hstalled.run (sysInv_of_run hr) hr' hes
  exact ⟨s', rfl, hw'.pc.trans hw.pc.symm, hu, hl⟩

/-- What gets a stalled loop going: its own send, and the handler of the request. -/
def SysEvent.Unstalls (p : Ptr) (e : SysEvent) : Prop :=
  e = .write ∨ e = .serve p .wrote ∨ e = .serve p .takeChunk

variable (cfg) in
/-- The handler writes, and takes the next chunk. -/
theorem leads_wrote_takeChunk {p : Ptr} {rsp : Response} {chunk next : Bytes} {rest : List Bytes}
    (hh : s.handlers p = some h) (hpc : h.pc = .writing chunk)
    (hr : (s.core.objs p).response = some rsp) (hb : rsp.chunks.buffer = next :: rest) :
    ∃ s' h' rsp', (system cfg).Leads (SysEvent.Unstalls p) (.ok s) (.ok s') ∧ s'.pc = s.pc ∧
      s'.handlers p = some h' ∧ h'.pc = .writing next ∧ (s'.core.objs p).response = some rsp' ∧
      rsp'.chunks.buffer = rest := by
  -- the states after the two steps
  let h₁ : Handler :=
    { h with body := h.body ++ chunk, written := h.written + .ofNat chunk.length, pc := .forwarding }
  let rsp' : Response := { rsp with chunks := rsp.chunks.pop }
  let s₂ : Sys :=
    ((s.setHandler p h₁).putObj p { s.core.objs p with response := some rsp' }).setHandler p
      { h₁ with pc := .writing next }
  have h1 : (system cfg).step (.ok s) (.serve p .wrote) = some (.ok (s.setHandler p h₁)) := by
    change sysStep cfg s (.serve p .wrote) = _
    simp only [sysStep, hh, serveStep, hpc]
    rfl
  have hrecv : rsp.chunks.recv = some (some next, rsp.chunks.pop) := by
    simp [Chan.recv, hb, Chan.pop]
  have h2 : (system cfg).step (.ok (s.setHandler p h₁)) (.serve p .takeChunk) = some (.ok s₂) := by
    change sysStep cfg (s.setHandler p h₁) (.serve p .takeChunk) = _
    have hh₁ : (s.setHandler p h₁).handlers p = some h₁ := Function.update_self _ _ _
    have hpc₁ : h₁.pc = .forwarding := rfl
    simp only [sysStep, hh₁, serveStep, hpc₁, Sys.setHandler_core, hr, hrecv]
    rfl
  refine ⟨s₂, { h₁ with pc := .writing next }, rsp', ?_, rfl, Function.update_self _ _ _, rfl, ?_, ?_⟩
  · exact (Machine.Leads.step (.inr (.inl rfl)) h1).trans (.step (.inr (.inr rfl)) h2)
  · change ((s.core.put p _).objs p).response = _
    rw [St.put_objs_self]
  · simp [rsp', Chan.pop, hb]

/-- **It goes on when the write ends**: the handler takes the next chunk, and the loop sends its
own. -/
theorem stalled_download_resumes {es : List SysEvent} {chunk : Bytes}
    (hr : (system cfg).run (.ok Sys.init) es = some (.ok s)) (hpc : s.pc = .sending w)
    (hh : s.handlers w.ptr = some h) (hw : h.pc = .writing chunk) :
    ∃ s', (system cfg).Leads (SysEvent.Unstalls w.ptr) (.ok s) (.ok s') ∧ s'.pc ≠ s.pc := by
  have hI := sysInv_of_run hr
  obtain ⟨-, rsp, hrsp, -⟩ := hI.waiting hpc
  clear hr
  -- the number of chunks on the channel decreases
  induction hn : rsp.chunks.buffer.length generalizing s h chunk rsp with
  | zero =>
      have hroom : ¬ s.Waits w := by
        intro hwaits
        obtain ⟨-, rsp', hrsp', hcap⟩ := hI.waiting hpc
        rw [hrsp] at hrsp'
        cases hrsp'
        have hfull := hwaits.full
        simp only [Request.chunksFull, hrsp, Option.elim_some, Chan.full, hn, decide_eq_true_eq] at hfull
        omega
      obtain ⟨s', hs, -, hne⟩ := loop_sends hI hpc hroom
      exact ⟨s', .step (.inl rfl) hs, hne⟩
  | succ n ih =>
      obtain ⟨next, rest, hb⟩ := List.exists_cons_of_length_eq_add_one hn
      obtain ⟨s₁, h₁, rsp₁, hl, hpc₁, hh₁, hw₁, hrsp₁, hb₁⟩ :=
        leads_wrote_takeChunk cfg hh hw hrsp hb
      have hlen : rsp₁.chunks.buffer.length = n := by
        rw [hb₁]
        rw [hb, List.length_cons] at hn
        omega
      obtain ⟨s', hl', hne⟩ := ih (hpc₁.trans hpc) hh₁ hw₁ (hI.leads hl) rsp₁ hrsp₁ hlen
      exact ⟨s', hl.trans hl', by rw [← hpc₁]; exact hne⟩

/-! ## A sample run -/

/-- A second request waits while the peer of the first one does not read. -/
def stalledDownload : List SysEvent :=
  [.forwardRequest "a" 0 true, .recv ⟨some (.contentHeader (longHeader 1))⟩ 1,
    .serve 0 .takeResponse, .serve 0 (.checkAccept .acceptable),
    .recv ⟨some (.contentChunk ⟨1, 0, [1, 2]⟩)⟩ 2, .write, .serve 0 .takeChunk,
    .recv ⟨some (.contentChunk ⟨1, 1, [3, 4]⟩)⟩ 3, .write, .forwardRequest "b" 3 true,
    .recv ⟨some (.contentChunk ⟨1, 2, [5, 6]⟩)⟩ 4]

theorem stalled_download_stalls_connection_stalledDownload :
    (sysAfter sampleConfig (stalledDownload ++ [.disconnect])).pc = .sending ⟨0, [5, 6], false⟩ := by
  have hr : (system sampleConfig).run (.ok Sys.init) stalledDownload =
      some (.ok (sysAfter sampleConfig stalledDownload)) := rfl
  have hr' : (system sampleConfig).run (.ok (sysAfter sampleConfig stalledDownload)) [.disconnect] =
      some (.ok (sysAfter sampleConfig (stalledDownload ++ [.disconnect]))) := rfl
  obtain ⟨s', h1, h2, -⟩ := stalled_download_stalls_connection (w := ⟨0, [5, 6], false⟩)
    (h := ⟨.writing [1, 2], some .ok, [], 0, none⟩) hr ⟨rfl, rfl, rfl⟩ rfl rfl hr'
    (by simp)
  cases h1
  exact h2

end Stalled

end Loon
