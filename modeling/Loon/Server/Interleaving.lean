import Loon.Server.Serve

set_option autoImplicit false

/-!
# What a step of a goroutine can do

The invariant of the protocol loop while it is between two selects (`LoopInv`), and the inversion of
the machine `system`: in a state where the loop keeps its invariant a step does what `SysSteps` says,
and the only panic is the one for a message whose oneof is unset (**`sysStep_spec`**).

From the relation follow the frame facts that the invariants of the other goroutines need: the heap
only grows (`SysSteps.grows`), and nobody receives from the channels of a request but its handler and
the discarder (`SysSteps.undrained`).
-/

namespace Loon

open Chunking

/-! ## The loop between two selects -/

section Loop

variable {ext : Externals} (cfg : Config ext)

/-- The request `p` as it is while the loop completes it: open, with an open chunk channel. -/
structure Closable (s : St) (p : Ptr) (completed : Bool) : Prop where
  phase : s.phase = .loop
  fault : s.fault = none
  present : s.Present p
  isCompleted : (s.objs p).isCompleted = completed
  isClosed : (s.objs p).isClosed = false
  chunks : ∃ rsp, (s.objs p).response = some rsp ∧ rsp.chunks.closed = false

/-- The invariant of the loop at every position. Where it completes a request, what it is about to do
restores `Core`. -/
def LoopInv : LoopPc → St → Prop
  | .select, s => Inv cfg s
  | .sending w, s => Core cfg.chunkSize.toNat (some w) s ∧ s.phase = .loop
  | .completing p, s => Closable s p false ∧
      Core cfg.chunkSize.toNat none (s.put p (s.objs p).markCompleted.drained)
  | .draining p, s => Closable s p true ∧
      Core cfg.chunkSize.toNat none (s.put p (s.objs p).drained)

/-! ## Relations -/

/-- A step of a call of `Close` on `p`; `none` if it returns. -/
inductive CloseStep (s : Sys) (p : Ptr) : CloseCall → Option CloseCall → Prop where
  | closed (h : (s.core.objs p).isClosed = true) : CloseStep s p .checkClosed none
  | notClosed (h : (s.core.objs p).isClosed = false) : CloseStep s p .checkClosed (some .checkDone)
  | done (h : s.core.done = true) : CloseStep s p .checkDone none
  | notDone (h : s.core.done = false) : CloseStep s p .checkDone (some .checkCompleted)
  | completed (h : (s.core.objs p).isCompleted = true) : CloseStep s p .checkCompleted none
  | notCompleted (h : (s.core.objs p).isCompleted = false) :
      CloseStep s p .checkCompleted (some .readResponse)
  | response (h : (s.core.objs p).response.isSome) :
      CloseStep s p .readResponse (some .offerDiscard)
  | noResponse (h : (s.core.objs p).response = none) :
      CloseStep s p .readResponse (some .offerTrigger)
  | discardSees (signal : Signal) (h : s.signalled p signal = true) :
      CloseStep s p .offerDiscard none
  | triggerSees (signal : Signal) (h : s.signalled p signal = true) :
      CloseStep s p .offerTrigger none

/-- The call of `Close` goes on or returns. -/
def Handler.closeNext (h : Handler) (message : String) (after : After) : Option CloseCall → Handler
  | none => h.closeReturned after
  | some call => h.closeAt call message after

/-- The steps of a handler that change nothing else. -/
inductive Serves (s : Sys) (p : Ptr) (h : Handler) : ServeEvent → Handler → Prop where
  | timedOut (hpc : h.pc = .waiting) (hc : (s.core.objs p).isClosed = true) :
      Serves s p h .seesClosed { h with status := some .gatewayTimeout }.leave
  | cut (hpc : h.pc = .forwarding) (hc : (s.core.objs p).isClosed = true) :
      Serves s p h .seesClosed h.leave
  | refused {header : ContentHeader} (hpc : h.pc = .answered header) (a : Acceptance)
      (message : String) (status : Status) (hs : status ≠ .ok) :
      Serves s p h (.checkAccept a) (h.callClose message (.defers (some status)))
  | accepted {header : ContentHeader} (hpc : h.pc = .answered header) :
      Serves s p h (.checkAccept .acceptable) { h with status := some .ok, pc := .forwarding }
  | mismatch {rsp : Response} (hpc : h.pc = .forwarding) (hr : (s.core.objs p).response = some rsp)
      (hb : rsp.chunks.buffer = []) (hc : rsp.chunks.closed = true)
      (hne : h.written ≠ rsp.header.contentSize) (message : String) :
      Serves s p h .takeChunk (h.callClose message (.defers none))
  | forwarded {rsp : Response} (hpc : h.pc = .forwarding)
      (hr : (s.core.objs p).response = some rsp) (hb : rsp.chunks.buffer = [])
      (hc : rsp.chunks.closed = true) (heq : h.written = rsp.header.contentSize) :
      Serves s p h .takeChunk (h.succeedAt .checkDone).leave
  | wrote {chunk : Bytes} (hpc : h.pc = .writing chunk) :
      Serves s p h .wrote
        { h with body := h.body ++ chunk, written := h.written + .ofNat chunk.length,
                 pc := .forwarding }
  | writeFails {chunk : Bytes} (hpc : h.pc = .writing chunk) (n : ℕ) (message : String) :
      Serves s p h (.writeFails n)
        ({ h with body := h.body ++ chunk.take n }.callClose message (.defers none))
  | close {call : CloseCall} {message : String} {after : After} {next : Option CloseCall}
      {e : ServeEvent} (hpc : h.pc = .closing call message after) (hn : CloseStep s p call next)
      (he : e = .closeStep ∨ ∃ signal, e = .closeSees signal) :
      Serves s p h e (h.closeNext message after next)
  | success {call call' : SuccessCall} {e : ServeEvent} (hs : h.success = some call)
      (he : e = .successStep ∨ ∃ signal, e = .successSees signal) :
      Serves s p h e (h.succeedAt call')

/-- The handler after it received its response. -/
def Handler.received (h : Handler) : Option (Option ContentHeader) → Handler
  | none => h.leave
  | some none => { h with status := some .notFound }.leave
  | some (some header) => { h with pc := .answered header }

/-- **What a step of a goroutine does.** -/
inductive SysSteps (s : Sys) : SysEvent → Sys → Prop where
  /-- The loop handles something between two selects. -/
  | loop {e : SysEvent} {e' : Event} {core : St} (hpc : s.pc = .select)
      (he : e' = .countRequests ∧ e = .countRequests ∨
        (∃ now visits, e' = .timeout now visits ∧ e = .timeout now visits) ∨
        (∃ order, e' = .ret order ∧ e = .ret order) ∨
        (∃ path now, e' = .forwardRequest path now false ∧ e = .forwardRequest path now false) ∨
        ∃ m now, e' = .recv m now ∧ e = .recv m now ∧ ∀ c, m.data = some (.contentChunk c) →
          core.fault ≠ none)
      (h : Steps cfg s.core e' core) : SysSteps s e { s with core }
  | start {path : String} {now : Time} {core : St} (hpc : s.pc = .select)
      (h : Steps cfg s.core (.forwardRequest path now true) core)
      (hc : core.created = s.core.created + 1) :
      SysSteps s (.forwardRequest path now true)
        ({ s with core }.setHandler s.core.created .start)
  | begin {m : ClientMessage} {chunk : ContentChunk} {now : Time} {core : St} {w : PendingWrite}
      (hpc : s.pc = .select) (hm : m.data = some (.contentChunk chunk))
      (hp : s.core.phase = .loop)
      (h : Begins cfg.chunkSize.toNat s.core chunk now (.inr (core, w)))
      (hr : beginChunk cfg s.core chunk now = .ok (.inr (core, w))) :
      SysSteps s (.recv m now) { s with core, pc := .sending w }
  | finish {w : PendingWrite} {core : St} (hpc : s.pc = .sending w) (h : Finishes s.core w core)
      (hroom : (s.core.objs w.ptr).isClosed = true ∨ (s.core.objs w.ptr).chunksFull = false)
      (hl : (s.core.objs w.ptr).isClosed = false → w.last = false) : SysSteps s .write (s.atTop core)
  | last {w : PendingWrite} (hpc : s.pc = .sending w)
      (hc : (s.core.objs w.ptr).isClosed = false)
      (hroom : (s.core.objs w.ptr).chunksFull = false) (hl : w.last = true) :
      SysSteps s .write
        { s with core := s.core.put w.ptr ((s.core.objs w.ptr).written w.data),
                 pc := .completing w.ptr }
  | complete {p : Ptr} (hpc : s.pc = .completing p) :
      SysSteps s .complete
        { s with core := s.core.put p (s.core.objs p).markCompleted, pc := .draining p }
  | drain {p : Ptr} (hpc : s.pc = .draining p) :
      SysSteps s .drain (s.atTop (s.core.put p (s.core.objs p).drained))
  | disconnect : SysSteps s .disconnect { s with core := { s.core with done := true } }
  | discardStart {p : Ptr} {h : Handler} {message : String} {after : After}
      (hd : s.discarder = .idle) (hh : s.handlers p = some h)
      (hpc : h.pc = .closing .offerDiscard message after) :
      SysSteps s (.discardStart p) ({ s with discarder := .serving p }.setHandler p
        (h.closeAt .offerTrigger message after))
  | discardTake {p : Ptr} {rsp : Response} {o : Option Bytes} {c : Chan Bytes}
      (hd : s.discarder = .serving p) (hr : (s.core.objs p).response = some rsp)
      (h : rsp.chunks.recv = some (o, c)) : SysSteps s .discardTake
        (s.putObj p { s.core.objs p with response := some { rsp with chunks := c } })
  | discardStop {p : Ptr} (hd : s.discarder = .serving p)
      (hc : (s.core.objs p).isClosed = true) :
      SysSteps s .discardStop { s with discarder := .idle }
  | discardExit (hd : s.discarder = .idle) (hdone : s.core.done = true) :
      SysSteps s .discardExit { s with discarder := .exited }
  | serves {p : Ptr} {h h' : Handler} {e : ServeEvent} (hh : s.handlers p = some h)
      (hs : Serves s p h e h') : SysSteps s (.serve p e) (s.setHandler p h')
  | takeResponse {p : Ptr} {h : Handler} {o : Option (Option ContentHeader)}
      {c : Chan (Option ContentHeader)} (hh : s.handlers p = some h) (hpc : h.pc = .waiting)
      (hr : (s.core.objs p).pendingResponse.recv = some (o, c)) :
      SysSteps s (.serve p .takeResponse)
        ((s.putObj p { s.core.objs p with pendingResponse := c }).setHandler p (h.received o))
  | takeChunk {p : Ptr} {h : Handler} {rsp : Response} {chunk : Bytes} {c : Chan Bytes}
      (hh : s.handlers p = some h) (hpc : h.pc = .forwarding)
      (hr : (s.core.objs p).response = some rsp) (hc : rsp.chunks.recv = some (some chunk, c)) :
      SysSteps s (.serve p .takeChunk)
        ((s.putObj p { s.core.objs p with response := some { rsp with chunks := c } }).setHandler p
          { h with pc := .writing chunk })
  | closeTrigger {p : Ptr} {h : Handler} {message : String} {after : After} {now : Time}
      {sendOk : Bool} {core : St} (hh : s.handlers p = some h)
      (hpc : h.pc = .closing .offerTrigger message after) (hs : s.pc = .select)
      (hst : Steps cfg s.core (.triggerClose p message now sendOk) core) :
      SysSteps s (.serve p (.closeTrigger now sendOk))
        ({ s with core }.setHandler p (h.closeReturned after))
  | successTrigger {p : Ptr} {h : Handler} {sendOk : Bool} {core : St} {err : Option ApiError}
      (hh : s.handlers p = some h) (hc : h.success = some .offerTrigger) (hs : s.pc = .select)
      (hst : Steps cfg s.core (.triggerSuccess p sendOk) core) :
      SysSteps s (.serve p (.successTrigger sendOk))
        ({ s with core }.setHandler p (h.succeedAt (.returned err)))

/-! ## Inversion -/

variable {cfg} {s s' : Sys}

/-- A step of the loop at its select, in the machine of the loop. -/
theorem loopStep_spec (hL : LoopInv cfg s.pc s.core) (hpc : s.pc = .select) {e : Event}
    {c : Except Panic Sys} (hs : (step cfg s.core e).map (fun c => c.map fun core => { s with core })
      = some c) :
    (∃ core, c = .ok { s with core } ∧ Steps cfg s.core e core) ∨
    (c = .error .unknownClientMessageType ∧ ∃ m now, e = .recv m now ∧ m.data = none) := by
  rw [hpc] at hL
  obtain ⟨c', hc', rfl⟩ := Option.map_eq_some_iff.mp hs
  rcases step_spec hL hc' with ⟨core, rfl, hst⟩ | ⟨rfl, h⟩
  · exact .inl ⟨core, rfl, hst⟩
  · exact .inr ⟨rfl, h⟩

theorem recvStep_spec (hL : LoopInv cfg s.pc s.core) (hpc : s.pc = .select) {m : ClientMessage}
    {now : Time} {c : Except Panic Sys} (hs : recvStep cfg s m now = some c) :
    (∃ s', c = .ok s' ∧ SysSteps cfg s (.recv m now) s') ∨
    (c = .error .unknownClientMessageType ∧ m.data = none) := by
  have hI : Inv cfg s.core := by rw [hpc] at hL; exact hL
  by_cases hm : ∃ chunk, m.data = some (.contentChunk chunk)
  · obtain ⟨chunk, hm⟩ := hm
    simp only [recvStep, hm] at hs
    split_ifs at hs with hp
    obtain ⟨x, hx, hb⟩ := beginChunk_spec cfg hI.core (hI.fault_none hp) chunk now
    rw [hx] at hs
    cases x with
    | inr y =>
      obtain ⟨core, w⟩ := y
      cases hs
      exact .inl ⟨_, rfl, .begin hpc hm hp hb hx⟩
    | inl core =>
      cases hs
      -- the rejected chunk is a step of the machine of the loop
      have hd : dispatch cfg s.core m now = .ok core := by
        simp only [dispatch, hm, onContentChunk, hx]
        rfl
      have hst : Steps cfg s.core (.recv m now) core.top := .recv hp hm hd (.chunkReject hb)
      have hfault : core.top.fault ≠ none := by
        rw [St.top_fault]
        cases hb <;> exact fun h => by cases h
      refine .inl ⟨_, rfl, ?_⟩
      have heq : s.atTop core = { s with core := core.top } := by
        unfold Sys.atTop; rw [← hpc]
      rw [heq]
      exact .loop hpc (.inr (.inr (.inr (.inr ⟨m, now, rfl, rfl, fun _ _ => hfault⟩)))) hst
  · have hs' : (step cfg s.core (.recv m now)).map
        (fun c => c.map fun core => { s with core }) = some c := by
      unfold recvStep at hs
      split at hs
      · rename_i chunk hm'
        exact absurd ⟨chunk, hm'⟩ hm
      · exact hs
    rcases loopStep_spec hL hpc hs' with ⟨core, rfl, hst⟩ | ⟨rfl, m', now', e, h⟩
    · exact .inl ⟨_, rfl, .loop hpc (.inr (.inr (.inr (.inr ⟨m, now, rfl, rfl,
        fun chunk h => absurd ⟨chunk, h⟩ hm⟩)))) hst⟩
    · cases e
      exact .inr ⟨rfl, h⟩

theorem writeStep_spec {w : PendingWrite} (hL : LoopInv cfg s.pc s.core) (hpc : s.pc = .sending w)
    {c : Except Panic Sys} (hs : writeStep s w = some c) :
    ∃ s', c = .ok s' ∧ SysSteps cfg s .write s' := by
  rw [hpc] at hL
  obtain ⟨hcore, hp⟩ := hL
  obtain ⟨hf, hpres, hd, hr⟩ := hcore.writing w rfl
  obtain ⟨rsp, hr⟩ := Option.isSome_iff_exists.mp hr
  have hch : rsp.chunks.closed = false := by
    rw [((hcore.obj _ (hcore.lt_created hpres)).response rsp hr).chunksClosed, hd]
  unfold writeStep at hs
  cases hc : (s.core.objs w.ptr).isClosed with
  | true =>
    rw [if_pos hc] at hs
    obtain ⟨core, h1, h2⟩ := finishChunk_spec hcore
    rw [h1] at hs
    cases hs
    exact ⟨_, rfl, .finish hpc h2 (.inl hc) fun h => by rw [hc] at h; cases h⟩
  | false =>
    rw [if_neg (by rw [hc]; decide)] at hs
    cases hroom : (s.core.objs w.ptr).chunksFull with
    | true => rw [if_pos hroom] at hs; cases hs
    | false =>
      rw [if_neg (by rw [hroom]; decide), Request.write_open hr hc hch] at hs
      cases hs
      cases hl : w.last with
      | false =>
        refine ⟨_, rfl, ?_⟩
        simp only [Bool.false_eq_true, if_false]
        exact .finish hpc (.forward hc hl) (.inr hroom) fun _ => hl
      | true =>
        refine ⟨_, rfl, ?_⟩
        simp only [if_true]
        exact .last hpc hc hroom hl

theorem completeStep_spec {p : Ptr} (hL : LoopInv cfg s.pc s.core) (hpc : s.pc = .completing p) :
    ∃ s', completeStep s p = .ok s' ∧ SysSteps cfg s .complete s' := by
  rw [hpc] at hL
  obtain ⟨hcl, -⟩ := hL
  refine ⟨_, ?_, .complete hpc⟩
  unfold completeStep
  simp only [hcl.isCompleted, hcl.isClosed, Bool.false_eq_true, if_false,
    Request.complete_open hcl.isClosed hcl.isCompleted]
  rfl

theorem drainStep_spec {p : Ptr} (hL : LoopInv cfg s.pc s.core) (hpc : s.pc = .draining p) :
    ∃ s', ((s.core.objs p).done.map fun request => s.atTop (s.core.put p request)) = .ok s' ∧
      SysSteps cfg s .drain s' := by
  rw [hpc] at hL
  obtain ⟨hcl, -⟩ := hL
  obtain ⟨rsp, hr, hch⟩ := hcl.chunks
  refine ⟨_, ?_, .drain hpc⟩
  rw [Request.done_open hr hcl.isClosed hch]
  rfl

/-- A step of a call of `Close`. -/
theorem closeStep_spec {p : Ptr} {h : Handler} {c : Except Panic Sys}
    (hs : serveStep cfg s p h .closeStep = some c) : ∃ call message after next,
      h.pc = .closing call message after ∧ CloseStep s p call next ∧
        c = .ok (s.setHandler p (h.closeNext message after next)) := by
  simp only [serveStep] at hs
  split at hs
  · rename_i message after hpc
    cases hc : (s.core.objs p).isClosed with
    | true => exact ⟨_, _, _, none, hpc, .closed hc, by rw [hc] at hs; cases hs; rfl⟩
    | false => exact ⟨_, _, _, some _, hpc, .notClosed hc, by rw [hc] at hs; cases hs; rfl⟩
  · rename_i message after hpc
    cases hc : s.core.done with
    | true => exact ⟨_, _, _, none, hpc, .done hc, by rw [hc] at hs; cases hs; rfl⟩
    | false => exact ⟨_, _, _, some _, hpc, .notDone hc, by rw [hc] at hs; cases hs; rfl⟩
  · rename_i message after hpc
    cases hc : (s.core.objs p).isCompleted with
    | true => exact ⟨_, _, _, none, hpc, .completed hc, by rw [hc] at hs; cases hs; rfl⟩
    | false => exact ⟨_, _, _, some _, hpc, .notCompleted hc, by rw [hc] at hs; cases hs; rfl⟩
  · rename_i message after hpc
    cases hc : (s.core.objs p).hasResponse with
    | true => exact ⟨_, _, _, some _, hpc, .response hc, by rw [hc] at hs; cases hs; rfl⟩
    | false =>
      have hnone : (s.core.objs p).response = none := by simpa [Request.hasResponse] using hc
      exact ⟨_, _, _, some _, hpc, .noResponse hnone, by rw [hc] at hs; cases hs; rfl⟩
  · cases hs

/-- A step of a handler that is not blocked. -/
theorem serveStep_spec (hL : LoopInv cfg s.pc s.core) {p : Ptr} {h : Handler}
    (hh : s.handlers p = some h) {e : ServeEvent} {c : Except Panic Sys}
    (hs : serveStep cfg s p h e = some c) : ∃ s', c = .ok s' ∧ SysSteps cfg s (.serve p e) s' := by
  cases e with
  | takeResponse =>
    simp only [serveStep] at hs
    split at hs
    · rename_i o ch hpc hr
      rcases o with _ | (_ | header) <;> cases hs <;>
        exact ⟨_, rfl, .takeResponse hh hpc hr⟩
    · cases hs
  | seesClosed =>
    simp only [serveStep] at hs
    split_ifs at hs with hc
    split at hs
    · rename_i hpc
      cases hs
      exact ⟨_, rfl, .serves hh (.timedOut hpc hc)⟩
    · rename_i hpc
      cases hs
      exact ⟨_, rfl, .serves hh (.cut hpc hc)⟩
    · cases hs
  | checkAccept a =>
    simp only [serveStep] at hs
    split at hs
    · rename_i header hpc
      cases a with
      | invalidType =>
        cases hs
        exact ⟨_, rfl, .serves hh (.refused hpc _ _ _ (by decide))⟩
      | notAcceptable =>
        cases hs
        exact ⟨_, rfl, .serves hh (.refused hpc _ _ _ (by decide))⟩
      | acceptable =>
        cases hs
        exact ⟨_, rfl, .serves hh (.accepted hpc)⟩
    · cases hs
  | takeChunk =>
    simp only [serveStep] at hs
    split at hs
    · rename_i rsp hpc hr
      split at hs
      · cases hs
      · rename_i chunk ch hrecv
        cases hs
        exact ⟨_, rfl, .takeChunk hh hpc hr hrecv⟩
      · rename_i ch hrecv
        rcases Chan.recv_cases hrecv with ⟨_, _, _, h1, _⟩ | ⟨hb, hc, -, -⟩
        · cases h1
        · split_ifs at hs with hne
          · cases hs
            exact ⟨_, rfl, .serves hh (.mismatch hpc hr hb hc hne _)⟩
          · cases hs
            exact ⟨_, rfl, .serves hh (.forwarded hpc hr hb hc (not_not.mp hne))⟩
    · cases hs
  | wrote =>
    simp only [serveStep] at hs
    split at hs
    · rename_i chunk hpc
      cases hs
      exact ⟨_, rfl, .serves hh (.wrote hpc)⟩
    · cases hs
  | writeFails n =>
    simp only [serveStep] at hs
    split at hs
    · rename_i chunk hpc
      split_ifs at hs
      cases hs
      exact ⟨_, rfl, .serves hh (.writeFails hpc n _)⟩
    · cases hs
  | closeStep =>
    obtain ⟨call, message, after, next, hpc, hn, rfl⟩ := closeStep_spec hs
    exact ⟨_, rfl, .serves hh (.close hpc hn (.inl rfl))⟩
  | closeSees signal =>
    simp only [serveStep] at hs
    split_ifs at hs with hsig
    split at hs
    · rename_i message after hpc
      cases hs
      exact ⟨_, rfl, .serves hh (.close hpc (.discardSees signal hsig) (.inr ⟨signal, rfl⟩))⟩
    · rename_i message after hpc
      cases hs
      exact ⟨_, rfl, .serves hh (.close hpc (.triggerSees signal hsig) (.inr ⟨signal, rfl⟩))⟩
    · cases hs
  | closeTrigger now sendOk =>
    simp only [serveStep] at hs
    split at hs
    · rename_i message after hpc hsel
      obtain ⟨c', hc', rfl⟩ := Option.map_eq_some_iff.mp hs
      rw [hsel] at hL
      rcases step_spec hL hc' with ⟨core, rfl, hst⟩ | ⟨rfl, m, now', e, -⟩
      · exact ⟨_, rfl, .closeTrigger hh hpc hsel hst⟩
      · cases e
    · cases hs
  | successStep =>
    simp only [serveStep] at hs
    split at hs
    · rename_i hsucc
      cases hs
      exact ⟨_, rfl, .serves hh (.success hsucc (.inl rfl))⟩
    · rename_i hsucc
      cases hs
      exact ⟨_, rfl, .serves hh (.success hsucc (.inl rfl))⟩
    · cases hs
  | successSees signal =>
    simp only [serveStep] at hs
    split at hs
    · rename_i hsucc
      split_ifs at hs
      cases hs
      exact ⟨_, rfl, .serves hh (.success hsucc (.inr ⟨_, rfl⟩))⟩
    · rename_i hsucc
      split_ifs at hs
      cases hs
      exact ⟨_, rfl, .serves hh (.success hsucc (.inr ⟨_, rfl⟩))⟩
    · cases hs
  | successTrigger sendOk =>
    simp only [serveStep] at hs
    split at hs
    · rename_i hsucc hsel
      obtain ⟨c', hc', rfl⟩ := Option.map_eq_some_iff.mp hs
      rw [hsel] at hL
      rcases step_spec hL hc' with ⟨core, rfl, hst⟩ | ⟨rfl, m, now', e, -⟩
      · exact ⟨_, rfl, .successTrigger hh hsucc hsel hst⟩
      · cases e
    · cases hs

/-- **Inversion of a step of a goroutine.** -/
theorem sysStep_spec (hL : LoopInv cfg s.pc s.core) {e : SysEvent} {c : Except Panic Sys}
    (hs : sysStep cfg s e = some c) : (∃ s', c = .ok s' ∧ SysSteps cfg s e s') ∨
      (c = .error .unknownClientMessageType ∧ ∃ m now, e = .recv m now ∧ m.data = none) := by
  -- an event of the loop that is not a message
  have hloop : ∀ {e' : Event}, loopStep cfg s e' = some c → (∀ m now, e' ≠ .recv m now) →
      (∀ {core}, s.pc = .select → Steps cfg s.core e' core → SysSteps cfg s e { s with core }) →
      ∃ s', c = .ok s' ∧ SysSteps cfg s e s' := by
    intro e' he' hne hst
    unfold loopStep at he'
    split_ifs at he' with hpc
    rcases loopStep_spec hL hpc he' with ⟨core, rfl, h⟩ | ⟨-, m, now, e, -⟩
    · exact ⟨_, rfl, hst hpc h⟩
    · exact absurd e (hne m now)
  cases e with
  | recv m now =>
    simp only [sysStep] at hs
    split_ifs at hs with hpc
    rcases recvStep_spec hL hpc hs with h | ⟨h1, h2⟩
    · exact .inl h
    · exact .inr ⟨h1, m, now, rfl, h2⟩
  | write =>
    simp only [sysStep] at hs
    split at hs
    · rename_i w hpc
      exact .inl (writeStep_spec hL hpc hs)
    · cases hs
  | complete =>
    simp only [sysStep] at hs
    split at hs
    · rename_i p hpc
      cases hs
      exact .inl (completeStep_spec hL hpc)
    · cases hs
  | drain =>
    simp only [sysStep] at hs
    split at hs
    · rename_i p hpc
      cases hs
      exact .inl (drainStep_spec hL hpc)
    · cases hs
  | forwardRequest path now sendOk =>
    left
    simp only [sysStep] at hs
    split_ifs at hs with hpc
    obtain ⟨hsel, hp⟩ := hpc
    obtain ⟨x, hx, hc⟩ := Option.map_eq_some_iff.mp hs
    obtain ⟨id, hid, rfl⟩ := Option.map_eq_some_iff.mp hx
    have hst : Steps cfg s.core (.forwardRequest path now sendOk)
        ((s.core.allocate id path now).sendMessage (.request id path) sendOk).1.top :=
      .forward hp hid
    cases sendOk with
    | true =>
      cases hc
      exact ⟨_, rfl, .start hsel hst (by rw [St.top_created]; rfl)⟩
    | false =>
      cases hc
      exact ⟨_, rfl, .loop hsel (.inr (.inr (.inr (.inl ⟨path, now, rfl, rfl⟩)))) hst⟩
  | countRequests =>
    exact .inl (hloop hs (fun _ _ h => by cases h) fun hpc h => .loop hpc (.inl ⟨rfl, rfl⟩) h)
  | timeout now visits =>
    exact .inl (hloop hs (fun _ _ h => by cases h) fun hpc h =>
      .loop hpc (.inr (.inl ⟨now, visits, rfl, rfl⟩)) h)
  | ret order =>
    exact .inl (hloop hs (fun _ _ h => by cases h) fun hpc h =>
      .loop hpc (.inr (.inr (.inl ⟨order, rfl, rfl⟩))) h)
  | disconnect =>
    cases hs
    exact .inl ⟨_, rfl, .disconnect⟩
  | discardStart p =>
    left
    simp only [sysStep] at hs
    split at hs
    · rename_i h hd hh
      split at hs
      · rename_i message after hpc
        cases hs
        exact ⟨_, rfl, .discardStart hd hh hpc⟩
      · cases hs
    · cases hs
  | discardTake =>
    left
    simp only [sysStep] at hs
    split at hs
    · rename_i p hd
      cases hr : (s.core.objs p).response with
      | none => rw [hr] at hs; cases hs
      | some rsp =>
        rw [hr] at hs
        obtain ⟨⟨o, ch⟩, hrecv, rfl⟩ := Option.map_eq_some_iff.mp hs
        exact ⟨_, rfl, .discardTake hd hr hrecv⟩
    · cases hs
  | discardStop =>
    left
    simp only [sysStep] at hs
    split at hs
    · rename_i p hd
      split_ifs at hs with hc
      cases hs
      exact ⟨_, rfl, .discardStop hd hc⟩
    · cases hs
  | discardExit =>
    left
    simp only [sysStep] at hs
    split_ifs at hs with hd
    cases hs
    exact ⟨_, rfl, .discardExit hd.1 hd.2⟩
  | serve p e =>
    left
    simp only [sysStep] at hs
    cases hh : s.handlers p with
    | none => rw [hh] at hs; cases hs
    | some h =>
      rw [hh] at hs
      exact serveStep_spec hL hh hs

end Loop

/-! ## The loop keeps its invariant -/

section LoopSteps

variable {ext : Externals} {cfg : Config ext}

theorem St.put_comm (s : St) {p q : Ptr} (h : p ≠ q) (r r' : Request) :
    (s.put p r).put q r' = (s.put q r').put p r := by
  simp only [St.put]
  rw [Function.update_comm h]

/-- A receive on `q` and what the loop is about to do to `p` may be exchanged. -/
theorem St.put_exchange (s : St) (p q : Ptr) {f g : Request → Request}
    (hfg : ∀ r, g (f r) = f (g r)) :
    (s.put q (f (s.objs q))).put p (g ((s.put q (f (s.objs q))).objs p)) =
      (s.put p (g (s.objs p))).put q (f ((s.put p (g (s.objs p))).objs q)) := by
  by_cases h : q = p
  · subst h
    simp only [St.put_objs_self, St.put_put, hfg]
  · rw [St.put_objs_ne _ _ (Ne.symm h), St.put_objs_ne _ _ h, St.put_comm _ h]

theorem Core.receive {C : ℕ} {w : Option PendingWrite} {s : St} (h : Core C w s) {q : Ptr}
    {r : Request} (hr : (s.objs q).Receives r) : Core C w (s.put q r) := by
  have hpres := fun p => St.present_put hr.sameId (s := s) (p := q) p
  refine h.update q (fun _ _ h' => h') (fun p _ => hpres p) rfl
    (fun _ hp => St.put_objs_ne _ _ hp) (by rw [St.put_objs_self, hr.sameId]) id (fun _ _ => rfl)
    (fun hlt => ?_) (fun x hx => ?_)
  · rw [St.put_objs_self, propext (hpres q)]
    exact hr.objInv (h.obj q hlt)
  · obtain ⟨h1, h2, h3, h4⟩ := h.writing x hx
    refine ⟨h1, (hpres _).mpr h2, ?_⟩
    by_cases hq : x.ptr = q
    · rw [hq, St.put_objs_self]
      rw [hq] at h3 h4
      refine ⟨?_, ?_⟩
      · unfold Request.isCompleted at h3 ⊢; rw [hr.completed]; exact h3
      · rcases hr.response with ⟨e1, -⟩ | ⟨rsp, c, -, e2, -, -⟩
        · rw [e1] at h4; cases h4
        · rw [e2]; rfl
    · rw [St.put_objs_ne _ _ hq]
      exact ⟨h3, h4⟩

theorem Closable.receive {s : St} {p q : Ptr} {b : Bool} {r : Request} (h : Closable s p b)
    (hr : (s.objs q).Receives r) : Closable (s.put q r) p b := by
  have hpres := (St.present_put hr.sameId p).mpr h.present
  by_cases hq : p = q
  · subst hq
    obtain ⟨rsp, h1, h2⟩ := h.chunks
    refine ⟨h.phase, h.fault, hpres, ?_, ?_, ?_⟩
    · rw [St.put_objs_self, ← h.isCompleted]; unfold Request.isCompleted; rw [hr.completed]
    · rw [St.put_objs_self, ← h.isClosed]; unfold Request.isClosed; rw [hr.closed]
    · rw [St.put_objs_self]
      rcases hr.response with ⟨e1, -⟩ | ⟨rsp', c, e1, e2, -, e4, -⟩
      · rw [h1] at e1; cases e1
      · rw [h1] at e1
        cases e1
        exact ⟨_, e2, e4.trans h2⟩
  · refine ⟨h.phase, h.fault, hpres, ?_, ?_, ?_⟩ <;> rw [St.put_objs_ne _ _ hq]
    · exact h.isCompleted
    · exact h.isClosed
    · exact h.chunks

/-- A receive by a handler or the discarder, while the loop is anywhere. -/
theorem LoopInv.receive {pc : LoopPc} {s : St} (h : LoopInv cfg pc s) (q : Ptr)
    {f : Request → Request} (hf : ∀ r, Request.Receives r (f r))
    (hcomp : ∀ r, (f r).markCompleted.drained = f r.markCompleted.drained)
    (hdrain : ∀ r, (f r).drained = f r.drained) : LoopInv cfg pc (s.put q (f (s.objs q))) := by
  cases pc with
  | select => exact ⟨Core.receive h.core (hf _), h.fault, h.returned⟩
  | sending w => exact ⟨h.1.receive (hf _), h.2⟩
  | completing p =>
    refine ⟨h.1.receive (hf _), ?_⟩
    rw [St.put_exchange s p q (g := fun r => r.markCompleted.drained) hcomp]
    exact h.2.receive (hf _)
  | draining p =>
    refine ⟨h.1.receive (hf _), ?_⟩
    rw [St.put_exchange s p q (g := Request.drained) hdrain]
    exact h.2.receive (hf _)

theorem LoopInv.popResponse {pc : LoopPc} {s : St} (h : LoopInv cfg pc s) (q : Ptr) :
    LoopInv cfg pc (s.put q (s.objs q).popResponse) :=
  h.receive q Request.receives_popResponse (fun _ => rfl) (fun _ => rfl)

theorem LoopInv.popChunk {pc : LoopPc} {s : St} (h : LoopInv cfg pc s) (q : Ptr) :
    LoopInv cfg pc (s.put q (s.objs q).popChunk) := by
  refine h.receive q Request.receives_popChunk (fun r => ?_) (fun r => ?_)
  · cases hr : r.response <;> simp [Request.popChunk, Request.drained, Request.markCompleted, hr,
      Chan.pop]
  · cases hr : r.response <;> simp [Request.popChunk, Request.drained, hr, Chan.pop]

theorem LoopInv.setDone {pc : LoopPc} {s : St} (h : LoopInv cfg pc s) :
    LoopInv cfg pc { s with done := true } := by
  cases pc with
  | select => exact Steps.inv h .done
  | sending w => exact ⟨h.1.congr rfl rfl rfl rfl, h.2⟩
  | completing p =>
    exact ⟨⟨h.1.phase, h.1.fault, h.1.present, h.1.isCompleted, h.1.isClosed, h.1.chunks⟩,
      h.2.congr rfl rfl rfl rfl⟩
  | draining p =>
    exact ⟨⟨h.1.phase, h.1.fault, h.1.present, h.1.isCompleted, h.1.isClosed, h.1.chunks⟩,
      h.2.congr rfl rfl rfl rfl⟩

/-- **Every step keeps the invariant of the loop.** -/
theorem SysSteps.loopInv {s s' : Sys} {e : SysEvent} (h : LoopInv cfg s.pc s.core)
    (hs : SysSteps cfg s e s') : LoopInv cfg s'.pc s'.core := by
  cases hs with
  | loop hpc _ hst =>
    rw [hpc] at h
    change LoopInv cfg s.pc _
    rw [hpc]
    exact hst.inv h
  | start hpc hst | closeTrigger _ _ hpc hst | successTrigger _ _ hpc hst =>
    rw [hpc] at h
    change LoopInv cfg s.pc _
    rw [hpc]
    exact hst.inv h
  | begin hpc _ hp hb =>
    rw [hpc] at h
    exact ⟨hb.core cfg.chunkSize_pos h.core (h.fault_none hp), hb.frame.phase.trans hp⟩
  | @finish w core hpc hf =>
    rw [hpc] at h
    obtain ⟨hn, -⟩ := h.1.writing w rfl
    refine Inv.top (hf.core h.1) (hf.frame.phase.trans h.2) fun hs => ?_
    rcases hf.frame.fault with e | e
    · rw [e, hn] at hs; cases hs
    · exact e.2
  | @last w hpc hc _ hl =>
    rw [hpc] at h
    obtain ⟨hn, hp, hd, hr⟩ := h.1.writing w rfl
    obtain ⟨rsp, hr⟩ := Option.isSome_iff_exists.mp hr
    have hch : rsp.chunks.closed = false := by
      rw [((h.1.obj _ (h.1.lt_created hp)).response rsp hr).chunksClosed, hd]
    have hid : ((s.core.objs w.ptr).written w.data).id = (s.core.objs w.ptr).id := rfl
    refine ⟨⟨h.2, hn, (St.present_put hid _).mpr hp, ?_, ?_, ?_⟩, ?_⟩
    · rw [St.put_objs_self]; exact hd
    · rw [St.put_objs_self]; exact hc
    · rw [St.put_objs_self]
      have hr' : ((s.core.objs w.ptr).written w.data).response = some { rsp with chunks :=
          { rsp.chunks with buffer := rsp.chunks.buffer ++ [w.data] } } := by
        simp [Request.written, hr]
      exact ⟨_, hr', hch⟩
    · rw [St.put_objs_self, St.put_put]
      exact (Finishes.complete hc hl).core h.1
  | @complete p hpc =>
    rw [hpc] at h
    obtain ⟨hcl, hcore⟩ := h
    have hid : (s.core.objs p).markCompleted.id = (s.core.objs p).id := rfl
    refine ⟨⟨hcl.phase, hcl.fault, (St.present_put hid p).mpr hcl.present, ?_, ?_, ?_⟩, ?_⟩
    · rw [St.put_objs_self]; rfl
    · rw [St.put_objs_self]; exact hcl.isClosed
    · rw [St.put_objs_self]; exact hcl.chunks
    · rw [St.put_objs_self, St.put_put]; exact hcore
  | @drain p hpc =>
    rw [hpc] at h
    obtain ⟨hcl, hcore⟩ := h
    refine Inv.top hcore hcl.phase fun hs => ?_
    change s.core.fault.isSome at hs
    rw [hcl.fault] at hs; cases hs
  | disconnect => exact h.setDone
  | discardStart | discardStop | discardExit | serves => exact h
  | discardTake _ hr hc =>
    rw [Request.tookChunk_eq hr hc]
    exact h.popChunk _
  | takeResponse _ _ hr =>
    rw [Request.tookResponse_eq hr]
    exact h.popResponse _
  | takeChunk _ _ hr hc =>
    rw [Request.tookChunk_eq hr hc]
    exact h.popChunk _

/-! ## What the other goroutines see -/

/-- The part of the invariant of a request that holds at every position of the loop. -/
structure Visible (C : ℕ) (present : Prop) (r : Request) : Prop where
  excl : r.isCompleted = true → r.isClosed = false
  settled : present ∨ r.isCompleted = true ∨ r.isClosed = true
  answer : ∀ h ∈ r.pendingResponse.sent, r.header = h ∧ (h = none → r.isCompleted = true)
  pending : r.pendingResponse.closed = true → r.pendingResponse.sent ≠ []
  whole : ∀ rsp, r.response = some rsp → rsp.chunks.closed = true →
    r.isCompleted = true ∧ IsChunking C rsp.size rsp.chunks.sent
  bound : ∀ rsp, r.response = some rsp → rsp.chunks.sent.flatten.length ≤ rsp.size
  cut : r.isClosed = true → ∀ rsp, r.response = some rsp →
    rsp.chunks.sent.flatten.length < rsp.size

theorem ResponseInv.length_le {C : ℕ} {live present : Prop} {w : Option PendingWrite} {r : Request}
    {rsp : Response} (h : ResponseInv C live present w r rsp) :
    rsp.chunks.sent.flatten.length ≤ rsp.size := by
  cases hd : r.isCompleted with
  | true => exact (h.whole hd).length_flatten.le
  | false => exact (h.front hd).length_flatten_lt.le

theorem ObjInv.visible {C : ℕ} {live present : Prop} {w : Option PendingWrite} {r : Request}
    (h : ObjInv C live present w r) : Visible C present r where
  excl := h.excl
  settled := h.settled
  answer := h.answer
  pending hc := by
    rcases h.pending with ⟨-, h2⟩ | ⟨x, h1, -⟩
    · rw [h2] at hc; cases hc
    · rw [h1]; simp
  whole rsp hr hc := by
    have hrsp := h.response rsp hr
    rw [hrsp.chunksClosed] at hc
    exact ⟨hc, hrsp.whole hc⟩
  bound rsp hr := (h.response rsp hr).length_le
  cut hc rsp hr := by
    refine ((h.response rsp hr).front ?_).length_flatten_lt
    cases hd : r.isCompleted with
    | false => rfl
    | true => rw [h.excl hd] at hc; cases hc

/-- The request `p` that the loop is completing, against what it will be. -/
theorem Closable.visible {C : ℕ} {live present : Prop} {s : St} {p : Ptr} {b : Bool} {r : Request}
    (h : Closable s p b) (hI : ObjInv C live present none r)
    (hpend : r.pendingResponse = (s.objs p).pendingResponse)
    (hheader : r.header = (s.objs p).header) (hlog : r.chunkLog = (s.objs p).chunkLog) :
    Visible C (s.Present p) (s.objs p) := by
  obtain ⟨rsp, hr, hch⟩ := h.chunks
  have hhead : (s.objs p).header = some rsp.header := by simp [Request.header, hr]
  refine ⟨fun _ => h.isClosed, .inl h.present, fun x hx => ?_, ?_, fun rsp' hr' hc => ?_,
    fun rsp' hr' => ?_, fun hc => ?_⟩
  · have hx' := (hI.answer x (hpend ▸ hx)).1
    rw [hheader] at hx'
    refine ⟨hx', fun hn => ?_⟩
    rw [hhead, hn] at hx'; cases hx'
  · rw [← hpend]; exact hI.visible.pending
  · rw [hr] at hr'; cases hr'
    rw [hch] at hc; cases hc
  · rw [hr] at hr'; cases hr'
    rw [hhead] at hheader
    obtain ⟨rsp', hr', he⟩ := Option.map_eq_some_iff.mp hheader
    have hlen := hI.visible.bound rsp' hr'
    have hsent : rsp'.chunks.sent = rsp.chunks.sent := by
      simpa [Request.chunkLog, hr, hr'] using hlog
    rw [hsent] at hlen
    unfold Response.size at hlen ⊢
    rw [he] at hlen
    exact hlen
  · rw [h.isClosed] at hc; cases hc

/-- **Every request is visible with the same facts, wherever the loop is.** -/
theorem LoopInv.visible {pc : LoopPc} {s : St} (h : LoopInv cfg pc s) {q : Ptr}
    (hq : q < s.created) : Visible cfg.chunkSize.toNat (s.Present q) (s.objs q) := by
  -- the loop is about to store `r` at `p`, and nothing else changes
  have hput : ∀ {p : Ptr} {b : Bool} {r : Request}, Closable s p b →
      Core cfg.chunkSize.toNat none (s.put p r) → r.id = (s.objs p).id →
      r.pendingResponse = (s.objs p).pendingResponse → r.header = (s.objs p).header →
      r.chunkLog = (s.objs p).chunkLog →
      Visible cfg.chunkSize.toNat (s.Present q) (s.objs q) := by
    intro p b r hcl hcore hid h1 h2 h3
    have hobj := hcore.obj q hq
    by_cases hqp : q = p
    · subst hqp
      rw [St.put_objs_self, writeOn_none] at hobj
      exact hcl.visible hobj h1 h2 h3
    · rw [St.put_objs_ne _ _ hqp, propext (St.present_put hid q)] at hobj
      exact hobj.visible
  cases pc with
  | select => exact (Core.obj h.core q hq).visible
  | sending w => exact (h.1.obj q hq).visible
  | completing p =>
    exact hput h.1 h.2 rfl rfl (Request.header_finished _) Request.chunkLog_finished
  | draining p =>
    refine hput h.1 h.2 rfl rfl ?_ ?_
    · cases hr : (s.objs p).response <;> simp [Request.drained, Request.header, hr]
    · cases hr : (s.objs p).response <;> simp [Request.drained, Request.chunkLog, hr]

/-! ## Growth and receives -/

theorem Request.grows_markCompleted {r : Request} : r.Grows r.markCompleted :=
  ⟨rfl, fun h => h, fun _ => rfl, fun _ h => h, List.prefix_rfl, List.prefix_rfl, fun _ => rfl⟩

theorem Request.grows_drained {r : Request} : r.Grows r.drained := by
  have hlog : r.drained.chunkLog = r.chunkLog := by
    cases hr : r.response <;> simp [drained, chunkLog, hr]
  refine ⟨rfl, fun h => h, fun h => h, fun x hx => ?_, List.prefix_rfl, by rw [hlog], fun _ => hlog⟩
  cases hr : r.response <;> simp_all [drained, Request.header]

/-- Where the loop goes on with a chunk that it has accepted. -/
def SysEvent.Advances (pc : LoopPc) : SysEvent → Prop
  | .write => pc = .select ∨ ∃ p, pc = .completing p
  | .complete => ∃ p, pc = .draining p
  | .drain => pc = .select
  | _ => True

theorem SysSteps.advances {s s' : Sys} {e : SysEvent} (hs : SysSteps cfg s e s') :
    e.Advances s'.pc := by
  cases hs with
  | loop _ he =>
    rcases he with ⟨-, rfl⟩ | ⟨_, _, -, rfl⟩ | ⟨_, -, rfl⟩ | ⟨_, _, -, rfl⟩ | ⟨_, _, -, rfl, -⟩ <;>
      trivial
  | finish => exact .inl rfl
  | last => exact .inr ⟨_, rfl⟩
  | complete => exact ⟨_, rfl⟩
  | drain => rfl
  | _ => trivial

/-- **The heap only grows.** -/
theorem SysSteps.grows {s s' : Sys} {e : SysEvent} (h : LoopInv cfg s.pc s.core)
    (hs : SysSteps cfg s e s') : s.core.Grows s'.core := by
  cases hs with
  | loop hpc _ hst | start hpc hst | closeTrigger _ _ hpc hst | successTrigger _ _ hpc hst =>
    rw [hpc] at h
    exact hst.grows h
  | begin _ _ _ hb => exact hb.grows
  | finish hpc hf =>
    rw [hpc] at h
    exact (hf.grows h.1).trans St.grows_top
  | @last w hpc hc =>
    rw [hpc] at h
    obtain ⟨-, -, hd, hr⟩ := h.1.writing w rfl
    exact St.grows_put (Request.grows_written hr hc hd _)
  | complete => exact St.grows_put Request.grows_markCompleted
  | drain => exact (St.grows_put Request.grows_drained).trans St.grows_top
  | disconnect => exact St.grows_done
  | discardStart | discardStop | discardExit | serves => exact .refl _
  | discardTake _ hr hc =>
    rw [Request.tookChunk_eq hr hc]
    exact St.grows_put (Request.receives_popChunk _).grows
  | takeResponse _ _ hr =>
    rw [Request.tookResponse_eq hr]
    exact St.grows_put (Request.receives_popResponse _).grows
  | takeChunk _ _ hr hc =>
    rw [Request.tookChunk_eq hr hc]
    exact St.grows_put (Request.receives_popChunk _).grows

/-- Nothing was received from the channels of a request. -/
structure Request.Undrained (r r' : Request) : Prop where
  taken : r'.taken = r.taken
  pending : r'.pendingResponse.taken = r.pendingResponse.taken

theorem Request.Undrained.refl (r : Request) : r.Undrained r := ⟨rfl, rfl⟩

theorem Request.Undrained.trans {r r' r'' : Request} (h : r.Undrained r') (h' : r'.Undrained r'') :
    r.Undrained r'' := ⟨h'.taken.trans h.taken, h'.pending.trans h.pending⟩

theorem St.undrained_put {s : St} {p : Ptr} {r : Request} (h : (s.objs p).Undrained r) (q : Ptr) :
    (s.objs q).Undrained ((s.put p r).objs q) := St.put_rel Request.Undrained.refl h q

theorem Request.undrained_markCompleted (r : Request) : r.Undrained r.markCompleted := ⟨rfl, rfl⟩

theorem Request.undrained_shut (r : Request) : r.Undrained r.shut := by
  unfold Request.shut
  split_ifs <;> exact ⟨rfl, rfl⟩

theorem Request.undrained_written (r : Request) (data : Bytes) : r.Undrained (r.written data) := by
  cases hr : r.response <;> exact ⟨by simp [taken, written, hr], rfl⟩

theorem Request.undrained_drained (r : Request) : r.Undrained r.drained := by
  cases hr : r.response <;> exact ⟨by simp [taken, drained, hr], rfl⟩

theorem Request.undrained_advance (r : Request) : r.Undrained r.advance := by
  cases hr : r.response <;> exact ⟨by simp [taken, advance, hr], rfl⟩

theorem Request.undrained_resetTimeout (r : Request) (now : Time) :
    r.Undrained (r.resetTimeout now) := by
  unfold resetTimeout
  split_ifs <;> exact ⟨rfl, rfl⟩

theorem Request.undrained_answered {r : Request} (hr : r.response = none) (header : ContentHeader)
    (bufferSize : ℕ) (now : Time) : r.Undrained (r.answered header bufferSize now) := by
  unfold answered
  split_ifs <;> exact ⟨by simp [taken, filled, newResponse, Chan.make, hr], rfl⟩

theorem Begins.undrained {C : ℕ} {s : St} {m : ContentChunk} {now : Time}
    {x : St ⊕ St × PendingWrite} (h : Begins C s m now x) (q : Ptr) :
    x.elim (fun s' => (s.objs q).Undrained (s'.objs q))
      fun y => (s.objs q).Undrained (y.1.objs q) := by
  cases h with
  | unknown | misplaced => exact .refl _
  | reject => exact St.undrained_put (Request.undrained_advance _) q
  | accept =>
    exact St.undrained_put ((Request.undrained_advance _).trans (Request.undrained_resetTimeout _ now))
      q

theorem Finishes.undrained {s s' : St} {w : PendingWrite} (h : Finishes s w s') (q : Ptr) :
    (s.objs q).Undrained (s'.objs q) := by
  cases h with
  | discard | drop => exact .refl _
  | forward => exact St.undrained_put (Request.undrained_written _ _) q
  | complete =>
    refine St.undrained_put ?_ q
    exact (Request.undrained_written _ w.data).trans
      ((Request.undrained_markCompleted _).trans (Request.undrained_drained _))

theorem Handles.undrained {C bufferSize : ℕ} {s s' : St} {now : Time} {d : ClientData}
    (h : Handles C bufferSize s now d s') (q : Ptr) : (s.objs q).Undrained (s'.objs q) := by
  cases h with
  | @emptyOpen m p =>
    have h : (s.objs p).Undrained ((s.objs p).filled none).markCompleted := ⟨rfl, rfl⟩
    exact St.undrained_put h q
  | close => exact St.undrained_put (s := s) (Request.undrained_shut _) q
  | header _ hr => exact St.undrained_put (Request.undrained_answered hr _ _ _) q
  | chunkReject hb => exact hb.undrained q
  | chunk hb hf => exact (hb.undrained q).trans (hf.undrained q)
  | _ => exact .refl _

theorem Closes.undrained {s s' : St} {p : Ptr} {message : String} {now : Time}
    {err : Option ApiError} (h : Closes s p message now s' err) (q : Ptr) :
    (s.objs q).Undrained (s'.objs q) := by
  cases h with
  | deleted | already | completed | failed => exact .refl _
  | @closed x =>
    have h : (s.objs x).Undrained { s.objs x with lastUpdated := now }.markClosed := ⟨rfl, rfl⟩
    exact St.undrained_put (s := s.enqueue _) h q

theorem Sweeps.undrained {s s' : St} {timeout now : Time} {visits : List Visit}
    (h : Sweeps timeout now s visits s') (q : Ptr) : (s.objs q).Undrained (s'.objs q) := by
  induction h with
  | nil | fault => exact .refl _
  | skip _ _ ih => exact ih
  | delete _ _ _ _ _ ih => exact ih
  | close _ _ _ _ hr _ ih => exact (hr.undrained q).trans ih

/-- The loop receives nothing from the channels of the requests. -/
theorem Steps.undrained {s s' : St} {e : Event} (h : Steps cfg s e s') {q : Ptr}
    (hq : q < s.created) (he : ∀ p, e ≠ .takeResponse p ∧ e ≠ .takeChunk p) :
    (s.objs q).Undrained (s'.objs q) := by
  cases h with
  | recv _ _ _ hh => rw [St.top_objs]; exact hh.undrained q
  | @forward path now sendOk id =>
    have hobj : ((s.allocate id path now).sendMessage (.request id path) sendOk).1.top.objs q =
        s.objs q := by
      rw [St.top_objs]
      cases sendOk <;> exact St.put_objs_ne _ _ (Nat.ne_of_lt hq)
    rw [hobj]
    exact .refl _
  | success _ _ _ hh => rw [St.top_objs, hh.objs_eq]; exact .refl _
  | close _ _ _ hh => rw [St.top_objs]; exact hh.undrained q
  | count => rw [St.top_objs]; exact .refl _
  | timeout _ _ hh => rw [St.top_objs]; exact hh.undrained q
  | done => exact .refl _
  | ret _ _ _ hh =>
    rcases hh.objs q with e | e
    · rw [e]; exact .refl _
    · rw [e]; exact Request.undrained_shut _
  | takeResponse => exact absurd rfl (he _).1
  | takeChunk => exact absurd rfl (he _).2

/-- **Nobody receives from the channels of a request but its handler and the discarder.** -/
theorem SysSteps.undrained {s s' : Sys} {e : SysEvent} (hs : SysSteps cfg s e s') {q : Ptr}
    (hq : q < s.core.created) (h1 : ∀ e', e ≠ .serve q e')
    (h2 : s.discarder ≠ .serving q) : (s.core.objs q).Undrained (s'.core.objs q) := by
  cases hs with
  | loop hpc he hst =>
    refine hst.undrained hq fun p => ?_
    rcases he with ⟨rfl, -⟩ | ⟨_, _, rfl, -⟩ | ⟨_, rfl, -⟩ | ⟨_, _, rfl, -⟩ | ⟨_, _, rfl, -⟩ <;>
      exact ⟨nofun, nofun⟩
  | start _ hst => exact hst.undrained hq fun p => ⟨nofun, nofun⟩
  | closeTrigger _ _ _ hst => exact hst.undrained hq fun p => ⟨nofun, nofun⟩
  | successTrigger _ _ _ hst => exact hst.undrained hq fun p => ⟨nofun, nofun⟩
  | begin _ _ _ hb => exact hb.undrained q
  | finish _ hf =>
    change (s.core.objs q).Undrained (St.top _ |>.objs q)
    rw [St.top_objs]
    exact hf.undrained q
  | last => exact St.undrained_put (Request.undrained_written _ _) q
  | complete => exact St.undrained_put (Request.undrained_markCompleted _) q
  | drain =>
    change (s.core.objs q).Undrained (St.top _ |>.objs q)
    rw [St.top_objs]
    exact St.undrained_put (Request.undrained_drained _) q
  | disconnect | discardStart | discardStop | discardExit | serves => exact .refl _
  | @discardTake p _ _ _ hd =>
    have hne : q ≠ p := fun e => h2 (e ▸ hd)
    change (s.core.objs q).Undrained ((s.core.put p _).objs q)
    rw [St.put_objs_ne _ _ hne]
    exact .refl _
  | @takeResponse p | @takeChunk p =>
    have hne : q ≠ p := fun e => h1 _ (by rw [e])
    change (s.core.objs q).Undrained ((s.core.put p _).objs q)
    rw [St.put_objs_ne _ _ hne]
    exact .refl _

end LoopSteps

end Loon
