import Loon.Server.Interleaving

set_option autoImplicit false

/-!
# The invariant of the goroutines

`HandlerInv` says for every position of a `serve` handler what it has received, written and given to
the discarder, `SysInv` puts the handlers, the discarder and the loop together, and
**`sysInv_of_run`** is the invariant of whole runs of `system`.

What other goroutines do to a handler's request is small (`HandlerInv.mono`): the request grows,
nothing is received from its channels while the handler still reads them, and the discarder stays with
it until it is closed.
-/

namespace Loon

open Chunking

/-! ## Handlers -/

/-- The handler is in a call of `Close` or has returned. -/
def Handler.Left (h : Handler) : Prop :=
  h.pc = .finished ∨ ∃ call message after, h.pc = .closing call message after

theorem Handler.not_left {h : Handler} {pc : ServePc} (hpc : h.pc = pc) (h1 : pc ≠ .finished)
    (h2 : ∀ call message after, pc ≠ .closing call message after) : ¬ h.Left := by
  rintro (h' | ⟨call, message, after, h'⟩)
  · exact h1 (hpc ▸ h')
  · exact h2 _ _ _ (hpc ▸ h')

/-- The handler `h` of the request `r` has written what it received but `chunk`. -/
structure Forwards (r : Request) (h : Handler) (chunk : Bytes) : Prop where
  status : h.status = some .ok
  success : h.success = none
  header : r.header.isSome
  taken : r.taken.flatten = h.body ++ chunk
  written : h.written.toNat = h.body.length

/-- The handler `h` of the request `r` reached its call of `Success`. Its deferred call of `Close`
does not get past the test of `completed`. -/
structure Forwarded (C : ℕ) (r : Request) (h : Handler) : Prop where
  status : h.status = some .ok
  early : h.pc = .finished ∨ ∃ call message, h.pc = .closing call message .returns ∧
    (call = .checkClosed ∨ call = .checkDone ∨ call = .checkCompleted)
  completed : r.isCompleted = true
  whole : ∃ header, r.header = some header ∧ h.body = r.chunkLog.flatten ∧
    IsChunking C header.contentSize.toNat r.chunkLog

/-- The invariant of the handler `h` of the request `p`. -/
structure HandlerInv (C : ℕ) (s : St) (d : Discarder) (p : Ptr) (h : Handler) : Prop where
  lt : p < s.created
  waiting : h.pc = .waiting → h = .start ∧ (s.objs p).pendingResponse.taken = [] ∧
    (s.objs p).taken = []
  answered : ∀ header, h.pc = .answered header → h.body = [] ∧ h.written = 0 ∧ h.success = none ∧
    (s.objs p).header = some header ∧ (s.objs p).taken = []
  forwarding : h.pc = .forwarding → Forwards (s.objs p) h []
  writing : ∀ chunk, h.pc = .writing chunk → Forwards (s.objs p) h chunk
  closing : ∀ call message after, h.pc = .closing call message after →
    ((s.objs p).response.isSome ∨ (s.objs p).isCompleted = true ∨ (s.objs p).isClosed = true) ∧
    (call = .offerDiscard → (s.objs p).response.isSome) ∧
    (call = .offerTrigger → (s.objs p).isClosed = false → (s.objs p).isCompleted = false →
      d = .serving p) ∧
    ∀ status, after = .defers (some status) → status ≠ .ok
  finished : h.pc = .finished → s.done = false →
    (s.objs p).isCompleted = true ∨ (s.objs p).isClosed = true
  success : h.success ≠ none → Forwarded C (s.objs p) h

theorem Request.Grows.response_isSome {r r' : Request} (h : r.Grows r') (hr : r.response.isSome) :
    r'.response.isSome := by
  obtain ⟨rsp, hr⟩ := Option.isSome_iff_exists.mp hr
  have := h.header rsp.header (by simp [Request.header, hr])
  obtain ⟨rsp', hr', -⟩ := Option.map_eq_some_iff.mp this
  rw [hr']; rfl

theorem Request.Grows.not_closed {r r' : Request} (h : r.Grows r') (hc : r'.isClosed = false) :
    r.isClosed = false := by
  cases hx : r.isClosed with
  | false => rfl
  | true => rw [h.closed hx] at hc; cases hc

theorem Request.Grows.not_completed {r r' : Request} (h : r.Grows r')
    (hc : r'.isCompleted = false) : r.isCompleted = false := by
  cases hx : r.isCompleted with
  | false => rfl
  | true => rw [h.completed hx] at hc; cases hc

section Handlers

variable {C : ℕ} {s s' : St} {d d' : Discarder} {p : Ptr} {h : Handler}

theorem Forwards.mono {r r' : Request} {chunk : Bytes} (hf : Forwards r h chunk) (hg : r.Grows r')
    (hu : r.Undrained r') : Forwards r' h chunk := by
  refine ⟨hf.status, hf.success, ?_, ?_, hf.written⟩
  · obtain ⟨x, hx⟩ := Option.isSome_iff_exists.mp hf.header
    rw [hg.header x hx]; rfl
  · rw [hu.taken]; exact hf.taken

theorem Forwarded.mono {r r' : Request} (hf : Forwarded C r h) (hg : r.Grows r') :
    Forwarded C r' h := by
  obtain ⟨header, h1, h2, h3⟩ := hf.whole
  have hlog := hg.frozen (.inr hf.completed)
  refine ⟨hf.status, hf.early, hg.completed hf.completed, header, hg.header _ h1, ?_, ?_⟩
  · rw [hlog]; exact h2
  · rw [hlog]; exact h3

/-- **What the others may do to the request of a handler.** -/
theorem HandlerInv.mono (hI : HandlerInv C s d p h) (hg : s.Grows s')
    (hu : ¬ h.Left → (s.objs p).Undrained (s'.objs p))
    (hd : d = .serving p → (s'.objs p).isClosed = false → d' = .serving p) :
    HandlerInv C s' d' p h := by
  have ho := hg.objs p hI.lt
  refine ⟨hI.lt.trans_le hg.created, ?_, ?_, ?_, ?_, ?_, ?_, ?_⟩
  · intro hpc
    have hu' := hu (Handler.not_left hpc nofun nofun)
    obtain ⟨h1, h2, h3⟩ := hI.waiting hpc
    exact ⟨h1, hu'.pending.trans h2, hu'.taken.trans h3⟩
  · intro header hpc
    have hu' := hu (Handler.not_left hpc nofun nofun)
    obtain ⟨h1, h2, h3, h4, h5⟩ := hI.answered header hpc
    exact ⟨h1, h2, h3, ho.header _ h4, hu'.taken.trans h5⟩
  · intro hpc
    have hu' := hu (Handler.not_left hpc nofun nofun)
    exact (hI.forwarding hpc).mono ho hu'
  · intro chunk hpc
    have hu' := hu (Handler.not_left hpc nofun nofun)
    exact (hI.writing chunk hpc).mono ho hu'
  · intro call message after hpc
    obtain ⟨h1, h2, h3, h4⟩ := hI.closing call message after hpc
    refine ⟨?_, fun hc => ho.response_isSome (h2 hc), fun hc hcl hcomp => ?_, h4⟩
    · exact h1.imp ho.response_isSome (Or.imp ho.completed ho.closed)
    · exact hd (h3 hc (ho.not_closed hcl) (ho.not_completed hcomp)) hcl
  · intro hpc hdone
    have hdone' : s.done = false := by
      cases hx : s.done with
      | false => rfl
      | true => rw [hg.done hx] at hdone; cases hdone
    exact (hI.finished hpc hdone').imp ho.completed ho.closed
  · intro hs
    exact (hI.success hs).mono ho

/-! ## Own steps -/

/-- A handler that calls `Close` for the first time. -/
theorem HandlerInv.callClose (hlt : p < s.created) {message : String} {after : After}
    (hr : (s.objs p).response.isSome ∨ (s.objs p).isCompleted = true ∨ (s.objs p).isClosed = true)
    (ha : ∀ status, after = .defers (some status) → status ≠ .ok)
    (hs : h.success ≠ none → Forwarded C (s.objs p) (h.callClose message after)) :
    HandlerInv C s d p (h.callClose message after) where
  lt := hlt
  waiting hpc := by cases hpc
  answered _ hpc := by cases hpc
  forwarding hpc := by cases hpc
  writing _ hpc := by cases hpc
  closing call message' after' hpc := by
    cases hpc
    exact ⟨hr, nofun, nofun, ha⟩
  finished hpc := by cases hpc
  success := hs

theorem HandlerInv.leave (hlt : p < s.created)
    (hr : (s.objs p).response.isSome ∨ (s.objs p).isCompleted = true ∨ (s.objs p).isClosed = true)
    (hs : h.success ≠ none → Forwarded C (s.objs p) h.leave) : HandlerInv C s d p h.leave :=
  HandlerInv.callClose hlt hr nofun hs

theorem header_isSome_iff (r : Request) : r.header.isSome = r.response.isSome := by
  simp [Request.header]

/-- The call of `Close` returns. -/
theorem HandlerInv.closeReturned (hI : HandlerInv C s d p h) {call : CloseCall} {message : String}
    {after : After} (hpc : h.pc = .closing call message after)
    (hset : s.done = false → (s.objs p).isCompleted = true ∨ (s.objs p).isClosed = true) :
    HandlerInv C s d p (h.closeReturned after) := by
  obtain ⟨h1, h2, h3, h4⟩ := hI.closing call message after hpc
  cases after with
  | returns =>
    refine ⟨hI.lt, nofun, nofun, nofun, nofun, nofun, fun _ => hset, fun hs => ?_⟩
    have hf := hI.success hs
    exact ⟨hf.status, .inl rfl, hf.completed, hf.whole⟩
  | defers status =>
    refine HandlerInv.leave hI.lt h1 fun hs => ?_
    rcases (hI.success hs).early with h' | ⟨call', message', h', -⟩
    · rw [hpc] at h'; cases h'
    · rw [hpc] at h'; cases h'

theorem HandlerInv.close {sys : Sys} (hI : HandlerInv C sys.core sys.discarder p h)
    {call : CloseCall} {message : String} {after : After} {next : Option CloseCall}
    (hpc : h.pc = .closing call message after) (hn : CloseStep sys p call next) :
    HandlerInv C sys.core sys.discarder p (h.closeNext message after next) := by
  obtain ⟨h1, h2, h3, h4⟩ := hI.closing call message after hpc
  -- the call goes on at `call'`
  have hon : ∀ call', (call' = .offerDiscard → (sys.core.objs p).response.isSome) →
      (call' = .offerTrigger → (sys.core.objs p).isClosed = false →
        (sys.core.objs p).isCompleted = false → sys.discarder = .serving p) →
      (h.success ≠ none → call' = .checkDone ∨ call' = .checkCompleted) →
      HandlerInv C sys.core sys.discarder p (h.closeAt call' message after) := by
    intro call' g1 g2 g3
    refine ⟨hI.lt, nofun, nofun, nofun, nofun, ?_, nofun, fun hs => ?_⟩
    · intro call'' message' after' hpc'
      cases hpc'
      exact ⟨h1, g1, g2, h4⟩
    · have hf := hI.success hs
      refine ⟨hf.status, .inr ⟨call', message, ?_, .inr (g3 hs)⟩, hf.completed, hf.whole⟩
      rcases hf.early with h' | ⟨_, _, h', -⟩
      · rw [hpc] at h'; cases h'
      · rw [hpc] at h'
        cases h'
        rfl
  -- a handler that reached `Success` is not further than the test of `completed`
  have hearly : h.success ≠ none → call = .checkClosed ∨ call = .checkDone ∨
      call = .checkCompleted := by
    intro hs
    rcases (hI.success hs).early with h' | ⟨_, _, h', h''⟩
    · rw [hpc] at h'; cases h'
    · rw [hpc] at h'
      cases h'
      exact h''
  cases hn with
  | closed hc => exact hI.closeReturned hpc fun _ => .inr hc
  | notClosed => exact hon _ nofun nofun fun _ => .inl rfl
  | done hd => exact hI.closeReturned hpc fun h' => by rw [hd] at h'; cases h'
  | notDone => exact hon _ nofun nofun fun _ => .inr rfl
  | completed hc => exact hI.closeReturned hpc fun _ => .inl hc
  | notCompleted hc =>
    refine hon _ nofun nofun fun hs => ?_
    rw [(hI.success hs).completed] at hc; cases hc
  | response hr => exact hon _ (fun _ => hr) nofun fun hs => absurd (hearly hs) (by decide)
  | noResponse hr =>
    refine hon _ nofun (fun _ hcl hcomp => ?_) fun hs => absurd (hearly hs) (by decide)
    rw [hr, hcl, hcomp] at h1
    simp at h1
  | discardSees signal hsig | triggerSees signal hsig =>
    refine hI.closeReturned hpc fun hdone => ?_
    cases signal with
    | completed => exact .inl hsig
    | closed => exact .inr hsig
    | done =>
      change sys.core.done = true at hsig
      rw [hdone] at hsig; cases hsig

theorem HandlerInv.succeedAt (hI : HandlerInv C s d p h) (hs : h.success ≠ none)
    (call : SuccessCall) : HandlerInv C s d p (h.succeedAt call) := by
  have hf := hI.success hs
  refine ⟨hI.lt, ?_, ?_, ?_, ?_, hI.closing, hI.finished,
    fun _ => ⟨hf.status, hf.early, hf.completed, hf.whole⟩⟩
  · intro hpc
    rw [(hI.waiting hpc).1] at hs
    exact absurd rfl hs
  · intro header hpc
    exact absurd (hI.answered header hpc).2.2.1 hs
  · intro hpc
    exact absurd (hI.forwarding hpc).success hs
  · intro chunk hpc
    exact absurd (hI.writing chunk hpc).success hs

/-- A handler at the select of its forwarding loop. -/
theorem HandlerInv.forward (hlt : p < s.created) (hpc : h.pc = .forwarding)
    (hf : Forwards (s.objs p) h []) : HandlerInv C s d p h := by
  refine ⟨hlt, ?_, ?_, fun _ => hf, ?_, ?_, ?_, fun hs => absurd hf.success hs⟩ <;> rw [hpc] <;>
    intros <;> contradiction

/-- A handler that writes `chunk`. -/
theorem HandlerInv.write (hlt : p < s.created) {chunk : Bytes} (hpc : h.pc = .writing chunk)
    (hf : Forwards (s.objs p) h chunk) : HandlerInv C s d p h := by
  refine ⟨hlt, ?_, ?_, ?_, ?_, ?_, ?_, fun hs => absurd hf.success hs⟩ <;> rw [hpc]
  · exact fun h' => by cases h'
  · exact fun _ h' => by cases h'
  · exact fun h' => by cases h'
  · intro chunk' h'
    cases h'
    exact hf
  · exact fun _ _ _ h' => by cases h'
  · exact fun h' => by cases h'

/-- The bytes a handler counts do not wrap. -/
theorem Forwards.length_lt {r : Request} {chunk : Bytes} {present : Prop} (hf : Forwards r h chunk)
    (hv : Visible C present r) : (h.body ++ chunk).length < 2 ^ 64 := by
  obtain ⟨rsp, hr⟩ := Option.isSome_iff_exists.mp ((header_isSome_iff r).symm ▸ hf.header)
  have hb := hv.bound rsp hr
  have ht : r.taken = rsp.chunks.taken := by simp [Request.taken, hr]
  rw [← hf.taken, ht]
  have hle : rsp.chunks.taken.flatten.length ≤ rsp.chunks.sent.flatten.length := by
    simp [Chan.sent]
  exact (hle.trans hb).trans_lt rsp.header.contentSize.toNat_lt

/-- **The end of the forwarding loop.** When the chunk channel is closed and drained, the handler has
written all of the content. -/
theorem Forwards.whole {r : Request} {present : Prop} (hf : Forwards r h [])
    (hv : Visible C present r) {rsp : Response} (hr : r.response = some rsp)
    (hb : rsp.chunks.buffer = []) (hc : rsp.chunks.closed = true) :
    r.isCompleted = true ∧ h.body = r.chunkLog.flatten ∧
      IsChunking C rsp.header.contentSize.toNat r.chunkLog ∧
      h.written = rsp.header.contentSize := by
  obtain ⟨hd, hwhole⟩ := hv.whole rsp hr hc
  have hlog : r.chunkLog = rsp.chunks.sent := by simp [Request.chunkLog, hr]
  have hbody : h.body = r.chunkLog.flatten := by
    have ht := hf.taken
    rw [List.append_nil] at ht
    rw [← ht, hlog]
    simp [Request.taken, hr, Chan.sent, hb]
  refine ⟨hd, hbody, hlog ▸ hwhole, ?_⟩
  apply UInt64.toNat_inj.mp
  rw [hf.written, hbody, hlog, hwhole.length_flatten]
  rfl

/-- **Every step of a handler keeps its invariant.** -/
theorem Serves.handlerInv {sys : Sys} (hI : HandlerInv C sys.core sys.discarder p h)
    (hv : Visible C (sys.core.Present p) (sys.core.objs p)) {e : ServeEvent} {h' : Handler}
    (hs : Serves sys p h e h') : HandlerInv C sys.core sys.discarder p h' := by
  cases hs with
  | timedOut hpc hc =>
    refine HandlerInv.leave hI.lt (.inr (.inr hc)) fun hs => ?_
    exact absurd (congrArg Handler.success (hI.waiting hpc).1) hs
  | cut hpc hc =>
    refine HandlerInv.leave hI.lt (.inr (.inr hc)) fun hs => ?_
    exact absurd (hI.forwarding hpc).success hs
  | refused hpc a message status hne =>
    obtain ⟨-, -, h3, h4, -⟩ := hI.answered _ hpc
    refine HandlerInv.callClose hI.lt (.inl ?_) ?_ fun hs => absurd h3 hs
    · rw [← header_isSome_iff, h4]; rfl
    · intro st h'
      cases h'
      exact hne
  | accepted hpc =>
    obtain ⟨h1, h2, h3, h4, h5⟩ := hI.answered _ hpc
    refine HandlerInv.forward hI.lt rfl ⟨rfl, h3, by rw [h4]; rfl, ?_, ?_⟩
    · rw [h5, h1]; rfl
    · rw [h1, h2]; rfl
  | mismatch hpc hr =>
    refine HandlerInv.callClose hI.lt (.inl (by rw [hr]; rfl)) (by rintro _ ⟨⟩) fun hs => ?_
    exact absurd (hI.forwarding hpc).success hs
  | @forwarded rsp hpc hr hb hc =>
    have hf := hI.forwarding hpc
    obtain ⟨h1, h2, h3, -⟩ := hf.whole hv hr hb hc
    refine HandlerInv.leave hI.lt (.inl (by rw [hr]; rfl)) fun _ => ?_
    refine ⟨hf.status, .inr ⟨_, _, rfl, .inl rfl⟩, h1, rsp.header, ?_, h2, h3⟩
    simp [Request.header, hr]
  | @wrote chunk hpc =>
    have hf := hI.writing chunk hpc
    have hlt := hf.length_lt hv
    refine HandlerInv.forward hI.lt rfl ⟨hf.status, hf.success, hf.header, ?_, ?_⟩
    · rw [hf.taken, List.append_nil]
    · rw [List.length_append] at hlt ⊢
      have hchunk : chunk.length < 2 ^ 64 := by omega
      rw [UInt64.toNat_add, hf.written, UInt64.toNat_ofNat_of_lt' hchunk]
      exact Nat.mod_eq_of_lt hlt
  | @writeFails chunk hpc n message =>
    have hf := hI.writing chunk hpc
    refine HandlerInv.callClose hI.lt (.inl ?_) (by rintro _ ⟨⟩) fun hs => absurd hf.success hs
    rw [← header_isSome_iff]
    exact hf.header
  | close hpc hn => exact hI.close hpc hn
  | success hs => exact hI.succeedAt (by rw [hs]; rintro ⟨⟩) _

end Handlers

/-! ## The system -/

section System

variable {ext : Externals} (cfg : Config ext)

/-- **The invariant of the goroutines.** -/
structure SysInv (s : Sys) : Prop where
  loop : LoopInv cfg s.pc s.core
  handler : ∀ p h, s.handlers p = some h →
    HandlerInv cfg.chunkSize.toNat s.core s.discarder p h
  serving : ∀ p, s.discarder = .serving p →
    ∃ h, s.handlers p = some h ∧ h.Left ∧ h.success = none ∧ (s.core.objs p).response.isSome

variable {cfg} {s s' : Sys} {e : SysEvent}

theorem SysInv.visible (hI : SysInv cfg s) {p : Ptr} {h : Handler} (hh : s.handlers p = some h) :
    Visible cfg.chunkSize.toNat (s.core.Present p) (s.core.objs p) :=
  hI.loop.visible (hI.handler p h hh).lt

/-- The discarder has nothing to do with a handler that still reads. -/
theorem SysInv.not_serving (hI : SysInv cfg s) {p : Ptr} {h : Handler}
    (hh : s.handlers p = some h) (hl : ¬ h.Left) : s.discarder ≠ .serving p := by
  intro hd
  obtain ⟨h', hh', hl', -⟩ := hI.serving p hd
  rw [hh] at hh'
  cases hh'
  exact hl hl'

/-- The discarder stays with a request until it is closed. -/
theorem SysSteps.discarder (hs : SysSteps cfg s e s') {p : Ptr} (hd : s.discarder = .serving p)
    (hc : (s.core.objs p).isClosed = false) : s'.discarder = .serving p := by
  cases hs with
  | discardStart hd' | discardExit hd' => rw [hd] at hd'; cases hd'
  | discardStop hd' hc' =>
    rw [hd] at hd'
    cases hd'
    rw [hc] at hc'; cases hc'
  | _ => exact hd

/-- The steps of the others keep the invariant of a handler. -/
theorem SysInv.others (hI : SysInv cfg s) (hs : SysSteps cfg s e s') {q : Ptr} {h : Handler}
    (hh : s.handlers q = some h) (h1 : ∀ e', e ≠ .serve q e') :
    HandlerInv cfg.chunkSize.toNat s'.core s'.discarder q h := by
  have hq := hI.handler q h hh
  have hg := hs.grows hI.loop
  refine hq.mono hg (fun hl => hs.undrained hq.lt h1 (hI.not_serving hh hl)) fun hd hc => ?_
  exact hs.discarder hd ((hg.objs q hq.lt).not_closed hc)

/-- What a `Close` call leads to if the loop takes it. -/
theorem Closes.settles {C : ℕ} {s s' : St} {p : Ptr} {message : String} {now : Time}
    {err : Option ApiError} (hcore : Core C none s) (hlt : p < s.created)
    (h : Closes s p message now s' err) :
    s'.done = true ∨ (s'.objs p).isCompleted = true ∨ (s'.objs p).isClosed = true := by
  -- another request in the place of `p` means that `p` left the map, and it was settled then
  have hother : ∀ q, s.requests.lookup (s.objs p).id = some q → q ≠ p →
      (s.objs p).isCompleted = true ∨ (s.objs p).isClosed = true := by
    intro q hl hne
    rcases (hcore.obj p hlt).settled with hp | hset
    · unfold St.Present at hp
      rw [hl] at hp
      exact absurd (Option.some.inj hp) hne
    · exact hset
  cases h with
  | deleted hl =>
    rcases (hcore.obj p hlt).settled with hp | hset
    · unfold St.Present at hp
      rw [hl] at hp; cases hp
    · exact .inr hset
  | @already q hl hc =>
    by_cases hq : q = p
    · exact .inr (.inr (hq ▸ hc))
    · exact .inr (hother q hl hq)
  | @completed q hl hd =>
    by_cases hq : q = p
    · exact .inr (.inl (hq ▸ hd))
    · exact .inr (hother q hl hq)
  | failed => exact .inl rfl
  | @closed q hl hc hd =>
    by_cases hq : q = p
    · subst hq
      rw [St.put_objs_self]
      exact .inr (.inr rfl)
    · rw [St.put_objs_ne _ _ (Ne.symm hq)]
      exact .inr (hother q hl hq)

theorem Handler.left_closeReturned (h : Handler) (after : After) : (h.closeReturned after).Left := by
  cases after with
  | returns => exact .inl rfl
  | defers status => exact .inr ⟨_, _, _, rfl⟩

@[simp] theorem Handler.closeReturned_success (h : Handler) (after : After) :
    (h.closeReturned after).success = h.success := by
  cases after <;> rfl

@[simp] theorem Handler.closeReturned_body (h : Handler) (after : After) :
    (h.closeReturned after).body = h.body := by
  cases after <;> rfl

/-- What `Left` and a `Success` not yet reached mean for the next step of a handler. -/
theorem Serves.left {p : Ptr} {h h' : Handler} {e : ServeEvent} (hl : h.Left)
    (hn : h.success = none) (hs : Serves s p h e h') :
    h'.Left ∧ h'.success = none ∧ h'.body = h.body := by
  cases hs with
  | timedOut hpc | cut hpc | refused hpc | accepted hpc =>
    exact absurd hl (Handler.not_left hpc nofun nofun)
  | mismatch hpc | forwarded hpc | wrote hpc | writeFails hpc =>
    exact absurd hl (Handler.not_left hpc nofun nofun)
  | @close call message after next _ hpc =>
    cases next with
    | some call' => exact ⟨.inr ⟨call', message, after, rfl⟩, hn, rfl⟩
    | none =>
      exact ⟨h.left_closeReturned after, (h.closeReturned_success after).trans hn,
        h.closeReturned_body after⟩
  | success hs => rw [hn] at hs; cases hs

@[simp] theorem Sys.setHandler_core (s : Sys) (p : Ptr) (h : Handler) :
    (s.setHandler p h).core = s.core := rfl

@[simp] theorem Sys.setHandler_pc (s : Sys) (p : Ptr) (h : Handler) :
    (s.setHandler p h).pc = s.pc := rfl

@[simp] theorem Sys.setHandler_discarder (s : Sys) (p : Ptr) (h : Handler) :
    (s.setHandler p h).discarder = s.discarder := rfl

theorem Sys.setHandler_self (s : Sys) (p : Ptr) (h : Handler) :
    (s.setHandler p h).handlers p = some h := by
  simp [setHandler]

theorem Sys.setHandler_ne (s : Sys) {p q : Ptr} (h : Handler) (hq : q ≠ p) :
    (s.setHandler p h).handlers q = s.handlers q := by
  simp [setHandler, hq]

/-- **A handler that left without a call of `Success` stays so**, and writes nothing more. -/
theorem SysSteps.left (hI : SysInv cfg s) (hs : SysSteps cfg s e s') {p : Ptr} {h : Handler}
    (hh : s.handlers p = some h) (hl : h.Left) (hn : h.success = none) :
    ∃ h', s'.handlers p = some h' ∧ h'.Left ∧ h'.success = none ∧ h'.body = h.body := by
  -- the step is one of the handler of `q`, which is then `h'`
  have hset : ∀ {q : Ptr} {h₁ h' : Handler}, s.handlers q = some h₁ →
      s'.handlers q = some h' → (∀ r, r ≠ q → s'.handlers r = s.handlers r) →
      (h₁.Left → h₁.success = none → h'.Left ∧ h'.success = none ∧ h'.body = h₁.body) →
      ∃ h', s'.handlers p = some h' ∧ h'.Left ∧ h'.success = none ∧ h'.body = h.body := by
    intro q h₁ h' hq hq' hne hkeep
    by_cases hpq : p = q
    · subst hpq
      rw [hh] at hq
      cases hq
      exact ⟨h', hq', hkeep hl hn⟩
    · exact ⟨h, (hne p hpq).trans hh, hl, hn, rfl⟩
  cases hs with
  | start =>
    have hne : p ≠ s.core.created := Nat.ne_of_lt (hI.handler p h hh).lt
    exact ⟨h, (Sys.setHandler_ne _ _ hne).trans hh, hl, hn, rfl⟩
  | discardStart _ hq =>
    exact hset hq (Sys.setHandler_self _ _ _) (fun r hr => Sys.setHandler_ne _ _ hr)
      fun _ hn => ⟨.inr ⟨_, _, _, rfl⟩, hn, rfl⟩
  | serves hq hsv =>
    exact hset hq (Sys.setHandler_self _ _ _) (fun r hr => Sys.setHandler_ne _ _ hr)
      fun hl hn => hsv.left hl hn
  | takeResponse hq hpc =>
    exact hset hq (Sys.setHandler_self _ _ _) (fun r hr => Sys.setHandler_ne _ _ hr)
      fun hl _ => absurd hl (Handler.not_left hpc nofun nofun)
  | takeChunk hq hpc =>
    exact hset hq (Sys.setHandler_self _ _ _) (fun r hr => Sys.setHandler_ne _ _ hr)
      fun hl _ => absurd hl (Handler.not_left hpc nofun nofun)
  | @closeTrigger q h₁ message after _ _ _ hq hpc =>
    exact hset hq (Sys.setHandler_self _ _ _) (fun r hr => Sys.setHandler_ne _ _ hr)
      fun _ hn => ⟨h₁.left_closeReturned after, (h₁.closeReturned_success after).trans hn,
        h₁.closeReturned_body after⟩
  | successTrigger hq hc =>
    exact hset hq (Sys.setHandler_self _ _ _) (fun r hr => Sys.setHandler_ne _ _ hr)
      fun _ hn => by rw [hc] at hn; cases hn
  | _ => exact ⟨h, hh, hl, hn, rfl⟩

/-- A step after which the handler of `p` is `h'`, and all other handlers are as before. -/
theorem SysInv.update (hI : SysInv cfg s) (hs : SysSteps cfg s e s') {p : Ptr} {h' : Handler}
    (hp : s'.handlers p = some h') (hne : ∀ q, q ≠ p → s'.handlers q = s.handlers q)
    (he : ∀ q, q ≠ p → ∀ e', e ≠ .serve q e')
    (hh : HandlerInv cfg.chunkSize.toNat s'.core s'.discarder p h')
    (hd : ∀ q, s'.discarder = .serving q → s.discarder = .serving q ∨
      q = p ∧ h'.Left ∧ h'.success = none ∧ (s'.core.objs p).response.isSome) :
    SysInv cfg s' := by
  refine ⟨hs.loopInv hI.loop, fun q h hq => ?_, fun q hdq => ?_⟩
  · by_cases hqp : q = p
    · subst hqp
      rw [hp] at hq
      cases hq
      exact hh
    · rw [hne q hqp] at hq
      exact hI.others hs hq (he q hqp)
  · rcases hd q hdq with hd' | ⟨rfl, h1, h2, h3⟩
    · obtain ⟨h, g1, g2, g3, g4⟩ := hI.serving q hd'
      obtain ⟨h₁, l1, l2, l3⟩ := hs.left hI g1 g2 g3
      exact ⟨h₁, l1, l2, l3.1,
        ((hs.grows hI.loop).objs q (hI.handler q h g1).lt).response_isSome g4⟩
    · exact ⟨h', hp, h1, h2, h3⟩

/-- A step that changes no handler. -/
theorem SysInv.quiet (hI : SysInv cfg s) (hs : SysSteps cfg s e s')
    (hh : s'.handlers = s.handlers) (he : ∀ q e', e ≠ .serve q e')
    (hd : ∀ q, s'.discarder = .serving q → s.discarder = .serving q) : SysInv cfg s' := by
  refine ⟨hs.loopInv hI.loop, fun q h hq => ?_, fun q hdq => ?_⟩
  · rw [hh] at hq
    exact hI.others hs hq (he q)
  · obtain ⟨h, g1, g2, g3, g4⟩ := hI.serving q (hd q hdq)
    refine ⟨h, by rw [hh]; exact g1, g2, g3, ?_⟩
    exact ((hs.grows hI.loop).objs q (hI.handler q h g1).lt).response_isSome g4

theorem taken_popChunk {r : Request} {rsp : Response} {chunk : Bytes} {c : Chan Bytes}
    (hr : r.response = some rsp) (hc : rsp.chunks.recv = some (some chunk, c)) :
    r.popChunk.taken = r.taken ++ [chunk] := by
  obtain ⟨a, rest, hb, ho, -⟩ | ⟨-, -, ho, -⟩ := Chan.recv_cases hc
  · cases ho
    simp [Request.taken, Request.popChunk, hr, Chan.pop, hb]
  · cases ho

/-- **Every step keeps the invariant.** -/
theorem SysSteps.sysInv (hI : SysInv cfg s) (hs : SysSteps cfg s e s') : SysInv cfg s' := by
  have hs' := hs
  cases hs with
  | loop hpc he =>
    refine hI.quiet hs' rfl ?_ fun _ h => h
    intro q e'
    rcases he with ⟨-, rfl⟩ | ⟨_, _, -, rfl⟩ | ⟨_, -, rfl⟩ | ⟨_, _, -, rfl⟩ | ⟨_, _, -, rfl, -⟩ <;>
      rintro ⟨⟩
  | begin | finish | last | complete | drain | disconnect | discardTake =>
    exact hI.quiet hs' rfl (by rintro _ _ ⟨⟩) fun _ h => h
  | discardStop | discardExit => exact hI.quiet hs' rfl (by rintro _ _ ⟨⟩) fun _ h => by cases h
  | @start path now core hpc hst hc =>
    have hnew : ∃ id, core.objs s.core.created = newRequest id path now := by
      cases hst with
      | @forward _ _ _ id =>
        refine ⟨id, ?_⟩
        rw [St.top_objs]
        exact St.put_objs_self _ _ _
    obtain ⟨id, hnew⟩ := hnew
    refine hI.update hs' (Sys.setHandler_self _ _ _) (fun q hq => Sys.setHandler_ne _ _ hq)
      (by rintro _ _ _ ⟨⟩) ?_ fun q h => .inl h
    refine ⟨?_, fun _ => ⟨rfl, ?_, ?_⟩, by rintro _ ⟨⟩, by rintro ⟨⟩, by rintro _ ⟨⟩,
      by rintro _ _ _ ⟨⟩, by rintro ⟨⟩, fun h => absurd rfl h⟩
    · change s.core.created < core.created
      rw [hc]; exact Nat.lt_succ_self _
    · change (core.objs s.core.created).pendingResponse.taken = []
      rw [hnew]; rfl
    · change (core.objs s.core.created).taken = []
      rw [hnew]; rfl
  | @discardStart p h message after hd hh hpc =>
    have hq := hI.handler p h hh
    obtain ⟨h1, h2, h3, h4⟩ := hq.closing _ _ _ hpc
    have hsucc : h.success = none := by
      by_contra hs
      rcases (hq.success hs).early with h' | ⟨call, m, h', h''⟩
      · rw [hpc] at h'; cases h'
      · rw [hpc] at h'
        cases h'
        simp at h''
    refine hI.update hs' (Sys.setHandler_self _ _ _) (fun q hq => Sys.setHandler_ne _ _ hq)
      (by rintro _ _ _ ⟨⟩) ?_ ?_
    · refine ⟨hq.lt, by rintro ⟨⟩, by rintro _ ⟨⟩, by rintro ⟨⟩, by rintro _ ⟨⟩, ?_, by rintro ⟨⟩,
        fun hs => absurd hsucc hs⟩
      intro call message' after' hpc'
      cases hpc'
      exact ⟨h1, by rintro ⟨⟩, fun _ _ _ => rfl, h4⟩
    · intro q hdq
      cases hdq
      exact .inr ⟨rfl, .inr ⟨_, _, _, rfl⟩, hsucc, h2 rfl⟩
  | @serves p h h' e hh hsv =>
    exact hI.update hs' (Sys.setHandler_self _ _ _) (fun q hq => Sys.setHandler_ne _ _ hq)
      (fun q hq e' he => by cases he; exact hq rfl)
      (hsv.handlerInv (hI.handler p h hh) (hI.visible hh)) fun q h => .inl h
  | @takeResponse p h o c hh hpc hr =>
    have hq := hI.handler p h hh
    have hv := hI.visible hh
    obtain ⟨rfl, htaken, hchunks⟩ := hq.waiting hpc
    have hrecv := Request.receives_popResponse (s.core.objs p)
    have hobj : (s.core.put p { s.core.objs p with pendingResponse := c }).objs p =
        (s.core.objs p).popResponse := by
      rw [Request.tookResponse_eq hr, St.put_objs_self]
    refine hI.update hs' (Sys.setHandler_self _ _ _) (fun q hq => Sys.setHandler_ne _ _ hq)
      (fun q hq e' he => by cases he; exact hq rfl) ?_ fun q h => .inl h
    change HandlerInv _ (s.core.put p _) s.discarder p _
    obtain ⟨a, rest, hb, rfl, -⟩ | ⟨hb, hc, -, -⟩ := Chan.recv_cases hr
    · obtain ⟨hhead, hnone⟩ := hv.answer a (by simp [Chan.sent, hb])
      cases a with
      | none =>
        have hd : ((s.core.put p { s.core.objs p with pendingResponse := c }).objs
            p).isCompleted = true := by
          rw [hobj]; exact hnone rfl
        have hlt : p < (s.core.put p { s.core.objs p with pendingResponse := c }).created := hq.lt
        exact HandlerInv.leave (h := { Handler.start with status := some .notFound }) hlt
          (.inr (.inl hd)) fun hs => absurd rfl hs
      | some header =>
        refine ⟨hq.lt, by rintro ⟨⟩, ?_, by rintro ⟨⟩, by rintro _ ⟨⟩, by rintro _ _ _ ⟨⟩,
          by rintro ⟨⟩, fun hs => absurd rfl hs⟩
        intro header' hpc'
        cases hpc'
        refine ⟨rfl, rfl, rfl, ?_, ?_⟩
        · rw [hobj, hrecv.header]; exact hhead
        · rw [hobj]; exact hchunks
    · -- a closed channel still holds its value
      refine absurd ?_ (hv.pending hc)
      simp [Chan.sent, htaken, hb]
  | @takeChunk p h rsp chunk c hh hpc hr hc =>
    have hq := hI.handler p h hh
    have hf := hq.forwarding hpc
    have hrecv := Request.receives_popChunk (s.core.objs p)
    have hobj : (s.core.put p { s.core.objs p with response := some { rsp with chunks := c } }).objs
        p = (s.core.objs p).popChunk := by
      rw [Request.tookChunk_eq hr hc, St.put_objs_self]
    refine hI.update hs' (Sys.setHandler_self _ _ _) (fun q hq => Sys.setHandler_ne _ _ hq)
      (fun q hq e' he => by cases he; exact hq rfl) ?_ fun q h => .inl h
    refine HandlerInv.write hq.lt rfl ⟨hf.status, hf.success, ?_, ?_, hf.written⟩
    · change ((s.core.put p _).objs p).header.isSome
      rw [hobj, hrecv.header]; exact hf.header
    · change ((s.core.put p _).objs p).taken.flatten = _
      rw [hobj, taken_popChunk hr hc, List.flatten_append, hf.taken]
      simp
  | @closeTrigger p h message after now sendOk core hh hpc hsel hst =>
    have hq := hI.handler p h hh
    have hcore : Inv cfg s.core := by have := hI.loop; rw [hsel] at this; exact this
    have hg := hst.grows hcore
    -- the handler of `p` before its call returns
    have hmid : HandlerInv cfg.chunkSize.toNat core s.discarder p h := by
      refine hq.mono hg (fun hl => absurd (.inr ⟨_, _, _, hpc⟩) hl) fun hd _ => hd
    refine hI.update hs' (Sys.setHandler_self _ _ _) (fun q hq => Sys.setHandler_ne _ _ hq)
      (fun q hq e' he => by cases he; exact hq rfl) (hmid.closeReturned hpc ?_)
      fun q h => .inl h
    intro hdone
    cases hst with
    | @close _ _ _ _ s₁ err hp hlt hr hcl =>
      rw [St.top_objs]
      rcases hcl.settles hcore.core hlt with hd | hset
      · rw [St.top_done, hd] at hdone; cases hdone
      · exact hset
  | @successTrigger p h sendOk core err hh hsucc hsel hst =>
    have hq := hI.handler p h hh
    have hcore : Inv cfg s.core := by have := hI.loop; rw [hsel] at this; exact this
    have hne : h.success ≠ none := by rw [hsucc]; rintro ⟨⟩
    have hmid : HandlerInv cfg.chunkSize.toNat core s.discarder p h := by
      refine hq.mono (hst.grows hcore) (fun hl => ?_) fun hd _ => hd
      exact hst.undrained hq.lt fun p => ⟨by rintro ⟨⟩, by rintro ⟨⟩⟩
    exact hI.update hs' (Sys.setHandler_self _ _ _) (fun q hq => Sys.setHandler_ne _ _ hq)
      (fun q hq e' he => by cases he; exact hq rfl) (hmid.succeedAt hne _) fun q h => .inl h

theorem sysInv_init : SysInv cfg Sys.init where
  loop := inv_init cfg
  handler p h hh := by cases hh
  serving p hd := by cases hd

/-- A step of the machine between states that are not crashed. -/
theorem sysSteps_of_step (hI : SysInv cfg s) (hs : (system cfg).step (.ok s) e = some (.ok s')) :
    SysSteps cfg s e s' := by
  rcases sysStep_spec hI.loop hs with ⟨s₁, e1, e2⟩ | ⟨e1, -⟩
  · cases e1; exact e2
  · cases e1

/-- **Run induction for the goroutines.** -/
theorem system_induction {P : List SysEvent → Sys → Prop} (h0 : P [] Sys.init)
    (hstep : ∀ es s e s', (system cfg).run (.ok Sys.init) es = some (.ok s) → SysInv cfg s →
      P es s → SysSteps cfg s e s' → P (es ++ [e]) s') {es : List SysEvent}
    (h : (system cfg).run (.ok Sys.init) es = some (.ok s)) : SysInv cfg s ∧ P es s := by
  suffices H : ∀ es c, (system cfg).run (system cfg).init es = some c →
      ∀ s, c = .ok s → SysInv cfg s ∧ P es s from H es _ h s rfl
  intro es c hrun
  refine Machine.run_induction (M := system cfg)
    (P := fun es c => ∀ s, c = .ok s → SysInv cfg s ∧ P es s) ?_ ?_ hrun
  · rintro s ⟨⟩
    exact ⟨sysInv_init, h0⟩
  · rintro es (_ | s) e c' hr hP hs s' rfl
    · cases hs
    · obtain ⟨hI, hp⟩ := hP s rfl
      have hst := sysSteps_of_step hI hs
      exact ⟨hst.sysInv hI, hstep es s e s' hr hI hp hst⟩

/-- **The invariant holds in every reachable state.** -/
theorem sysInv_of_run {es : List SysEvent}
    (h : (system cfg).run (.ok Sys.init) es = some (.ok s)) : SysInv cfg s :=
  (system_induction (P := fun _ _ => True) trivial (fun _ _ _ _ _ _ _ _ => trivial) h).1

/-- **Later states only grow.** -/
theorem SysInv.run (hI : SysInv cfg s) {es : List SysEvent}
    (h : (system cfg).run (.ok s) es = some (.ok s')) :
    SysInv cfg s' ∧ s.core.Grows s'.core := by
  suffices H : ∀ c, (system cfg).run (.ok s) es = some c →
      ∀ s', c = .ok s' → SysInv cfg s' ∧ s.core.Grows s'.core from H _ h s' rfl
  intro c hrun
  refine Machine.run_inv (M := system cfg)
    (P := fun c => ∀ s', c = .ok s' → SysInv cfg s' ∧ s.core.Grows s'.core) ?_ ?_ hrun
  · rintro (_ | s₁) e c' hP hs s₂ rfl
    · cases hs
    · obtain ⟨h1, h2⟩ := hP s₁ rfl
      have hst := sysSteps_of_step h1 hs
      exact ⟨hst.sysInv h1, h2.trans (hst.grows h1.loop)⟩
  · rintro _ ⟨⟩
    exact ⟨hI, .refl _⟩

end System

end Loon
