import Loon.Server.Forwarding

set_option autoImplicit false

/-!
# Where the data of a request comes from

A request object holds what the messages of the client brought, and the HTTP response of its handler
what the object held.

* `Request.Gains`, **`SysSteps.gains`**: what a step adds to a request, and from which message;
* `SysSteps.path`: a request keeps its path;
* `Request.Shows`, **`SysSteps.shows`**: what the handler of a request has written.
-/

namespace Loon

open Chunking

/-! ## Messages -/

section Gains

variable {ext : Externals} {cfg : Config ext} {s s' : Sys} {e : SysEvent} {p : Ptr}

/-- **What a step adds to the request `p`**: nothing, what a message for it says, or the chunk that
the loop was about to send. -/
inductive Request.Gains (s : Sys) (e : SysEvent) (p : Ptr) (r r' : Request) : Prop where
  | nothing (h : r.SameLog r')
  | message {m : ClientMessage} {now : Time} {d : ClientData} (he : e = .recv m now)
      (hd : m.data = some d) (hl : s.core.requests.lookup d.requestId = some p)
      (header : r'.header = r.header ∨ ∃ hd, d = .contentHeader hd ∧ r'.header = some hd)
      (pending : r'.pendingResponse.sent = r.pendingResponse.sent ∨
        (∃ m, d = .emptyResponse m ∧ r'.pendingResponse.sent = r.pendingResponse.sent ++ [none]) ∨
        ∃ hd, r'.pendingResponse.sent = r.pendingResponse.sent ++ [some hd])
      (log : r'.chunkLog = r.chunkLog)
  | chunk {w : PendingWrite} (hpc : s.pc = .sending w) (hw : w.ptr = p) (hopen : r.isClosed = false)
      (header : r'.header = r.header) (pending : r'.pendingResponse.sent = r.pendingResponse.sent)
      (log : r'.chunkLog = r.chunkLog ++ [w.data])

theorem eq_of_toList_eq {α : Type} {o o' : Option α} (h : o.toList = o'.toList) : o = o' := by
  cases o <;> cases o' <;> cases h <;> rfl

theorem Request.sameLog_of_append {r r' : Request} {l : List ContentHeader}
    {l' : List (Option ContentHeader)} (h1 : r'.header.toList = r.header.toList ++ l) (hl : l = [])
    (h2 : r'.pendingResponse.sent = r.pendingResponse.sent ++ l') (hl' : l' = [])
    (h3 : r'.chunkLog = r.chunkLog) : r.SameLog r' := by
  subst hl hl'
  rw [List.append_nil] at h1 h2
  exact ⟨eq_of_toList_eq h1, h2, h3⟩

/-- A step of the loop that receives no message. -/
theorem Steps.sameLog {s s' : St} {e : Event} (hI : Inv cfg s) (h : Steps cfg s e s')
    (he : ∀ m now, e ≠ .recv m now) (hp : p < s.created) : (s.objs p).SameLog (s'.objs p) := by
  obtain ⟨h1, h2, h3⟩ := h.records hI hp
  have hchunk : chunkData p (.ok s) e = [] := by
    cases e <;> first | rfl | exact absurd rfl (he _ _)
  refine Request.sameLog_of_append h1 ?_ h2 ?_ ?_
  · cases e <;> first | rfl | exact absurd rfl (he _ _)
  · cases e <;> first | rfl | exact absurd rfl (he _ _)
  · rw [h3, hchunk, ite_self, List.append_nil]

/-- A message that the loop handles between two selects. -/
theorem Steps.gains_recv {core : St} {m : ClientMessage} {now : Time} (hI : Inv cfg s.core)
    (h : Steps cfg s.core (.recv m now) core)
    (hm : ∀ c, m.data = some (.contentChunk c) → core.fault ≠ none) (hp : p < s.core.created) :
    Request.Gains s (.recv m now) p (s.core.objs p) (core.objs p) := by
  obtain ⟨h1, h2, h3⟩ := h.records hI hp
  cases hd : m.data with
  | none =>
      refine .nothing (Request.sameLog_of_append h1 ?_ h2 ?_ ?_)
      · simp only [acceptedHeader, hd]
      · simp only [answeredOpen, hd]
      · rw [h3]
        simp only [chunkData, hd, ite_self, List.append_nil]
  | some d =>
      -- chunks that are not rejected are another step
      have hlog : (core.objs p).chunkLog = (s.core.objs p).chunkLog := by
        rw [h3]
        cases d with
        | contentChunk c => rw [if_neg fun hc => hm c hd hc.2, List.append_nil]
        | _ => simp only [chunkData, hd, ite_self, List.append_nil]
      by_cases hl : s.core.requests.lookup d.requestId = some p
      · refine .message rfl hd hl ?_ ?_ hlog
        · cases d with
          | contentHeader header =>
              simp only [acceptedHeader, hd] at h1
              split_ifs at h1 with hacc
              · refine .inr ⟨header, rfl, ?_⟩
                cases hh : (s.core.objs p).header <;> rw [hh] at h1 <;>
                  cases hh' : (core.objs p).header <;> rw [hh'] at h1 <;> simp_all
              · exact .inl (eq_of_toList_eq (by rwa [List.append_nil] at h1))
          | _ =>
              simp only [acceptedHeader, hd, List.append_nil] at h1
              exact .inl (eq_of_toList_eq h1)
        · cases d with
          | contentHeader header =>
              simp only [answeredOpen, hd] at h2
              split_ifs at h2 with hacc
              · exact .inr (.inr ⟨header, h2⟩)
              · exact .inl (by rwa [List.append_nil] at h2)
          | emptyResponse m =>
              simp only [answeredOpen, hd] at h2
              split_ifs at h2 with hacc
              · exact .inr (.inl ⟨m, rfl, h2⟩)
              · exact .inl (by rwa [List.append_nil] at h2)
          | _ =>
              simp only [answeredOpen, hd, List.append_nil] at h2
              exact .inl h2
      · refine .nothing (Request.sameLog_of_append h1 ?_ h2 ?_ hlog)
        · cases d with
          | contentHeader header =>
              simp only [acceptedHeader, hd]
              exact if_neg fun hc => hl hc.1
          | _ => simp only [acceptedHeader, hd]
        · cases d with
          | contentHeader header =>
              simp only [answeredOpen, hd]
              exact if_neg fun hc => hl hc.1
          | emptyResponse m =>
              simp only [answeredOpen, hd]
              exact if_neg fun hc => hl hc.1
          | _ => simp only [answeredOpen, hd]

/-- **Every step of a goroutine adds to a request what a message brought.** -/
theorem SysSteps.gains (hI : SysInv cfg s) (hs : SysSteps cfg s e s') (hp : p < s.core.created) :
    Request.Gains s e p (s.core.objs p) (s'.core.objs p) := by
  have hL := hI.loop
  -- a step of the loop between two selects that receives no message
  have hloop : ∀ {e' : Event}, s.pc = .select → Steps cfg s.core e' s'.core →
      (∀ m now, e' ≠ .recv m now) → Request.Gains s e p (s.core.objs p) (s'.core.objs p) := by
    intro e' hpc hst he'
    rw [hpc] at hL
    exact .nothing (hst.sameLog hL he' hp)
  cases hs with
  | @loop _ e' core hpc he hst =>
      rcases he with ⟨rfl, rfl⟩ | ⟨_, _, rfl, rfl⟩ | ⟨_, rfl, rfl⟩ | ⟨_, _, rfl, rfl⟩ |
        ⟨m, now, rfl, rfl, hm⟩
      · exact hloop hpc hst (by rintro _ _ ⟨⟩)
      · exact hloop hpc hst (by rintro _ _ ⟨⟩)
      · exact hloop hpc hst (by rintro _ _ ⟨⟩)
      · exact hloop hpc hst (by rintro _ _ ⟨⟩)
      · rw [hpc] at hL
        exact hst.gains_recv hL hm hp
  | start hpc hst => exact hloop hpc hst (by rintro _ _ ⟨⟩)
  | closeTrigger _ _ hpc hst => exact hloop hpc hst (by rintro _ _ ⟨⟩)
  | successTrigger _ _ hpc hst => exact hloop hpc hst (by rintro _ _ ⟨⟩)
  | begin hpc hm hph hb =>
      refine .nothing ?_
      cases hb with
      | accept =>
          exact St.sameLog_put ((Request.sameLog_advance _).trans (Request.sameLog_resetTimeout _ _)) p
  | @finish w core hpc hf hroom hl =>
      change Request.Gains s _ p _ (core.top.objs p)
      rw [St.top_objs]
      rw [hpc] at hL
      obtain ⟨rsp, hr⟩ := Option.isSome_iff_exists.mp (hL.1.writing w rfl).2.2.2
      cases hf with
      | discard | drop => exact .nothing (.refl _)
      | forward hc =>
          by_cases hw : w.ptr = p
          · subst hw
            rw [St.put_objs_self]
            exact .chunk hpc rfl hc (Request.header_written _ _) rfl (Request.chunkLog_written hr _)
          · rw [St.put_objs_ne _ _ (Ne.symm hw)]
            exact .nothing (.refl _)
      | complete hc hlast =>
          rw [hl hc] at hlast
          cases hlast
  | @last w hpc hc =>
      rw [hpc] at hL
      obtain ⟨rsp, hr⟩ := Option.isSome_iff_exists.mp (hL.1.writing w rfl).2.2.2
      by_cases hw : w.ptr = p
      · subst hw
        rw [St.put_objs_self]
        exact .chunk hpc rfl hc (Request.header_written _ _) rfl (Request.chunkLog_written hr _)
      · rw [St.put_objs_ne _ _ (Ne.symm hw)]
        exact .nothing (.refl _)
  | @complete q =>
      have hsame : (s.core.objs q).SameLog (s.core.objs q).markCompleted := ⟨rfl, rfl, rfl⟩
      exact .nothing (St.sameLog_put hsame p)
  | @drain q =>
      change Request.Gains s _ p _ (St.top _ |>.objs p)
      rw [St.top_objs]
      have hsame : (s.core.objs q).SameLog (s.core.objs q).drained := by
        cases hr : (s.core.objs q).response <;>
          exact ⟨by simp [Request.drained, Request.header, hr], rfl,
            by simp [Request.drained, Request.chunkLog, hr]⟩
      exact .nothing (St.sameLog_put hsame p)
  | disconnect | discardStart | discardStop | discardExit | serves => exact .nothing (.refl _)
  | discardTake _ hr hch =>
      rw [Request.tookChunk_eq hr hch]
      exact .nothing (St.sameLog_put (Request.receives_popChunk _).sameLog p)
  | takeResponse _ _ hr =>
      rw [Request.tookResponse_eq hr]
      exact .nothing (St.sameLog_put (Request.receives_popResponse _).sameLog p)
  | takeChunk _ _ hr hch =>
      rw [Request.tookChunk_eq hr hch]
      exact .nothing (St.sameLog_put (Request.receives_popChunk _).sameLog p)

end Gains

/-! ## Paths -/

section Paths

theorem St.path_put {s : St} {p : Ptr} {r : Request} (h : r.path = (s.objs p).path) (q : Ptr) :
    ((s.put p r).objs q).path = (s.objs q).path :=
  St.put_rel (R := fun r r' => r'.path = r.path) (fun _ => rfl) h q

theorem Request.path_shut (r : Request) : r.shut.path = r.path := by
  unfold shut
  split_ifs <;> rfl

theorem Request.path_resetTimeout (r : Request) (now : Time) : (r.resetTimeout now).path = r.path := by
  unfold resetTimeout
  split_ifs <;> rfl

theorem Begins.path {C : ℕ} {s : St} {m : ContentChunk} {now : Time} {x : St ⊕ St × PendingWrite}
    (h : Begins C s m now x) (q : Ptr) : x.elim (fun s' => (s'.objs q).path = (s.objs q).path)
      fun y => (y.1.objs q).path = (s.objs q).path := by
  cases h with
  | unknown | misplaced => rfl
  | @reject x =>
      have h : (s.objs x).advance.path = (s.objs x).path := rfl
      exact St.path_put h q
  | @accept x =>
      have h : ((s.objs x).advance.resetTimeout now).path = (s.objs x).path :=
        Request.path_resetTimeout _ _
      exact St.path_put h q

theorem Finishes.path {s s' : St} {w : PendingWrite} (h : Finishes s w s') (q : Ptr) :
    (s'.objs q).path = (s.objs q).path := by
  cases h with
  | discard | drop => rfl
  | forward => exact St.path_put (r := (s.objs w.ptr).written w.data) rfl q
  | complete => exact St.path_put (r := ((s.objs w.ptr).written w.data).markCompleted.drained) rfl q

theorem Handles.path {C bufferSize : ℕ} {s s' : St} {now : Time} {d : ClientData}
    (h : Handles C bufferSize s now d s') (q : Ptr) : (s'.objs q).path = (s.objs q).path := by
  cases h with
  | @emptyOpen m p => exact St.path_put (r := ((s.objs p).filled none).markCompleted) rfl q
  | close => exact St.path_put (s := s) (Request.path_shut _) q
  | @header m p =>
      refine St.path_put ?_ q
      unfold Request.answered
      split_ifs <;> rfl
  | chunkReject hb => exact hb.path q
  | chunk hb hf => exact (hf.path q).trans (hb.path q)
  | _ => rfl

theorem Closes.path {s s' : St} {p : Ptr} {message : String} {now : Time} {err : Option ApiError}
    (h : Closes s p message now s' err) (q : Ptr) : (s'.objs q).path = (s.objs q).path := by
  cases h with
  | deleted | already | completed | failed => rfl
  | @closed x =>
      exact St.path_put (s := s.enqueue _) (r := { s.objs x with lastUpdated := now }.markClosed) rfl q

theorem Sweeps.path {s s' : St} {timeout now : Time} {visits : List Visit}
    (h : Sweeps timeout now s visits s') (q : Ptr) : (s'.objs q).path = (s.objs q).path := by
  induction h with
  | nil | fault => rfl
  | skip _ _ ih => exact ih
  | delete _ _ _ _ _ ih => exact ih
  | close _ _ _ _ hr _ ih => exact ih.trans (hr.path q)

variable {ext : Externals} {cfg : Config ext}

theorem Steps.path {s s' : St} {e : Event} (h : Steps cfg s e s') {q : Ptr} (hq : q < s.created) :
    (s'.objs q).path = (s.objs q).path := by
  cases h with
  | recv _ _ _ hh =>
      rw [St.top_objs]
      exact hh.path q
  | @forward path now sendOk id =>
      rw [St.top_objs]
      cases sendOk <;> exact congrArg Request.path (St.put_objs_ne _ _ (Nat.ne_of_lt hq))
  | success _ _ _ hh => rw [St.top_objs, hh.objs_eq]
  | close _ _ _ hh =>
      rw [St.top_objs]
      exact hh.path q
  | count => rw [St.top_objs]
  | timeout _ _ hh =>
      rw [St.top_objs]
      exact hh.path q
  | done => rfl
  | ret _ _ _ hh =>
      rcases hh.objs q with e | e
      · exact congrArg Request.path e
      · exact (congrArg Request.path e).trans (Request.path_shut _)
  | @takeResponse p o c => exact St.path_put (r := { s.objs p with pendingResponse := c }) rfl q
  | @takeChunk p rsp o c =>
      exact St.path_put (r := { s.objs p with response := some { rsp with chunks := c } }) rfl q

/-- **A request keeps its path.** -/
theorem SysSteps.path {s s' : Sys} {e : SysEvent} (hs : SysSteps cfg s e s') {q : Ptr}
    (hq : q < s.core.created) : (s'.core.objs q).path = (s.core.objs q).path := by
  cases hs with
  | loop _ _ hst | start _ hst | closeTrigger _ _ _ hst | successTrigger _ _ _ hst => exact hst.path hq
  | begin _ _ _ hb => exact hb.path q
  | finish _ hf =>
      change (St.top _ |>.objs q).path = _
      rw [St.top_objs]
      exact hf.path q
  | @last w => exact St.path_put (r := (s.core.objs w.ptr).written w.data) rfl q
  | @complete p => exact St.path_put (r := (s.core.objs p).markCompleted) rfl q
  | @drain p =>
      change (St.top _ |>.objs q).path = _
      rw [St.top_objs]
      exact St.path_put (r := (s.core.objs p).drained) rfl q
  | disconnect | discardStart | discardStop | discardExit | serves => rfl
  | @discardTake p rsp o c =>
      exact St.path_put (r := { s.core.objs p with response := some { rsp with chunks := c } }) rfl q
  | @takeResponse p h o c => exact St.path_put (r := { s.core.objs p with pendingResponse := c }) rfl q
  | @takeChunk p h rsp chunk c =>
      exact St.path_put (r := { s.core.objs p with response := some { rsp with chunks := c } }) rfl q

end Paths

/-! ## Handlers -/

section Shows

/-- **What the HTTP response of the handler `h` says of the request `r`.** -/
structure Request.Shows (r : Request) (h : Handler) : Prop where
  body : h.body <+: r.chunkLog.flatten
  ok : h.status = some .ok → r.header.isSome
  notFound : h.status = some .notFound → none ∈ r.pendingResponse.sent
  /-- A status that is still to be written is neither of the two. -/
  deferred : ∀ call message status, h.pc = .closing call message (.defers (some status)) →
    status ≠ .ok ∧ status ≠ .notFound

variable {r r' : Request} {h : Handler}

theorem Request.Shows.mono (hs : r.Shows h) (hg : r.Grows r') : r'.Shows h := by
  refine ⟨hs.body.trans ?_, fun hok => ?_, fun hnf => hg.pending.subset (hs.notFound hnf), hs.deferred⟩
  · obtain ⟨rest, hrest⟩ := hg.log
    rw [← hrest, List.flatten_append]
    exact List.prefix_append _ _
  · obtain ⟨header, hheader⟩ := Option.isSome_iff_exists.mp (hs.ok hok)
    rw [hg.header header hheader]
    rfl

/-- A handler that moves on without a write. -/
theorem Request.Shows.move (hs : r.Shows h) {h' : Handler} (hbody : h'.body = h.body)
    (hstatus : h'.status = h.status)
    (hpc : ∀ call message status, h'.pc = .closing call message (.defers (some status)) →
      status ≠ .ok ∧ status ≠ .notFound) : r.Shows h' := by
  refine ⟨?_, ?_, ?_, hpc⟩
  · rw [hbody]
    exact hs.body
  · rw [hstatus]
    exact hs.ok
  · rw [hstatus]
    exact hs.notFound

/-- A call of `Close` goes on or returns. -/
theorem Request.Shows.closeNext (hs : r.Shows h) {call : CloseCall} {message : String} {after : After}
    (hpc : h.pc = .closing call message after) (next : Option CloseCall) :
    r.Shows (h.closeNext message after next) := by
  cases next with
  | some call' =>
      refine hs.move rfl rfl fun call₁ message₁ status₁ h₁ => ?_
      cases h₁
      exact hs.deferred _ _ _ hpc
  | none =>
      cases after with
      | returns => exact hs.move rfl rfl (by rintro _ _ _ ⟨⟩)
      | defers status =>
          cases status with
          | none => exact hs.move rfl rfl (by rintro _ _ _ ⟨⟩)
          | some status =>
              obtain ⟨hok, hnf⟩ := hs.deferred _ _ _ hpc
              refine ⟨hs.body, fun hst => ?_, fun hst => ?_, by rintro _ _ _ ⟨⟩⟩
              · exact absurd (Option.some.inj hst) hok
              · exact absurd (Option.some.inj hst) hnf

variable {ext : Externals} {cfg : Config ext} {s s' : Sys} {e : SysEvent} {p : Ptr}

/-- The statuses of the content type checks. -/
theorem refused_status {h : Handler} {a : Acceptance} {message : String} {status : Status}
    {header : ContentHeader} (hpc : h.pc = .answered header)
    (hs : serveStep cfg s p h (.checkAccept a) =
      some (.ok (s.setHandler p (h.callClose message (.defers (some status)))))) :
    status ≠ .ok ∧ status ≠ .notFound := by
  have hself : ∀ {h' : Handler}, s.setHandler p h' =
      s.setHandler p (h.callClose message (.defers (some status))) →
      h' = h.callClose message (.defers (some status)) := by
    intro h' heq
    have hp := congrArg (fun s : Sys => s.handlers p) heq
    simpa only [Sys.setHandler_self, Option.some.injEq] using hp
  simp only [serveStep, hpc] at hs
  cases a with
  | invalidType =>
      have hcall := congrArg Handler.pc (hself (Except.ok.inj (Option.some.inj hs)))
      cases hcall
      exact ⟨by decide, by decide⟩
  | notAcceptable =>
      have hcall := congrArg Handler.pc (hself (Except.ok.inj (Option.some.inj hs)))
      cases hcall
      exact ⟨by decide, by decide⟩
  | acceptable =>
      have hcall := congrArg Handler.pc (hself (Except.ok.inj (Option.some.inj hs)))
      cases hcall

/-- A step of a handler. -/
theorem Serves.shows {C : ℕ} (hI : HandlerInv C s.core s.discarder p h)
    (hs : (s.core.objs p).Shows h) {e : ServeEvent} {h' : Handler} (hsv : Serves s p h e h')
    (hstep : serveStep cfg s p h e = some (.ok (s.setHandler p h'))) : (s.core.objs p).Shows h' := by
  cases hsv with
  | timedOut =>
      refine ⟨hs.body, ?_, ?_, ?_⟩
      · rintro ⟨⟩
      · rintro ⟨⟩
      · rintro _ _ _ ⟨⟩
  | cut => exact hs.move rfl rfl (by rintro _ _ _ ⟨⟩)
  | refused hpc =>
      refine hs.move rfl rfl fun call₁ message₁ status₁ h₁ => ?_
      cases h₁
      exact refused_status hpc hstep
  | accepted hpc =>
      obtain ⟨-, -, -, hheader, -⟩ := hI.answered _ hpc
      refine ⟨hs.body, fun _ => ?_, ?_, ?_⟩
      · rw [hheader]
        rfl
      · rintro ⟨⟩
      · rintro _ _ _ ⟨⟩
  | mismatch => exact hs.move rfl rfl (by rintro _ _ _ ⟨⟩)
  | forwarded => exact hs.move rfl rfl (by rintro _ _ _ ⟨⟩)
  | @wrote chunk hpc =>
      refine ⟨?_, hs.ok, hs.notFound, by rintro _ _ _ ⟨⟩⟩
      change h.body ++ chunk <+: _
      rw [← (hI.writing chunk hpc).taken]
      exact (s.core.objs p).isPrefix_taken
  | @writeFails chunk hpc n message =>
      refine ⟨?_, hs.ok, hs.notFound, by rintro _ _ _ ⟨⟩⟩
      change h.body ++ chunk.take n <+: _
      refine .trans ?_ (s.core.objs p).isPrefix_taken
      rw [(hI.writing chunk hpc).taken]
      exact (List.prefix_append_right_inj _).mpr (List.take_prefix n chunk)
  | @close call message after next _ hpc => exact hs.closeNext hpc next
  | success => exact hs.move rfl rfl hs.deferred

/-- **Every step keeps what the HTTP responses say of their requests.** -/
theorem SysSteps.shows (hI : SysInv cfg s) (hs : SysSteps cfg s e s')
    (hstep : ∀ p e', e = .serve p e' → (system cfg).step (.ok s) e = some (.ok s'))
    (hP : ∀ p h, s.handlers p = some h → (s.core.objs p).Shows h) :
    ∀ p h, s'.handlers p = some h → (s'.core.objs p).Shows h := by
  intro p h hh
  have hg := hs.grows hI.loop
  -- a handler that does nothing in this step
  have hold : s'.handlers p = s.handlers p → (s'.core.objs p).Shows h := by
    intro hsame
    rw [hsame] at hh
    exact (hP p h hh).mono (hg.objs p (hI.handler p h hh).lt)
  -- the handler `q` becomes `h'`
  have hset : ∀ {q : Ptr} {t : Sys} {h' : Handler}, s' = t.setHandler q h' → t.handlers = s.handlers →
      (s'.core.objs q).Shows h' → (s'.core.objs p).Shows h := by
    intro q t h' hs' ht hq
    by_cases hpq : p = q
    · subst hpq
      rw [hs', Sys.setHandler_self] at hh
      cases hh
      exact hq
    · refine hold ?_
      rw [hs', Sys.setHandler_ne _ _ hpq, ht]
  have hmono : ∀ {q : Ptr} {h : Handler}, s.handlers q = some h → (s'.core.objs q).Shows h :=
    fun hq => (hP _ _ hq).mono (hg.objs _ (hI.handler _ _ hq).lt)
  cases hs with
  | loop | begin | finish | last | complete | drain | disconnect => exact hold rfl
  | discardTake | discardStop | discardExit => exact hold rfl
  | start =>
      refine hset rfl rfl ⟨List.nil_prefix, ?_, ?_, ?_⟩
      · rintro ⟨⟩
      · rintro ⟨⟩
      · rintro _ _ _ ⟨⟩
  | @discardStart q h₁ message after hd hq hpc => exact hset rfl rfl ((hmono hq).closeNext hpc (some _))
  | @serves q h₁ h' e hq hsv =>
      have hserve := hstep q e rfl
      simp only [system, sysStep, hq] at hserve
      exact hset rfl rfl (hsv.shows (hI.handler q h₁ hq) (hP q h₁ hq) hserve)
  | @takeResponse q h₁ o c hq hpc hr =>
      refine hset (t := s.putObj q { s.core.objs q with pendingResponse := c }) rfl rfl ?_
      rcases o with _ | _ | header
      · exact (hmono hq).move rfl rfl (by rintro _ _ _ ⟨⟩)
      · refine ⟨(hmono hq).body, by rintro ⟨⟩, fun _ => ?_, by rintro _ _ _ ⟨⟩⟩
        have hsent : none ∈ (s.core.objs q).pendingResponse.sent := by
          rcases Chan.recv_cases hr with ⟨a, rest, hb, ha, -⟩ | ⟨-, -, ha, -⟩
          · obtain rfl := Option.some.inj ha
            rw [Chan.sent, hb]
            simp
          · cases ha
        exact (hg.objs q (hI.handler q h₁ hq).lt).pending.subset hsent
      · exact (hmono hq).move rfl rfl (by rintro _ _ _ ⟨⟩)
  | @takeChunk q h₁ rsp chunk c hq =>
      exact hset (t := s.putObj q _) rfl rfl ((hmono hq).move rfl rfl (by rintro _ _ _ ⟨⟩))
  | @closeTrigger q h₁ message after now sendOk core hq hpc =>
      exact hset (t := { s with core := core }) rfl rfl ((hmono hq).closeNext hpc none)
  | @successTrigger q h₁ sendOk core err hq =>
      exact hset (t := { s with core := core }) rfl rfl ((hmono hq).move rfl rfl (hmono hq).deferred)

end Shows

end Loon
