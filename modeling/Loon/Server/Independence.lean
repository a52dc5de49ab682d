import Loon.Lib.Locality
import Loon.Server.Discipline

set_option autoImplicit false

/-!
# Independence of requests

The requests of one connection do not depend on each other. `St.SameAt id` compares two states in
what belongs to one request id: its entry, the objects with that id, and the messages about it.

* `SameAt.put`, `SameAt.enqueue`, `SameAt.deleteRequest`: the same write on both sides; `sameAt_put`
  and so on: a write for another id;
* `dispatch_same`, `sendSuccess_same`, `closeRequest_same`: a handler reads nothing else;
* `openStep_local`: the steps of the loop are local, as long as the connection stays open;
* **`requests_independent`**: two events about different requests commute.
-/

namespace Loon

/-- The states agree on the request `id`, and on everything that belongs to no request. -/
structure St.SameAt (id : UInt64) (s t : St) : Prop where
  lookup : s.requests.lookup id = t.requests.lookup id
  objs : ∀ p, (s.objs p).id = id ∨ (t.objs p).id = id → s.objs p = t.objs p
  log : s.logOf id = t.logOf id
  created : s.created = t.created
  nextRequest : s.nextRequest = t.nextRequest
  done : s.done = t.done
  fault : s.fault = t.fault
  phase : s.phase = t.phase

namespace St.SameAt

variable {id : UInt64} {s t u : St}

theorem equivalence (id : UInt64) : Equivalence (St.SameAt id) where
  refl s := ⟨rfl, fun _ _ => rfl, rfl, rfl, rfl, rfl, rfl, rfl⟩
  symm h := ⟨h.lookup.symm, fun p hp => (h.objs p hp.symm).symm, h.log.symm, h.created.symm,
    h.nextRequest.symm, h.done.symm, h.fault.symm, h.phase.symm⟩
  trans {s t u} h h' := by
    refine ⟨h.lookup.trans h'.lookup, fun p hp => ?_, h.log.trans h'.log, h.created.trans h'.created,
      h.nextRequest.trans h'.nextRequest, h.done.trans h'.done, h.fault.trans h'.fault,
      h.phase.trans h'.phase⟩
    rcases hp with hp | hp
    · have h1 := h.objs p (.inl hp)
      exact h1.trans (h'.objs p (.inl (h1 ▸ hp)))
    · have h1 := h'.objs p (.inr hp)
      exact (h.objs p (.inr (h1 ▸ hp))).trans h1

/-! ### The same write on both sides -/

theorem put (h : SameAt id s t) (p : Ptr) (r : Request) : SameAt id (s.put p r) (t.put p r) where
  lookup := h.lookup
  objs q hq := by
    by_cases hqp : q = p
    · subst hqp
      rw [St.put_objs_self, St.put_objs_self]
    · rw [St.put_objs_ne _ _ hqp, St.put_objs_ne _ _ hqp] at hq ⊢
      exact h.objs q hq
  log := h.log
  created := h.created
  nextRequest := h.nextRequest
  done := h.done
  fault := h.fault
  phase := h.phase

theorem deleteRequest (h : SameAt id s t) (r : Request) :
    SameAt id (s.deleteRequest r) (t.deleteRequest r) where
  lookup := by
    by_cases hr : id = r.id
    · subst hr
      simp only [St.deleteRequest, Finmap.lookup_erase]
    · simp only [St.deleteRequest, Finmap.lookup_erase_ne hr]
      exact h.lookup
  objs := h.objs
  log := h.log
  created := h.created
  nextRequest := h.nextRequest
  done := h.done
  fault := h.fault
  phase := h.phase

theorem enqueue (h : SameAt id s t) (m : ServerMessage) : SameAt id (s.enqueue m) (t.enqueue m) where
  lookup := h.lookup
  objs := h.objs
  log := by
    have hlog := h.log
    simp only [St.logOf, St.enqueue, List.filter_append] at hlog ⊢
    rw [hlog]
  created := h.created
  nextRequest := h.nextRequest
  done := h.done
  fault := h.fault
  phase := h.phase

theorem setDone (h : SameAt id s t) : SameAt id { s with done := true } { t with done := true } where
  lookup := h.lookup
  objs := h.objs
  log := h.log
  created := h.created
  nextRequest := h.nextRequest
  done := rfl
  fault := h.fault
  phase := h.phase

theorem close (h : SameAt id s t) (reason : CloseReason) (msg : String) :
    SameAt id (s.close reason msg) (t.close reason msg) where
  lookup := h.lookup
  objs := h.objs
  log := h.log
  created := h.created
  nextRequest := h.nextRequest
  done := rfl
  fault := rfl
  phase := h.phase

theorem top (h : SameAt id s t) : SameAt id s.top t.top := by
  unfold St.top
  rw [h.done]
  split_ifs
  · exact ⟨h.lookup, h.objs, h.log, h.created, h.nextRequest, rfl, h.fault, rfl⟩
  · exact h

theorem obj_eq (h : SameAt id s t) {p : Ptr} (hp : (s.objs p).id = id) : t.objs p = s.objs p :=
  (h.objs p (.inl hp)).symm

end St.SameAt

/-! ## A write for another request -/

section Frame

variable {id : UInt64} {s : St}

theorem St.sameAt_put {p : Ptr} {r : Request} (hp : (s.objs p).id ≠ id)
    (hr : r.id = (s.objs p).id) : St.SameAt id s (s.put p r) where
  lookup := rfl
  objs q hq := by
    by_cases hqp : q = p
    · subst hqp
      rw [St.put_objs_self, hr] at hq
      exact absurd (or_self_iff.mp hq) hp
    · rw [St.put_objs_ne _ _ hqp]
  log := rfl
  created := rfl
  nextRequest := rfl
  done := rfl
  fault := rfl
  phase := rfl

theorem St.sameAt_deleteRequest {r : Request} (hr : r.id ≠ id) :
    St.SameAt id s (s.deleteRequest r) where
  lookup := (Finmap.lookup_erase_ne hr.symm).symm
  objs _ _ := rfl
  log := rfl
  created := rfl
  nextRequest := rfl
  done := rfl
  fault := rfl
  phase := rfl

theorem St.sameAt_enqueue {m : ServerMessage} (hm : m.requestId ≠ id) :
    St.SameAt id s (s.enqueue m) where
  lookup := rfl
  objs _ _ := rfl
  log := by simp [St.logOf, St.enqueue, hm]
  created := rfl
  nextRequest := rfl
  done := rfl
  fault := rfl
  phase := rfl

end Frame

/-! ## What the handlers read -/

/-- The same panic, or states that agree on `id`. -/
inductive SameOutcome (id : UInt64) : Except Panic St → Except Panic St → Prop
  | ok {s t : St} : St.SameAt id s t → SameOutcome id (.ok s) (.ok t)
  | error (e : Panic) : SameOutcome id (.error e) (.error e)

section Reads

variable {id : UInt64} {s t : St}

theorem completeRequest_same (h : St.SameAt id s t) {p : Ptr} (hp : t.objs p = s.objs p) :
    SameOutcome id (completeRequest s p) (completeRequest t p) := by
  unfold completeRequest
  simp only [hp]
  split_ifs
  · exact .error _
  · exact .ok (h.deleteRequest _)
  cases (s.objs p).complete with
  | error e => exact .error e
  | ok r =>
    simp only [bind, Except.bind]
    cases r.done with
    | error e => exact .error e
    | ok r => exact .ok (h.put p r)

theorem onCloseResponse_same {m : CloseResponse} (h : St.SameAt m.requestId s t)
    (hent : ∀ p, s.requests.lookup m.requestId = some p → (s.objs p).id = m.requestId) :
    SameOutcome m.requestId (onCloseResponse s m) (onCloseResponse t m) := by
  unfold onCloseResponse
  rw [← h.lookup]
  cases hl : s.requests.lookup m.requestId with
  | none => exact .ok (h.close _ _)
  | some p =>
    simp only [h.obj_eq (hent p hl)]
    split_ifs
    · exact .ok (h.close _ _)
    · exact .ok (h.close _ _)
    simp only [Request.close_eq_shut, bind, Except.bind]
    exact .ok ((h.put p _).deleteRequest _)

theorem onEmptyResponse_same {m : EmptyResponse} (h : St.SameAt m.requestId s t)
    (hent : ∀ p, s.requests.lookup m.requestId = some p → (s.objs p).id = m.requestId) :
    SameOutcome m.requestId (onEmptyResponse s m) (onEmptyResponse t m) := by
  unfold onEmptyResponse
  rw [← h.lookup]
  cases hl : s.requests.lookup m.requestId with
  | none => exact .ok (h.close _ _)
  | some p =>
    simp only [h.obj_eq (hent p hl)]
    split_ifs
    · exact .error _
    · exact .ok (h.close _ _)
    cases (s.objs p).provideResponse none with
    | error e => exact .error e
    | ok r =>
      simp only [bind, Except.bind]
      have hc := completeRequest_same (h.put p r) (p := p) (by simp)
      revert hc
      generalize completeRequest (s.put p r) p = x
      generalize completeRequest (t.put p r) p = y
      rintro (hst | e)
      · exact .ok (hst.deleteRequest r)
      · exact .error e

section Chunks

variable {ext : Externals} (cfg : Config ext)

theorem onContentHeader_same {m : ContentHeader} (h : St.SameAt m.requestId s t)
    (hent : ∀ p, s.requests.lookup m.requestId = some p → (s.objs p).id = m.requestId)
    (now : Time) :
    SameOutcome m.requestId (onContentHeader cfg s m now) (onContentHeader cfg t m now) := by
  unfold onContentHeader
  rw [← h.lookup]
  cases hl : s.requests.lookup m.requestId with
  | none => exact .ok (h.close _ _)
  | some p =>
    simp only [h.obj_eq (hent p hl)]
    split_ifs with h0 h1 h2 h3
    · exact .error _
    · exact .ok (h.close _ _)
    · exact .ok (h.close _ _)
    · exact .ok (h.close _ _)
    · exact .ok (h.close _ _)
    · cases ((s.objs p).resetTimeout now).provideResponse (some (newResponse m cfg.bufferSize)) with
      | error e => exact .error e
      | ok r => exact .ok (h.put p r)
    · exact .ok (h.close _ _)

/-- The same panic, the same chunk to be written, or the connection is closed on both sides. -/
inductive SameBegin (id : UInt64) :
    Except Panic (St ⊕ St × PendingWrite) → Except Panic (St ⊕ St × PendingWrite) → Prop
  | closed {s t : St} : St.SameAt id s t → SameBegin id (.ok (.inl s)) (.ok (.inl t))
  | write {s t : St} (w : PendingWrite) : St.SameAt id s t → s.objs w.ptr = t.objs w.ptr →
      SameBegin id (.ok (.inr (s, w))) (.ok (.inr (t, w)))
  | error (e : Panic) : SameBegin id (.error e) (.error e)

theorem beginChunk_same {m : ContentChunk} (h : St.SameAt m.requestId s t)
    (hent : ∀ p, s.requests.lookup m.requestId = some p → (s.objs p).id = m.requestId)
    (now : Time) :
    SameBegin m.requestId (beginChunk cfg s m now) (beginChunk cfg t m now) := by
  unfold beginChunk
  rw [← h.lookup]
  cases hl : s.requests.lookup m.requestId with
  | none => exact .closed (h.close _ _)
  | some p =>
    simp only [h.obj_eq (hent p hl)]
    split_ifs
    · exact .error _
    · exact .closed (h.close _ _)
    · exact .closed (h.close _ _)
    cases (s.objs p).response with
    | none => exact .error _
    | some rsp =>
      dsimp only
      cases rsp.nextChunkInfo cfg.chunkSize with
      | error e => exact .error e
      | ok info =>
        obtain ⟨expected, rsp⟩ := info
        simp only [bind, Except.bind]
        split_ifs
        · exact .closed ((h.put p _).close _ _)
        · exact .closed ((h.put p _).close _ _)
        · exact .write _ (h.put p _) (by simp)

theorem finishChunk_same (h : St.SameAt id s t) {w : PendingWrite}
    (hw : s.objs w.ptr = t.objs w.ptr) :
    SameOutcome id (finishChunk s w) (finishChunk t w) := by
  unfold finishChunk
  rw [← hw]
  cases (s.objs w.ptr).write w.data with
  | error e => exact .error e
  | ok r =>
    simp only [bind, Except.bind]
    split_ifs
    · exact completeRequest_same (h.put w.ptr r) (by simp)
    · exact .ok (h.put w.ptr r)

theorem onContentChunk_same {m : ContentChunk} (h : St.SameAt m.requestId s t)
    (hent : ∀ p, s.requests.lookup m.requestId = some p → (s.objs p).id = m.requestId)
    (now : Time) :
    SameOutcome m.requestId (onContentChunk cfg s m now) (onContentChunk cfg t m now) := by
  unfold onContentChunk
  have hb := beginChunk_same cfg h hent now
  revert hb
  generalize beginChunk cfg s m now = x
  generalize beginChunk cfg t m now = y
  rintro (hst | ⟨w, hst, hw⟩ | e)
  · exact .ok hst
  · exact finishChunk_same hst hw
  · exact .error e

/-- **A client message is handled by what belongs to its request.** -/
theorem dispatch_same {m : ClientMessage} {d : ClientData} (hm : m.data = some d)
    (h : St.SameAt d.requestId s t)
    (hent : ∀ p, s.requests.lookup d.requestId = some p → (s.objs p).id = d.requestId)
    (now : Time) : SameOutcome d.requestId (dispatch cfg s m now) (dispatch cfg t m now) := by
  unfold dispatch
  rw [hm]
  cases d with
  | emptyResponse m => exact onEmptyResponse_same h hent
  | contentHeader m => exact onContentHeader_same cfg h hent now
  | contentChunk m => exact onContentChunk_same cfg h hent now
  | closeResponse m => exact onCloseResponse_same h hent

end Chunks

theorem sendSuccess_same (h : St.SameAt id s t)
    (hent : ∀ p, s.requests.lookup id = some p → (s.objs p).id = id) {p : Ptr}
    (hp : (s.objs p).id = id) (sendOk : Bool) :
    St.SameAt id (sendSuccess s p sendOk).1 (sendSuccess t p sendOk).1 ∧
      (sendSuccess s p sendOk).2 = (sendSuccess t p sendOk).2 := by
  unfold sendSuccess
  rw [h.obj_eq hp, hp, ← h.lookup]
  cases hl : s.requests.lookup id with
  | none => exact ⟨h, rfl⟩
  | some q =>
    simp only [h.obj_eq (hent q hl)]
    cases sendOk with
    | true =>
      simp only [St.sendMessage, if_true, Bool.not_true, Bool.false_eq_true, if_false]
      split_ifs
      · exact ⟨h, rfl⟩
      · exact ⟨h, rfl⟩
      · exact ⟨(h.enqueue _).deleteRequest _, rfl⟩
    | false =>
      simp only [St.sendMessage, Bool.false_eq_true, if_false, Bool.not_false, if_true]
      split_ifs
      · exact ⟨h, rfl⟩
      · exact ⟨h, rfl⟩
      · exact ⟨h.setDone, rfl⟩

/-- The same panic, or the same error and states that agree on `id`. -/
inductive SameResult (id : UInt64) :
    Except Panic (St × Option ApiError) → Except Panic (St × Option ApiError) → Prop
  | ok {s t : St} (err : Option ApiError) : St.SameAt id s t →
      SameResult id (.ok (s, err)) (.ok (t, err))
  | error (e : Panic) : SameResult id (.error e) (.error e)

theorem closeRequest_same (h : St.SameAt id s t)
    (hent : ∀ p, s.requests.lookup id = some p → (s.objs p).id = id) {p : Ptr}
    (hp : (s.objs p).id = id) (message : String) (now : Time) (sendOk : Bool) :
    SameResult id (closeRequest s p message now sendOk) (closeRequest t p message now sendOk) := by
  unfold closeRequest
  rw [h.obj_eq hp, hp, ← h.lookup]
  cases hl : s.requests.lookup id with
  | none => exact .ok _ h
  | some q =>
    simp only [h.obj_eq (hent q hl)]
    cases sendOk with
    | true =>
      simp only [St.sendMessage, if_true, Bool.not_true, Bool.false_eq_true, if_false,
        Request.close_eq_shut, bind, Except.bind]
      split_ifs
      · exact .ok _ h
      · exact .ok _ h
      · exact .ok _ ((h.enqueue _).put q _)
    | false =>
      simp only [St.sendMessage, Bool.false_eq_true, if_false, Bool.not_false, if_true]
      split_ifs
      · exact .ok _ h
      · exact .ok _ h
      · exact .ok _ h.setDone

end Reads

/-! ## What the handlers leave alone -/

section Others

variable {C : ℕ} {s s' : St} {id : UInt64}

/-- A request that left the map, with its object changed before. -/
theorem St.sameAt_put_delete {p : Ptr} {r : Request} (hp : (s.objs p).id ≠ id)
    (hr : r.id = (s.objs p).id) : St.SameAt id s ((s.put p r).deleteRequest (s.objs p)) :=
  (St.SameAt.equivalence id).trans (St.sameAt_put hp hr) (St.sameAt_deleteRequest hp)

theorem Finishes.sameAt {w : PendingWrite} (h : Finishes s w s') (hw : (s.objs w.ptr).id ≠ id) :
    St.SameAt id s s' := by
  cases h with
  | discard => exact (St.SameAt.equivalence id).refl s
  | drop => exact St.sameAt_deleteRequest hw
  | forward => exact St.sameAt_put hw rfl
  | complete => exact St.sameAt_put hw rfl

/-- A client message changes nothing of another request. -/
theorem Handles.sameAt {bufferSize : ℕ} {now : Time} {d : ClientData} (hc : Core C none s)
    (h : Handles C bufferSize s now d s') (hopen : s'.done = false) (hid : id ≠ d.requestId) :
    St.SameAt id s s' := by
  have hobj : ∀ p, s.requests.lookup d.requestId = some p → (s.objs p).id ≠ id := fun p hp =>
    (hc.entry _ p hp).2 ▸ hid.symm
  cases h with
  | emptyUnknown | emptyAgain | headerUnknown | headerAgain | headerReject | closeUnknown
  | closeReject => cases hopen
  | emptyOpen h => exact St.sameAt_put_delete (hobj _ h) rfl
  | emptyClosed h => exact St.sameAt_deleteRequest (hobj _ h)
  | header h => exact St.sameAt_put (hobj _ h) (Request.answered_id _ _ _ _)
  | close h => exact St.sameAt_put_delete (hobj _ h) (Request.shut_id _)
  | chunkReject hb => cases hb <;> cases hopen
  | chunk hb hf =>
    cases hb with
    | accept h =>
      have hsame := St.sameAt_put (s := s) (hobj _ h)
        (Request.resetTimeout_id (s.objs _).advance now)
      refine (St.SameAt.equivalence id).trans hsame (hf.sameAt ?_)
      rw [St.put_objs_self, Request.resetTimeout_id]
      exact hobj _ h

theorem Closes.sameAt {p : Ptr} {message : String} {now : Time} {err : Option ApiError}
    (hc : Core C none s) (h : Closes s p message now s' err) (hopen : s'.done = false)
    (hid : (s.objs p).id ≠ id) : St.SameAt id s s' := by
  cases h with
  | deleted | already | completed => exact (St.SameAt.equivalence id).refl s
  | failed => cases hopen
  | @closed q h =>
    have hq : (s.objs q).id ≠ id := (hc.entry _ _ h).2 ▸ hid
    have hm : (ServerMessage.requestClosed (s.objs q).id message).requestId ≠ id := hq
    exact (St.SameAt.equivalence id).trans (St.sameAt_enqueue hm) (St.sameAt_put hq rfl)

theorem Succeeds.sameAt {p : Ptr} {err : Option ApiError} (hc : Core C none s)
    (h : Succeeds s p s' err) (hopen : s'.done = false) (hid : (s.objs p).id ≠ id) :
    St.SameAt id s s' := by
  cases h with
  | refused => exact (St.SameAt.equivalence id).refl s
  | failed => cases hopen
  | @sent q h =>
    have hq : (s.objs q).id ≠ id := (hc.entry _ _ h).2 ▸ hid
    have hm : (ServerMessage.success (s.objs q).id).requestId ≠ id := hq
    exact (St.SameAt.equivalence id).trans (St.sameAt_enqueue hm) (St.sameAt_deleteRequest hq)

end Others

/-! ## Steps that leave the connection open -/

/-- The result that a caller of the client API gets. -/
def apiResult (s : St) : Event → Option (Option ApiError)
  | .triggerSuccess p sendOk => some (sendSuccess s p sendOk).2
  | .triggerClose p message now sendOk =>
    match closeRequest s p message now sendOk with
    | .ok (_, err) => some err
    | .error _ => none
  | _ => none

/-- The event is a client message about the request `id`, or a call of `Success` or `Close` for a
request with that id. -/
def Event.About (s : St) (e : Event) (id : UInt64) : Prop :=
  match e with
  | .recv m _ => ∃ d, m.data = some d ∧ d.requestId = id
  | .triggerSuccess p _ => p < s.created ∧ (s.objs p).id = id
  | .triggerClose p _ _ _ => p < s.created ∧ (s.objs p).id = id
  | _ => False

section OpenSteps

variable {ext : Externals} (cfg : Config ext)

/-- A step after which the connection is still open, with the result for the caller. -/
def openStep (s : St) (e : Event) : Option (St × Option (Option ApiError)) :=
  match step cfg s e with
  | some (.ok s') => if s'.done = false then some (s', apiResult s e) else none
  | _ => none

/-- The loop is at work and the connection open. -/
structure OpenLoop (s : St) : Prop where
  inv : Inv cfg s
  phase : s.phase = .loop

variable {cfg} {s t s' : St} {e : Event} {o : Option (Option ApiError)} {id : UInt64}

theorem openStep_eq_some :
    openStep cfg s e = some (s', o) ↔
      step cfg s e = some (.ok s') ∧ s'.done = false ∧ apiResult s e = o := by
  unfold openStep
  rcases hs : step cfg s e with _ | _ | s₁
  · simp
  · simp
  · simp only [Option.some.injEq, Except.ok.injEq]
    constructor
    · intro h
      split_ifs at h with hd
      cases h
      exact ⟨rfl, hd, rfl⟩
    · rintro ⟨rfl, hd, rfl⟩
      rw [if_pos hd]

theorem St.top_of_open (h : s.top.done = false) : s.top = s := by
  unfold St.top at h ⊢
  split_ifs at h ⊢ with hd
  · rw [hd] at h
    cases h
  · rfl

theorem OpenLoop.steps (h : OpenLoop cfg s) (hs : step cfg s e = some (.ok s')) : Steps cfg s e s' :=
  steps_of_step h.inv hs

theorem openStep_keeps (h : OpenLoop cfg s) (ha : e.About s id)
    (hs : openStep cfg s e = some (s', o)) : OpenLoop cfg s' := by
  obtain ⟨hs, hd, -⟩ := openStep_eq_some.mp hs
  have hst := h.steps hs
  refine ⟨hst.inv h.inv, ?_⟩
  cases hst with
  | recv hp _ _ hh =>
    rw [St.top_of_open hd]
    exact hh.frame.phase.trans hp
  | success hp _ _ hh =>
    rw [St.top_of_open hd]
    exact hh.frame.phase.trans hp
  | close hp _ _ hh =>
    rw [St.top_of_open hd]
    exact hh.frame.phase.trans hp
  | forward | count | timeout | done | ret | takeResponse | takeChunk => exact ha.elim

theorem openStep_stable (h : OpenLoop cfg s) (hs : openStep cfg s e = some (s', o)) {b : Event}
    (hb : b.About s id) : b.About s' id := by
  obtain ⟨hs, -, -⟩ := openStep_eq_some.mp hs
  have hg := (h.steps hs).grows h.inv
  have hobj : ∀ p, p < s.created ∧ (s.objs p).id = id → p < s'.created ∧ (s'.objs p).id = id := by
    rintro p ⟨hp, hi⟩
    exact ⟨hp.trans_le hg.created, (hg.objs p hp).sameId.trans hi⟩
  cases b with
  | recv m now => exact hb
  | triggerSuccess p sendOk => exact hobj p hb
  | triggerClose p message now sendOk => exact hobj p hb
  | forwardRequest | countRequests | timeout | done | ret | takeResponse | takeChunk => exact hb

theorem openStep_frame (h : OpenLoop cfg s) (ha : e.About s id)
    (hs : openStep cfg s e = some (s', o)) {j : UInt64} (hj : j ≠ id) : St.SameAt j s s' := by
  obtain ⟨hs, hd, -⟩ := openStep_eq_some.mp hs
  have hst := h.steps hs
  cases hst with
  | recv _ hm _ hh =>
    obtain ⟨d, hd', rfl⟩ := ha
    rw [hm] at hd'
    cases hd'
    have htop := St.top_of_open hd
    rw [htop] at hd ⊢
    exact hh.sameAt h.inv.core hd hj
  | success _ _ _ hh =>
    have htop := St.top_of_open hd
    rw [htop] at hd ⊢
    exact hh.sameAt h.inv.core hd (ha.2 ▸ hj.symm)
  | close _ _ _ hh =>
    have htop := St.top_of_open hd
    rw [htop] at hd ⊢
    exact hh.sameAt h.inv.core hd (ha.2 ▸ hj.symm)
  | forward | count | timeout | done | ret | takeResponse | takeChunk => exact ha.elim

theorem openStep_reads (hs : OpenLoop cfg s) (ht : OpenLoop cfg t) (ha : e.About s id)
    (h : St.SameAt id s t) (hstep : openStep cfg s e = some (s', o)) :
    ∃ t', openStep cfg t e = some (t', o) ∧ St.SameAt id s' t' := by
  obtain ⟨hstep, hd, hres⟩ := openStep_eq_some.mp hstep
  have hent : ∀ p, s.requests.lookup id = some p → (s.objs p).id = id :=
    fun p hp => (hs.inv.core.entry _ p hp).2
  suffices H : ∃ t', step cfg t e = some (.ok t') ∧ apiResult t e = apiResult s e ∧
      St.SameAt id s' t' by
    obtain ⟨t', h1, h2, h3⟩ := H
    exact ⟨t', openStep_eq_some.mpr ⟨h1, h3.done.symm.trans hd, h2.trans hres⟩, h3⟩
  cases e with
  | recv m now =>
    obtain ⟨d, hm, rfl⟩ := ha
    have hsame := dispatch_same cfg hm h hent now
    simp only [step, if_pos hs.phase, Option.some.injEq] at hstep
    simp only [step, if_pos ht.phase]
    revert hsame hstep
    generalize dispatch cfg s m now = x
    generalize dispatch cfg t m now = y
    rintro (hst | e) hx
    · cases hx
      exact ⟨_, rfl, rfl, hst.top⟩
    · cases hx
  | triggerSuccess p sendOk =>
    obtain ⟨hp, hid⟩ := ha
    have hsame := sendSuccess_same h hent hid sendOk
    simp only [step, if_pos (And.intro hs.phase hp), Option.some.injEq, Except.ok.injEq] at hstep
    have hpt : t.phase = .loop ∧ p < t.created := ⟨ht.phase, h.created ▸ hp⟩
    simp only [step, if_pos hpt]
    rw [← hstep]
    exact ⟨_, rfl, congrArg some hsame.2.symm, hsame.1.top⟩
  | triggerClose p message now sendOk =>
    obtain ⟨hp, hid⟩ := ha
    have hsame := closeRequest_same h hent hid message now sendOk
    simp only [step, if_pos (And.intro hs.phase hp), Option.some.injEq] at hstep
    have hpt : t.phase = .loop ∧ p < t.created := ⟨ht.phase, h.created ▸ hp⟩
    simp only [step, if_pos hpt, apiResult]
    revert hsame hstep
    generalize closeRequest s p message now sendOk = x
    generalize closeRequest t p message now sendOk = y
    rintro (⟨err, hst⟩ | e) hx
    · cases hx
      exact ⟨_, rfl, rfl, hst.top⟩
    · cases hx
  | forwardRequest | countRequests | timeout | done | ret | takeResponse | takeChunk =>
    exact ha.elim

/-- **The steps of the loop are local.** -/
theorem openStep_local (cfg : Config ext) :
    LocalSteps (openStep cfg) (OpenLoop cfg) Event.About St.SameAt where
  same := St.SameAt.equivalence
  keeps h ha hs := openStep_keeps h ha hs
  stable h _ hs hb := openStep_stable h hs hb
  frame h ha hs hj := openStep_frame h ha hs hj
  reads hs ht ha _ h hstep := openStep_reads hs ht ha h hstep

theorem St.SameAt.eq_of_forall (h : ∀ id, St.SameAt id s t) :
    s.requests = t.requests ∧ s.objs = t.objs ∧ ∀ id, s.logOf id = t.logOf id :=
  ⟨Finmap.ext_lookup fun id => (h id).lookup,
    funext fun p => (h (s.objs p).id).objs p (.inl rfl), fun id => (h id).log⟩

/-- An event about a request is handled by the loop. -/
theorem Event.About.phase_loop (ha : e.About s id) (hs : step cfg s e = some (.ok s')) :
    s.phase = .loop := by
  cases e with
  | recv m now =>
    simp only [step] at hs
    split_ifs at hs with hp
    exact hp
  | triggerSuccess p sendOk =>
    simp only [step] at hs
    split_ifs at hs with hp
    exact hp.1
  | triggerClose p message now sendOk =>
    simp only [step] at hs
    split_ifs at hs with hp
    exact hp.1
  | forwardRequest | countRequests | timeout | done | ret | takeResponse | takeChunk =>
    exact ha.elim

/-- **Requests are independent.** Two events about different requests that leave the connection open
do so in the other order as well, with the same map, the same request objects, the same results for
the callers, and for every request the same messages. -/
theorem requests_independent {es : List Event}
    (hrun : (protocol cfg).run (.ok St.init) es = some (.ok s)) {e₁ e₂ : Event} {id₁ id₂ : UInt64}
    (h₁ : e₁.About s id₁) (h₂ : e₂.About s id₂) (hne : id₁ ≠ id₂) {s₁ s₁₂ : St}
    (hs₁ : step cfg s e₁ = some (.ok s₁)) (hs₁₂ : step cfg s₁ e₂ = some (.ok s₁₂))
    (hopen : s₁₂.done = false) :
    ∃ s₂ s₂₁, step cfg s e₂ = some (.ok s₂) ∧ step cfg s₂ e₁ = some (.ok s₂₁) ∧
      s₂₁.done = false ∧ s₂₁.requests = s₁₂.requests ∧ s₂₁.objs = s₁₂.objs ∧
      apiResult s₂ e₁ = apiResult s e₁ ∧ apiResult s e₂ = apiResult s₁ e₂ ∧
      ∀ id, s₂₁.logOf id = s₁₂.logOf id := by
  have hloop : OpenLoop cfg s := ⟨inv_of_run hrun, h₁.phase_loop hs₁⟩
  have hst := hloop.steps hs₁
  have hd₁ : s₁.done = false := by
    by_contra hd
    have hg := (steps_of_step (hst.inv hloop.inv) hs₁₂).grows (hst.inv hloop.inv)
    rw [hg.done (by simpa using hd)] at hopen
    cases hopen
  obtain ⟨s₂, s₂₁, ho₂, ho₂₁, hsame⟩ := (openStep_local cfg).comm hloop h₁ h₂ hne
    (openStep_eq_some.mpr ⟨hs₁, hd₁, rfl⟩) (openStep_eq_some.mpr ⟨hs₁₂, hopen, rfl⟩)
  obtain ⟨hs₂, -, hr₂⟩ := openStep_eq_some.mp ho₂
  obtain ⟨hs₂₁, hd, hr₁⟩ := openStep_eq_some.mp ho₂₁
  obtain ⟨hmap, hobjs, hlog⟩ := St.SameAt.eq_of_forall hsame
  exact ⟨s₂, s₂₁, hs₂, hs₂₁, hd, hmap.symm, hobjs.symm, hr₁, hr₂, fun id => (hlog id).symm⟩

/-- Two requests, the first one answered. -/
def twoRequests : List Event :=
  [.forwardRequest "a" 0 true, .forwardRequest "b" 0 true,
    .recv ⟨some (.contentHeader sampleHeader)⟩ 1]

theorem requests_independent_twoRequests :
    ∃ s₂ s₂₁, step sampleConfig (stateAfter sampleConfig twoRequests)
        (.triggerClose 1 "closed" 3 true) = some (.ok s₂) ∧
      step sampleConfig s₂ (.recv ⟨some (.contentChunk ⟨1, 0, [1, 2]⟩)⟩ 2) = some (.ok s₂₁) ∧
      s₂₁.done = false := by
  have hrun : (protocol sampleConfig).run (.ok St.init) twoRequests =
      some (.ok (stateAfter sampleConfig twoRequests)) := rfl
  have hchunk : Event.About (stateAfter sampleConfig twoRequests)
      (.recv ⟨some (.contentChunk ⟨1, 0, [1, 2]⟩)⟩ 2) 1 := ⟨_, rfl, rfl⟩
  have hclose : Event.About (stateAfter sampleConfig twoRequests)
      (.triggerClose 1 "closed" 3 true) 2 := ⟨by decide, by decide⟩
  obtain ⟨s₂, s₂₁, h1, h2, h3, -⟩ := requests_independent hrun hchunk hclose (by decide) rfl rfl rfl
  exact ⟨s₂, s₂₁, h1, h2, h3⟩

end OpenSteps

end Loon
