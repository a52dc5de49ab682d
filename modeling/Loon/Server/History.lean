import Loon.Server.Invariant

set_option autoImplicit false

/-!
# The history of a run

What the client sent for a request, as an observer of the steps of a run sees it: the headers that
were accepted (`acceptedHeader`), the responses that arrived while the request was open
(`answeredOpen`), and the data of the chunk messages (`chunkData`). `Steps.records` says how a step
moves these into the channels of the request, and **`records_of_run`** is the same for whole runs:
the response channel holds exactly the responses that arrived while the request was open, and the
chunk channel a prefix of the chunk data, all of it as long as the request is open and the connection
without a fault.

`St.Grows` is the order in which states follow each other.
-/

namespace Loon

/-! ## Observers -/

section Observers

variable {ext : Externals} (cfg : Config ext)

/-- The loop handles `m` in `s` without closing the connection. -/
def accepts (s : St) (m : ClientMessage) (now : Time) : Bool :=
  match dispatch cfg s m now with
  | .ok s' => s'.fault.isNone
  | .error _ => false

/-- The header accepted for the request `p` at a step. -/
def acceptedHeader (p : Ptr) : Except Panic St → Event → List ContentHeader
  | .ok s, .recv m now =>
    match m.data with
    | some (.contentHeader h) =>
      if s.requests.lookup h.requestId = some p ∧ accepts cfg s m now then [h] else []
    | _ => []
  | _, _ => []

/-- The response that arrives for the request `p` at a step, if `p` is not closed. -/
def answeredOpen (p : Ptr) : Except Panic St → Event → List (Option ContentHeader)
  | .ok s, .recv m now =>
    match m.data with
    | some (.contentHeader h) =>
      if s.requests.lookup h.requestId = some p ∧ accepts cfg s m now ∧
        (s.objs p).isClosed = false then [some h] else []
    | some (.emptyResponse r) =>
      if s.requests.lookup r.requestId = some p ∧ accepts cfg s m now ∧
        (s.objs p).isClosed = false then [none] else []
    | _ => []
  | _, _ => []

/-- The data of a `ContentChunk` message for the request `p`. -/
def chunkData (p : Ptr) : Except Panic St → Event → List Bytes
  | .ok s, .recv m _ =>
    match m.data with
    | some (.contentChunk c) => if s.requests.lookup c.requestId = some p then [c.data] else []
    | _ => []
  | _, _ => []

end Observers

/-! ## Growth of the state -/

/-- `s'` is a later state than `s`. -/
structure St.Grows (s s' : St) : Prop where
  created : s.created ≤ s'.created
  objs : ∀ p, p < s.created → (s.objs p).Grows (s'.objs p)
  send : s.send <+: s'.send
  done : s.done = true → s'.done = true

section Growth

variable {s s' : St}

theorem St.Grows.refl (s : St) : s.Grows s :=
  ⟨le_rfl, fun p _ => .refl (s.objs p), List.prefix_rfl, fun h => h⟩

theorem St.Grows.trans {s₁ : St} (h : s.Grows s₁) (h' : s₁.Grows s') : s.Grows s' :=
  ⟨h.created.trans h'.created, fun p hp => (h.objs p hp).trans (h'.objs p (hp.trans_le h.created)),
    h.send.trans h'.send, fun hd => h'.done (h.done hd)⟩

theorem St.grows_put {p : Ptr} {r : Request} (h : (s.objs p).Grows r) : s.Grows (s.put p r) :=
  ⟨le_rfl, fun q _ => St.put_rel Request.Grows.refl h q, List.prefix_rfl, fun h => h⟩

theorem St.grows_close (reason : CloseReason) (msg : String) : s.Grows (s.close reason msg) :=
  ⟨le_rfl, fun p _ => .refl (s.objs p), List.prefix_rfl, fun _ => rfl⟩

theorem St.grows_delete (r : Request) : s.Grows (s.deleteRequest r) :=
  ⟨le_rfl, fun p _ => .refl (s.objs p), List.prefix_rfl, fun h => h⟩

theorem St.grows_enqueue (m : ServerMessage) : s.Grows (s.enqueue m) :=
  ⟨le_rfl, fun p _ => .refl (s.objs p), List.prefix_append _ _, fun h => h⟩

theorem St.grows_done : s.Grows { s with done := true } :=
  ⟨le_rfl, fun p _ => .refl (s.objs p), List.prefix_rfl, fun _ => rfl⟩

theorem St.grows_top : s.Grows s.top := by
  unfold St.top
  split_ifs
  · exact ⟨le_rfl, fun p _ => .refl (s.objs p), List.prefix_rfl, fun h => h⟩
  · exact .refl s

theorem Begins.grows {C : ℕ} {m : ContentChunk} {now : Time} {x : St ⊕ St × PendingWrite}
    (h : Begins C s m now x) : x.elim s.Grows fun y => s.Grows y.1 := by
  cases h with
  | unknown | misplaced => exact St.grows_close _ _
  | reject => exact (St.grows_put Request.grows_advance).trans (St.grows_close _ _)
  | accept =>
    exact St.grows_put (Request.grows_advance.trans (Request.grows_resetTimeout now))

theorem Finishes.grows {C : ℕ} {w : PendingWrite} (hc : Core C (some w) s) (h : Finishes s w s') :
    s.Grows s' := by
  obtain ⟨-, -, hd, hr⟩ := hc.writing w rfl
  cases h with
  | discard => exact .refl s
  | drop => exact St.grows_delete _
  | forward hc => exact St.grows_put (Request.grows_written hr hc hd _)
  | complete hc =>
    exact St.grows_put ((Request.grows_written hr hc hd _).trans Request.grows_finished)

theorem Handles.grows {C bufferSize : ℕ} {now : Time} {d : ClientData} (hC : 0 < C)
    (hcore : Core C none s) (hf : s.fault = none) (h : Handles C bufferSize s now d s') :
    s.Grows s' := by
  cases h with
  | emptyUnknown | emptyAgain | headerUnknown | headerAgain => exact St.grows_close _ _
  | headerReject | closeUnknown | closeReject => exact St.grows_close _ _
  | emptyOpen => exact (St.grows_put Request.grows_emptied).trans (St.grows_delete _)
  | emptyClosed => exact St.grows_delete _
  | header _ hr => exact St.grows_put (Request.grows_answered hr _ _ now)
  | close => exact (St.grows_put Request.grows_shut).trans (St.grows_delete _)
  | chunkReject hb => exact hb.grows
  | chunk hb hfin => exact hb.grows.trans (hfin.grows (hb.core hC hcore hf))

theorem Closes.grows {p : Ptr} {message : String} {now : Time} {err : Option ApiError}
    (h : Closes s p message now s' err) : s.Grows s' := by
  cases h with
  | deleted | already | completed => exact .refl s
  | failed => exact St.grows_done
  | closed =>
    exact (St.grows_enqueue _).trans
      (St.grows_put ((Request.grows_touch now).trans Request.grows_markClosed))

theorem Succeeds.grows {p : Ptr} {err : Option ApiError} (h : Succeeds s p s' err) :
    s.Grows s' := by
  cases h with
  | refused => exact .refl s
  | failed => exact St.grows_done
  | sent => exact (St.grows_enqueue _).trans (St.grows_delete _)

theorem Sweeps.grows {timeout now : Time} {visits : List Visit}
    (h : Sweeps timeout now s visits s') : s.Grows s' := by
  induction h with
  | nil s => exact .refl s
  | skip _ _ ih => exact ih
  | fault => exact St.grows_close _ _
  | delete _ _ _ _ _ ih => exact (St.grows_delete _).trans ih
  | close _ _ _ _ hr _ ih => exact hr.grows.trans ih

theorem St.grows_allocate (id : UInt64) (path : String) (now : Time) :
    s.Grows (s.allocate id path now) :=
  ⟨Nat.le_succ _, fun p hp => by
    have : (s.allocate id path now).objs p = s.objs p := St.put_objs_ne _ _ (Nat.ne_of_lt hp)
    rw [this]; exact .refl _, List.prefix_rfl, fun h => h⟩

theorem ClosedAll.grows {ids : List UInt64} (h : ClosedAll s ids s') : s.Grows s' := by
  refine ⟨by rw [h.eq], fun p _ => ?_, by rw [h.eq], fun hd => by rw [h.eq]; exact hd⟩
  rcases h.objs p with e | e
  · rw [e]; exact .refl _
  · rw [e]; exact Request.grows_shut

variable {ext : Externals} {cfg : Config ext}

theorem Steps.grows {e : Event} (hI : Inv cfg s) (h : Steps cfg s e s') : s.Grows s' := by
  cases h with
  | recv hp _ _ hh =>
    exact (hh.grows cfg.chunkSize_pos hI.core (hI.fault_none hp)).trans St.grows_top
  | @forward path now sendOk id hp hid =>
    refine (St.grows_allocate id path now).trans (.trans ?_ St.grows_top)
    cases sendOk with
    | false => exact St.grows_done
    | true => exact St.grows_enqueue _
  | success _ _ _ hh => exact hh.grows.trans St.grows_top
  | close _ _ _ hh => exact hh.grows.trans St.grows_top
  | count => exact St.grows_top
  | timeout _ _ hh => exact hh.grows.trans St.grows_top
  | done => exact St.grows_done
  | ret _ _ _ hc =>
    exact hc.grows.trans ⟨le_rfl, fun p _ => .refl _, List.prefix_rfl, fun h => h⟩
  | takeResponse _ hr =>
    rw [Request.tookResponse_eq hr]
    exact St.grows_put (Request.receives_popResponse _).grows
  | takeChunk _ hr hc =>
    rw [Request.tookChunk_eq hr hc]
    exact St.grows_put (Request.receives_popChunk _).grows

/-- **Later states of a run only grow.** -/
theorem grows_of_run {es : List Event} (hI : Inv cfg s)
    (h : (protocol cfg).run (.ok s) es = some (.ok s')) : s.Grows s' := by
  suffices H : ∀ c, (protocol cfg).run (.ok s) es = some c →
      ∀ s', c = .ok s' → Inv cfg s' ∧ s.Grows s' from (H _ h s' rfl).2
  intro c hrun
  refine Machine.run_inv (M := protocol cfg)
    (P := fun c => ∀ s', c = .ok s' → Inv cfg s' ∧ s.Grows s') ?_ ?_ hrun
  · rintro (_ | s₁) e c' hP hs s₂ rfl
    · cases hs
    · obtain ⟨h1, h2⟩ := hP s₁ rfl
      have hst := steps_of_step h1 hs
      exact ⟨hst.inv h1, h2.trans (hst.grows h1)⟩
  · rintro _ ⟨⟩
    exact ⟨hI, .refl s⟩

end Growth

/-! ## What a step records -/

/-- Nothing was recorded between `r` and `r'`. -/
structure Request.SameLog (r r' : Request) : Prop where
  header : r'.header = r.header
  pending : r'.pendingResponse.sent = r.pendingResponse.sent
  log : r'.chunkLog = r.chunkLog

section Records

variable {s s' : St}

theorem Request.SameLog.refl (r : Request) : r.SameLog r := ⟨rfl, rfl, rfl⟩

theorem Request.SameLog.trans {r r' r'' : Request} (h : r.SameLog r') (h' : r'.SameLog r'') :
    r.SameLog r'' :=
  ⟨h'.header.trans h.header, h'.pending.trans h.pending, h'.log.trans h.log⟩

theorem Request.sameLog_shut (r : Request) : r.SameLog r.shut := by
  unfold Request.shut
  split_ifs <;> exact ⟨rfl, rfl, rfl⟩

theorem Request.Receives.sameLog {r r' : Request} (h : r.Receives r') : r.SameLog r' :=
  ⟨h.header, h.sent, h.chunkLog⟩

theorem St.sameLog_put {p : Ptr} {r : Request} (h : (s.objs p).SameLog r) (q : Ptr) :
    (s.objs q).SameLog ((s.put p r).objs q) := St.put_rel Request.SameLog.refl h q

theorem Closes.sameLog {p : Ptr} {message : String} {now : Time} {err : Option ApiError}
    (h : Closes s p message now s' err) (q : Ptr) : (s.objs q).SameLog (s'.objs q) := by
  cases h with
  | deleted | already | completed | failed => exact .refl _
  | @closed x =>
    have hx : (s.objs x).SameLog { s.objs x with lastUpdated := now }.markClosed := ⟨rfl, rfl, rfl⟩
    exact St.sameLog_put (s := s.enqueue _) hx q

theorem Succeeds.objs_eq {p : Ptr} {err : Option ApiError} (h : Succeeds s p s' err) :
    s'.objs = s.objs := by
  cases h <;> rfl

theorem Sweeps.sameLog {timeout now : Time} {visits : List Visit}
    (h : Sweeps timeout now s visits s') (q : Ptr) : (s.objs q).SameLog (s'.objs q) := by
  induction h with
  | nil | fault => exact .refl _
  | skip _ _ ih => exact ih
  | delete _ _ _ _ _ ih => exact ih
  | close _ _ _ _ hr _ ih => exact (hr.sameLog q).trans ih

theorem ClosedAll.sameLog {ids : List UInt64} (h : ClosedAll s ids s') (q : Ptr) :
    (s.objs q).SameLog (s'.objs q) := by
  rcases h.objs q with e | e
  · rw [e]; exact .refl _
  · rw [e]; exact Request.sameLog_shut _

variable {ext : Externals} (cfg : Config ext)

/-- What the step `e` from `s` to `s'` adds to the channels of the request `p`. -/
structure Records (s : St) (e : Event) (s' : St) (p : Ptr) : Prop where
  header : (s'.objs p).header.toList =
    (s.objs p).header.toList ++ acceptedHeader cfg p (.ok s) e
  pending : (s'.objs p).pendingResponse.sent =
    (s.objs p).pendingResponse.sent ++ answeredOpen cfg p (.ok s) e
  log : (s'.objs p).chunkLog = (s.objs p).chunkLog ++
    if (s.objs p).isClosed = false ∧ s'.fault = none then chunkData p (.ok s) e else []

variable {cfg}

/-- A step that is not the receipt of a message records nothing. -/
theorem Request.SameLog.records {e : Event} {p : Ptr} (h : (s.objs p).SameLog (s'.objs p))
    (he : ∀ m now, e ≠ .recv m now) : Records cfg s e s' p := by
  have h1 : acceptedHeader cfg p (.ok s) e = [] := by
    cases e <;> first | rfl | exact absurd rfl (he _ _)
  have h2 : answeredOpen cfg p (.ok s) e = [] := by
    cases e <;> first | rfl | exact absurd rfl (he _ _)
  have h3 : chunkData p (.ok s) e = [] := by
    cases e <;> first | rfl | exact absurd rfl (he _ _)
  refine ⟨?_, ?_, ?_⟩
  · rw [h1, h.header, List.append_nil]
  · rw [h2, h.pending, List.append_nil]
  · rw [h3, ite_self, h.log, List.append_nil]

theorem accepts_eq {m : ClientMessage} {now : Time} (h : dispatch cfg s m now = .ok s') :
    accepts cfg s m now = s'.fault.isNone := by
  simp [accepts, h]

/-- A message that closes the connection records nothing. -/
theorem Request.SameLog.records_fault {m : ClientMessage} {now : Time} {p : Ptr}
    (h : (s.objs p).SameLog (s'.objs p)) (hr : dispatch cfg s m now = .ok s')
    (hf : s'.fault.isSome) : Records cfg s (.recv m now) s' p := by
  have ha : accepts cfg s m now = false := by rw [accepts_eq hr]; simpa using hf
  refine ⟨?_, ?_, ?_⟩
  · rw [h.header, acceptedHeader]; split <;> simp [ha]
  · rw [h.pending, answeredOpen]; split <;> simp [ha]
  · rw [h.log, if_neg (fun hc => by rw [hc.2] at hf; cases hf), List.append_nil]

/-- A message that closes the connection at once records nothing. -/
theorem records_close {m : ClientMessage} {now : Time} {reason : CloseReason} {msg : String}
    (hr : dispatch cfg s m now = .ok (s.close reason msg)) (p : Ptr) :
    Records cfg s (.recv m now) (s.close reason msg) p :=
  (show (s.objs p).SameLog ((s.close reason msg).objs p) from .refl _).records_fault hr rfl

/-- A message about another request records nothing for `p`. -/
theorem Request.SameLog.records_other {m : ClientMessage} {d : ClientData} {now : Time} {p q : Ptr}
    (h : (s.objs p).SameLog (s'.objs p)) (hm : m.data = some d)
    (hl : s.requests.lookup d.requestId = some q) (hne : p ≠ q) :
    Records cfg s (.recv m now) s' p := by
  have hq : q ≠ p := fun e => hne e.symm
  refine ⟨?_, ?_, ?_⟩
  · rw [h.header]
    cases d <;> simp_all [acceptedHeader, ClientData.requestId]
  · rw [h.pending]
    cases d <;> simp_all [answeredOpen, ClientData.requestId]
  · rw [h.log]
    cases d <;> simp_all [chunkData, ClientData.requestId]

theorem Request.sameLog_resetTimeout (r : Request) (now : Time) : r.SameLog (r.resetTimeout now) := by
  unfold Request.resetTimeout
  split_ifs <;> exact ⟨rfl, rfl, rfl⟩

theorem Request.sameLog_advance (r : Request) : r.SameLog r.advance :=
  ⟨Request.header_advance, rfl, Request.chunkLog_advance⟩

/-- What the write of an accepted chunk adds to its channel: the data, unless the request is
closed. -/
theorem Finishes.written {w : PendingWrite} (h : Finishes s w s')
    (hr : (s.objs w.ptr).response.isSome) :
    (s'.objs w.ptr).header = (s.objs w.ptr).header ∧
    (s'.objs w.ptr).pendingResponse.sent = (s.objs w.ptr).pendingResponse.sent ∧
    (s'.objs w.ptr).chunkLog = (s.objs w.ptr).chunkLog ++
      (if (s.objs w.ptr).isClosed = false then [w.data] else []) ∧
    ∀ q, q ≠ w.ptr → s'.objs q = s.objs q := by
  obtain ⟨rsp, hr⟩ := Option.isSome_iff_exists.mp hr
  cases h with
  | discard hc | drop hc => exact ⟨rfl, rfl, by simp [hc, St.deleteRequest], fun _ _ => rfl⟩
  | forward hc =>
    refine ⟨?_, ?_, ?_, fun q hq => St.put_objs_ne _ _ hq⟩
    · rw [St.put_objs_self, Request.header_written]
    · rw [St.put_objs_self]; rfl
    · rw [St.put_objs_self, Request.chunkLog_written hr, if_pos hc]
  | complete hc =>
    refine ⟨?_, ?_, ?_, fun q hq => St.put_objs_ne _ _ hq⟩
    · rw [St.put_objs_self, Request.header_finished, Request.header_written]
    · rw [St.put_objs_self]; rfl
    · rw [St.put_objs_self, Request.chunkLog_finished, Request.chunkLog_written hr, if_pos hc]

theorem Finishes.fault_eq {w : PendingWrite} (h : Finishes s w s') : s'.fault = s.fault := by
  cases h <;> rfl

/-- A chunk that passes its checks is accepted. -/
theorem accepts_of_begins {m : ClientMessage} {chunk : ContentChunk} {now : Time}
    {w : PendingWrite} (hI : Inv cfg s) (hp : s.phase = .loop)
    (hm : m.data = some (.contentChunk chunk))
    (hr : beginChunk cfg s chunk now = .ok (.inr (s', w))) :
    accepts cfg s m now = true := by
  obtain ⟨x, hx, hb⟩ := beginChunk_spec cfg hI.core (hI.fault_none hp) chunk now
  obtain rfl : x = .inr (s', w) := Except.ok.inj (hx.symm.trans hr)
  have hcore := hb.core cfg.chunkSize_pos hI.core (hI.fault_none hp)
  obtain ⟨core', h1, h2⟩ := finishChunk_spec hcore
  have hd : dispatch cfg s m now = .ok core' := by
    simp only [dispatch, hm, onContentChunk, hr]
    exact h1
  rw [accepts_eq hd, h2.fault_eq, (hcore.writing w rfl).1]
  rfl

/-- A chunk that is accepted passes its checks. -/
theorem begins_of_accepts {m : ClientMessage} {chunk : ContentChunk} {now : Time}
    (hI : Inv cfg s) (hp : s.phase = .loop) (hm : m.data = some (.contentChunk chunk))
    (h : accepts cfg s m now = true) :
    ∃ s' w, Begins cfg.chunkSize.toNat s chunk now (.inr (s', w)) := by
  obtain ⟨x, hx, hb⟩ := beginChunk_spec cfg hI.core (hI.fault_none hp) chunk now
  cases x with
  | inr r => exact ⟨r.1, r.2, hb⟩
  | inl closed =>
    have hd : dispatch cfg s m now = .ok closed := by
      simp only [dispatch, hm, onContentChunk, hx]
      rfl
    -- a chunk that fails a check closes the connection
    have hfault : closed.fault.isSome := by
      cases hb <;> rfl
    rw [accepts_eq hd, Option.isNone_iff_eq_none] at h
    rw [h] at hfault
    cases hfault

theorem Request.isClosed_resetTimeout (r : Request) (now : Time) :
    (r.resetTimeout now).isClosed = r.isClosed := by
  unfold Request.resetTimeout
  split_ifs <;> rfl

/-- **What the receipt of a message records.** -/
theorem Handles.records {m : ClientMessage} {d : ClientData} {now : Time} (hI : Inv cfg s)
    (hp : s.phase = .loop) (hm : m.data = some d) (hr : dispatch cfg s m now = .ok s')
    (hh : Handles cfg.chunkSize.toNat cfg.bufferSize s now d s') (p : Ptr) :
    Records cfg s (.recv m now) s' p := by
  have hn := hI.fault_none hp
  have ha := accepts_eq hr
  cases hh with
  | emptyUnknown | emptyAgain | headerUnknown | headerAgain => exact records_close hr p
  | headerReject | closeUnknown | closeReject => exact records_close hr p
  | @emptyOpen r q hl hresp hc =>
    by_cases hq : p = q
    · subst hq
      have ha' : accepts cfg s m now = true := by rw [ha]; simp [hn, St.put, St.deleteRequest]
      refine ⟨?_, ?_, ?_⟩
      · simp [acceptedHeader, hm, St.deleteRequest, Request.header, Request.markCompleted,
          Request.filled]
      · simp only [answeredOpen, hm, hl, ha', hc, St.deleteRequest, St.put_objs_self, and_self,
          if_true]
        exact Request.sent_filled none
      · simp [chunkData, hm, St.deleteRequest, Request.chunkLog, Request.markCompleted,
          Request.filled]
    · refine Request.SameLog.records_other ?_ hm hl hq
      simp only [St.deleteRequest, St.put_objs_ne _ _ hq]
      exact .refl _
  | @emptyClosed r q hl hresp hc =>
    by_cases hq : p = q
    · subst hq
      refine ⟨?_, ?_, ?_⟩
      · simp [acceptedHeader, hm, St.deleteRequest]
      · simp [answeredOpen, hm, hc, St.deleteRequest]
      · simp [chunkData, hm, St.deleteRequest]
    · exact Request.SameLog.records_other (.refl _) hm hl hq
  | @header h q hl hresp hsize =>
    by_cases hq : p = q
    · subst hq
      have ha' : accepts cfg s m now = true := by rw [ha]; simp [St.put, hn]
      refine ⟨?_, ?_, ?_⟩
      · simp only [acceptedHeader, hm, hl, ha', St.put_objs_self, Request.header, hresp, and_self,
          if_true]
        unfold Request.answered
        split_ifs <;> rfl
      · rw [St.put_objs_self]
        unfold Request.answered
        cases hc : (s.objs p).isClosed with
        | true => simp [answeredOpen, hm, hc]
        | false =>
          simp only [Bool.false_eq_true, if_false, Request.sent_filled, answeredOpen, hm, hl, ha',
            hc, and_self, if_true]
      · rw [St.put_objs_self, Request.chunkLog_answered]
        simp [chunkData, hm, Request.chunkLog, hresp]
    · refine Request.SameLog.records_other ?_ hm hl hq
      rw [St.put_objs_ne _ _ hq]
      exact .refl _
  | @close r q hl hresp hd =>
    have hsame : (s.objs p).SameLog ((s.put q (s.objs q).shut).objs p) :=
      St.sameLog_put (Request.sameLog_shut (s.objs q)) p
    refine ⟨?_, ?_, ?_⟩
    · simp [acceptedHeader, hm, St.deleteRequest, hsame.header]
    · simp [answeredOpen, hm, St.deleteRequest, hsame.pending]
    · simp [chunkData, hm, St.deleteRequest, hsame.log]
  | @chunkReject c s' hb =>
    cases hb with
    | unknown | misplaced => exact records_close hr p
    | @reject q rsp hl hrsp hd reason msg _ =>
      have hsame := St.sameLog_put (s := s) (Request.sameLog_advance (s.objs q)) p
      exact (show (s.objs p).SameLog (((s.put q _).close reason msg).objs p) from
        hsame).records_fault hr rfl
  | @chunk c s₁ s' w hb hfin =>
    have hc := (hb.core cfg.chunkSize_pos hI.core hn).writing w rfl
    cases hb with
    | @accept q rsp hl hrsp hd hseq hlen =>
      obtain ⟨h1, h2, h3, h4⟩ := hfin.written hc.2.2.2
      have hsame : (s.objs q).SameLog ((s.objs q).advance.resetTimeout now) :=
        (Request.sameLog_advance _).trans (Request.sameLog_resetTimeout _ now)
      by_cases hq : p = q
      · subst hq
        have hf : s'.fault = none := hfin.fault_eq.trans hn
        simp only [St.put_objs_self, Request.isClosed_resetTimeout] at h1 h2 h3
        refine ⟨?_, ?_, ?_⟩
        · simp [h1, hsame.header, acceptedHeader, hm]
        · simp [h2, hsame.pending, answeredOpen, hm]
        · simp only [chunkData, hm, hl, if_true, hf, and_true]
          rw [h3, hsame.log]
          rfl
      · refine Request.SameLog.records_other ?_ hm hl hq
        rw [h4 p hq, St.put_objs_ne _ _ hq]
        exact .refl _

@[simp] theorem St.top_objs (s : St) : s.top.objs = s.objs := by
  unfold St.top; split_ifs <;> rfl

@[simp] theorem St.top_fault (s : St) : s.top.fault = s.fault := by
  unfold St.top; split_ifs <;> rfl

@[simp] theorem St.top_done (s : St) : s.top.done = s.done := by
  unfold St.top; split_ifs <;> rfl

@[simp] theorem St.top_created (s : St) : s.top.created = s.created := by
  unfold St.top; split_ifs <;> rfl

@[simp] theorem St.top_requests (s : St) : s.top.requests = s.requests := by
  unfold St.top; split_ifs <;> rfl

@[simp] theorem St.top_send (s : St) : s.top.send = s.send := by
  unfold St.top; split_ifs <;> rfl

/-- **What a step records** for a request that exists. -/
theorem Steps.records {e : Event} (hI : Inv cfg s) (h : Steps cfg s e s') {p : Ptr}
    (hp : p < s.created) : Records cfg s e s' p := by
  cases h with
  | @recv m d now s' hph hm hr hh =>
    obtain ⟨h1, h2, h3⟩ := hh.records hI hph hm hr p
    exact ⟨by rw [St.top_objs]; exact h1, by rw [St.top_objs]; exact h2,
      by rw [St.top_objs, St.top_fault]; exact h3⟩
  | @forward path now sendOk id hph hid =>
    refine Request.SameLog.records ?_ (fun _ _ h => by cases h)
    have hobj : (s.allocate id path now).objs p = s.objs p := St.put_objs_ne _ _ (Nat.ne_of_lt hp)
    have hsend : ((s.allocate id path now).sendMessage (.request id path) sendOk).1.objs p =
        s.objs p := by
      unfold St.sendMessage
      split_ifs <;> exact hobj
    rw [St.top_objs, hsend]
    exact .refl _
  | success _ _ _ hh =>
    refine Request.SameLog.records ?_ (fun _ _ h => by cases h)
    rw [St.top_objs, hh.objs_eq]
    exact .refl _
  | close _ _ _ hh =>
    refine Request.SameLog.records ?_ (fun _ _ h => by cases h)
    rw [St.top_objs]
    exact hh.sameLog p
  | count =>
    refine Request.SameLog.records ?_ (fun _ _ h => by cases h)
    rw [St.top_objs]
    exact .refl _
  | timeout _ _ hh =>
    refine Request.SameLog.records ?_ (fun _ _ h => by cases h)
    rw [St.top_objs]
    exact hh.sameLog p
  | done => exact Request.SameLog.records (.refl _) (fun _ _ h => by cases h)
  | ret _ _ _ hh =>
    exact Request.SameLog.records (hh.sameLog p) (fun _ _ h => by cases h)
  | @takeResponse q o c _ hr =>
    rw [Request.tookResponse_eq hr]
    exact Request.SameLog.records (St.sameLog_put (Request.receives_popResponse _).sameLog p)
      (fun _ _ h => by cases h)
  | @takeChunk q rsp o c _ hrsp hr =>
    rw [Request.tookChunk_eq hrsp hr]
    exact Request.SameLog.records (St.sameLog_put (Request.receives_popChunk _).sameLog p)
      (fun _ _ h => by cases h)

/-- Nothing is observed for a request that does not exist. -/
theorem Inv.observes_none (hI : Inv cfg s) {p : Ptr} (hp : s.created ≤ p) (e : Event) :
    acceptedHeader cfg p (.ok s) e = [] ∧ answeredOpen cfg p (.ok s) e = [] ∧
      chunkData p (.ok s) e = [] := by
  have hl : ∀ id, s.requests.lookup id ≠ some p := fun id hl =>
    absurd (hI.core.entry id p hl).1 (Nat.not_lt.mpr hp)
  cases e with
  | recv m now =>
    rcases hm : m.data with _ | (_ | _ | _ | _) <;>
      simp [acceptedHeader, answeredOpen, chunkData, hm, hl]
  | _ => exact ⟨rfl, rfl, rfl⟩

theorem Steps.fault_none {e : Event} (hI : Inv cfg s) (h : Steps cfg s e s')
    (hf : s'.fault = none) : s.fault = none := by
  cases h with
  | recv hp | forward hp | success hp | close hp | count hp | timeout hp => exact hI.fault_none hp
  | done | takeResponse | takeChunk => exact hf
  | ret _ _ _ hh => exact (congrArg St.fault hh.eq).symm.trans hf

/-- Only a request to the client creates a request object. -/
theorem Steps.created_eq {e : Event} (h : Steps cfg s e s')
    (he : ∀ path now sendOk, e ≠ .forwardRequest path now sendOk) : s'.created = s.created := by
  cases h with
  | recv _ _ _ hh => exact (St.top_created _).trans hh.frame.created
  | forward => exact absurd rfl (he _ _ _)
  | success _ _ _ hh => exact (St.top_created _).trans hh.frame.created
  | close _ _ _ hh => exact (St.top_created _).trans hh.frame.created
  | timeout _ _ hh => exact (St.top_created _).trans hh.frame.created
  | count => exact St.top_created s
  | done | takeResponse | takeChunk => rfl
  | @ret _ s' _ _ _ hh =>
    change s'.created = s.created
    rw [hh.eq]

/-- A step creates at most one request, and that with empty channels. -/
theorem Steps.created {e : Event} (h : Steps cfg s e s') :
    s'.created = s.created ∨ s'.created = s.created + 1 ∧
      ∃ id path now, s'.objs s.created = newRequest id path now := by
  by_cases he : ∃ path now sendOk, e = .forwardRequest path now sendOk
  · obtain ⟨path, now, sendOk, rfl⟩ := he
    cases h with
    | @forward _ _ _ id =>
      rw [St.top_created, St.top_objs]
      right
      cases sendOk <;> exact ⟨rfl, id, path, now, St.put_objs_self _ _ _⟩
  · exact .inl (h.created_eq fun path now sendOk h' => he ⟨path, now, sendOk, h'⟩)

/-- The loop does not come back from where it leaves. -/
theorem Steps.phase_loop {e : Event} (h : Steps cfg s e s') (hp' : s'.phase = .loop) :
    s.phase = .loop := by
  cases h with
  | recv hp | forward hp | success hp | close hp | count hp | timeout hp => exact hp
  | done | takeResponse | takeChunk => exact hp'
  | ret => cases hp'

variable (cfg)

/-- The channels of the request `p` against what was observed in the run of `es`. -/
structure Recorded (es : List Event) (s : St) (p : Ptr) : Prop where
  header : (s.objs p).header.toList =
    (protocol cfg).observe (acceptedHeader cfg p) (.ok St.init) es
  pending : (s.objs p).pendingResponse.sent =
    (protocol cfg).observe (answeredOpen cfg p) (.ok St.init) es
  log : (s.objs p).chunkLog <+: (protocol cfg).observe (chunkData p) (.ok St.init) es
  openLog : (s.objs p).isClosed = false → s.fault = none →
    (s.objs p).chunkLog = (protocol cfg).observe (chunkData p) (.ok St.init) es

variable {cfg}

theorem Recorded.snoc {es : List Event} {e : Event} {p : Ptr} (h : Recorded cfg es s p)
    (hrun : (protocol cfg).run (.ok St.init) es = some (.ok s)) (hI : Inv cfg s)
    (hst : Steps cfg s e s') (hp : p < s.created) : Recorded cfg (es ++ [e]) s' p := by
  have hrec := hst.records hI hp
  have hg := (hst.grows hI).objs p hp
  refine ⟨?_, ?_, ?_, fun hc hf => ?_⟩
  · rw [Machine.observe_snoc _ e hrun, hrec.header, h.header]
  · rw [Machine.observe_snoc _ e hrun, hrec.pending, h.pending]
  · rw [Machine.observe_snoc _ e hrun, hrec.log]
    split_ifs with hc
    · rw [h.openLog hc.1 (hst.fault_none hI hc.2)]
    · rw [List.append_nil]
      exact h.log.trans (List.prefix_append _ _)
  · have hc' : (s.objs p).isClosed = false := by
      cases hx : (s.objs p).isClosed with
      | false => rfl
      | true => rw [hg.closed hx] at hc; cases hc
    rw [Machine.observe_snoc _ e hrun, hrec.log, if_pos ⟨hc', hf⟩,
      h.openLog hc' (hst.fault_none hI hf)]

/-- **What a run records.** The header, the response channel and the chunk channel of every request
hold what the client sent for it. -/
theorem records_of_run {es : List Event} (h : (protocol cfg).run (.ok St.init) es = some (.ok s))
    {p : Ptr} (hp : p < s.created) : Recorded cfg es s p := by
  -- a request that does not exist yet has not been observed
  suffices H : ∀ p, (p < s.created → Recorded cfg es s p) ∧ (s.created ≤ p →
      (protocol cfg).observe (acceptedHeader cfg p) (.ok St.init) es = [] ∧
      (protocol cfg).observe (answeredOpen cfg p) (.ok St.init) es = [] ∧
      (protocol cfg).observe (chunkData p) (.ok St.init) es = []) from (H p).1 hp
  refine (protocol_induction (P := fun es s => ∀ p, (p < s.created → Recorded cfg es s p) ∧
      (s.created ≤ p →
        (protocol cfg).observe (acceptedHeader cfg p) (.ok St.init) es = [] ∧
        (protocol cfg).observe (answeredOpen cfg p) (.ok St.init) es = [] ∧
        (protocol cfg).observe (chunkData p) (.ok St.init) es = [])) ?_ ?_ h).2
  · exact fun p => ⟨fun hlt => absurd hlt (Nat.not_lt_zero p), fun _ => ⟨rfl, rfl, rfl⟩⟩
  · intro es s e s' hrun hI hP hst p
    have hnone : s.created ≤ p →
        (protocol cfg).observe (acceptedHeader cfg p) (.ok St.init) (es ++ [e]) = [] ∧
        (protocol cfg).observe (answeredOpen cfg p) (.ok St.init) (es ++ [e]) = [] ∧
        (protocol cfg).observe (chunkData p) (.ok St.init) (es ++ [e]) = [] := by
      intro hle
      obtain ⟨h1, h2, h3⟩ := (hP p).2 hle
      obtain ⟨e1, e2, e3⟩ := hI.observes_none hle e
      rw [Machine.observe_snoc _ e hrun, Machine.observe_snoc _ e hrun,
        Machine.observe_snoc _ e hrun, h1, h2, h3, e1, e2, e3]
      exact ⟨rfl, rfl, rfl⟩
    rcases Nat.lt_or_ge p s.created with hlt | hge
    · refine ⟨fun _ => ((hP p).1 hlt).snoc hrun hI hst hlt, fun hle => ?_⟩
      have := (hst.grows hI).created
      omega
    · refine ⟨fun hlt => ?_, fun hle => hnone hge⟩
      obtain ⟨h1, h2, h3⟩ := hnone hge
      rcases hst.created with hc | ⟨hc, id, path, now, hnew⟩
      · omega
      · have hps : p = s.created := by omega
        subst hps
        refine ⟨?_, ?_, ?_, fun _ _ => ?_⟩
        · rw [h1, hnew]; rfl
        · rw [h2, hnew]; rfl
        · rw [h3, hnew]; exact List.prefix_rfl
        · rw [h3, hnew]; rfl

end Records

end Loon
