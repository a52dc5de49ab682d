import Loon.Server.Independence

set_option autoImplicit false

/-!
# The timeout sweep

`checkTimeouts` goes over the request map while it changes it. What a sweep does to a request does not
depend on what it does to the others, nor on the order in which it visits them, as long as the
connection stays open (`Swept`). A request that is closed and due ends the sweep and the connection;
which one it is, if there are several, depends on the order.

* `SweptAll`, `Sweeps.swept`: what a sweep that leaves the connection open does to each request;
* `checkTimeouts_blames`: the first closed and due request that is visited is the one that the
  connection is closed for;
* `Steps.frozen`: nothing changes `lastUpdated` of a closed request;
* **`timeout_sweep`**: all of this, in every reachable state and over whole runs.
-/

namespace Loon

/-! ## A sweep that leaves the connection open -/

/-- What a sweep from `s` to `s'` did to the request `p` with the id `id`. -/
inductive Swept (timeout now : Time) (visits : List Visit) (s s' : St) (id : UInt64) (p : Ptr) : Prop
  | kept (hdue : now - (s.objs p).lastUpdated < timeout) (hl : s'.requests.lookup id = some p)
      (hobj : s'.objs p = s.objs p) (hlog : s'.logOf id = s.logOf id)
  | deleted (hdue : timeout ≤ now - (s.objs p).lastUpdated) (hd : (s.objs p).isCompleted = true)
      (hl : s'.requests.lookup id = none) (hobj : s'.objs p = s.objs p)
      (hlog : s'.logOf id = s.logOf id)
  | closed (hdue : timeout ≤ now - (s.objs p).lastUpdated) (hc : (s.objs p).isClosed = false)
      (hd : (s.objs p).isCompleted = false) (v : Visit) (hv : v ∈ visits)
      (hl : s'.requests.lookup id = some p)
      (hobj : s'.objs p = { s.objs p with lastUpdated := v.now }.markClosed)
      (hlog : s'.logOf id = s.logOf id ++ [.requestClosed id "request timed out"])

section Sweep

variable {C : ℕ} {timeout now : Time} {s s₁ s' : St} {visits : List Visit} {id : UInt64} {p : Ptr}

theorem Swept.of_same (h : Swept timeout now visits s₁ s' id p) (hs : St.SameAt id s s₁)
    (hp : (s.objs p).id = id) {v : Visit} : Swept timeout now (v :: visits) s s' id p := by
  have hobj : s₁.objs p = s.objs p := hs.obj_eq hp
  cases h with
  | kept hdue hl ho hlog =>
    rw [hobj] at hdue ho
    exact .kept hdue hl ho (hlog.trans hs.log.symm)
  | deleted hdue hd hl ho hlog =>
    rw [hobj] at hdue hd ho
    exact .deleted hdue hd hl ho (hlog.trans hs.log.symm)
  | closed hdue hc hd v hv hl ho hlog =>
    rw [hobj] at hdue hc hd ho
    rw [← hs.log] at hlog
    exact .closed hdue hc hd v (List.mem_cons_of_mem _ hv) hl ho hlog

theorem Sweeps.done (h : Sweeps timeout now s visits s') (hopen : s'.done = false) :
    s.done = false := by
  by_contra hd
  rw [h.grows.done (by simpa using hd)] at hopen
  cases hopen

/-- An open request is closed. -/
theorem Closes.eq_of_open {message : String} {err : Option ApiError}
    (h : Closes s p message now s' err) (hp : s.Present p) (hc : (s.objs p).isClosed = false)
    (hd : (s.objs p).isCompleted = false) (hopen : s'.done = false) :
    s' = (s.enqueue (.requestClosed (s.objs p).id message)).put p
      { s.objs p with lastUpdated := now }.markClosed := by
  unfold St.Present at hp
  cases h with
  | deleted hl => rw [hp] at hl; cases hl
  | already hl hc' => rw [hp] at hl; cases hl; rw [hc] at hc'; cases hc'
  | completed hl hd' => rw [hp] at hl; cases hl; rw [hd] at hd'; cases hd'
  | failed => cases hopen
  | closed hl => rw [hp] at hl; cases hl; rfl

/-- A request that is not visited is left alone; one that is visited is swept. -/
structure SweptAll (timeout now : Time) (visits : List Visit) (s s' : St) : Prop where
  others : ∀ id, id ∉ visits.map Visit.id → St.SameAt id s s'
  swept : ∀ id p, s.requests.lookup id = some p → id ∈ visits.map Visit.id →
    Swept timeout now visits s s' id p

/-- A visit that leaves the other requests alone, and the visits after it. -/
theorem SweptAll.cons (h : SweptAll timeout now visits s₁ s') (hcore : Core C none s) {v : Visit}
    (hv : v.id ∉ visits.map Visit.id) (hframe : ∀ id, id ≠ v.id → St.SameAt id s s₁)
    (hself : ∀ p, s.requests.lookup v.id = some p → St.SameAt v.id s₁ s' →
      Swept timeout now (v :: visits) s s' v.id p) : SweptAll timeout now (v :: visits) s s' where
  others id hid := by
    rw [List.map_cons, List.mem_cons, not_or] at hid
    exact (St.SameAt.equivalence id).trans (hframe id hid.1) (h.others id hid.2)
  swept id p hp hid := by
    rcases eq_or_ne id v.id with rfl | hne
    · exact hself p hp (h.others _ hv)
    · have hp₁ := (hframe id hne).lookup.symm.trans hp
      have hid' := (List.mem_cons.mp hid).resolve_left hne
      exact (h.swept id p hp₁ hid').of_same (hframe id hne) (hcore.entry _ p hp).2

/-- **What a sweep does to the requests**, visit by visit. -/
theorem Sweeps.swept (hcore : Core C none s) (h : Sweeps timeout now s visits s')
    (hopen : s'.done = false) (hnodup : (visits.map Visit.id).Nodup) :
    SweptAll timeout now visits s s' := by
  induction h with
  | nil s => exact ⟨fun id _ => (St.SameAt.equivalence id).refl s, by simp⟩
  | fault => cases hopen
  | @skip s s' v vs hskip ht ih =>
    rw [List.map_cons, List.nodup_cons] at hnodup
    refine (ih hcore hopen hnodup.2).cons hcore hnodup.1
      (fun id _ => (St.SameAt.equivalence id).refl s) fun p hl hs => ?_
    exact .kept (hskip p hl) (hs.lookup.symm.trans hl) (hs.obj_eq (hcore.entry _ p hl).2) hs.log.symm
  | @delete s s' v vs q hl hdue hc hd ht ih =>
    rw [List.map_cons, List.nodup_cons] at hnodup
    have hcore₁ := hcore.delete (hcore.present hl) (.inl hd) fun r => .inl (writeOn_none r)
    have hq := (hcore.entry _ q hl).2
    refine (ih hcore₁ hopen hnodup.2).cons hcore hnodup.1
      (fun id hid => St.sameAt_deleteRequest (hq ▸ hid.symm)) fun p hp hs => ?_
    rw [hl] at hp
    cases hp
    have hgone : (s.deleteRequest (s.objs q)).requests.lookup v.id = none := by
      simp only [St.deleteRequest, hq, Finmap.lookup_erase]
    exact .deleted hdue hd (hs.lookup.symm.trans hgone) (hs.obj_eq hq) hs.log.symm
  | @close s s₁ s' v vs q err hl hdue hc hd hr ht ih =>
    rw [List.map_cons, List.nodup_cons] at hnodup
    have hopen₁ := ht.done hopen
    have hq := (hcore.entry _ q hl).2
    refine (ih (hr.core hcore) hopen hnodup.2).cons hcore hnodup.1
      (fun id hid => hr.sameAt hcore hopen₁ (hq ▸ hid.symm)) fun p hp hs => ?_
    rw [hl] at hp
    cases hp
    have hs₁ := hr.eq_of_open (hcore.present hl) hc hd hopen₁
    have hobj : s₁.objs q = { s.objs q with lastUpdated := v.now }.markClosed := by
      rw [hs₁, St.put_objs_self]
    have hl₁ : s₁.requests.lookup v.id = some q := by
      rw [hs₁]
      exact hl
    have hlog : s₁.logOf v.id = s.logOf v.id ++ [.requestClosed v.id "request timed out"] := by
      rw [hs₁, hq]
      simp [St.logOf, St.put, St.enqueue, ServerMessage.requestId]
    have hid₁ : (s₁.objs q).id = v.id := by
      rw [hobj]
      exact hq
    exact .closed hdue hc hd v List.mem_cons_self (hs.lookup.symm.trans hl₁)
      ((hs.obj_eq hid₁).trans hobj) (hs.log.symm.trans hlog)

end Sweep

/-! ## The request that is to blame -/

/-- The request `id` is closed and due. -/
def ClosedDue (timeout now : Time) (s : St) (id : UInt64) : Prop :=
  ∃ p, s.requests.lookup id = some p ∧ (s.objs p).isClosed = true ∧
    timeout ≤ now - (s.objs p).lastUpdated

/-- The `Close` message for a closed request that is due. -/
def timedOutClose (id : UInt64) : Close where
  reason := .timedOut
  message := "Response for closed request was not closed in time" ++ tag id

section Blame

variable {ext : Externals} {cfg : Config ext} {C : ℕ} {timeout now : Time} {s s' : St} {id : UInt64}

theorem closedDue_congr {t : St} (hl : s.requests.lookup id = t.requests.lookup id)
    (hobj : ∀ p, s.requests.lookup id = some p → t.objs p = s.objs p) :
    ClosedDue timeout now s id ↔ ClosedDue timeout now t id := by
  unfold ClosedDue
  constructor
  · rintro ⟨p, hp, h⟩
    exact ⟨p, hl ▸ hp, by rwa [hobj p hp]⟩
  · rintro ⟨p, hp, h⟩
    rw [← hl] at hp
    exact ⟨p, hp, by rwa [hobj p hp] at h⟩

/-- To close a request changes nothing of the others, whether the message is sent or not. -/
theorem Closes.closedDue {p : Ptr} {message : String} {t : Time} {err : Option ApiError}
    (hcore : Core C none s) (h : Closes s p message t s' err) (hid : id ≠ (s.objs p).id) :
    ClosedDue timeout now s id ↔ ClosedDue timeout now s' id := by
  cases h with
  | deleted | already | completed | failed => exact closedDue_congr rfl fun _ _ => rfl
  | @closed q hl =>
    refine closedDue_congr rfl fun r hr => St.put_objs_ne _ _ ?_
    rintro rfl
    exact hid ((hcore.entry _ _ hr).2.symm.trans (hcore.entry _ _ hl).2)

/-- **The connection is closed for the first closed and due request that is visited.** -/
theorem checkTimeouts_blames (hcore : Core C none s) {visits : List Visit}
    (h : checkTimeouts cfg now s visits = .ok s') (hnodup : (visits.map Visit.id).Nodup)
    (hdue : ∃ v ∈ visits, ClosedDue cfg.options.intervals.clientTimeout now s v.id) :
    ∃ vs v vs', visits = vs ++ v :: vs' ∧
      (∀ w ∈ vs, ¬ ClosedDue cfg.options.intervals.clientTimeout now s w.id) ∧
      ClosedDue cfg.options.intervals.clientTimeout now s v.id ∧
      s'.fault = some (timedOutClose v.id) ∧ s'.done = true := by
  induction visits generalizing s with
  | nil => obtain ⟨v, hv, -⟩ := hdue; cases hv
  | cons v vs ih =>
    rw [List.map_cons, List.nodup_cons] at hnodup
    by_cases hv : ClosedDue cfg.options.intervals.clientTimeout now s v.id
    · refine ⟨[], v, vs, rfl, by simp, hv, ?_⟩
      obtain ⟨p, hl, hc, ht⟩ := hv
      unfold checkTimeouts at h
      simp only [hl, if_neg (not_lt.mpr ht), if_pos hc] at h
      cases h
      rw [(hcore.entry _ _ hl).2]
      exact ⟨rfl, rfl⟩
    -- the sweep goes on in a state in which the same of the other requests are closed and due
    suffices H : ∃ s₁, Core C none s₁ ∧ checkTimeouts cfg now s₁ vs = .ok s' ∧
        ∀ w ∈ vs, ClosedDue cfg.options.intervals.clientTimeout now s w.id ↔
          ClosedDue cfg.options.intervals.clientTimeout now s₁ w.id by
      obtain ⟨s₁, hcore₁, h₁, hiff⟩ := H
      have hdue₁ : ∃ w ∈ vs, ClosedDue cfg.options.intervals.clientTimeout now s₁ w.id := by
        obtain ⟨w, hw, hd⟩ := hdue
        rcases List.mem_cons.mp hw with rfl | hw
        · exact absurd hd hv
        · exact ⟨w, hw, (hiff w hw).mp hd⟩
      obtain ⟨ws, u, us, rfl, hnot, hu, hf⟩ := ih hcore₁ h₁ hnodup.2 hdue₁
      refine ⟨v :: ws, u, us, rfl, ?_, (hiff u (by simp)).mpr hu, hf⟩
      exact List.forall_mem_cons.mpr
        ⟨hv, fun w hw hd => hnot w hw ((hiff w (by simp [hw])).mp hd)⟩
    have hne : ∀ w ∈ vs, w.id ≠ v.id := fun w hw he =>
      hnodup.1 (he ▸ List.mem_map_of_mem hw)
    unfold checkTimeouts at h
    cases hl : s.requests.lookup v.id with
    | none =>
      rw [hl] at h
      exact ⟨s, hcore, h, fun _ _ => Iff.rfl⟩
    | some p =>
      have hp := (hcore.entry _ _ hl).2
      simp only [hl] at h
      split_ifs at h with h1 h2 h3
      · exact ⟨s, hcore, h, fun _ _ => Iff.rfl⟩
      · exact absurd ⟨p, hl, h2, not_lt.mp h1⟩ hv
      · refine ⟨_, hcore.delete (hcore.present hl) (.inl h3) fun r => .inl (writeOn_none r), h, ?_⟩
        intro w hw
        refine closedDue_congr ?_ fun _ _ => rfl
        exact (St.sameAt_deleteRequest (hp ▸ (hne w hw).symm)).lookup
      · obtain ⟨s₁, err, e1, hcl⟩ := closeRequest_spec s p "request timed out" v.now v.sendOk
        rw [e1] at h
        exact ⟨s₁, hcl.core hcore, h, fun w hw => hcl.closedDue hcore (hp ▸ hne w hw)⟩

end Blame

/-! ## Closed requests -/

/-- A closed request stays closed and keeps its time stamp. -/
def Request.Frozen (r r' : Request) : Prop :=
  r.isClosed = true → r'.isClosed = true ∧ r'.lastUpdated = r.lastUpdated

section Frozen

variable {s s' : St} {r r' r'' : Request}

theorem Request.Frozen.refl (r : Request) : r.Frozen r := fun h => ⟨h, rfl⟩

theorem Request.Frozen.trans (h : r.Frozen r') (h' : r'.Frozen r'') : r.Frozen r'' := fun hc => by
  obtain ⟨h1, h2⟩ := h hc
  obtain ⟨h3, h4⟩ := h' h1
  exact ⟨h3, h4.trans h2⟩

/-- What changes neither the `closed` channel nor the time stamp. -/
theorem Request.frozen_of_eq (hc : r'.closed = r.closed) (ht : r'.lastUpdated = r.lastUpdated) :
    r.Frozen r' := fun h => ⟨by unfold Request.isClosed at h ⊢; rw [hc]; exact h, ht⟩

theorem Request.frozen_of_open (h : r.isClosed = false) : r.Frozen r' := fun hc => by
  rw [h] at hc
  cases hc

theorem Request.frozen_shut (r : Request) : r.Frozen r.shut := by
  intro hc
  unfold Request.shut
  rw [if_pos (by simp [hc])]
  exact ⟨hc, rfl⟩

theorem Request.frozen_resetTimeout (r : Request) (now : Time) : r.Frozen (r.resetTimeout now) := by
  intro hc
  simp only [Request.resetTimeout, hc, Bool.not_true, Bool.false_eq_true, if_false, and_self]

theorem Request.frozen_answered (r : Request) (header : ContentHeader) (bufferSize : ℕ)
    (now : Time) : r.Frozen (r.answered header bufferSize now) := by
  intro hc
  unfold Request.answered
  rw [if_pos hc]
  exact ⟨hc, rfl⟩

theorem St.frozen_put {p : Ptr} {r : Request} (h : (s.objs p).Frozen r) (q : Ptr) :
    (s.objs q).Frozen ((s.put p r).objs q) := St.put_rel Request.Frozen.refl h q

theorem Finishes.frozen {w : PendingWrite} (h : Finishes s w s') (q : Ptr) :
    (s.objs q).Frozen (s'.objs q) := by
  cases h with
  | discard | drop => exact .refl _
  | forward => exact St.frozen_put (by exact Request.frozen_of_eq rfl rfl) q
  | complete => exact St.frozen_put (by exact Request.frozen_of_eq rfl rfl) q

/-- **No client message extends the time of a closed request.** -/
theorem Handles.frozen {C bufferSize : ℕ} {now : Time} {d : ClientData}
    (h : Handles C bufferSize s now d s') (q : Ptr) : (s.objs q).Frozen (s'.objs q) := by
  cases h with
  | emptyUnknown | emptyAgain | headerUnknown | headerAgain | headerReject | closeUnknown
  | closeReject | emptyClosed => exact .refl _
  | emptyOpen _ _ hc => exact St.frozen_put (Request.frozen_of_open hc) q
  | header => exact St.frozen_put (Request.frozen_answered _ _ _ now) q
  | close => exact St.frozen_put (Request.frozen_shut _) q
  | chunkReject hb =>
    cases hb with
    | unknown | misplaced => exact .refl _
    | reject => exact St.frozen_put (by exact Request.frozen_of_eq rfl rfl) q
  | chunk hb hf =>
    cases hb with
    | @accept p =>
      have hadv : (s.objs p).Frozen (s.objs p).advance := Request.frozen_of_eq rfl rfl
      exact (St.frozen_put (hadv.trans (Request.frozen_resetTimeout _ now)) q).trans (hf.frozen q)

theorem Closes.frozen {p : Ptr} {message : String} {now : Time} {err : Option ApiError}
    (h : Closes s p message now s' err) (q : Ptr) : (s.objs q).Frozen (s'.objs q) := by
  cases h with
  | deleted | already | completed | failed => exact .refl _
  | closed _ hc => exact St.frozen_put (s := s.enqueue _) (Request.frozen_of_open hc) q

theorem Sweeps.frozen {timeout now : Time} {visits : List Visit}
    (h : Sweeps timeout now s visits s') (q : Ptr) : (s.objs q).Frozen (s'.objs q) := by
  induction h with
  | nil | fault => exact .refl _
  | skip _ _ ih => exact ih
  | delete _ _ _ _ _ ih => exact ih
  | close _ _ _ _ hr _ ih => exact (hr.frozen q).trans ih

variable {ext : Externals} {cfg : Config ext}

theorem Steps.frozen {e : Event} (h : Steps cfg s e s') {q : Ptr} (hq : q < s.created) :
    (s.objs q).Frozen (s'.objs q) := by
  cases h with
  | recv _ _ _ hh =>
    rw [St.top_objs]
    exact hh.frozen q
  | @forward path now sendOk id =>
    have hobj : (s.allocate id path now).objs q = s.objs q := St.put_objs_ne _ _ hq.ne
    rw [St.top_objs]
    refine Request.frozen_of_eq ?_ ?_ <;> cases sendOk <;> exact congrArg _ hobj
  | success _ _ _ hh =>
    rw [St.top_objs, hh.objs_eq]
    exact .refl _
  | close _ _ _ hh =>
    rw [St.top_objs]
    exact hh.frozen q
  | count =>
    rw [St.top_objs]
    exact .refl _
  | timeout _ _ hh =>
    rw [St.top_objs]
    exact hh.frozen q
  | done => exact .refl _
  | ret _ _ _ hh =>
    rcases hh.objs q with e | e
    · exact e ▸ .refl _
    · exact e ▸ Request.frozen_shut _
  | takeResponse => exact St.frozen_put (by exact Request.frozen_of_eq rfl rfl) q
  | takeChunk => exact St.frozen_put (by exact Request.frozen_of_eq rfl rfl) q

/-- **The time stamp of a closed request is final.** -/
theorem frozen_of_run {es : List Event} (hI : Inv cfg s)
    (h : (protocol cfg).run (.ok s) es = some (.ok s')) {q : Ptr} (hq : q < s.created) :
    (s.objs q).Frozen (s'.objs q) := by
  suffices H : ∀ c, (protocol cfg).run (.ok s) es = some c →
      ∀ s', c = .ok s' → Inv cfg s' ∧ s.created ≤ s'.created ∧ (s.objs q).Frozen (s'.objs q) from
    (H _ h s' rfl).2.2
  intro c hrun
  refine Machine.run_inv (M := protocol cfg) (P := fun c => ∀ s', c = .ok s' →
    Inv cfg s' ∧ s.created ≤ s'.created ∧ (s.objs q).Frozen (s'.objs q)) ?_ ?_ hrun
  · rintro (_ | s₁) e c' hP hs s₂ rfl
    · cases hs
    · obtain ⟨h1, h2, h3⟩ := hP s₁ rfl
      have hst := steps_of_step h1 hs
      exact ⟨hst.inv h1, h2.trans (hst.grows h1).created,
        h3.trans (hst.frozen (hq.trans_le h2))⟩
  · rintro _ ⟨⟩
    exact ⟨hI, le_rfl, .refl _⟩

end Frozen

/-! ## The sweep in a run -/

section Runs

variable {ext : Externals} {cfg : Config ext} {s s' : St}

/-- A timeout event is a sweep over all entries of the map. -/
theorem sweeps_of_step {now : Time} {visits : List Visit}
    (h : step cfg s (.timeout now visits) = some (.ok s')) : Enumerates s (visits.map Visit.id) ∧
      ∃ s₁, checkTimeouts cfg now s visits = .ok s₁ ∧
        Sweeps cfg.options.intervals.clientTimeout now s visits s₁ ∧ s' = s₁.top := by
  simp only [step] at h
  split_ifs at h with hp
  obtain ⟨s₁, e1, hs⟩ := checkTimeouts_spec cfg now s visits
  rw [e1] at h
  cases h
  exact ⟨hp.2, s₁, e1, hs, rfl⟩

theorem Enumerates.exists_visit {visits : List Visit} (h : Enumerates s (visits.map Visit.id))
    {id : UInt64} {p : Ptr} (hl : s.requests.lookup id = some p) : ∃ v ∈ visits, v.id = id := by
  have hmem : id ∈ (visits.map Visit.id).toFinset := by
    rw [h.2, Finmap.mem_keys]
    exact Finmap.mem_of_lookup_eq_some hl
  exact List.mem_map.mp (List.mem_toFinset.mp hmem)

/-- A sweep that leaves the connection open, over all entries. -/
theorem swept_of_step (hI : Inv cfg s) {now : Time} {visits : List Visit}
    (h : step cfg s (.timeout now visits) = some (.ok s')) (hopen : s'.done = false) {id : UInt64}
    {p : Ptr} (hl : s.requests.lookup id = some p) :
    Swept cfg.options.intervals.clientTimeout now visits s s' id p := by
  obtain ⟨he, s₁, -, hs, rfl⟩ := sweeps_of_step h
  have htop := St.top_of_open hopen
  rw [htop] at hopen ⊢
  obtain ⟨v, hv, hid⟩ := he.exists_visit hl
  exact (hs.swept hI.core hopen he.1).swept id p hl (hid ▸ List.mem_map_of_mem hv)

/-- What remains after a sweep was there before, and is not due: the clock does not go back. -/
theorem not_due_of_step (hI : Inv cfg s) {now : Time} {visits : List Visit}
    (h : step cfg s (.timeout now visits) = some (.ok s')) (hclock : ∀ v ∈ visits, now ≤ v.now)
    (hopen : s'.done = false) {id : UInt64} {p : Ptr} (hl : s'.requests.lookup id = some p) :
    s.requests.lookup id = some p ∧
      now - (s'.objs p).lastUpdated < cfg.options.intervals.clientTimeout := by
  have hl₀ : s.requests.lookup id = some p := by
    obtain ⟨-, s₁, -, hs, rfl⟩ := sweeps_of_step h
    rw [St.top_requests] at hl
    exact hs.shrinks id p hl
  refine ⟨hl₀, ?_⟩
  cases swept_of_step hI h hopen hl₀ with
  | kept hdue _ hobj => rwa [hobj]
  | deleted _ _ hnone => rw [hl] at hnone; cases hnone
  | closed _ _ _ v hv _ hobj =>
    have hnow := hclock v hv
    have hpos := cfg.clientTimeout_pos
    have hstamp : (s'.objs p).lastUpdated = v.now := by rw [hobj]; rfl
    rw [hstamp]
    exact (sub_nonpos.mpr hnow).trans_lt hpos

/-- `Close` sets the time stamp for the last time. -/
theorem stamp_of_step (hI : Inv cfg s) {q : Ptr} {message : String} {now : Time} {sendOk : Bool}
    (h : step cfg s (.triggerClose q message now sendOk) = some (.ok s')) {p : Ptr}
    (hc : (s.objs p).isClosed = false) (hc' : (s'.objs p).isClosed = true) :
    (s'.objs p).lastUpdated = now := by
  have hst : Steps cfg s (.triggerClose q message now sendOk) s' := steps_of_step hI h
  have hsame : ∀ t : St, t.objs = s.objs → t.top.objs p = s'.objs p → False := fun t ht he => by
    rw [St.top_objs, ht] at he
    rw [← he, hc] at hc'
    cases hc'
  cases hst with
  | close _ _ _ hh =>
    cases hh with
    | deleted | already | completed => exact (hsame s rfl rfl).elim
    | failed => exact (hsame { s with done := true } rfl rfl).elim
    | @closed r hl =>
      rw [St.top_objs] at hc' ⊢
      rcases eq_or_ne p r with rfl | hne
      · rw [St.put_objs_self]
        rfl
      · rw [St.put_objs_ne _ _ hne] at hc'
        change (s.objs p).isClosed = true at hc'
        rw [hc] at hc'
        cases hc'

/-- A request that was closed a timeout ago is not in the map, or ends the sweep, or a request for
which the same holds and that is visited before it does. -/
theorem blamed_of_step (hI : Inv cfg s) {now : Time} {visits : List Visit}
    (h : step cfg s (.timeout now visits) = some (.ok s')) {p : Ptr}
    (hc : (s.objs p).isClosed = true)
    (hdue : (s.objs p).lastUpdated + cfg.options.intervals.clientTimeout ≤ now) :
    ¬ s.Present p ∨ ∃ vs v vs', visits = vs ++ v :: vs' ∧
      (∀ w ∈ vs, ¬ ClosedDue cfg.options.intervals.clientTimeout now s w.id) ∧
      ClosedDue cfg.options.intervals.clientTimeout now s v.id ∧
      s'.fault = some (timedOutClose v.id) ∧ s'.done = true := by
  by_cases hp : s.Present p
  · right
    obtain ⟨he, s₁, hcheck, -, rfl⟩ := sweeps_of_step h
    obtain ⟨v, hv, hid⟩ := he.exists_visit hp
    have hclosed : ClosedDue cfg.options.intervals.clientTimeout now s v.id :=
      ⟨p, by rw [hid]; exact hp, hc, le_sub_iff_add_le'.mpr hdue⟩
    obtain ⟨vs, u, us, hsplit, hnot, hu, hf, hd⟩ :=
      checkTimeouts_blames hI.core hcheck he.1 ⟨v, hv, hclosed⟩
    refine ⟨vs, u, us, hsplit, hnot, hu, ?_⟩
    unfold St.top
    rw [if_pos hd]
    exact ⟨hf, hd⟩
  · exact .inl hp

/-- What the timeout of a connection guarantees in the state `s`. -/
structure TimeoutSweep (cfg : Config ext) (s : St) : Prop where
  /-- A sweep that leaves the connection open does to every request what is due. -/
  swept : ∀ now visits s', step cfg s (.timeout now visits) = some (.ok s') → s'.done = false →
    ∀ id p, s.requests.lookup id = some p →
      Swept cfg.options.intervals.clientTimeout now visits s s' id p
  /-- No request that remains is due. -/
  remaining : ∀ now visits s', step cfg s (.timeout now visits) = some (.ok s') →
    (∀ v ∈ visits, now ≤ v.now) → s'.done = false →
    ∀ id p, s'.requests.lookup id = some p → s.requests.lookup id = some p ∧
      now - (s'.objs p).lastUpdated < cfg.options.intervals.clientTimeout
  /-- A request that is closed has the time at which it was closed. -/
  stamp : ∀ q message now sendOk s', step cfg s (.triggerClose q message now sendOk) =
    some (.ok s') → ∀ p, (s.objs p).isClosed = false → (s'.objs p).isClosed = true →
      (s'.objs p).lastUpdated = now
  /-- It keeps this time, whatever happens. -/
  frozen : ∀ p, p < s.created → (s.objs p).isClosed = true → ∀ es s',
    (protocol cfg).run (.ok s) es = some (.ok s') →
      (s'.objs p).isClosed = true ∧ (s'.objs p).lastUpdated = (s.objs p).lastUpdated
  /-- A timeout later it has left the map, or the sweep closes the connection for the first such
  request that it visits. -/
  blamed : ∀ p, p < s.created → (s.objs p).isClosed = true → ∀ es s₁,
    (protocol cfg).run (.ok s) es = some (.ok s₁) → ∀ now visits s',
    step cfg s₁ (.timeout now visits) = some (.ok s') →
    (s.objs p).lastUpdated + cfg.options.intervals.clientTimeout ≤ now →
    ¬ s₁.Present p ∨ ∃ vs v vs', visits = vs ++ v :: vs' ∧
      (∀ w ∈ vs, ¬ ClosedDue cfg.options.intervals.clientTimeout now s₁ w.id) ∧
      ClosedDue cfg.options.intervals.clientTimeout now s₁ v.id ∧
      s'.fault = some (timedOutClose v.id) ∧ s'.done = true

/-- **The timeout sweep**, in every reachable state. -/
theorem timeout_sweep {es : List Event}
    (h : (protocol cfg).run (.ok St.init) es = some (.ok s)) : TimeoutSweep cfg s := by
  have hI := inv_of_run h
  refine ⟨fun now visits s' hs hopen id p => swept_of_step hI hs hopen,
    fun now visits s' hs hclock hopen id p => not_due_of_step hI hs hclock hopen,
    fun q message now sendOk s' hs p => stamp_of_step hI hs,
    fun p hp hc es s' hrun => frozen_of_run hI hrun hp hc, ?_⟩
  intro p hp hc es' s₁ hrun now visits s' hs hdue
  obtain ⟨hc₁, hstamp⟩ := frozen_of_run hI hrun hp hc
  have hall : (protocol cfg).run (.ok St.init) (es ++ es') = some (.ok s₁) := by
    rw [Machine.run_append, h]
    exact hrun
  exact blamed_of_step (inv_of_run hall) hs hc₁ (by rwa [hstamp])

/-- Two requests that were closed at the time 1. -/
def twoClosed : List Event :=
  [.forwardRequest "a" 0 true, .forwardRequest "b" 0 true, .triggerClose 0 "closed" 1 true,
    .triggerClose 1 "closed" 1 true]

theorem timeout_sweep_twoClosed :
    TimeoutSweep sampleConfig (stateAfter sampleConfig twoClosed) := by
  have hrun : (protocol sampleConfig).run (.ok St.init) twoClosed =
      some (.ok (stateAfter sampleConfig twoClosed)) := rfl
  exact timeout_sweep hrun

/-- The state after a sweep at the time 20 that visits the first of two closed requests first. -/
def twoClosedSwept : St :=
  stateAfter sampleConfig (twoClosed ++ [.timeout 20 [⟨1, true, 20⟩, ⟨2, true, 20⟩]])

/-- A closed request that is due need not be the one that the connection is closed for. -/
theorem closed_due_not_blamed : ¬ ∀ (ext : Externals) (cfg : Config ext) (es es' : List Event)
    (s s₁ s' : St) (p : Ptr) (now : Time) (visits : List Visit),
    (protocol cfg).run (.ok St.init) es = some (.ok s) → p < s.created →
    (s.objs p).isClosed = true → (protocol cfg).run (.ok s) es' = some (.ok s₁) →
    step cfg s₁ (.timeout now visits) = some (.ok s') →
    (s.objs p).lastUpdated + cfg.options.intervals.clientTimeout ≤ now →
    ¬ s'.Present p ∨ s'.fault = some (timedOutClose (s'.objs p).id) := by
  intro h
  rcases h sampleExternals sampleConfig twoClosed [] (stateAfter sampleConfig twoClosed)
    (stateAfter sampleConfig twoClosed) twoClosedSwept 1 20 [⟨1, true, 20⟩, ⟨2, true, 20⟩]
    rfl (by decide) rfl rfl rfl (by decide) with h | h
  · exact h rfl
  · revert h
    decide

end Runs

end Loon
