import Loon.Server.Discipline

set_option autoImplicit false

/-!
# One response, message by message

A response as the server has to see it: `Stage.next` says which messages may follow each other, from
a request without a response (`fresh`) over a response of which a number of chunks has arrived
(`begun`) to its end (`ended`).

* `St.At`: the request object of the server is where the stage says;
* **`Handles.at`**: a message that may follow takes the object to the next stage, unless it is a
  header whose content the server does not accept, or closes a response that has not begun;
* **`Steps.at`**: a step that is not the receipt of a message for the request keeps its stage.
-/

namespace Loon

open Chunking

/-- How far the response to a request is. -/
inductive Stage where
  | fresh
  | begun (size count : ℕ)
  | ended
  deriving DecidableEq, Repr

/-- The stage after a message, if the message may come at this stage. -/
def Stage.next (C : ℕ) : Stage → ClientData → Option Stage
  | .fresh, .contentHeader m => some (.begun m.contentSize.toNat 0)
  | .fresh, .emptyResponse _ => some .ended
  | .fresh, .closeResponse _ => some .ended
  | .begun N k, .contentChunk m =>
    if m.sequence.toNat = k ∧ m.data.length = due C N k then
      some (if k * C + m.data.length = N then .ended else .begun N (k + 1))
    else none
  | .begun _ _, .closeResponse _ => some .ended
  | _, _ => none

theorem Stage.next_chunk {C N k : ℕ} {m : ContentChunk} {σ' : Stage}
    (h : (Stage.begun N k).next C (.contentChunk m) = some σ') :
    (m.sequence.toNat = k ∧ m.data.length = due C N k) ∧
      σ' = if k * C + m.data.length = N then .ended else .begun N (k + 1) := by
  simp only [Stage.next] at h
  by_cases hm : m.sequence.toNat = k ∧ m.data.length = due C N k
  · rw [if_pos hm] at h
    exact ⟨hm, (Option.some.inj h).symm⟩
  · rw [if_neg hm] at h
    cases h

theorem Stage.next_of_due {C N k : ℕ} {m : ContentChunk} (hseq : m.sequence.toNat = k)
    (hlen : m.data.length = due C N k) : (Stage.begun N k).next C (.contentChunk m) =
      some (if k * C + m.data.length = N then .ended else .begun N (k + 1)) := by
  simp only [Stage.next]
  rw [if_pos ⟨hseq, hlen⟩]

/-- The announced size and the number of chunks that arrived. -/
def Request.progress (r : Request) : Option (ℕ × ℕ) :=
  r.response.map fun rsp => (rsp.size, rsp.chunkSequence.toNat)

/-- The request `p` waits for more of its response. -/
structure St.Awaits (s : St) (p : Ptr) (o : Option (ℕ × ℕ)) : Prop where
  present : s.Present p
  incomplete : (s.objs p).isCompleted = false
  progress : (s.objs p).progress = o

/-- The request `p` is at a stage. Nothing is known of a request whose response is over. -/
def St.At (s : St) (p : Ptr) : Stage → Prop
  | .fresh => s.Awaits p none
  | .begun N k => s.Awaits p (some (N, k))
  | .ended => True

section Awaits

variable {s s' : St} {p q : Ptr} {o o' : Option (ℕ × ℕ)}

theorem Request.progress_eq_none {r : Request} (h : r.progress = none) : r.response = none :=
  Option.map_eq_none_iff.mp h

theorem Request.progress_eq_some {r : Request} {N k : ℕ} (h : r.progress = some (N, k)) :
    ∃ rsp, r.response = some rsp ∧ rsp.size = N ∧ rsp.chunkSequence.toNat = k := by
  obtain ⟨rsp, hr, e⟩ := Option.map_eq_some_iff.mp h
  cases e
  exact ⟨rsp, hr, rfl, rfl⟩

namespace St.Awaits

theorem congr (h : s.Awaits p o) (h1 : s'.requests = s.requests) (h2 : s'.objs = s.objs) :
    s'.Awaits p o := by
  refine ⟨?_, ?_, ?_⟩
  · unfold St.Present
    rw [h1, h2]
    exact h.present
  · rw [h2]
    exact h.incomplete
  · rw [h2]
    exact h.progress

theorem put_ne (h : s.Awaits p o) (hq : q ≠ p) (r : Request) : (s.put q r).Awaits p o := by
  have hobj : (s.put q r).objs p = s.objs p := St.put_objs_ne _ _ (Ne.symm hq)
  refine ⟨?_, ?_, ?_⟩
  · unfold St.Present
    rw [hobj]
    exact h.present
  · rw [hobj]
    exact h.incomplete
  · rw [hobj]
    exact h.progress

theorem put_self (h : s.Awaits p o) {r : Request} (hid : r.id = (s.objs p).id)
    (hd : r.isCompleted = false) (ho : r.progress = o') : (s.put p r).Awaits p o' := by
  refine ⟨(St.present_put hid p).mpr h.present, ?_, ?_⟩
  · rw [St.put_objs_self]
    exact hd
  · rw [St.put_objs_self]
    exact ho

/-- A change that keeps what the stage of a request depends on. -/
theorem put (h : s.Awaits p o) {r : Request} (hid : r.id = (s.objs q).id)
    (hd : r.isCompleted = (s.objs q).isCompleted) (ho : r.progress = (s.objs q).progress) :
    (s.put q r).Awaits p o := by
  by_cases hq : q = p
  · subst hq
    exact h.put_self hid (hd.trans h.incomplete) (ho.trans h.progress)
  · exact h.put_ne hq r

theorem delete (h : s.Awaits p o) {r : Request} (hid : r.id ≠ (s.objs p).id) :
    (s.deleteRequest r).Awaits p o := by
  refine ⟨?_, h.incomplete, h.progress⟩
  change (s.requests.erase r.id).lookup (s.objs p).id = some p
  rw [Finmap.lookup_erase_ne (Ne.symm hid)]
  exact h.present

/-- Deleting a completed request. -/
theorem delete_completed (h : s.Awaits p o) (hq : s.Present q)
    (hd : (s.objs q).isCompleted = true) : (s.deleteRequest (s.objs q)).Awaits p o := by
  apply h.delete
  intro hid
  have hl := h.present
  unfold St.Present at hl hq
  rw [← hid, hq] at hl
  cases hl
  rw [h.incomplete] at hd
  cases hd

theorem top (h : s.Awaits p o) : s.top.Awaits p o := h.congr (St.top_requests s) (St.top_objs s)

/-- The id of a request that waits leads to it. -/
theorem lookup (h : s.Awaits p o) {id : UInt64} (hid : id = (s.objs p).id) :
    s.requests.lookup id = some p := by
  rw [hid]
  exact h.present

theorem ptr_eq (h : s.Awaits p o) {id : UInt64} (hid : id = (s.objs p).id)
    (hq : s.requests.lookup id = some q) : q = p :=
  Option.some.inj (hq.symm.trans (h.lookup hid))

theorem lookup_ne_none (h : s.Awaits p o) {id : UInt64} (hid : id = (s.objs p).id) :
    s.requests.lookup id ≠ none := by
  rw [h.lookup hid]
  exact Option.some_ne_none p

end St.Awaits

theorem St.At.top {σ : Stage} (h : s.At p σ) : s.top.At p σ := by
  cases σ with
  | fresh => exact St.Awaits.top h
  | begun N k => exact St.Awaits.top h
  | ended => trivial

/-- A request for which a message may come is in the map. -/
theorem St.At.present {C : ℕ} {σ τ : Stage} {d : ClientData} (h : s.At p σ)
    (hn : σ.next C d = some τ) : s.Present p := by
  cases σ with
  | fresh => exact St.Awaits.present h
  | begun N k => exact St.Awaits.present h
  | ended => cases d <;> cases hn

/-- A response that has begun has a header. -/
theorem St.Awaits.header {N k : ℕ} (h : s.Awaits p (some (N, k))) :
    ∃ header, (s.objs p).header = some header := by
  obtain ⟨rsp, hr, -⟩ := Request.progress_eq_some h.progress
  exact ⟨rsp.header, by simp [Request.header, hr]⟩

/-! ## The other requests -/

section Others

variable {C bufferSize : ℕ} {now : Time}

theorem Request.progress_written (r : Request) (data : Bytes) :
    (r.written data).progress = r.progress := by
  cases hr : r.response <;> simp [Request.written, Request.progress, hr, Response.size]

theorem Request.Receives.progress {r r' : Request} (h : r.Receives r') : r'.progress = r.progress := by
  unfold Request.progress
  rcases h.response with ⟨h1, h2⟩ | ⟨rsp, c, h1, h2, -⟩
  · rw [h1, h2]
  · rw [h1, h2]
    rfl

theorem Request.Receives.isCompleted_eq {r r' : Request} (h : r.Receives r') :
    r'.isCompleted = r.isCompleted := by
  unfold Request.isCompleted
  rw [h.completed]

/-- A message for another request. -/
theorem Handles.awaits (hcore : Core C none s) {d : ClientData} (h : Handles C bufferSize s now d s')
    (ha : s.Awaits p o) (hne : d.requestId ≠ (s.objs p).id) : s'.Awaits p o := by
  have hid : ∀ q, s.requests.lookup d.requestId = some q → (s.objs q).id ≠ (s.objs p).id := by
    intro q hl
    rw [(hcore.entry _ q hl).2]
    exact hne
  have hq : ∀ q, s.requests.lookup d.requestId = some q → q ≠ p := by
    intro q hl e
    exact hid q hl (by rw [e])
  cases h with
  | emptyUnknown | emptyAgain | headerUnknown | headerAgain => exact ha.congr rfl rfl
  | headerReject | closeUnknown | closeReject => exact ha.congr rfl rfl
  | @emptyOpen m q hl =>
    have hobj : (s.put q ((s.objs q).filled none).markCompleted).objs p = s.objs p :=
      St.put_objs_ne _ _ (Ne.symm (hq q hl))
    exact (ha.put_ne (hq q hl) _).delete (by rw [hobj]; exact hid q hl)
  | @emptyClosed m q hl => exact ha.delete (hid q hl)
  | @header m q hl => exact ha.put_ne (hq q hl) _
  | @close m q hl =>
    have hobj : (s.put q (s.objs q).shut).objs p = s.objs p :=
      St.put_objs_ne _ _ (Ne.symm (hq q hl))
    exact (ha.put_ne (hq q hl) _).delete (by rw [hobj]; exact hid q hl)
  | chunkReject hb =>
    cases hb with
    | unknown | misplaced => exact ha.congr rfl rfl
    | reject hl => exact (ha.put_ne (hq _ hl) _).congr rfl rfl
  | chunk hb hf =>
    cases hb with
    | @accept q rsp hl hr hd hseq hlen =>
      have ha₁ := ha.put_ne (hq q hl) ((s.objs q).advance.resetTimeout now)
      cases hf with
      | discard => exact ha₁
      | drop =>
        apply ha₁.delete
        dsimp only
        rw [St.put_objs_self, St.put_objs_ne _ _ (Ne.symm (hq q hl))]
        have hreset : ((s.objs q).advance.resetTimeout now).id = (s.objs q).id := by
          unfold Request.resetTimeout
          split_ifs <;> rfl
        rw [hreset]
        exact hid q hl
      | forward | complete => exact ha₁.put_ne (hq q hl) _

theorem Closes.awaits {message : String} {err : Option ApiError}
    (h : Closes s q message now s' err) (ha : s.Awaits p o) : s'.Awaits p o := by
  cases h with
  | deleted | already | completed => exact ha
  | failed => exact ha.congr rfl rfl
  | @closed x hl hc hd =>
    have ha₁ : (s.enqueue (.requestClosed (s.objs x).id message)).Awaits p o := ha.congr rfl rfl
    exact ha₁.put rfl rfl rfl

theorem Succeeds.awaits (hcore : Core C none s) {err : Option ApiError} (h : Succeeds s q s' err)
    (ha : s.Awaits p o) : s'.Awaits p o := by
  cases h with
  | refused => exact ha
  | failed => exact ha.congr rfl rfl
  | @sent x hl hc hd =>
    have ha₁ : (s.enqueue (.success (s.objs x).id)).Awaits p o := ha.congr rfl rfl
    exact ha₁.delete_completed (hcore.present hl) hd

theorem Sweeps.awaits {timeout : Time} {visits : List Visit} (hcore : Core C none s)
    (h : Sweeps timeout now s visits s') (ha : s.Awaits p o) : s'.Awaits p o := by
  induction h with
  | nil => exact ha
  | skip _ _ ih => exact ih hcore ha
  | fault => exact ha.congr rfl rfl
  | delete hl _ _ hd _ ih =>
    have hp := hcore.present hl
    exact ih (hcore.delete hp (.inl hd) fun q => .inl (writeOn_none q)) (ha.delete_completed hp hd)
  | close _ _ _ _ hr _ ih => exact ih (hr.core hcore) (hr.awaits ha)

variable {ext : Externals} {cfg : Config ext}

theorem Steps.awaits {e : Event} (hI : Inv cfg s) (h : Steps cfg s e s') (hph : s'.phase = .loop)
    (ha : s.Awaits p o)
    (hne : ∀ m now d, e = .recv m now → m.data = some d → s.Present p →
      d.requestId ≠ (s.objs p).id) : s'.Awaits p o := by
  cases h with
  | recv hp hm _ hh => exact (hh.awaits hI.core ha (hne _ _ _ rfl hm ha.present)).top
  | @forward path now sendOk id hp hid =>
    have hlt := hI.core.lt_created ha.present
    have hobj : (s.allocate id path now).objs p = s.objs p := St.put_objs_ne _ _ (Nat.ne_of_lt hlt)
    have hnew : (s.objs p).id ≠ id := by
      intro e
      exact freshID_notMem hid (e ▸ Finmap.mem_of_lookup_eq_some ha.present)
    have ha₁ : (s.allocate id path now).Awaits p o := by
      refine ⟨?_, ?_, ?_⟩
      · unfold St.Present
        rw [hobj]
        exact (Finmap.lookup_insert_of_ne _ hnew).trans ha.present
      · rw [hobj]
        exact ha.incomplete
      · rw [hobj]
        exact ha.progress
    apply St.Awaits.top
    cases sendOk <;> exact ha₁.congr rfl rfl
  | success _ _ _ hh => exact (hh.awaits hI.core ha).top
  | close _ _ _ hh => exact (hh.awaits ha).top
  | count => exact ha.top
  | timeout _ _ hh => exact (hh.awaits hI.core ha).top
  | done => exact ha.congr rfl rfl
  | ret => cases hph
  | @takeResponse q _ _ _ hr =>
    rw [Request.tookResponse_eq hr]
    have hrec := Request.receives_popResponse (s.objs q)
    exact ha.put hrec.sameId hrec.isCompleted_eq hrec.progress
  | @takeChunk q _ _ _ _ hr hc =>
    rw [Request.tookChunk_eq hr hc]
    have hrec := Request.receives_popChunk (s.objs q)
    exact ha.put hrec.sameId hrec.isCompleted_eq hrec.progress

/-- **A step that is not about a request keeps its stage.** -/
theorem Steps.at {e : Event} {σ : Stage} (hI : Inv cfg s) (h : Steps cfg s e s')
    (hph : s'.phase = .loop) (ha : s.At p σ)
    (hne : ∀ m now d, e = .recv m now → m.data = some d → s.Present p →
      d.requestId ≠ (s.objs p).id) : s'.At p σ := by
  cases σ with
  | fresh => exact h.awaits hI hph ha hne
  | begun N k => exact h.awaits hI hph ha hne
  | ended => trivial

end Others

/-! ## The request itself -/

section Own

variable {C bufferSize : ℕ} {now : Time}

theorem Request.isCompleted_answered (r : Request) (m : ContentHeader) :
    (r.answered m bufferSize now).isCompleted = r.isCompleted := by
  unfold Request.answered
  split_ifs <;> rfl

theorem Request.progress_answered (r : Request) (m : ContentHeader) :
    (r.answered m bufferSize now).progress = some (m.contentSize.toNat, 0) := by
  unfold Request.answered
  split_ifs <;> rfl

/-- The object of a request whose chunk number `k` was accepted. -/
theorem St.Awaits.advance {N k : ℕ} (h : s.Awaits p (some (N, k))) (hk : k + 1 < 2 ^ 64) :
    (s.put p ((s.objs p).advance.resetTimeout now)).Awaits p (some (N, k + 1)) := by
  obtain ⟨rsp, hr, hN, hseq⟩ := Request.progress_eq_some h.progress
  have hprog : (s.objs p).advance.progress = some (N, k + 1) := by
    have hsucc : (rsp.chunkSequence + 1).toNat = k + 1 := by
      rw [UInt64.toNat_add, hseq]
      exact Nat.mod_eq_of_lt hk
    simp [Request.advance, Request.progress, hr, hsucc, ← hN, Response.size]
  unfold Request.resetTimeout
  split_ifs
  · exact h.put_self rfl h.incomplete hprog
  · exact h.put_self rfl h.incomplete hprog

/-- The write of a chunk that is not the last. -/
theorem Finishes.awaits {w : PendingWrite} (h : Finishes s w s') (hw : w.last = false)
    (ha : s.Awaits p o) : s'.Awaits p o := by
  cases h with
  | discard => exact ha
  | drop _ hl =>
    rw [hw] at hl
    cases hl
  | forward => exact ha.put rfl rfl (Request.progress_written _ _)
  | complete _ hl =>
    rw [hw] at hl
    cases hl

/-- The number of a chunk that is not the last has a successor. -/
theorem succ_lt_of_due {N k len : ℕ} (hC : 0 < C) (hN : N < 2 ^ 64) (hlen : len = due C N k)
    (hlast : k * C + len ≠ N) (hlt : k * C < N) : k + 1 < 2 ^ 64 := by
  unfold due at hlen
  have hfull : len = C := by omega
  have hle : k ≤ k * C := Nat.le_mul_of_pos_right k hC
  omega

/-- A message for a request without a response. -/
theorem Handles.at_fresh {d : ClientData} {σ' : Stage} (hfault : s.fault = none)
    (h : Handles C bufferSize s now d s') (hid : d.requestId = (s.objs p).id)
    (ha : s.Awaits p none) (hnext : Stage.fresh.next C d = some σ') :
    s'.fault = none ∧ s'.At p σ' ∨ (∃ m, d = .closeResponse m) ∨
    ∃ close, s'.fault = some close ∧ (close.reason = .invalidContentSize ∨
      close.reason = .invalidFilename ∨ close.reason = .forbiddenContentType) := by
  have hr := Request.progress_eq_none ha.progress
  cases h with
  | emptyUnknown hl | headerUnknown hl => exact absurd hl (ha.lookup_ne_none hid)
  | emptyAgain hl hr' | headerAgain hl hr' =>
    rw [ha.ptr_eq hid hl, hr] at hr'
    cases hr'
  | emptyOpen | emptyClosed =>
    cases hnext
    exact .inl ⟨hfault, trivial⟩
  | headerReject _ _ reason msg hreason => exact .inr (.inr ⟨_, rfl, hreason⟩)
  | header hl =>
    obtain rfl := ha.ptr_eq hid hl
    cases hnext
    refine .inl ⟨hfault, ha.put_self (Request.answered_id _ _ _ _) ?_ (Request.progress_answered _ _)⟩
    rw [Request.isCompleted_answered]
    exact ha.incomplete
  | closeUnknown | closeReject | close => exact .inr (.inl ⟨_, rfl⟩)
  | chunkReject | chunk => cases hnext

/-- A message for a request whose response has begun. -/
theorem Handles.at_begun {d : ClientData} {N k : ℕ} {σ' : Stage} (hC : 0 < C)
    (hcore : Core C none s) (hfault : s.fault = none) (h : Handles C bufferSize s now d s')
    (hid : d.requestId = (s.objs p).id) (ha : s.Awaits p (some (N, k)))
    (hnext : (Stage.begun N k).next C d = some σ') : s'.fault = none ∧ s'.At p σ' := by
  have hd := ha.incomplete
  obtain ⟨rsp, hr, hN, hk⟩ := Request.progress_eq_some ha.progress
  have hopen : ¬ ((s.objs p).response = none ∨ (s.objs p).isCompleted = true) := by
    simp [hr, hd]
  cases h with
  | emptyUnknown | emptyAgain | emptyOpen | emptyClosed => cases hnext
  | headerUnknown | headerAgain | headerReject | header => cases hnext
  | closeUnknown hl => exact absurd hl (ha.lookup_ne_none hid)
  | closeReject hl hr' =>
    rw [ha.ptr_eq hid hl] at hr'
    exact absurd hr' hopen
  | close =>
    cases hnext
    exact ⟨hfault, trivial⟩
  | @chunkReject m s' hb =>
    obtain ⟨hm, -⟩ := Stage.next_chunk hnext
    cases hb with
    | unknown hl => exact absurd hl (ha.lookup_ne_none hid)
    | misplaced hl hr' =>
      rw [ha.ptr_eq hid hl] at hr'
      exact absurd hr' hopen
    | reject hl hr' _ _ _ hbad =>
      obtain rfl := ha.ptr_eq hid hl
      cases hr.symm.trans hr'
      rw [hN, hk] at hbad
      rcases hbad with hbad | hbad
      · exact absurd (UInt64.toNat_inj.mp (hm.1.trans hk.symm)) hbad
      · exact absurd hm.2 hbad
  | @chunk m s₁ s' w hb hf =>
    obtain ⟨hm, rfl⟩ := Stage.next_chunk hnext
    cases hb with
    | accept hl hr' _ hseq hlen =>
      obtain rfl := ha.ptr_eq hid hl
      cases hr.symm.trans hr'
      refine ⟨hf.fault_eq.trans hfault, ?_⟩
      split_ifs with hlast
      · trivial
      · have hlt := (((hcore.obj_of_lookup hl).response rsp hr).counter hfault ha.present hd).1
        rw [hk, hN] at hlt
        have hsize : N < 2 ^ 64 := by
          rw [← hN]
          exact rsp.header.contentSize.toNat_lt
        have hsucc := succ_lt_of_due hC hsize hm.2 hlast hlt
        refine hf.awaits ?_ (ha.advance hsucc)
        simpa [hk, hN] using hlast

/-- **A message that may follow takes the request to the next stage**, unless it announces content
that the server does not accept, or closes a response that has not begun. -/
theorem Handles.at {d : ClientData} {σ σ' : Stage} (hC : 0 < C) (hcore : Core C none s)
    (hfault : s.fault = none) (h : Handles C bufferSize s now d s')
    (hid : d.requestId = (s.objs p).id) (hat : s.At p σ) (hnext : σ.next C d = some σ') :
    s'.fault = none ∧ s'.At p σ' ∨ (σ = .fresh ∧ ∃ m, d = .closeResponse m) ∨
    ∃ close, s'.fault = some close ∧ (close.reason = .invalidContentSize ∨
      close.reason = .invalidFilename ∨ close.reason = .forbiddenContentType) := by
  cases σ with
  | fresh =>
    rcases h.at_fresh hfault hid hat hnext with h' | h' | h'
    · exact .inl h'
    · exact .inr (.inl ⟨rfl, h'⟩)
    · exact .inr (.inr h')
  | begun N k => exact .inl (h.at_begun hC hcore hfault hid hat hnext)
  | ended => cases d <;> cases hnext

end Own

end Awaits

end Loon
