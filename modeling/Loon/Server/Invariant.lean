import Loon.Server.Objects

set_option autoImplicit false

/-!
# The protocol loop keeps its invariant

One lemma for each way a state changes around one request object (`Core.update` and its
corollaries), and from these one lemma for each relation of `Transitions`. `step_spec` is the
inversion lemma of the machine: in a state that satisfies the invariant a step does what `Steps`
says, and the only panic is the one for a message whose oneof is unset. `Inv` adds the control
state, and **`inv_of_run`** is the invariant of whole runs.
-/

namespace Loon

/-! ## States -/

section States

variable {C : ℕ} {w w' : Option PendingWrite} {s s' : St}

/-- The invariant reads the map, the heap and the fault. -/
theorem Core.congr (h : Core C w s) (h1 : s'.requests = s.requests) (h2 : s'.objs = s.objs)
    (h3 : s'.created = s.created) (h4 : s'.fault = s.fault) : Core C w s' := by
  have hp : ∀ p, s'.Present p ↔ s.Present p := fun p => by unfold St.Present; rw [h1, h2]
  refine ⟨fun id p hl => ?_, fun p hlt => ?_, fun x hx => ?_⟩
  · rw [h2, h3]; exact h.entry id p (h1 ▸ hl)
  · rw [h2, h4, propext (hp p)]; exact h.obj p (h3 ▸ hlt)
  · rw [h2, h4, propext (hp x.ptr)]; exact h.writing x hx

theorem St.present_put {p : Ptr} {r : Request} (hid : r.id = (s.objs p).id) (q : Ptr) :
    (s.put p r).Present q ↔ s.Present q := by
  unfold St.Present
  by_cases hq : q = p
  · subst hq; rw [St.put_objs_self, hid]; rfl
  · rw [St.put_objs_ne _ _ hq]; rfl

/-- Deleting the entry of `p` takes exactly `p` out of the map. -/
theorem St.present_delete {p : Ptr} (hp : s.Present p) (q : Ptr) :
    (s.deleteRequest (s.objs p)).Present q ↔ s.Present q ∧ q ≠ p := by
  unfold St.Present at *
  simp only [St.deleteRequest]
  by_cases hid : (s.objs q).id = (s.objs p).id
  · rw [hid, Finmap.lookup_erase]
    constructor
    · intro h; cases h
    · rintro ⟨h1, h2⟩
      rw [hp] at h1
      exact absurd (Option.some.inj h1).symm h2
  · rw [Finmap.lookup_erase_ne hid]
    exact ⟨fun h => ⟨h, fun e => hid (by rw [e])⟩, fun h => h.1⟩

/-- **One object changes.** The map may lose entries of that object, the connection may die, and the
pending write may become or cease to be one of that object. -/
theorem Core.update (h : Core C w s) (p : Ptr)
    (hreq : ∀ id q, s'.requests.lookup id = some q → s.requests.lookup id = some q)
    (hpres : ∀ q, q ≠ p → (s'.Present q ↔ s.Present q)) (hcre : s'.created = s.created)
    (hobjs : ∀ q, q ≠ p → s'.objs q = s.objs q) (hid : (s'.objs p).id = (s.objs p).id)
    (hfault : s'.fault = none → s.fault = none)
    (hw : ∀ q, q ≠ p → writeOn w' q = writeOn w q)
    (hp : p < s.created →
      ObjInv C (s'.fault = none) (s'.Present p) (writeOn w' p) (s'.objs p))
    (hwriting : ∀ x, w' = some x → s'.fault = none ∧ s'.Present x.ptr ∧
      (s'.objs x.ptr).isCompleted = false ∧ (s'.objs x.ptr).response.isSome) : Core C w' s' := by
  have hids : ∀ q, (s'.objs q).id = (s.objs q).id := fun q => by
    by_cases hq : q = p
    · rw [hq, hid]
    · rw [hobjs q hq]
  refine ⟨fun id q hl => ?_, fun q hlt => ?_, hwriting⟩
  · rw [hcre, hids q]; exact h.entry id q (hreq id q hl)
  · rw [hcre] at hlt
    by_cases hq : q = p
    · subst hq; exact hp hlt
    · rw [hobjs q hq, hw q hq, propext (hpres q hq)]
      exact (h.obj q hlt).weaken hfault id (fun _ => rfl) (h.obj q hlt).settled

/-- One object changes, in a state without a pending write. -/
theorem Core.put (h : Core C none s) {p : Ptr} {r : Request} (hid : r.id = (s.objs p).id)
    (hp : p < s.created → ObjInv C (s.fault = none) (s.Present p) none r) :
    Core C none (s.put p r) :=
  h.update p (fun _ _ hl => hl) (fun q _ => St.present_put hid q) rfl
    (fun _ hq => St.put_objs_ne _ _ hq) (by rw [St.put_objs_self, hid]) id (fun _ _ => rfl)
    (fun hlt => by
      rw [St.put_objs_self, propext (St.present_put hid p), writeOn_none]
      exact hp hlt)
    (fun x hx => by cases hx)

/-- A settled object leaves the map. -/
theorem Core.delete (h : Core C w s) {p : Ptr} (hp : s.Present p)
    (hs : (s.objs p).isCompleted = true ∨ (s.objs p).isClosed = true)
    (hw : ∀ q, writeOn w q = none ∨ q = p) : Core C none (s.deleteRequest (s.objs p)) := by
  refine h.update p (fun id q hl => ?_) (fun q hq => ?_) rfl (fun _ _ => rfl) rfl id
    (fun q hq => ?_) (fun hlt => ?_) (fun x hx => by cases hx)
  · simp only [St.deleteRequest] at hl
    by_cases hid : id = (s.objs p).id
    · rw [hid, Finmap.lookup_erase] at hl; cases hl
    · rwa [Finmap.lookup_erase_ne hid] at hl
  · rw [St.present_delete hp]; exact and_iff_left hq
  · rw [writeOn_none, (hw q).resolve_right hq]
  · have hnot : ¬ (s.deleteRequest (s.objs p)).Present p := fun h' =>
      ((St.present_delete hp p).mp h').2 rfl
    exact ((h.obj p hlt).leave hs).weaken id (fun h' => hnot h') (fun _ => rfl) (.inr hs)

/-- Closing the connection. -/
theorem Core.close (h : Core C none s) (reason : CloseReason) (msg : String) :
    Core C none (s.close reason msg) :=
  ⟨h.entry, fun p hlt => (h.obj p hlt).weaken (fun hf => by cases hf) id (fun _ => rfl)
    (h.obj p hlt).settled, fun x hx => by cases hx⟩

/-! ## Relations -/

/-- A chunk is rejected with the connection, or becomes the pending write. -/
theorem Begins.core {m : ContentChunk} {now : Time} {x : St ⊕ St × PendingWrite} (hC : 0 < C)
    (h : Core C none s) (hf : s.fault = none) (hb : Begins C s m now x) :
    x.elim (Core C none) fun y => Core C (some y.2) y.1 := by
  cases hb with
  | unknown _ msg => exact h.close _ msg
  | misplaced _ _ msg => exact h.close _ msg
  | @reject p rsp hl hr hd reason msg _ =>
    have hid : (s.objs p).advance.id = (s.objs p).id := rfl
    refine h.update p (fun _ _ h' => h') (fun q _ => St.present_put hid q) rfl
      (fun _ hq => St.put_objs_ne _ _ hq) (by change ((s.put p _).objs p).id = _; simp [hid])
      (fun h' => by cases h') (fun _ _ => rfl) (fun hlt => ?_) (fun x hx => by cases hx)
    change ObjInv C _ ((s.put p _).Present p) none ((s.put p _).objs p)
    rw [St.put_objs_self, propext (St.present_put hid p)]
    have hdead : ObjInv C False (s.Present p) none (s.objs p).advance := (h.obj p hlt).advance_dead
    exact hdead.weaken (fun h' => by cases h') id (fun _ => rfl) (h.obj p hlt).settled
  | @accept p rsp hl hr hd hseq hlen =>
    have hid : ((s.objs p).advance.resetTimeout now).id = (s.objs p).id := by
      unfold Request.resetTimeout; split_ifs <;> rfl
    refine h.update p (fun _ _ h' => h') (fun q _ => St.present_put hid q) rfl
      (fun _ hq => St.put_objs_ne _ _ hq) (by rw [St.put_objs_self, hid]) id
      (fun q hq => writeOn_ne (Ne.symm hq)) (fun hlt => ?_) (fun x hx => ?_)
    · change ObjInv C _ ((s.put p _).Present p) (writeOn (some _) _) ((s.put p _).objs p)
      rw [St.put_objs_self, propext (St.present_put hid p), writeOn_self]
      exact (ObjInv.advance (h.obj p hlt) hC hr hlen rfl).resetTimeout now
    · cases hx
      refine ⟨hf, (St.present_put hid p).mpr (h.present hl), ?_, ?_⟩
      · rw [St.put_objs_self]; unfold Request.resetTimeout; split_ifs <;> exact hd
      · rw [St.put_objs_self]; unfold Request.resetTimeout
        split_ifs <;> simp [Request.advance, hr]

/-- **The write of a chunk ends the pending write.** -/
theorem Finishes.core {x : PendingWrite} (h : Core C (some x) s) (hf : Finishes s x s') :
    Core C none s' := by
  obtain ⟨hlive, hpres, hd, hr⟩ := h.writing x rfl
  have hobj : ObjInv C (s.fault = none) (s.Present x.ptr) (some x) (s.objs x.ptr) := by
    have := h.obj x.ptr (h.lt_created hpres)
    rwa [writeOn_self] at this
  have hother : ∀ q, q ≠ x.ptr → writeOn none q = writeOn (some x) q := fun q hq =>
    (writeOn_ne (Ne.symm hq)).symm
  -- the two cases that store a new object
  have hput : ∀ r : Request, r.id = (s.objs x.ptr).id →
      ObjInv C (s.fault = none) (s.Present x.ptr) none r → Core C none (s.put x.ptr r) := by
    intro r hid hinv
    refine h.update x.ptr (fun _ _ h' => h') (fun q _ => St.present_put hid q) rfl
      (fun _ hq => St.put_objs_ne _ _ hq) (by rw [St.put_objs_self, hid]) id hother
      (fun _ => ?_) (fun y hy => by cases hy)
    rw [St.put_objs_self, propext (St.present_put hid x.ptr), writeOn_none]
    exact hinv
  cases hf with
  | discard hc hl =>
    exact h.update x.ptr (fun _ _ h' => h') (fun _ _ => Iff.rfl) rfl (fun _ _ => rfl) rfl id hother
      (fun _ => hobj.discard hc hl) (fun y hy => by cases hy)
  | drop hc hl =>
    refine h.delete hpres (.inr hc) fun q => ?_
    by_cases hq : q = x.ptr
    · exact .inr hq
    · exact .inl (writeOn_ne (Ne.symm hq))
  | forward hc hl => exact hput _ rfl (hobj.written hlive hpres hd hc hl)
  | complete hc hl => exact hput _ rfl (hobj.finished hlive hpres hd hc hl hr)

theorem Handles.core {bufferSize : ℕ} {now : Time} {d : ClientData} (hC : 0 < C)
    (hbuf : 0 < bufferSize) (h : Core C none s) (hf : s.fault = none)
    (hh : Handles C bufferSize s now d s') : Core C none s' := by
  cases hh with
  | emptyUnknown _ msg | headerUnknown _ msg | closeUnknown _ msg => exact h.close _ msg
  | emptyAgain _ _ msg | headerAgain _ _ msg | closeReject _ _ msg => exact h.close _ msg
  | headerReject _ _ reason msg _ => exact h.close reason msg
  | @emptyOpen m p hl hr hc =>
    have hid : (((s.objs p).filled none).markCompleted).id = (s.objs p).id := rfl
    -- the object is settled and leaves the map in the same step
    have hp := h.present hl
    have hput : (s.put p ((s.objs p).filled none).markCompleted).Present p :=
      (St.present_put hid p).mpr hp
    have hnot : ¬ ((s.put p ((s.objs p).filled none).markCompleted).deleteRequest
        (s.objs p)).Present p := fun h' => by
      have := (St.present_delete hput p).mp (by rw [St.put_objs_self]; exact h')
      exact this.2 rfl
    refine h.update p (fun id q hq => ?_) (fun q hq => ?_) rfl (fun q hq => ?_) ?_ id
      (fun _ _ => rfl) (fun hlt => ?_) (fun x hx => by cases hx)
    · simp only [St.deleteRequest, St.put] at hq
      by_cases hi : id = (s.objs p).id
      · rw [hi, Finmap.lookup_erase] at hq; cases hq
      · rwa [Finmap.lookup_erase_ne hi] at hq
    · have := St.present_delete hput q
      rw [St.put_objs_self, St.present_put hid] at this
      exact this.trans (and_iff_left hq)
    · exact St.put_objs_ne _ _ hq
    · change ((s.put p _).objs p).id = _
      rw [St.put_objs_self, hid]
    · change ObjInv C _ _ none ((s.put p _).objs p)
      rw [St.put_objs_self]
      exact (ObjInv.emptied (h.obj p hlt) hp hr hc).weaken id (fun h' => hnot h') (fun _ => rfl)
        (.inr (.inl rfl))
  | @emptyClosed m p hl hr hc =>
    exact h.delete (h.present hl) (.inr hc) fun q => .inl (writeOn_none q)
  | @header m p hl hr hsize =>
    refine h.put ?_ fun hlt => ObjInv.answered (h.obj p hlt) (h.present hl) hr hsize hbuf now
    unfold Request.answered; split_ifs <;> rfl
  | @close m p hl hr hc =>
    have hshut : (s.objs p).shut.id = (s.objs p).id := Request.shut_id _
    have h1 : Core C none (s.put p (s.objs p).shut) := h.put hshut fun hlt => (h.obj p hlt).shut
    have h2 := h1.delete (p := p) ((St.present_put hshut p).mpr (h.present hl))
      (by rw [St.put_objs_self]; exact Request.shut_settled _) fun q => .inl (writeOn_none q)
    rw [St.put_objs_self] at h2
    simp only [St.deleteRequest, hshut] at h2 ⊢
    exact h2
  | chunkReject hb => exact hb.core hC h hf
  | chunk hb hfin => exact hfin.core (hb.core hC h hf)

theorem Closes.core {p : Ptr} {message : String} {now : Time} {err : Option ApiError}
    (h : Core C none s) (hc : Closes s p message now s' err) : Core C none s' := by
  cases hc with
  | deleted _ | already _ _ | completed _ _ => exact h
  | failed => exact h.congr rfl rfl rfl rfl
  | @closed q hl _ hd =>
    have h1 : Core C none (s.enqueue (.requestClosed (s.objs q).id message)) :=
      h.congr rfl rfl rfl rfl
    exact h1.put rfl fun hlt => ((h1.obj q hlt).touch now).markClosed hd

theorem Succeeds.core {p : Ptr} {err : Option ApiError} (h : Core C none s)
    (hs : Succeeds s p s' err) : Core C none s' := by
  cases hs with
  | refused _ => exact h
  | failed => exact h.congr rfl rfl rfl rfl
  | @sent q hl _ hd =>
    have h1 : Core C none (s.enqueue (.success (s.objs q).id)) := h.congr rfl rfl rfl rfl
    exact h1.delete (h.present hl) (.inl hd) fun q => .inl (writeOn_none q)

theorem Sweeps.core {timeout now : Time} {visits : List Visit} (h : Core C none s)
    (hs : Sweeps timeout now s visits s') : Core C none s' := by
  induction hs with
  | nil => exact h
  | skip _ _ ih => exact ih h
  | fault _ _ _ msg => exact h.close _ msg
  | delete hl _ _ hd _ ih =>
    exact ih (h.delete (h.present hl) (.inl hd) fun q => .inl (writeOn_none q))
  | close _ _ _ _ hr _ ih => exact ih (hr.core h)

theorem Core.allocate (h : Core C none s) {id : UInt64} (hid : id ∉ s.requests) (path : String)
    (now : Time) : Core C none (s.allocate id path now) := by
  have hne : ∀ q, q < s.created → q ≠ s.created := fun q hq => Nat.ne_of_lt hq
  have hobj : ∀ q, q < s.created → (s.allocate id path now).objs q = s.objs q := fun q hq =>
    St.put_objs_ne _ _ (hne q hq)
  have hnew : (s.allocate id path now).objs s.created = newRequest id path now :=
    St.put_objs_self _ _ _
  have hpnew : (s.allocate id path now).Present s.created := by
    unfold St.Present
    rw [hnew]
    exact Finmap.lookup_insert _
  refine ⟨fun i q hl => ?_, fun q hlt => ?_, fun x hx => by cases hx⟩
  · change (s.requests.insert id s.created).lookup i = some q at hl
    by_cases hi : i = id
    · rw [hi, Finmap.lookup_insert] at hl
      cases hl
      rw [hnew]
      exact ⟨Nat.lt_succ_self _, hi.symm⟩
    · rw [Finmap.lookup_insert_of_ne _ hi] at hl
      obtain ⟨h1, h2⟩ := h.entry i q hl
      rw [hobj q h1]
      exact ⟨Nat.lt_succ_of_lt h1, h2⟩
  · rcases Nat.lt_succ_iff_lt_or_eq.mp hlt with hq | hq
    · rw [hobj q hq, writeOn_none]
      have hsub : (s.allocate id path now).Present q → s.Present q := fun hp => by
        unfold St.Present at hp
        rw [hobj q hq] at hp
        change (s.requests.insert id s.created).lookup (s.objs q).id = some q at hp
        by_cases hi : (s.objs q).id = id
        · rw [hi, Finmap.lookup_insert] at hp
          exact absurd (Option.some.inj hp).symm (hne q hq)
        · rwa [Finmap.lookup_insert_of_ne _ hi] at hp
      refine (h.obj q hq).weaken (fun h' => h') hsub (fun _ => rfl) ?_
      rcases (h.obj q hq).settled with hp | hp
      · left
        unfold St.Present at hp ⊢
        rw [hobj q hq]
        have hi : (s.objs q).id ≠ id := fun e =>
          hid (e ▸ Finmap.mem_of_lookup_eq_some hp)
        exact (Finmap.lookup_insert_of_ne _ hi).trans hp
      · exact .inr hp
    · subst hq
      rw [hnew, writeOn_none]
      exact objInv_newRequest id path now hpnew

end States

/-! ## Steps and runs -/

section Runs

variable {ext : Externals} (cfg : Config ext)

/-- **The invariant of the machine**: the invariant of the loop, and where a fault leaves it. -/
structure Inv (s : St) : Prop where
  core : Core cfg.chunkSize.toNat none s
  fault : s.fault.isSome → s.done = true ∧ s.phase ≠ .loop
  returned : s.phase = .returned → s.requests = ∅ ∧ s.done = true

variable {cfg} {s s' : St}

theorem Inv.fault_none (h : Inv cfg s) (hp : s.phase = .loop) : s.fault = none := by
  cases hf : s.fault with
  | none => rfl
  | some c => exact absurd hp (h.fault (by rw [hf]; rfl)).2

theorem freshID_notMem {requests : Finmap fun _ : UInt64 => Ptr} {fuel : ℕ} {next id : UInt64}
    (h : freshID requests fuel next = some id) : id ∉ requests := by
  induction fuel generalizing next with
  | zero => cases h
  | succ fuel ih =>
    unfold freshID at h
    split_ifs at h with hm
    · exact ih h
    · cases h; exact hm

theorem onContentChunk_spec (h : Inv cfg s) (hp : s.phase = .loop) (m : ContentChunk) (now : Time) :
    ∃ s', onContentChunk cfg s m now = .ok s' ∧
      Handles cfg.chunkSize.toNat cfg.bufferSize s now (.contentChunk m) s' := by
  obtain ⟨x, hx, hb⟩ := beginChunk_spec cfg h.core (h.fault_none hp) m now
  unfold onContentChunk
  rw [hx]
  cases x with
  | inl s₁ => exact ⟨s₁, rfl, .chunkReject hb⟩
  | inr y =>
    obtain ⟨s₁, w⟩ := y
    obtain ⟨s', h1, h2⟩ := finishChunk_spec (hb.core cfg.chunkSize_pos h.core (h.fault_none hp))
    exact ⟨s', h1, .chunk hb h2⟩

theorem dispatch_spec (h : Inv cfg s) (hp : s.phase = .loop) {m : ClientMessage} {d : ClientData}
    (hm : m.data = some d) (now : Time) :
    ∃ s', dispatch cfg s m now = .ok s' ∧
      Handles cfg.chunkSize.toNat cfg.bufferSize s now d s' := by
  unfold dispatch
  rw [hm]
  cases d with
  | emptyResponse m => exact onEmptyResponse_spec h.core m
  | contentHeader m => exact onContentHeader_spec cfg h.core m now
  | contentChunk m => exact onContentChunk_spec h hp m now
  | closeResponse m => exact onCloseResponse_spec m

/-- **Inversion of a step.** A step does what `Steps` says; the only panic is the one of the
dispatch, for a message whose oneof is unset. -/
theorem step_spec (h : Inv cfg s) {e : Event} {c : Except Panic St} (hs : step cfg s e = some c) :
    (∃ s', c = .ok s' ∧ Steps cfg s e s') ∨
    (c = .error .unknownClientMessageType ∧ ∃ m now, e = .recv m now ∧ m.data = none) := by
  cases e with
  | recv m now =>
    simp only [step] at hs
    split_ifs at hs with hp
    cases hs
    cases hm : m.data with
    | none => exact .inr ⟨by simp [dispatch, hm, Except.map], m, now, rfl, hm⟩
    | some d =>
      obtain ⟨s', h1, h2⟩ := dispatch_spec h hp hm now
      exact .inl ⟨_, by rw [h1]; rfl, .recv hp hm h1 h2⟩
  | forwardRequest path now sendOk =>
    simp only [step] at hs
    split_ifs at hs with hp
    obtain ⟨x, hx, rfl⟩ := Option.map_eq_some_iff.mp hs
    obtain ⟨id, hid, rfl⟩ := Option.map_eq_some_iff.mp hx
    refine .inl ⟨_, rfl, ?_⟩
    have : Steps cfg s (.forwardRequest path now sendOk)
        ((s.allocate id path now).sendMessage (.request id path) sendOk).1.top := .forward hp hid
    cases sendOk <;> exact this
  | triggerSuccess p sendOk =>
    simp only [step] at hs
    split_ifs at hs with hp
    cases hs
    exact .inl ⟨_, rfl, .success hp.1 hp.2 rfl (sendSuccess_spec s p sendOk)⟩
  | triggerClose p message now sendOk =>
    simp only [step] at hs
    split_ifs at hs with hp
    cases hs
    obtain ⟨s', err, h1, h2⟩ := closeRequest_spec s p message now sendOk
    exact .inl ⟨_, by rw [h1]; rfl, .close hp.1 hp.2 h1 h2⟩
  | countRequests =>
    simp only [step] at hs
    split_ifs at hs with hp
    cases hs
    exact .inl ⟨_, rfl, .count hp⟩
  | timeout now visits =>
    simp only [step] at hs
    split_ifs at hs with hp
    cases hs
    obtain ⟨s', h1, h2⟩ := checkTimeouts_spec cfg now s visits
    exact .inl ⟨_, by rw [h1]; rfl, .timeout hp.1 hp.2 h2⟩
  | done =>
    cases hs
    exact .inl ⟨_, rfl, .done⟩
  | ret order =>
    simp only [step] at hs
    split_ifs at hs with hp
    cases hs
    obtain ⟨s', h1, h2⟩ := closeAll_spec s order
    exact .inl ⟨_, by rw [h1]; rfl, .ret hp.1 hp.2.1 hp.2.2 h2⟩
  | takeResponse p =>
    simp only [step] at hs
    split_ifs at hs with hp
    obtain ⟨s', hx, rfl⟩ := Option.map_eq_some_iff.mp hs
    obtain ⟨⟨o, c⟩, hc, rfl⟩ := Option.map_eq_some_iff.mp hx
    exact .inl ⟨_, rfl, .takeResponse hp hc⟩
  | takeChunk p =>
    simp only [step] at hs
    split_ifs at hs with hp
    obtain ⟨s', hx, rfl⟩ := Option.map_eq_some_iff.mp hs
    obtain ⟨rsp, hr, hx⟩ := Option.bind_eq_some_iff.mp hx
    obtain ⟨⟨o, c⟩, hc, rfl⟩ := Option.map_eq_some_iff.mp hx
    exact .inl ⟨_, rfl, .takeChunk hp hr hc⟩

/-! ## Control -/

/-- What no handler changes: the position of the loop and the count of requests; a fault comes with
`done`. -/
structure Frame (s s' : St) : Prop where
  phase : s'.phase = s.phase
  done : s.done = true → s'.done = true
  fault : s'.fault = s.fault ∨ s'.fault.isSome ∧ s'.done = true
  created : s'.created = s.created
  nextRequest : s'.nextRequest = s.nextRequest

theorem Frame.refl (s : St) : Frame s s := ⟨rfl, id, .inl rfl, rfl, rfl⟩

theorem Frame.trans {s₁ : St} (h : Frame s s₁) (h' : Frame s₁ s') : Frame s s' := by
  refine ⟨h'.phase.trans h.phase, h'.done ∘ h.done, ?_, h'.created.trans h.created,
    h'.nextRequest.trans h.nextRequest⟩
  rcases h'.fault with e | e
  · rcases h.fault with e' | e'
    · exact .inl (e.trans e')
    · exact .inr ⟨e ▸ e'.1, h'.done e'.2⟩
  · exact .inr e

theorem Frame.close (reason : CloseReason) (msg : String) : Frame s (s.close reason msg) :=
  ⟨rfl, fun _ => rfl, .inr ⟨rfl, rfl⟩, rfl, rfl⟩

theorem Frame.put (p : Ptr) (r : Request) : Frame s (s.put p r) := ⟨rfl, id, .inl rfl, rfl, rfl⟩

theorem Frame.delete (r : Request) : Frame s (s.deleteRequest r) :=
  ⟨rfl, id, .inl rfl, rfl, rfl⟩

theorem Begins.frame {C : ℕ} {m : ContentChunk} {now : Time} {x : St ⊕ St × PendingWrite}
    (h : Begins C s m now x) : x.elim (Frame s) fun y => Frame s y.1 := by
  cases h with
  | unknown | misplaced => exact .close _ _
  | reject => exact (Frame.put _ _).trans (.close _ _)
  | accept => exact .put _ _

theorem Finishes.frame {w : PendingWrite} (h : Finishes s w s') : Frame s s' := by
  cases h with
  | discard => exact .refl s
  | drop => exact .delete _
  | forward | complete => exact .put _ _

theorem Handles.frame {C bufferSize : ℕ} {now : Time} {d : ClientData}
    (h : Handles C bufferSize s now d s') : Frame s s' := by
  cases h with
  | emptyUnknown | emptyAgain | headerUnknown | headerAgain | headerReject => exact .close _ _
  | closeUnknown | closeReject => exact .close _ _
  | emptyOpen | close => exact (Frame.put _ _).trans (.delete _)
  | emptyClosed => exact .delete _
  | header => exact .put _ _
  | chunkReject hb => exact hb.frame
  | chunk hb hf => exact hb.frame.trans hf.frame

theorem Closes.frame {p : Ptr} {message : String} {now : Time} {err : Option ApiError}
    (h : Closes s p message now s' err) : Frame s s' := by
  cases h with
  | deleted | already | completed => exact .refl s
  | failed => exact ⟨rfl, fun _ => rfl, .inl rfl, rfl, rfl⟩
  | closed => exact ⟨rfl, id, .inl rfl, rfl, rfl⟩

theorem Succeeds.frame {p : Ptr} {err : Option ApiError} (h : Succeeds s p s' err) :
    Frame s s' := by
  cases h with
  | refused => exact .refl s
  | failed => exact ⟨rfl, fun _ => rfl, .inl rfl, rfl, rfl⟩
  | sent => exact ⟨rfl, id, .inl rfl, rfl, rfl⟩

theorem Sweeps.frame {timeout now : Time} {visits : List Visit} (h : Sweeps timeout now s visits s') :
    Frame s s' := by
  induction h with
  | nil s => exact .refl s
  | skip _ _ ih => exact ih
  | fault => exact .close _ _
  | delete _ _ _ _ _ ih => exact (Frame.delete _).trans ih
  | close _ _ _ _ hr _ ih => exact hr.frame.trans ih

/-- Back at the loop head. -/
theorem Inv.top (hc : Core cfg.chunkSize.toNat none s) (hp : s.phase = .loop)
    (hf : s.fault.isSome → s.done = true) : Inv cfg s.top := by
  unfold St.top
  split_ifs with hd
  · exact ⟨hc.congr rfl rfl rfl rfl, fun _ => ⟨hd, nofun⟩, nofun⟩
  · refine ⟨hc, fun hfs => absurd (hf hfs) hd, fun hr => ?_⟩
    rw [hp] at hr; cases hr

/-- Back at the loop head after a handler. -/
theorem Frame.inv_top (hf : Frame s s') (h : Inv cfg s) (hp : s.phase = .loop)
    (hc : Core cfg.chunkSize.toNat none s') : Inv cfg s'.top := by
  refine Inv.top hc (hf.phase.trans hp) fun hs => ?_
  rcases hf.fault with e | e
  · rw [e, h.fault_none hp] at hs; cases hs
  · exact e.2

/-- After the deferred function every object is settled and out of the map. -/
theorem ClosedAll.core {C : ℕ} {order : List UInt64} (h : Core C none s)
    (he : Enumerates s order) (hc : ClosedAll s order s') :
    Core C none { s' with requests := ∅, phase := .returned } := by
  have hfault : s'.fault = s.fault := by rw [hc.eq]
  have hcre : s'.created = s.created := by rw [hc.eq]
  refine ⟨fun id p hl => (by rw [Finmap.lookup_empty] at hl; cases hl), fun p hlt => ?_,
    fun x hx => by cases hx⟩
  change p < s'.created at hlt
  rw [hcre] at hlt
  have hinv : ObjInv C (s.fault = none) (s.Present p) none (s'.objs p) := by
    rcases hc.objs p with e | e
    · rw [e]; exact h.obj p hlt
    · rw [e]; exact (h.obj p hlt).shut
  have hset : (s'.objs p).isCompleted = true ∨ (s'.objs p).isClosed = true := by
    rcases (h.obj p hlt).settled with hp | hp
    · have hmem : (s.objs p).id ∈ order := by
        have := he.2 ▸ Finmap.mem_keys.mpr (Finmap.mem_of_lookup_eq_some hp)
        exact List.mem_toFinset.mp this
      rw [hc.visited _ hmem p hp]
      exact Request.shut_settled _
    · rcases hc.objs p with e | e
      · rw [e]; exact hp
      · rw [e]; exact Request.shut_settled _
  refine (hinv.leave hset).weaken (fun hf => hfault ▸ hf) (fun hp => ?_) (fun _ => rfl) (.inr hset)
  unfold St.Present at hp
  rw [Finmap.lookup_empty] at hp
  cases hp

/-- **Every step keeps the invariant.** -/
theorem Steps.inv (h : Inv cfg s) {e : Event} (hs : Steps cfg s e s') : Inv cfg s' := by
  cases hs with
  | recv hp _ _ hh =>
    exact hh.frame.inv_top h hp (hh.core cfg.chunkSize_pos cfg.bufferSize_pos h.core (h.fault_none hp))
  | @forward path now sendOk id hp hid =>
    have hc := h.core.allocate (freshID_notMem hid) path now
    have hn := h.fault_none hp
    have hfault : ∀ s₁ : St, s₁.fault = s.fault → s₁.fault.isSome → s₁.done = true := by
      intro s₁ e hs
      rw [e, hn] at hs; cases hs
    cases sendOk with
    | false => exact Inv.top (hc.congr rfl rfl rfl rfl) hp (hfault _ rfl)
    | true => exact Inv.top (hc.congr rfl rfl rfl rfl) hp (hfault _ rfl)
  | success hp _ _ hh => exact hh.frame.inv_top h hp (hh.core h.core)
  | close hp _ _ hh => exact hh.frame.inv_top h hp (hh.core h.core)
  | count hp => exact (Frame.refl s).inv_top h hp h.core
  | timeout hp _ hh => exact hh.frame.inv_top h hp (hh.core h.core)
  | done =>
    exact ⟨h.core.congr rfl rfl rfl rfl, fun hf => ⟨rfl, (h.fault hf).2⟩,
      fun hr => ⟨(h.returned hr).1, rfl⟩⟩
  | ret hp hd he hc =>
    have hd' : _ = true := (congrArg St.done hc.eq).trans hd
    exact ⟨hc.core h.core he, fun _ => ⟨hd', nofun⟩, fun _ => ⟨rfl, hd'⟩⟩
  | takeResponse hlt hr =>
    rw [Request.tookResponse_eq hr]
    exact ⟨h.core.put rfl fun hlt => (Request.receives_popResponse _).objInv (h.core.obj _ hlt),
      h.fault, h.returned⟩
  | takeChunk hlt hr hc =>
    rw [Request.tookChunk_eq hr hc]
    exact ⟨h.core.put rfl fun hlt => (Request.receives_popChunk _).objInv (h.core.obj _ hlt),
      h.fault, h.returned⟩

variable (cfg)

theorem inv_init : Inv cfg St.init where
  core := ⟨fun id p hl => (by simp only [St.init, Finmap.lookup_empty] at hl; cases hl),
    fun p hlt => absurd hlt (Nat.not_lt_zero p), fun x hx => by cases hx⟩
  fault hf := by cases hf
  returned hr := by cases hr

variable {cfg}

/-- A step of the machine between states that are not crashed. -/
theorem steps_of_step {e : Event} (h : Inv cfg s)
    (hs : (protocol cfg).step (.ok s) e = some (.ok s')) : Steps cfg s e s' := by
  rcases step_spec h hs with ⟨s₁, e1, e2⟩ | ⟨e1, -⟩
  · cases e1; exact e2
  · cases e1

/-- **Run induction for the protocol loop.** -/
theorem protocol_induction {P : List Event → St → Prop} (h0 : P [] St.init)
    (hstep : ∀ es s e s', (protocol cfg).run (.ok St.init) es = some (.ok s) → Inv cfg s → P es s →
      Steps cfg s e s' → P (es ++ [e]) s') {es : List Event}
    (h : (protocol cfg).run (.ok St.init) es = some (.ok s)) : Inv cfg s ∧ P es s := by
  suffices H : ∀ es c, (protocol cfg).run (protocol cfg).init es = some c →
      ∀ s, c = .ok s → Inv cfg s ∧ P es s from H es _ h s rfl
  intro es c hrun
  refine Machine.run_induction (M := protocol cfg)
    (P := fun es c => ∀ s, c = .ok s → Inv cfg s ∧ P es s) ?_ ?_ hrun
  · rintro s ⟨⟩
    exact ⟨inv_init cfg, h0⟩
  · rintro es (_ | s) e c' hr hP hs s' rfl
    · cases hs
    · obtain ⟨hI, hp⟩ := hP s rfl
      have hst := steps_of_step hI hs
      exact ⟨hst.inv hI, hstep es s e s' hr hI hp hst⟩

/-- **The invariant holds in every reachable state.** -/
theorem inv_of_run {es : List Event} (h : (protocol cfg).run (.ok St.init) es = some (.ok s)) :
    Inv cfg s :=
  (protocol_induction (P := fun _ _ => True) trivial (fun _ _ _ _ _ _ _ _ => trivial) h).1

end Runs

end Loon
