import Loon.Server.Blocking

set_option autoImplicit false

/-!
# The discarder and the last chunk

The discarder leaves the inner loop for a request when the request is closed, and at no other time: a
receive from the closed chunk channel of a completed request goes back to the head of that loop. So
it gets out as long as it is not with a request whose last chunk has arrived.

* `Sys.LastReceived`: the request is completed, or the loop is about to complete it;
* `ReleasedStep`: the steps after which the discarder is not with such a request;
* `Trapped`: it is, and stays there in every continuation;
* **`discarder_gets_out`**: on every run of released steps the discarder can leave a request that has
  ended; and after any other step it never leaves.
-/

namespace Loon

open Chunking

/-- The loop has received the last chunk of the request `q` while it was open. -/
def Sys.LastReceived (s : Sys) (q : Ptr) : Prop :=
  (s.core.objs q).isCompleted = true ∨ s.pc = .completing q ∨
    ∃ w, s.pc = .sending w ∧ w.ptr = q ∧ w.last = true ∧ (s.core.objs q).isClosed = false

/-- The request `q` has ended, or the protocol loop has returned after `done` was closed. -/
def Sys.Ended (s : Sys) (q : Ptr) : Prop :=
  (s.core.objs q).isCompleted = true ∨ (s.core.objs q).isClosed = true ∨
    s.core.done = true ∧ s.core.phase = .returned

section Discarder

variable {ext : Externals} (cfg : Config ext)

/-- The steps after which the discarder is not with a request whose last chunk has arrived. -/
structure ReleasedStep (s : Sys) (e : SysEvent) : Prop where
  /-- The last chunk of an open request does not arrive while the discarder reads its channel. -/
  last : ∀ m now chunk core w, e = .recv m now → m.data = some (.contentChunk chunk) →
    beginChunk cfg s.core chunk now = .ok (.inr (core, w)) →
    (s.core.objs w.ptr).isClosed = false → w.last = true → s.discarder ≠ .serving w.ptr
  /-- The discarder is not given the channel of a request whose last chunk has arrived. -/
  start : ∀ p, e = .discardStart p → ¬ s.LastReceived p

/-- `ReleasedStep`, as a condition on the steps of `system`. -/
def Released : Except Panic Sys → SysEvent → Prop
  | .ok s, e => ReleasedStep cfg s e
  | .error _, _ => True

/-- The discarder can leave its inner loop after finitely many receives. -/
def GetsOut (s : Sys) : Prop :=
  ∃ s', (system cfg).Leads (fun e => e = .discardTake) (.ok s) (.ok s') ∧
    (system cfg).step (.ok s') .discardStop = some (.ok { s' with discarder := .idle })

/-- The discarder is with a request whose last chunk has arrived. -/
structure Trapped (s : Sys) (q : Ptr) : Prop where
  serving : s.discarder = .serving q
  last : s.LastReceived q

variable {cfg} {s s' : Sys} {e : SysEvent} {w : PendingWrite}

/-! ## Requests that the loop completes -/

/-- A response whose chunks stay the same is not completed between two selects. -/
theorem isCompleted_of_sameLog {s s' : St} {p : Ptr} (hI : Inv cfg s) (hI' : Inv cfg s')
    (hg : s.Grows s') (hp : p < s.created) (hr : (s.objs p).response.isSome)
    (hlog : (s'.objs p).chunkLog = (s.objs p).chunkLog) (hd : (s'.objs p).isCompleted = true) :
    (s.objs p).isCompleted = true := by
  obtain ⟨rsp, hr⟩ := Option.isSome_iff_exists.mp hr
  have hhead : (s'.objs p).header = some rsp.header :=
    (hg.objs p hp).header _ (by simp [Request.header, hr])
  obtain ⟨rsp', hr', he⟩ := Option.map_eq_some_iff.mp hhead
  cases hx : (s.objs p).isCompleted with
  | true => rfl
  | false =>
    have h1 := ((hI.core.obj p hp).response rsp hr).front hx
    have h2 := ((hI'.core.obj p (hp.trans_le hg.created)).response rsp' hr').whole hd
    have hsent : rsp'.chunks.sent = rsp.chunks.sent := by
      simpa [Request.chunkLog, hr, hr'] using hlog
    have hsize : rsp'.size = rsp.size := by unfold Response.size; rw [he]
    rw [hsent, hsize] at h2
    exact absurd h2 h1.not_isChunking

theorem lastReceived_select (hpc : s.pc = .select) {q : Ptr} (h : s.LastReceived q) :
    (s.core.objs q).isCompleted = true := by
  rcases h with h | h | ⟨w, h, -⟩
  · exact h
  · rw [hpc] at h; cases h
  · rw [hpc] at h; cases h

/-- The checks of a chunk settle no request and leave its channel alone. -/
theorem Begins.unsettled {C : ℕ} {s core : St} {m : ContentChunk} {now : Time}
    (h : Begins C s m now (.inr (core, w))) (q : Ptr) :
    (core.objs q).isCompleted = (s.objs q).isCompleted ∧
      (core.objs q).isClosed = (s.objs q).isClosed ∧
      (core.objs q).chunksFull = (s.objs q).chunksFull := by
  cases h with
  | @accept p rsp _ hr =>
    refine St.put_rel (R := fun r r' => r'.isCompleted = r.isCompleted ∧ r'.isClosed = r.isClosed ∧
      r'.chunksFull = r.chunksFull) (fun _ => ⟨rfl, rfl, rfl⟩) ?_ q
    unfold Request.resetTimeout
    split_ifs <;> exact ⟨rfl, rfl, by simp [Request.chunksFull, Request.advance, hr]⟩

theorem Sys.LastReceived.congr {q : Ptr} (h : s'.LastReceived q) (hpc : s'.pc = s.pc)
    (h1 : (s'.core.objs q).isCompleted = (s.core.objs q).isCompleted)
    (h2 : (s'.core.objs q).isClosed = (s.core.objs q).isClosed) : s.LastReceived q := by
  unfold Sys.LastReceived at h ⊢
  rw [hpc, h1, h2] at h
  exact h

/-- A receive settles no request. -/
theorem St.put_receives {s : St} {p : Ptr} {r : Request} (h : (s.objs p).Receives r) (q : Ptr) :
    ((s.put p r).objs q).isCompleted = (s.objs q).isCompleted ∧
      ((s.put p r).objs q).isClosed = (s.objs q).isClosed := by
  refine St.put_rel (R := fun r r' => r'.isCompleted = r.isCompleted ∧ r'.isClosed = r.isClosed)
    (fun _ => ⟨rfl, rfl⟩) ?_ q
  unfold Request.isCompleted Request.isClosed
  rw [h.completed, h.closed]
  exact ⟨rfl, rfl⟩

/-- A change that does not complete a request completes none. -/
theorem St.put_isCompleted {s : St} {p : Ptr} {r : Request}
    (h : r.isCompleted = (s.objs p).isCompleted) (q : Ptr) :
    ((s.put p r).objs q).isCompleted = (s.objs q).isCompleted :=
  St.put_rel (R := fun r r' => r'.isCompleted = r.isCompleted) (fun _ => rfl) h q

/-- A step of the loop between two selects that accepts no chunk completes no answered request. -/
theorem Steps.isCompleted_of_answered {s s' : St} {e : Event} (hI : Inv cfg s)
    (hst : Steps cfg s e s') {q : Ptr} (hq : q < s.created) (hr : (s.objs q).response.isSome)
    (hdata : s'.fault = none → chunkData q (.ok s) e = []) (hd : (s'.objs q).isCompleted = true) :
    (s.objs q).isCompleted = true := by
  refine isCompleted_of_sameLog hI (hst.inv hI) (hst.grows hI) hq hr ?_ hd
  rw [(hst.records hI hq).log]
  split_ifs with hc
  · rw [hdata hc.2, List.append_nil]
  · exact List.append_nil _

/-- **The discarder is not with a request whose last chunk has arrived.** -/
theorem SysSteps.not_lastReceived (hI : SysInv cfg s) (ho : ReleasedStep cfg s e)
    (hs : SysSteps cfg s e s') (hn : ∀ q, s.discarder = .serving q → ¬ s.LastReceived q) (q : Ptr)
    (hd' : s'.discarder = .serving q) : ¬ s'.LastReceived q := by
  intro hl'
  have hL := hI.loop
  -- what is known of a request that the discarder was with before
  have hknown : s.discarder = .serving q → q < s.core.created ∧ (s.core.objs q).response.isSome := by
    intro hd
    obtain ⟨h, hh, -, -, hr⟩ := hI.serving q hd
    exact ⟨(hI.handler q h hh).lt, hr⟩
  -- a step of the loop from select to select
  have hsel : ∀ {e' : Event} {core : St}, Steps cfg s.core e' core → s.pc = .select →
      s'.core = core → s'.pc = .select → s.discarder = .serving q →
      (core.fault = none → chunkData q (.ok s.core) e' = []) → False := by
    intro e' core hst hpc hcore hpc' hd hdata
    subst hcore
    rw [hpc] at hL
    obtain ⟨hlt, hr⟩ := hknown hd
    exact hn q hd (.inl (hst.isCompleted_of_answered hL hlt hr hdata (lastReceived_select hpc' hl')))
  cases hs with
  | @loop _ e' core hpc he hst =>
    refine hsel hst hpc rfl hpc hd' fun hf => ?_
    rcases he with ⟨rfl, -⟩ | ⟨_, _, rfl, -⟩ | ⟨_, rfl, -⟩ | ⟨_, _, rfl, -⟩ | ⟨m, now, rfl, -, hm⟩
    · rfl
    · rfl
    · rfl
    · rfl
    · cases hdata : m.data with
      | none => simp only [chunkData, hdata]
      | some d =>
        cases d with
        | contentChunk c => exact absurd hf (hm c hdata)
        | _ => simp only [chunkData, hdata]
  | start hpc hst => exact hsel hst hpc rfl hpc hd' fun _ => rfl
  | closeTrigger _ _ hpc hst => exact hsel hst hpc rfl hpc hd' fun _ => rfl
  | successTrigger _ _ hpc hst => exact hsel hst hpc rfl hpc hd' fun _ => rfl
  | @begin m chunk now core w hpc hm hph hb hr =>
    obtain ⟨h1, h2, -⟩ := hb.unsettled q
    rcases hl' with h | h | ⟨w', h, rfl, hlast, hc⟩
    · exact hn q hd' (.inl (h1 ▸ h))
    · cases h
    · cases h
      exact ho.last m now chunk core w rfl hm hr (h2 ▸ hc) hlast hd'
  | @finish w core hpc hf hroom hlast =>
    have hd := lastReceived_select rfl hl'
    change (core.top.objs q).isCompleted = true at hd
    rw [St.top_objs] at hd
    refine hn q hd' (.inl ?_)
    cases hf with
    | discard | drop => exact hd
    | forward =>
      have hsame := St.put_isCompleted (r := (s.core.objs w.ptr).written w.data) rfl q
      exact hsame.symm.trans hd
    | complete hc hl =>
      rw [hlast hc] at hl; cases hl
  | @last w hpc hc hroom hlast =>
    rcases hl' with h | h | ⟨w', h, -⟩
    · have hsame := St.put_isCompleted (r := (s.core.objs w.ptr).written w.data) rfl q
      exact hn q hd' (.inl (hsame.symm.trans h))
    · cases h
      exact hn _ hd' (.inr (.inr ⟨w, hpc, rfl, hlast, hc⟩))
    · cases h
  | @complete p hpc =>
    rcases hl' with h | h | ⟨w', h, -⟩
    · by_cases hq : q = p
      · subst hq
        exact hn q hd' (.inr (.inl hpc))
      · rw [St.put_objs_ne _ _ hq] at h
        exact hn q hd' (.inl h)
    · cases h
    · cases h
  | @drain p hpc =>
    have hd := lastReceived_select rfl hl'
    change (St.top _ |>.objs q).isCompleted = true at hd
    rw [St.top_objs] at hd
    have hsame := St.put_isCompleted (r := (s.core.objs p).drained) rfl q
    exact hn q hd' (.inl (hsame.symm.trans hd))
  | disconnect => exact hn q hd' hl'
  | @discardStart p h message after hd hh hpc =>
    cases hd'
    exact ho.start _ rfl hl'
  | @discardTake p rsp o c hd hr hrecv =>
    obtain ⟨h1, h2⟩ := St.put_receives (Request.receives_popChunk (s.core.objs p)) q
    rw [← Request.tookChunk_eq hr hrecv] at h1 h2
    exact hn q hd' (hl'.congr rfl h1 h2)
  | discardStop => cases hd'
  | discardExit => cases hd'
  | serves => exact hn q hd' hl'
  | @takeResponse p h o c hh hpc hr =>
    obtain ⟨h1, h2⟩ := St.put_receives (Request.receives_popResponse (s.core.objs p)) q
    rw [← Request.tookResponse_eq hr] at h1 h2
    exact hn q hd' (hl'.congr rfl h1 h2)
  | @takeChunk p h rsp chunk c hh hpc hr hc =>
    obtain ⟨h1, h2⟩ := St.put_receives (Request.receives_popChunk (s.core.objs p)) q
    rw [← Request.tookChunk_eq hr hc] at h1 h2
    exact hn q hd' (hl'.congr rfl h1 h2)

/-! ## A discarder that never leaves -/

/-- A request whose last chunk has arrived is open. -/
theorem Sys.LastReceived.isOpen {q : Ptr} (h : s.LastReceived q) (hI : SysInv cfg s)
    (hq : q < s.core.created) : (s.core.objs q).isClosed = false := by
  rcases h with h | h | ⟨w, -, -, -, h⟩
  · exact (hI.loop.visible hq).excl h
  · have hL := hI.loop
    rw [h] at hL
    exact hL.1.isClosed
  · exact h

theorem SysInv.serving_lt (hI : SysInv cfg s) {q : Ptr} (hd : s.discarder = .serving q) :
    q < s.core.created := by
  obtain ⟨h, hh, -⟩ := hI.serving q hd
  exact (hI.handler q h hh).lt

/-- The loop does not take back the last chunk of a request. -/
theorem SysSteps.lastReceived (hI : SysInv cfg s) (hs : SysSteps cfg s e s') {q : Ptr}
    (hq : q < s.core.created) (h : s.LastReceived q) : s'.LastReceived q := by
  have hgrows := (hs.grows hI.loop).objs q hq
  rcases h with h | h | ⟨w, hpc, rfl, hlast, hc⟩
  · exact .inl (hgrows.completed h)
  · -- the loop is in `completeRequest`
    have hnot : ∀ {pc}, s.pc = pc → pc = .completing q := fun h' => h'.symm.trans h
    cases hs with
    | loop hpc | start hpc | begin hpc | closeTrigger _ _ hpc | successTrigger _ _ hpc =>
      cases hnot hpc
    | finish hpc | last hpc | drain hpc => cases hnot hpc
    | complete hpc =>
      cases hnot hpc
      refine .inl ?_
      rw [St.put_objs_self]
      rfl
    | _ => exact .inr (.inl h)
  · -- the loop is in `response.write`
    have hnot : ∀ {pc}, s.pc = pc → pc = .sending w := fun h' => h'.symm.trans hpc
    have hstay : s'.pc = s.pc → (s'.core.objs w.ptr).isClosed = (s.core.objs w.ptr).isClosed →
        s'.LastReceived w.ptr := fun h1 h2 =>
      .inr (.inr ⟨w, h1.trans hpc, rfl, hlast, h2.trans hc⟩)
    cases hs with
    | loop hpc | start hpc | begin hpc | closeTrigger _ _ hpc | successTrigger _ _ hpc =>
      cases hnot hpc
    | complete hpc | drain hpc => cases hnot hpc
    | finish hpc _ _ hl =>
      cases hnot hpc
      rw [hl hc] at hlast
      cases hlast
    | last hpc =>
      cases hnot hpc
      exact .inr (.inl rfl)
    | disconnect | discardStart | discardStop | discardExit | serves => exact hstay rfl rfl
    | @discardTake p rsp o c hd hr hrecv =>
      have h2 := (St.put_receives (Request.receives_popChunk (s.core.objs p)) w.ptr).2
      rw [← Request.tookChunk_eq hr hrecv] at h2
      exact hstay rfl h2
    | @takeResponse p h o c hh hpc' hr =>
      have h2 := (St.put_receives (Request.receives_popResponse (s.core.objs p)) w.ptr).2
      rw [← Request.tookResponse_eq hr] at h2
      exact hstay rfl h2
    | @takeChunk p h rsp chunk c hh hpc' hr hrecv =>
      have h2 := (St.put_receives (Request.receives_popChunk (s.core.objs p)) w.ptr).2
      rw [← Request.tookChunk_eq hr hrecv] at h2
      exact hstay rfl h2

theorem Trapped.step {q : Ptr} (ht : Trapped s q) (hI : SysInv cfg s) (hs : SysSteps cfg s e s') :
    Trapped s' q where
  serving := hs.discarder ht.serving (ht.last.isOpen hI (hI.serving_lt ht.serving))
  last := hs.lastReceived hI (hI.serving_lt ht.serving) ht.last

/-- **A trapped discarder stays where it is.** -/
theorem Trapped.run {q : Ptr} (ht : Trapped s q) (hI : SysInv cfg s) {es : List SysEvent}
    (h : (system cfg).run (.ok s) es = some (.ok s')) :
    Trapped s' q := by
  suffices H : ∀ c, (system cfg).run (.ok s) es = some c →
      ∀ s', c = .ok s' → SysInv cfg s' ∧ Trapped s' q from (H _ h s' rfl).2
  intro c hrun
  refine Machine.run_inv (M := system cfg)
    (P := fun c => ∀ s', c = .ok s' → SysInv cfg s' ∧ Trapped s' q) ?_ ?_ hrun
  · rintro (_ | s₁) e c' hP hs s₂ rfl
    · cases hs
    · obtain ⟨hI₁, ht₁⟩ := hP s₁ rfl
      have hst := sysSteps_of_step hI₁ hs
      exact ⟨hst.sysInv hI₁, ht₁.step hI₁ hst⟩
  · rintro _ ⟨⟩
    exact ⟨hI, ht⟩

theorem Trapped.not_getsOut {q : Ptr} (ht : Trapped s q) (hI : SysInv cfg s) : ¬ GetsOut cfg s := by
  rintro ⟨s', ⟨es, -, hes⟩, hstop⟩
  have ht' := ht.run hI hes
  have hI' := (hI.run hes).1
  have hc := ht'.last.isOpen hI' (hI'.serving_lt ht'.serving)
  change sysStep cfg s' .discardStop = _ at hstop
  simp only [sysStep, ht'.serving, hc, Bool.false_eq_true, if_false] at hstop
  cases hstop

/-- The last chunk of a request, received while the discarder is with it. -/
theorem trapped_of_recv {m : ClientMessage} {now : Time} {chunk : ContentChunk} {core : St}
    (hm : m.data = some (.contentChunk chunk))
    (hb : beginChunk cfg s.core chunk now = .ok (.inr (core, w)))
    (hc : (s.core.objs w.ptr).isClosed = false) (hl : w.last = true)
    (hd : s.discarder = .serving w.ptr) (hI : SysInv cfg s)
    (hs : (system cfg).step (.ok s) (.recv m now) = some (.ok s')) : Trapped s' w.ptr := by
  have hst := sysSteps_of_step hI hs
  change sysStep cfg s (.recv m now) = _ at hs
  simp only [sysStep, recvStep, hm, hb] at hs
  split_ifs at hs with hpc hph
  have heq : { s with core, pc := .sending w } = s' := by simpa using hs
  have hpc' : s'.pc = .sending w := by rw [← heq]
  -- the checks of the chunk do not close the request
  cases hst with
  | loop => cases hpc.symm.trans hpc'
  | begin _ hm' _ hbg hr =>
    rw [hm] at hm'
    cases hm'
    rw [hb] at hr
    cases hr
    refine ⟨hd, .inr (.inr ⟨w, rfl, rfl, hl, ?_⟩)⟩
    exact (hbg.unsettled w.ptr).2.1.trans hc

/-- A step that is not released traps the discarder. -/
theorem trapped_of_not_released (hI : SysInv cfg s) (he : ¬ ReleasedStep cfg s e)
    (hs : (system cfg).step (.ok s) e = some (.ok s')) : ∃ q, Trapped s' q := by
  by_cases hstart : ∀ p, e = .discardStart p → ¬ s.LastReceived p
  · have hlast : ¬ _ := fun hlast => he ⟨hlast, hstart⟩
    push Not at hlast
    obtain ⟨m, now, chunk, core, w, rfl, hm, hb, hc, hl, hd⟩ := hlast
    exact ⟨w.ptr, trapped_of_recv hm hb hc hl hd hI hs⟩
  · push Not at hstart
    obtain ⟨p, rfl, hl⟩ := hstart
    have hst := sysSteps_of_step hI hs
    cases hst with
    | discardStart hd hh hpc =>
      have hlt := (hI.handler p _ hh).lt
      exact ⟨p, rfl, (SysSteps.discardStart hd hh hpc).lastReceived hI hlt hl⟩
    | loop _ he =>
      rcases he with ⟨-, he⟩ | ⟨_, _, -, he⟩ | ⟨_, -, he⟩ | ⟨_, _, -, he⟩ | ⟨_, _, -, he, -⟩ <;>
        cases he

/-! ## The way out -/

/-- A request that has ended, and whose last chunk has not arrived, is closed. -/
theorem Sys.Ended.isClosed {q : Ptr} (h : s.Ended q) (hI : SysInv cfg s)
    (hq : q < s.core.created) (hl : ¬ s.LastReceived q) : (s.core.objs q).isClosed = true := by
  rcases h with h | h | ⟨-, h⟩
  · exact absurd (.inl h) hl
  · exact h
  · have hL := hI.loop
    rcases (hL.visible hq).settled with hpres | hcomp | hc
    · -- the loop has emptied the map
      cases hpc : s.pc with
      | select =>
        rw [hpc] at hL
        unfold St.Present at hpres
        rw [(hL.returned h).1, Finmap.lookup_empty] at hpres
        cases hpres
      | sending =>
        rw [hpc] at hL
        rw [hL.2] at h
        cases h
      | completing | draining =>
        rw [hpc] at hL
        rw [hL.1.phase] at h
        cases h
    · exact absurd (.inl hcomp) hl
    · exact hc

/-- The discarder is not with a request whose last chunk has arrived, on a run of released steps. -/
theorem not_lastReceived_of_run {es : List SysEvent}
    (h : (system cfg).run (.ok Sys.init) es = some (.ok s))
    (hC : (system cfg).Along (Released cfg) (.ok Sys.init) es) :
    SysInv cfg s ∧ ∀ q, s.discarder = .serving q → ¬ s.LastReceived q := by
  refine hC.inv (P := fun c => ∀ s, c = .ok s → SysInv cfg s ∧
    ∀ q, s.discarder = .serving q → ¬ s.LastReceived q) ?_ ?_ h s rfl
  · rintro (_ | s₁) e c hP ho hs s₂ rfl
    · cases hs
    · obtain ⟨hI, hn⟩ := hP s₁ rfl
      have hst := sysSteps_of_step hI hs
      exact ⟨hst.sysInv hI, hst.not_lastReceived hI ho hn⟩
  · rintro s₁ ⟨⟩
    exact ⟨sysInv_init, fun q hd => by cases hd⟩

/-- **The discarder gets out**, on every run on which its request never gets its last chunk: it can
leave the inner loop for a request that has ended. After a step that breaks this it never leaves. -/
theorem discarder_gets_out {es : List SysEvent}
    (h : (system cfg).run (.ok Sys.init) es = some (.ok s)) :
    ((system cfg).Along (Released cfg) (.ok Sys.init) es →
      ∀ q, s.discarder = .serving q → s.Ended q → GetsOut cfg s) ∧
    ∀ e s', ¬ ReleasedStep cfg s e → (system cfg).step (.ok s) e = some (.ok s') →
      ∃ q, ∀ es' s'', (system cfg).run (.ok s') es' = some (.ok s'') →
        s''.discarder = .serving q ∧ ¬ GetsOut cfg s'' := by
  constructor
  · intro hC q hd hend
    obtain ⟨hI, hn⟩ := not_lastReceived_of_run h hC
    have hc := hend.isClosed hI (hI.serving_lt hd) (hn q hd)
    refine ⟨s, .refl _, ?_⟩
    change sysStep cfg s .discardStop = _
    simp only [sysStep, hd, hc, if_true]
  · intro e s' he hs
    have hI := sysInv_of_run h
    obtain ⟨q, ht⟩ := trapped_of_not_released hI he hs
    have hI' := (sysSteps_of_step hI hs).sysInv hI
    refine ⟨q, fun es' s'' hr => ?_⟩
    have ht'' : Trapped s'' q := ht.run hI' hr
    exact ⟨ht''.serving, ht''.not_getsOut (hI'.run hr).1⟩

/-! ## An abandoned request -/

/-- Only a message for the request the discarder is with, or a hand-over, is in question. -/
theorem releasedStep_of_ne (h1 : (∀ m now, e ≠ .recv m now) ∨ s.discarder = .idle)
    (h2 : ∀ p, e ≠ .discardStart p) : ReleasedStep cfg s e where
  last m now _ _ _ h _ _ _ _ hd := by
    rcases h1 with h1 | h1
    · exact h1 m now h
    · rw [hd] at h1
      cases h1
  start p h := absurd h (h2 p)

/-- The first of two chunks arrives, and the HTTP peer is gone; `Close` hands the channel over. -/
def abandonedDownload : List SysEvent :=
  [.forwardRequest "a" 0 true, .recv ⟨some (.contentHeader sampleHeader)⟩ 1,
    .serve 0 .takeResponse, .serve 0 (.checkAccept .acceptable),
    .recv ⟨some (.contentChunk ⟨1, 0, [1, 2]⟩)⟩ 2, .write, .serve 0 .takeChunk,
    .serve 0 (.writeFails 0), .serve 0 .closeStep, .serve 0 .closeStep, .serve 0 .closeStep,
    .serve 0 .closeStep, .discardStart 0]

/-- `Close` reaches the loop before the second chunk. -/
theorem discarder_gets_out_closedInTime :
    GetsOut sampleConfig
      (sysAfter sampleConfig (abandonedDownload ++ [.serve 0 (.closeTrigger 3 true)])) := by
  have hrun : (system sampleConfig).run (.ok Sys.init)
      (abandonedDownload ++ [.serve 0 (.closeTrigger 3 true)]) =
      some (.ok (sysAfter sampleConfig
        (abandonedDownload ++ [.serve 0 (.closeTrigger 3 true)]))) := rfl
  refine (discarder_gets_out hrun).1 ?_ 0 rfl (.inr (.inl rfl))
  iterate 12
    refine ⟨releasedStep_of_ne (.inr rfl) (by rintro _ ⟨⟩), ?_⟩
    rintro _ ⟨⟩
  refine ⟨⟨by rintro _ _ _ _ _ ⟨⟩, ?_⟩, ?_⟩
  · rintro p ⟨⟩ (h | h | ⟨w, h, -⟩) <;> cases h
  rintro _ ⟨⟩
  refine ⟨releasedStep_of_ne (.inl (by rintro _ _ ⟨⟩)) (by rintro _ ⟨⟩), ?_⟩
  rintro _ ⟨⟩
  trivial

/-- The second chunk reaches the loop before `Close` does. -/
def lastChunkFirst : List SysEvent :=
  abandonedDownload ++ [.recv ⟨some (.contentChunk ⟨1, 1, [3]⟩)⟩ 3, .write, .complete, .drain]

theorem last_chunk_traps_the_discarder :
    (system sampleConfig).run (.ok Sys.init) lastChunkFirst =
      some (.ok (sysAfter sampleConfig lastChunkFirst)) ∧
    (sysAfter sampleConfig lastChunkFirst).discarder = .serving 0 ∧
    (sysAfter sampleConfig lastChunkFirst).Ended 0 ∧
    ¬ GetsOut sampleConfig (sysAfter sampleConfig lastChunkFirst) ∧
    ∀ es s, (system sampleConfig).run (.ok (sysAfter sampleConfig lastChunkFirst)) es =
      some (.ok s) → s.discarder = .serving 0 := by
  have hrun : (system sampleConfig).run (.ok Sys.init) lastChunkFirst =
      some (.ok (sysAfter sampleConfig lastChunkFirst)) := rfl
  have hI := sysInv_of_run hrun
  have ht : Trapped (sysAfter sampleConfig lastChunkFirst) 0 := ⟨rfl, .inl rfl⟩
  exact ⟨hrun, rfl, .inl rfl, ht.not_getsOut hI, fun es s h => (ht.run hI h).serving⟩

end Discarder

end Loon
