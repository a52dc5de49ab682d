import Loon.Server.Handlers
import Loon.Server.Safety

set_option autoImplicit false

/-!
# What reaches the HTTP response

The chunks of a request on their way through the goroutines, as an observer of the run sees them:
the accepted chunk messages (`receivedChunk`), the chunks that the discarder took
(`discardedChunk`), and the moments at which a handler leaves its forwarding loop too early
(`cutShort`).

* **`success_forwards_everything`**: a handler that reaches its call of `Success` has written the
  accepted chunks, all of them and nothing else, and its request is never closed;
* **`body_whole_iff_not_cutShort`**: a handler that returned after status 200 has written the content
  if and only if it did not leave its forwarding loop too early.
-/

namespace Loon

open Chunking

/-! ## Observers -/

section Observers

variable {ext : Externals} (cfg : Config ext)

/-- The data of a `ContentChunk` message for the request `p`, accepted or not. -/
def sentChunk (p : Ptr) : Except Panic Sys → SysEvent → List Bytes
  | .ok s, .recv m now => chunkData p (.ok s.core) (.recv m now)
  | _, _ => []

/-- The data of a `ContentChunk` message for the request `p`, if the loop accepts it. -/
def receivedChunk (p : Ptr) : Except Panic Sys → SysEvent → List Bytes
  | .ok s, .recv m now =>
    if accepts cfg s.core m now then chunkData p (.ok s.core) (.recv m now) else []
  | _, _ => []

/-- The chunk of the request `p` that the discarder takes. -/
def discardedChunk (p : Ptr) : Except Panic Sys → SysEvent → List Bytes
  | .ok s, .discardTake =>
    if s.discarder = .serving p then
      (s.core.objs p).response.elim [] fun rsp => rsp.chunks.buffer.take 1
    else []
  | _, _ => []

/-- The chunk of the request `p` that the loop is about to send. -/
def Sys.inFlight (s : Sys) (p : Ptr) : List Bytes :=
  match s.pc with
  | .sending w => if w.ptr = p then [w.data] else []
  | _ => []

theorem Sys.inFlight_of_select {s : Sys} (h : s.pc = .select) (p : Ptr) : s.inFlight p = [] := by
  simp [inFlight, h]

variable {cfg}

theorem receivedChunk_of_ne {s : Except Panic Sys} {e : SysEvent} (h : ∀ m now, e ≠ .recv m now)
    (p : Ptr) : receivedChunk cfg p s e = [] ∧ sentChunk p s e = [] := by
  cases e <;> first | exact absurd rfl (h _ _) | (cases s <;> exact ⟨rfl, rfl⟩)

end Observers

/-! ## From the messages to the chunk channel -/

section Conveying

variable {ext : Externals} {cfg : Config ext} {s s' : Sys} {e : SysEvent}

/-- A step of the loop adds to the channel of an open request what it accepts. -/
theorem Steps.chunkLog_recv {s s' : St} {m : ClientMessage} {now : Time} (hI : Inv cfg s)
    (h : Steps cfg s (.recv m now) s') {p : Ptr} (hp : p < s.created)
    (hopen : (s.objs p).isClosed = false) :
    (s'.objs p).chunkLog = (s.objs p).chunkLog ++
      if accepts cfg s m now then chunkData p (.ok s) (.recv m now) else [] := by
  have hlog := (h.records hI hp).log
  cases h with
  | recv _ hm hd =>
    rw [hlog, accepts_eq hd, St.top_fault]
    simp [hopen]

/-- **How a step moves the chunks of an open request**: from the message to the loop, from the loop to
the channel. -/
theorem SysSteps.conveys (hI : SysInv cfg s) (hs : SysSteps cfg s e s') {p : Ptr}
    (hp : p < s.core.created) (hc : (s'.core.objs p).isClosed = false) :
    (s'.core.objs p).chunkLog ++ s'.inFlight p =
      (s.core.objs p).chunkLog ++ s.inFlight p ++ receivedChunk cfg p (.ok s) e := by
  have hopen : (s.core.objs p).isClosed = false :=
    ((hs.grows hI.loop).objs p hp).not_closed hc
  have hL := hI.loop
  -- a step that leaves the loop where it is and the channel of `p` as it is
  have hquiet : (∀ m now, e ≠ .recv m now) → s'.inFlight p = s.inFlight p →
      (s'.core.objs p).chunkLog = (s.core.objs p).chunkLog →
      (s'.core.objs p).chunkLog ++ s'.inFlight p =
        (s.core.objs p).chunkLog ++ s.inFlight p ++ receivedChunk cfg p (.ok s) e := by
    intro he h1 h2
    rw [h1, h2, (receivedChunk_of_ne he p).1, List.append_nil]
  -- a step of the loop between two selects that receives no message
  have hloop : ∀ {e' : Event} {core : St}, Steps cfg s.core e' core → s.pc = .select →
      (∀ m now, e ≠ .recv m now) → (∀ m now, e' ≠ .recv m now) →
      s'.inFlight p = s.inFlight p → s'.core = core →
      (s'.core.objs p).chunkLog ++ s'.inFlight p =
        (s.core.objs p).chunkLog ++ s.inFlight p ++ receivedChunk cfg p (.ok s) e := by
    intro e' core hst hpc he he' h1 h2
    have hI' : Inv cfg s.core := by rw [hpc] at hL; exact hL
    refine hquiet he h1 ?_
    have hlog := (hst.records hI' hp).log
    have hnone : chunkData p (.ok s.core) e' = [] := by
      cases e' <;> first | rfl | exact absurd rfl (he' _ _)
    rw [hnone, ite_self, List.append_nil] at hlog
    rw [h2]
    exact hlog
  cases hs with
  | @loop _ e' core hpc he hst =>
    have hI' : Inv cfg s.core := by rw [hpc] at hL; exact hL
    rcases he with ⟨rfl, rfl⟩ | ⟨_, _, rfl, rfl⟩ | ⟨_, rfl, rfl⟩ | ⟨_, _, rfl, rfl⟩ |
      ⟨m, now, rfl, rfl, -⟩
    · exact hloop hst hpc (by rintro _ _ ⟨⟩) (by rintro _ _ ⟨⟩) rfl rfl
    · exact hloop hst hpc (by rintro _ _ ⟨⟩) (by rintro _ _ ⟨⟩) rfl rfl
    · exact hloop hst hpc (by rintro _ _ ⟨⟩) (by rintro _ _ ⟨⟩) rfl rfl
    · exact hloop hst hpc (by rintro _ _ ⟨⟩) (by rintro _ _ ⟨⟩) rfl rfl
    · have h1 : (Sys.inFlight { s with core } p) = [] := Sys.inFlight_of_select hpc p
      rw [h1, Sys.inFlight_of_select hpc, List.append_nil, List.append_nil]
      exact hst.chunkLog_recv hI' hp hopen
  | start hpc hst => exact hloop hst hpc (by rintro _ _ ⟨⟩) (by rintro _ _ ⟨⟩) rfl rfl
  | closeTrigger _ _ hpc hst => exact hloop hst hpc (by rintro _ _ ⟨⟩) (by rintro _ _ ⟨⟩) rfl rfl
  | successTrigger _ _ hpc hst => exact hloop hst hpc (by rintro _ _ ⟨⟩) (by rintro _ _ ⟨⟩) rfl rfl
  | @begin m chunk now core w hpc hm hph hb hr =>
    have hI' : Inv cfg s.core := by rw [hpc] at hL; exact hL
    have ha := accepts_of_begins hI' hph hm hr
    rw [Sys.inFlight_of_select hpc, List.append_nil]
    cases hb with
    | @accept q rsp hl hrsp hd hseq hlen =>
      have hsame : (s.core.objs q).SameLog ((s.core.objs q).advance.resetTimeout now) :=
        (Request.sameLog_advance _).trans (Request.sameLog_resetTimeout _ now)
      have hlog := (St.sameLog_put hsame p).log
      simp only [Sys.inFlight, receivedChunk, ha, if_true, chunkData, hm, hl, Option.some.injEq]
      rw [hlog]
  | @finish w core hpc hf =>
    rw [hpc] at hL
    have hr := (hL.1.writing w rfl).2.2.2
    obtain ⟨-, -, h3, h4⟩ := hf.written hr
    have h1 : (s.atTop core).inFlight p = [] := Sys.inFlight_of_select rfl p
    rw [h1, (receivedChunk_of_ne (fun _ _ h => by cases h) p).1, List.append_nil, List.append_nil]
    change (core.top.objs p).chunkLog = _
    rw [St.top_objs]
    simp only [Sys.inFlight, hpc]
    by_cases hw : w.ptr = p
    · subst hw
      rw [h3, if_pos hopen, if_pos rfl]
    · rw [h4 p (Ne.symm hw), if_neg hw, List.append_nil]
  | @last w hpc =>
    rw [hpc] at hL
    obtain ⟨rsp, hr⟩ := Option.isSome_iff_exists.mp (hL.1.writing w rfl).2.2.2
    rw [(receivedChunk_of_ne (fun _ _ h => by cases h) p).1, List.append_nil]
    simp only [Sys.inFlight, hpc, List.append_nil]
    by_cases hw : w.ptr = p
    · subst hw
      rw [St.put_objs_self, Request.chunkLog_written hr, if_pos rfl]
    · rw [St.put_objs_ne _ _ (Ne.symm hw), if_neg hw, List.append_nil]
  | @complete q hpc =>
    refine hquiet (by rintro _ _ ⟨⟩) (by simp [Sys.inFlight, hpc]) ?_
    have hsame : (s.core.objs q).SameLog (s.core.objs q).markCompleted := ⟨rfl, rfl, rfl⟩
    exact (St.sameLog_put hsame p).log
  | @drain q hpc =>
    refine hquiet (by rintro _ _ ⟨⟩) (by simp [Sys.inFlight, hpc, Sys.atTop]) ?_
    change (St.top _ |>.objs p).chunkLog = _
    rw [St.top_objs]
    refine St.put_rel (R := fun r r' => r'.chunkLog = r.chunkLog) (fun _ => rfl) ?_ p
    cases hr : (s.core.objs q).response <;> simp [Request.drained, Request.chunkLog, hr]
  | disconnect | discardStart | discardStop | discardExit | serves =>
    exact hquiet (by rintro _ _ ⟨⟩) rfl rfl
  | discardTake _ hr hch =>
    refine hquiet (by rintro _ _ ⟨⟩) rfl ?_
    rw [Request.tookChunk_eq hr hch]
    exact (St.sameLog_put (Request.receives_popChunk _).sameLog p).log
  | takeResponse _ _ hr =>
    refine hquiet (by rintro _ _ ⟨⟩) rfl ?_
    rw [Request.tookResponse_eq hr]
    exact (St.sameLog_put (Request.receives_popResponse _).sameLog p).log
  | takeChunk _ _ hr hch =>
    refine hquiet (by rintro _ _ ⟨⟩) rfl ?_
    rw [Request.tookChunk_eq hr hch]
    exact (St.sameLog_put (Request.receives_popChunk _).sameLog p).log

/-- Only a request to the client creates a request object, at a select. -/
theorem SysSteps.created (hs : SysSteps cfg s e s') :
    s'.core.created = s.core.created ∨ ∃ path now sendOk, e = .forwardRequest path now sendOk ∧
      Steps cfg s.core (.forwardRequest path now sendOk) s'.core ∧ s'.pc = .select := by
  cases hs with
  | loop hpc he hst =>
    rcases he with ⟨rfl, rfl⟩ | ⟨_, _, rfl, rfl⟩ | ⟨_, rfl, rfl⟩ | ⟨path, now, rfl, rfl⟩ |
      ⟨_, _, rfl, rfl, -⟩
    · exact .inl (hst.created_eq nofun)
    · exact .inl (hst.created_eq nofun)
    · exact .inl (hst.created_eq nofun)
    · exact .inr ⟨path, now, false, rfl, hst, hpc⟩
    · exact .inl (hst.created_eq nofun)
  | @start path now _ hpc hst => exact .inr ⟨path, now, true, rfl, hst, hpc⟩
  | closeTrigger _ _ _ hst => exact .inl (hst.created_eq nofun)
  | successTrigger _ _ _ hst => exact .inl (hst.created_eq nofun)
  | begin _ _ _ hb => cases hb with | accept => exact .inl rfl
  | finish _ hf =>
    left
    change (St.top _).created = _
    rw [St.top_created, hf.frame.created]
  | drain =>
    left
    change (St.top _).created = _
    rw [St.top_created]
    rfl
  | _ => exact .inl rfl

theorem SysSteps.fault_none (hL : LoopInv cfg s.pc s.core) (hs : SysSteps cfg s e s')
    (hf : s'.core.fault = none) : s.core.fault = none := by
  cases hs with
  | loop hpc _ hst | start hpc hst | closeTrigger _ _ hpc hst | successTrigger _ _ hpc hst =>
    rw [hpc] at hL
    exact hst.fault_none hL hf
  | begin _ _ _ hb => cases hb with | accept => exact hf
  | finish _ h =>
    change (St.top _).fault = none at hf
    rw [St.top_fault, h.fault_eq] at hf
    exact hf
  | drain =>
    change (St.top _).fault = none at hf
    rw [St.top_fault] at hf
    exact hf
  | _ => exact hf

/-- A message is received at a select, and is accepted unless it closes the connection. -/
theorem SysSteps.recv (hI : SysInv cfg s) {m : ClientMessage} {now : Time}
    (hs : SysSteps cfg s (.recv m now) s') :
    Inv cfg s.core ∧ accepts cfg s.core m now = s'.core.fault.isNone := by
  have hL := hI.loop
  cases hs with
  | loop hpc he hst =>
    rw [hpc] at hL
    refine ⟨hL, ?_⟩
    rcases he with ⟨rfl, he⟩ | ⟨_, _, rfl, he⟩ | ⟨_, rfl, he⟩ | ⟨_, _, rfl, he⟩ |
      ⟨m, now, rfl, he, -⟩ <;> cases he
    cases hst with
    | recv _ _ hd => rw [accepts_eq hd, St.top_fault]
  | begin hpc hm hp hb hr =>
    rw [hpc] at hL
    refine ⟨hL, ?_⟩
    rw [accepts_of_begins hL hp hm hr]
    cases hb with
    | accept =>
      change true = s.core.fault.isNone
      rw [hL.fault_none hp]
      rfl

/-- What is observed of the chunks of `p` at a step that closes no connection, or of a request that
does not exist. -/
theorem SysSteps.observes (hI : SysInv cfg s) (hs : SysSteps cfg s e s') (p : Ptr) :
    (s'.core.fault = none → sentChunk p (.ok s) e = receivedChunk cfg p (.ok s) e) ∧
    (s.core.created ≤ p → receivedChunk cfg p (.ok s) e = []) := by
  by_cases he : ∃ m now, e = .recv m now
  · obtain ⟨m, now, rfl⟩ := he
    obtain ⟨hI', ha⟩ := hs.recv hI
    refine ⟨fun hf => ?_, fun hp => ?_⟩
    · rw [hf] at ha
      simp only [sentChunk, receivedChunk, ha, Option.isNone_none, if_true]
    · simp only [receivedChunk, (hI'.observes_none hp _).2.2, ite_self]
  · have hne : ∀ m now, e ≠ .recv m now := fun m now h => he ⟨m, now, h⟩
    have h12 : receivedChunk cfg p (.ok s) e = [] ∧ sentChunk p (.ok s) e = [] :=
      receivedChunk_of_ne hne p
    exact ⟨fun _ => h12.2.trans h12.1.symm, fun _ => h12.1⟩

variable (cfg)

/-- What the observer saw of the chunks of `p` in the run of `es`, against where they are in `s`. -/
structure Conveyed (es : List SysEvent) (s : Sys) (p : Ptr) : Prop where
  fresh : s.core.created ≤ p →
    (system cfg).observe (receivedChunk cfg p) (.ok Sys.init) es = []
  chunks : p < s.core.created → (s.core.objs p).isClosed = false →
    (system cfg).observe (receivedChunk cfg p) (.ok Sys.init) es =
      (s.core.objs p).chunkLog ++ s.inFlight p
  all : s.core.fault = none → (system cfg).observe (sentChunk p) (.ok Sys.init) es =
    (system cfg).observe (receivedChunk cfg p) (.ok Sys.init) es

variable {cfg}

theorem Conveyed.snoc {es : List SysEvent} {p : Ptr} (h : Conveyed cfg es s p)
    (hrun : (system cfg).run (.ok Sys.init) es = some (.ok s)) (hI : SysInv cfg s)
    (hs : SysSteps cfg s e s') : Conveyed cfg (es ++ [e]) s' p := by
  obtain ⟨h1, h2⟩ := hs.observes hI p
  have hg := hs.grows hI.loop
  refine ⟨fun hp => ?_, fun hp hc => ?_, fun hf => ?_⟩
  · have hle := hg.created.trans hp
    rw [Machine.observe_snoc _ e hrun, h.fresh hle, h2 hle]
    rfl
  · rw [Machine.observe_snoc _ e hrun]
    rcases Nat.lt_or_ge p s.core.created with hlt | hge
    · rw [hs.conveys hI hlt hc, h.chunks hlt ((hg.objs p hlt).not_closed hc)]
    · rw [h.fresh hge, h2 hge]
      rcases hs.created with e1 | ⟨_, _, _, -, hst, hpc⟩
      · exact absurd (e1 ▸ hp) (Nat.not_lt.mpr hge)
      rcases hst.created with e1 | ⟨e1, id, path, now, hnew⟩
      · exact absurd (e1 ▸ hp) (Nat.not_lt.mpr hge)
      · rw [e1] at hp
        have hpe : p = s.core.created := Nat.le_antisymm (Nat.lt_succ_iff.mp hp) hge
        subst hpe
        rw [hnew, Sys.inFlight_of_select hpc]
        rfl
  · rw [Machine.observe_snoc _ e hrun, Machine.observe_snoc _ e hrun, h1 hf,
      h.all (hs.fault_none hI.loop hf)]

/-- **The chunks of an open request are on its channel or in front of it.** -/
theorem conveyed_of_run {es : List SysEvent}
    (h : (system cfg).run (.ok Sys.init) es = some (.ok s)) (p : Ptr) : Conveyed cfg es s p := by
  refine (system_induction (P := fun es s => Conveyed cfg es s p) ?_ ?_ h).2
  · exact ⟨fun _ => rfl, fun hp => absurd hp (Nat.not_lt_zero p), fun _ => rfl⟩
  · intro es s e s' hrun hI hP hs
    exact hP.snoc hrun hI hs

end Conveying

/-! ## Success -/

section Success

variable {ext : Externals} {cfg : Config ext} {s s' : Sys} {e : SysEvent}

/-- A handler that still reads or reached its call of `Success`. -/
def Handler.Reads (h : Handler) : Prop := ¬ (h.Left ∧ h.success = none)

/-- Before a handler that reads there is one that reads, or none. -/
theorem SysSteps.reads (hI : SysInv cfg s) (hs : SysSteps cfg s e s') {p : Ptr}
    (hr : ∀ h, s'.handlers p = some h → h.Reads) : ∀ h, s.handlers p = some h → h.Reads := by
  rintro h hh ⟨hl, hn⟩
  obtain ⟨h', hh', hl', hn', -⟩ := hs.left hI hh hl hn
  exact hr h' hh' ⟨hl', hn'⟩

/-- **The discarder takes nothing from a handler that reads.** -/
theorem discarded_of_run {es : List SysEvent}
    (h : (system cfg).run (.ok Sys.init) es = some (.ok s)) {p : Ptr}
    (hr : ∀ h, s.handlers p = some h → h.Reads) :
    (system cfg).observe (discardedChunk p) (.ok Sys.init) es = [] := by
  refine (system_induction (P := fun es s => (∀ h, s.handlers p = some h → h.Reads) →
    (system cfg).observe (discardedChunk p) (.ok Sys.init) es = []) (fun _ => rfl) ?_ h).2 hr
  intro es s e s' hrun hI hP hs hr
  have hr' := hs.reads hI hr
  rw [Machine.observe_snoc _ e hrun, hP hr', List.nil_append]
  cases e with
  | discardTake =>
    refine if_neg fun hd => ?_
    obtain ⟨h, hh, hl, hn, -⟩ := hI.serving p hd
    exact hr' h hh ⟨hl, hn⟩
  | _ => rfl

variable (cfg)

/-- The HTTP response of the request `p` holds the content that the client sent in the run of
`es`. -/
structure WholeBody (es : List SysEvent) (s : Sys) (p : Ptr) (body : Bytes) : Prop where
  received : body = ((system cfg).observe (receivedChunk cfg p) (.ok Sys.init) es).flatten
  /-- Without a protocol violation of the client, every chunk message is an accepted one. -/
  sent : s.core.fault = none →
    body = ((system cfg).observe (sentChunk p) (.ok Sys.init) es).flatten
  size : ∃ header, (s.core.objs p).header = some header ∧
    body.length = header.contentSize.toNat

variable {cfg}

/-- The loop has nothing left to send for a request whose content is on its channel. -/
theorem LoopInv.inFlight_nil (hL : LoopInv cfg s.pc s.core) {p : Ptr} (hp : p < s.core.created)
    {rsp : Response} (hr : (s.core.objs p).response = some rsp)
    (hlen : rsp.chunks.sent.flatten.length = rsp.size) : s.inFlight p = [] := by
  unfold Sys.inFlight
  split
  · rename_i w hpc
    refine if_neg fun hw => ?_
    subst hw
    rw [hpc] at hL
    have hd := (hL.1.writing w rfl).2.2.1
    have hlt := (((hL.1.obj _ hp).response rsp hr).front hd).length_flatten_lt
    omega
  · rfl

/-- A body that has the length of the content and comes from the channel is the whole content. -/
theorem wholeBody_of_chunkLog {es : List SysEvent}
    (h : (system cfg).run (.ok Sys.init) es = some (.ok s)) {p : Ptr} (hp : p < s.core.created)
    {body : Bytes} {header : ContentHeader} (hh : (s.core.objs p).header = some header)
    (hb : body <+: (s.core.objs p).chunkLog.flatten)
    (hlen : body.length = header.contentSize.toNat) : WholeBody cfg es s p body := by
  have hI := sysInv_of_run h
  have hv := hI.loop.visible hp
  have hc := conveyed_of_run h p
  obtain ⟨rsp, hr, rfl⟩ := Option.map_eq_some_iff.mp hh
  have hlog : (s.core.objs p).chunkLog = rsp.chunks.sent := by simp [Request.chunkLog, hr]
  have hbound := hv.bound rsp hr
  rw [hlog] at hb
  have heq : body = rsp.chunks.sent.flatten := by
    refine hb.eq_of_length_le ?_
    rw [hlen]
    exact hbound
  have hfull : rsp.chunks.sent.flatten.length = rsp.size := by rw [← heq]; exact hlen
  have hopen : (s.core.objs p).isClosed = false := by
    cases hx : (s.core.objs p).isClosed with
    | false => rfl
    | true => exact absurd hfull (Nat.ne_of_lt (hv.cut hx rsp hr))
  have hobs : body = ((system cfg).observe (receivedChunk cfg p) (.ok Sys.init) es).flatten := by
    rw [hc.chunks hp hopen, hI.loop.inFlight_nil hp hr hfull, List.append_nil, hlog]
    exact heq
  exact ⟨hobs, fun hf => by rw [hc.all hf]; exact hobs, rsp.header, hh, hlen⟩

/-- **`Success` is only sent for content that was forwarded as a whole.** When the handler of `p` has
reached its call of `Success`, it has written what the client sent, in order and to the last byte, the
discarder took nothing of it, and the request is not closed, then or later. -/
theorem success_forwards_everything {es : List SysEvent}
    (h : (system cfg).run (.ok Sys.init) es = some (.ok s)) {p : Ptr} {handler : Handler}
    (hh : s.handlers p = some handler) (hs : handler.success ≠ none) :
    WholeBody cfg es s p handler.body ∧
    (system cfg).observe (discardedChunk p) (.ok Sys.init) es = [] ∧
    ∀ es' s', (system cfg).run (.ok s) es' = some (.ok s') →
      (s'.core.objs p).isClosed = false := by
  have hI := sysInv_of_run h
  have hq := hI.handler p handler hh
  have hf := hq.success hs
  obtain ⟨header, h1, h2, h3⟩ := hf.whole
  refine ⟨wholeBody_of_chunkLog h hq.lt h1 ?_ ?_, discarded_of_run h ?_, ?_⟩
  · rw [h2]
  · rw [h2, h3.length_flatten]
  · rintro h' hh' ⟨-, hn⟩
    rw [hh] at hh'
    cases hh'
    exact hs hn
  · intro es' s' h'
    obtain ⟨hI', hg⟩ := hI.run h'
    exact (hI'.loop.visible (hq.lt.trans_le hg.created)).excl
      ((hg.objs p hq.lt).completed hf.completed)

/-- The state of the goroutines after the events `es`. -/
def sysAfter {ext : Externals} (cfg : Config ext) (es : List SysEvent) : Sys :=
  match (system cfg).run (.ok Sys.init) es with
  | some (.ok s) => s
  | _ => Sys.init

/-- A request whose content of three bytes arrives in two chunks and is forwarded. -/
def sampleDownload : List SysEvent :=
  [.forwardRequest "a" 0 true, .recv ⟨some (.contentHeader sampleHeader)⟩ 1,
    .serve 0 .takeResponse, .serve 0 (.checkAccept .acceptable),
    .recv ⟨some (.contentChunk ⟨1, 0, [1, 2]⟩)⟩ 2, .write, .serve 0 .takeChunk, .serve 0 .wrote,
    .recv ⟨some (.contentChunk ⟨1, 1, [3]⟩)⟩ 3, .write, .complete, .drain,
    .serve 0 .takeChunk, .serve 0 .wrote, .serve 0 .takeChunk]

/-- The handler at the end of `sampleDownload`, in front of its deferred `Close`. -/
def sampleHandler : Handler :=
  { pc := .closing .checkClosed "request closed" .returns, status := some .ok, body := [1, 2, 3],
    written := 3, success := some .checkDone }

theorem success_forwards_everything_sampleDownload :
    WholeBody sampleConfig sampleDownload (sysAfter sampleConfig sampleDownload) 0 [1, 2, 3] := by
  have hrun : (system sampleConfig).run (.ok Sys.init) sampleDownload =
      some (.ok (sysAfter sampleConfig sampleDownload)) := rfl
  have hh : (sysAfter sampleConfig sampleDownload).handlers 0 =
      some sampleHandler := rfl
  exact (success_forwards_everything hrun hh nofun).1

end Success

/-! ## Responses that end too early -/

section Truncation

variable {ext : Externals} {cfg : Config ext} {s s' : Sys} {e : SysEvent}

/-- The size of the content that was announced for the request. -/
def Request.contentSize (r : Request) : ℕ := r.header.elim 0 fun header => header.contentSize.toNat

/-- The handler leaves its forwarding loop because its request was closed, or because a write failed
before the last byte of the content of `size` bytes. -/
def Handler.cutBy (h : Handler) (size : ℕ) : ServeEvent → Bool
  | .seesClosed => h.pc = .forwarding
  | .writeFails n =>
    match h.pc with
    | .writing chunk => (h.body ++ chunk.take n).length < size
    | _ => false
  | _ => false

/-- A step with which the handler of `p` leaves its forwarding loop too early. -/
def cutShort (p : Ptr) : Except Panic Sys → SysEvent → List Unit
  | .ok s, .serve q e =>
    if q = p ∧ (s.handlers p).elim false fun h => h.cutBy (s.core.objs p).contentSize e then [()]
    else []
  | _, _ => []

/-- What the HTTP response of the handler `h` lacks once the handler has left, with `cut` for the
moments at which it left too early. -/
structure Ending (r : Request) (h : Handler) (cut : List Unit) : Prop where
  early : (h.pc = .waiting ∨ ∃ header, h.pc = .answered header) → h.status = none
  short : cut ≠ [] → h.Left ∧ h.success = none ∧ ∃ header, r.header = some header ∧
    h.body.length < header.contentSize.toNat
  whole : cut = [] → h.Left → h.status = some .ok → ∃ header, r.header = some header ∧
    h.body <+: r.chunkLog.flatten ∧ h.body.length = header.contentSize.toNat

theorem Ending.mono {r r' : Request} {h : Handler} {cut : List Unit} (he : Ending r h cut)
    (hg : r.Grows r') : Ending r' h cut := by
  refine ⟨he.early, fun hc => ?_, fun hc hl hst => ?_⟩
  · obtain ⟨h1, h2, header, h3, h4⟩ := he.short hc
    exact ⟨h1, h2, header, hg.header _ h3, h4⟩
  · obtain ⟨header, h1, h2, h3⟩ := he.whole hc hl hst
    obtain ⟨rest, hrest⟩ := hg.log
    refine ⟨header, hg.header _ h1, h2.trans ?_, h3⟩
    rw [← hrest, List.flatten_append]
    exact List.prefix_append _ _

theorem Ending.cut_nil {r : Request} {h : Handler} {cut : List Unit} (he : Ending r h cut)
    (hl : ¬ h.Left) : cut = [] := by
  by_contra hc
  exact hl (he.short hc).1

theorem cutShort_of_ne {p : Ptr} (h : ∀ e', e ≠ .serve p e') : cutShort p (.ok s) e = [] := by
  cases e with
  | serve q e' => exact if_neg fun hq => h e' (by rw [hq.1])
  | _ => rfl

theorem cutShort_serve {p : Ptr} {h : Handler} (hh : s.handlers p = some h) (e : ServeEvent) :
    cutShort p (.ok s) (.serve p e) =
      if h.cutBy (s.core.objs p).contentSize e then [()] else [] := by
  simp [cutShort, hh]

/-- A handler that has not left has lost nothing yet. -/
theorem ending_of_not_left {r : Request} {h : Handler}
    (he : (h.pc = .waiting ∨ ∃ header, h.pc = .answered header) → h.status = none)
    (hl : ¬ h.Left) : Ending r h [] :=
  ⟨he, fun hc => absurd rfl hc, fun _ hl' => absurd hl' hl⟩

theorem ending_of_status {r : Request} {h : Handler} (hl : h.Left) (hs : h.status ≠ some .ok) :
    Ending r h [] := by
  refine ⟨fun he => ?_, fun hc => absurd rfl hc, fun _ _ h' => absurd h' hs⟩
  rcases he with he | ⟨header, he⟩ <;> exact absurd hl (Handler.not_left he nofun nofun)

/-- What a handler has received is on the channel. -/
theorem Request.isPrefix_taken (r : Request) : r.taken.flatten <+: r.chunkLog.flatten := by
  cases hr : r.response <;> simp [taken, chunkLog, hr, Chan.sent]

theorem Forwards.header_eq {r : Request} {h : Handler} {chunk : Bytes} (hf : Forwards r h chunk) :
    ∃ rsp, r.response = some rsp ∧ r.header = some rsp.header ∧
      r.chunkLog = rsp.chunks.sent := by
  obtain ⟨rsp, hr⟩ := Option.isSome_iff_exists.mp ((header_isSome_iff r).symm ▸ hf.header)
  exact ⟨rsp, hr, by simp [Request.header, hr], by simp [Request.chunkLog, hr]⟩

/-- A call of `Close` goes on or returns, and writes nothing to the body. -/
theorem Ending.closeNext {r : Request} {h : Handler} {cut : List Unit} (he : Ending r h cut)
    {call : CloseCall} {message : String} {after : After}
    (hpc : h.pc = .closing call message after)
    (ha : ∀ status, after = .defers (some status) → status ≠ .ok) (next : Option CloseCall) :
    Ending r (h.closeNext message after next) cut := by
  have hl : h.Left := .inr ⟨_, _, _, hpc⟩
  cases next with
  | some call' =>
    refine ⟨nofun, fun hc => ?_, fun hc _ hst => he.whole hc hl hst⟩
    obtain ⟨-, h2, h3⟩ := he.short hc
    exact ⟨.inr ⟨call', message, after, rfl⟩, h2, h3⟩
  | none =>
    have hl' := h.left_closeReturned after
    refine ⟨fun h' => ?_, fun hc => ?_, fun hc _ hst => ?_⟩
    · rcases h' with h' | ⟨header, h'⟩ <;> exact absurd hl' (Handler.not_left h' nofun nofun)
    · obtain ⟨-, h2, h3⟩ := he.short hc
      refine ⟨hl', (h.closeReturned_success after).trans h2, ?_⟩
      change ∃ header, r.header = some header ∧ (h.closeReturned after).body.length < _
      rw [h.closeReturned_body]
      exact h3
    · change ∃ header, r.header = some header ∧ (h.closeReturned after).body <+: _ ∧
        (h.closeReturned after).body.length = _
      rw [h.closeReturned_body]
      refine he.whole hc hl ?_
      -- a status that is still to be written is none of success
      cases after with
      | returns => exact hst
      | defers status =>
        cases status with
        | none => exact hst
        | some status =>
          cases hst
          exact absurd rfl (ha _ rfl)

/-- **What a step of a handler means for its ending.** -/
theorem Serves.ending {C : ℕ} {p : Ptr} {h h' : Handler} {e : ServeEvent} {cut : List Unit}
    (hI : HandlerInv C s.core s.discarder p h)
    (hv : Visible C (s.core.Present p) (s.core.objs p)) (hh : s.handlers p = some h)
    (he : Ending (s.core.objs p) h cut) (hs : Serves s p h e h') :
    Ending (s.core.objs p) h' (cut ++ cutShort p (.ok s) (.serve p e)) := by
  rw [cutShort_serve hh]
  -- before the handler left, nothing was cut short
  have hnil : ∀ {pc}, h.pc = pc → pc ≠ .finished → (∀ call message after,
      pc ≠ .closing call message after) → cut = [] := by
    intro pc hpc h1 h2
    exact he.cut_nil (Handler.not_left hpc h1 h2)
  cases hs with
  | timedOut hpc hc =>
    rw [hnil hpc (by rintro ⟨⟩) (by rintro _ _ _ ⟨⟩), Handler.cutBy, hpc]
    exact ending_of_status (.inr ⟨_, _, _, rfl⟩) (by rintro ⟨⟩)
  | cut hpc hc =>
    rw [hnil hpc (by rintro ⟨⟩) (by rintro _ _ _ ⟨⟩), Handler.cutBy, hpc]
    have hf := hI.forwarding hpc
    obtain ⟨rsp, hr, hhead, hlog⟩ := hf.header_eq
    refine ⟨by rintro (⟨⟨⟩⟩ | ⟨_, ⟨⟩⟩),
      fun _ => ⟨.inr ⟨_, _, _, rfl⟩, hf.success, rsp.header, hhead, ?_⟩, by rintro ⟨⟩⟩
    have ht := hf.taken
    rw [List.append_nil] at ht
    change h.body.length < rsp.size
    rw [← ht]
    refine ((s.core.objs p).isPrefix_taken.length_le).trans_lt ?_
    rw [hlog]
    exact hv.cut hc rsp hr
  | refused hpc =>
    rw [hnil hpc (by rintro ⟨⟩) (by rintro _ _ _ ⟨⟩)]
    refine ending_of_status (.inr ⟨_, _, _, rfl⟩) ?_
    change h.status ≠ _
    rw [he.early (.inr ⟨_, hpc⟩)]
    rintro ⟨⟩
  | accepted hpc =>
    rw [hnil hpc (by rintro ⟨⟩) (by rintro _ _ _ ⟨⟩)]
    exact ending_of_not_left (by rintro (⟨⟨⟩⟩ | ⟨_, ⟨⟩⟩))
      (Handler.not_left rfl (by rintro ⟨⟩) (by rintro _ _ _ ⟨⟩))
  | mismatch hpc hr hb hc hne =>
    exact absurd ((hI.forwarding hpc).whole hv hr hb hc).2.2.2 hne
  | @forwarded rsp hpc hr hb hc =>
    rw [hnil hpc (by rintro ⟨⟩) (by rintro _ _ _ ⟨⟩)]
    obtain ⟨-, h2, h3, -⟩ := (hI.forwarding hpc).whole hv hr hb hc
    refine ⟨by rintro (⟨⟨⟩⟩ | ⟨_, ⟨⟩⟩), fun hc => absurd rfl hc,
      fun _ _ _ => ⟨rsp.header, ?_, ?_, ?_⟩⟩
    · simp [Request.header, hr]
    · change h.body <+: _
      rw [h2]
    · change h.body.length = _
      rw [h2, h3.length_flatten]
  | wrote hpc =>
    rw [hnil hpc (by rintro ⟨⟩) (by rintro _ _ _ ⟨⟩)]
    exact ending_of_not_left (by rintro (⟨⟨⟩⟩ | ⟨_, ⟨⟩⟩))
      (Handler.not_left rfl (by rintro ⟨⟩) (by rintro _ _ _ ⟨⟩))
  | @writeFails chunk hpc n message =>
    have hf := hI.writing chunk hpc
    obtain ⟨rsp, hr, hhead, hlog⟩ := hf.header_eq
    have hsize : (s.core.objs p).contentSize = rsp.size := by
      simp [Request.contentSize, hhead, Response.size]
    rw [hnil hpc (by rintro ⟨⟩) (by rintro _ _ _ ⟨⟩), Handler.cutBy, hpc, hsize]
    -- what was written is on the channel, so it is not more than the content
    have hpre : h.body ++ chunk.take n <+: (s.core.objs p).chunkLog.flatten := by
      refine .trans ?_ (s.core.objs p).isPrefix_taken
      rw [hf.taken]
      exact (List.prefix_append_right_inj _).mpr (List.take_prefix n chunk)
    have hle : (h.body ++ chunk.take n).length ≤ rsp.size := by
      refine hpre.length_le.trans ?_
      rw [hlog]
      exact hv.bound rsp hr
    simp only [decide_eq_true_eq, List.nil_append]
    split_ifs with hlt
    · exact ⟨by rintro (⟨⟨⟩⟩ | ⟨_, ⟨⟩⟩),
        fun _ => ⟨.inr ⟨_, _, _, rfl⟩, hf.success, rsp.header, hhead, hlt⟩, by rintro ⟨⟩⟩
    · exact ⟨by rintro (⟨⟨⟩⟩ | ⟨_, ⟨⟩⟩), fun hc => absurd rfl hc,
        fun _ _ _ => ⟨rsp.header, hhead, hpre, Nat.le_antisymm hle (Nat.not_lt.mp hlt)⟩⟩
  | @close call message after next _ hpc hn hev =>
    have hobs : h.cutBy (s.core.objs p).contentSize e = false := by
      rcases hev with rfl | ⟨_, rfl⟩ <;> rfl
    rw [hobs, if_neg (by decide), List.append_nil]
    exact he.closeNext hpc (hI.closing _ _ _ hpc).2.2.2 next
  | success hs hev =>
    have hobs : h.cutBy (s.core.objs p).contentSize e = false := by
      rcases hev with rfl | ⟨_, rfl⟩ <;> rfl
    rw [hobs, if_neg (by decide), List.append_nil]
    refine ⟨he.early, fun hc => ?_, he.whole⟩
    rw [(he.short hc).2.1] at hs; cases hs

/-- The handler of `p`, if there is one, and what it has lost so far. -/
structure Endings (s : Sys) (p : Ptr) (cut : List Unit) : Prop where
  fresh : s.handlers p = none → cut = []
  ending : ∀ h, s.handlers p = some h → Ending (s.core.objs p) h cut

/-- **What a step means for the ending of the handler of `p`.** -/
theorem SysSteps.endings (hI : SysInv cfg s) (hs : SysSteps cfg s e s') {p : Ptr}
    {cut : List Unit} (he : Endings s p cut) : Endings s' p (cut ++ cutShort p (.ok s) e) := by
  have hg := hs.grows hI.loop
  -- a step of the others
  have hother : s'.handlers p = s.handlers p → (∀ e', e ≠ .serve p e') →
      Endings s' p (cut ++ cutShort p (.ok s) e) := by
    intro hh hne
    rw [cutShort_of_ne hne, List.append_nil]
    refine ⟨fun h' => he.fresh (hh ▸ h'), fun h h' => ?_⟩
    rw [hh] at h'
    exact (he.ending h h').mono (hg.objs p (hI.handler p h h').lt)
  -- a step after which the handler of `p` is `h'`
  have hown : ∀ {h' : Handler}, s'.handlers p = some h' →
      Ending (s'.core.objs p) h' (cut ++ cutShort p (.ok s) e) →
      Endings s' p (cut ++ cutShort p (.ok s) e) := by
    intro h' hh' hend
    refine ⟨fun hn => ?_, fun h hh => ?_⟩
    · rw [hh'] at hn; cases hn
    · rw [hh'] at hh
      cases hh
      exact hend
  -- the handler of `p` is at `pc`, in front of a step that does not end its forwarding loop
  have hnil : ∀ {h : Handler}, s.handlers p = some h → ¬ h.Left → cut = [] :=
    fun hh => (he.ending _ hh).cut_nil
  cases hs with
  | @loop _ _ _ hpc hev =>
    refine hother rfl fun e' => ?_
    rcases hev with ⟨-, rfl⟩ | ⟨_, _, -, rfl⟩ | ⟨_, -, rfl⟩ | ⟨_, _, -, rfl⟩ | ⟨_, _, -, rfl, -⟩ <;>
      exact nofun
  | begin | finish | last | complete | drain | disconnect | discardTake => exact hother rfl nofun
  | discardStop | discardExit => exact hother rfl nofun
  | start hpc hst =>
    by_cases hp : p = s.core.created
    · subst hp
      have hfresh : s.handlers s.core.created = none := by
        cases hh : s.handlers s.core.created with
        | none => rfl
        | some h => exact absurd (hI.handler _ h hh).lt (lt_irrefl _)
      refine hown (Sys.setHandler_self _ _ _) ?_
      rw [cutShort_of_ne (fun _ h => by cases h), he.fresh hfresh]
      exact ending_of_not_left (fun _ => rfl) (Handler.not_left rfl nofun nofun)
    · exact hother (Sys.setHandler_ne _ _ hp) nofun
  | @discardStart q h message after hd hh hpc =>
    by_cases hp : p = q
    · subst hp
      refine hown (Sys.setHandler_self _ _ _) ?_
      rw [cutShort_of_ne (fun _ h => by cases h), List.append_nil]
      exact (he.ending h hh).closeNext hpc ((hI.handler p h hh).closing _ _ _ hpc).2.2.2 (some _)
    · exact hother (Sys.setHandler_ne _ _ hp) nofun
  | @serves q h h' e hh hsv =>
    by_cases hp : p = q
    · subst hp
      exact hown (Sys.setHandler_self _ _ _)
        (hsv.ending (hI.handler p h hh) (hI.visible hh) hh (he.ending h hh))
    · exact hother (Sys.setHandler_ne _ _ hp) fun e' h' => by cases h'; exact hp rfl
  | @takeResponse q h o c hh hpc hr =>
    by_cases hp : p = q
    · subst hp
      refine hown (Sys.setHandler_self _ _ _) ?_
      obtain ⟨rfl, -, -⟩ := (hI.handler p h hh).waiting hpc
      have hcut : cutShort p (.ok s) (.serve p .takeResponse) = [] := by rw [cutShort_serve hh]; rfl
      rw [hcut, hnil hh (Handler.not_left rfl nofun nofun)]
      rcases o with _ | _ | header
      · exact ending_of_status (.inr ⟨_, _, _, rfl⟩) nofun
      · exact ending_of_status (.inr ⟨_, _, _, rfl⟩) nofun
      · exact ending_of_not_left (fun _ => rfl) (Handler.not_left rfl nofun nofun)
    · exact hother (Sys.setHandler_ne _ _ hp) fun e' h' => by cases h'; exact hp rfl
  | @takeChunk q h rsp chunk c hh hpc =>
    by_cases hp : p = q
    · subst hp
      refine hown (Sys.setHandler_self _ _ _) ?_
      have hcut : cutShort p (.ok s) (.serve p .takeChunk) = [] := by rw [cutShort_serve hh]; rfl
      rw [hcut, hnil hh (Handler.not_left hpc nofun nofun)]
      exact ending_of_not_left nofun (Handler.not_left rfl nofun nofun)
    · exact hother (Sys.setHandler_ne _ _ hp) fun e' h' => by cases h'; exact hp rfl
  | @closeTrigger q h message after now sendOk core hh hpc =>
    by_cases hp : p = q
    · subst hp
      refine hown (Sys.setHandler_self _ _ _) ?_
      have hcut : cutShort p (.ok s) (.serve p (.closeTrigger now sendOk)) = [] := by
        rw [cutShort_serve hh]; rfl
      have hq := hI.handler p h hh
      rw [hcut, List.append_nil]
      exact ((he.ending h hh).closeNext hpc (hq.closing _ _ _ hpc).2.2.2 none).mono
        (hg.objs p hq.lt)
    · exact hother (Sys.setHandler_ne _ _ hp) fun e' h' => by cases h'; exact hp rfl
  | @successTrigger q h sendOk core err hh hsucc =>
    by_cases hp : p = q
    · subst hp
      refine hown (Sys.setHandler_self _ _ _) ?_
      have hcut : cutShort p (.ok s) (.serve p (.successTrigger sendOk)) = [] := by
        rw [cutShort_serve hh]; rfl
      have hend := (he.ending h hh).mono (hg.objs p (hI.handler p h hh).lt)
      rw [hcut, List.append_nil]
      refine ⟨hend.early, fun hc => ?_, hend.whole⟩
      rw [(hend.short hc).2.1] at hsucc; cases hsucc
    · exact hother (Sys.setHandler_ne _ _ hp) fun e' h' => by cases h'; exact hp rfl

theorem endings_of_run {es : List SysEvent}
    (h : (system cfg).run (.ok Sys.init) es = some (.ok s)) (p : Ptr) :
    Endings s p ((system cfg).observe (cutShort p) (.ok Sys.init) es) := by
  refine (system_induction (P := fun es s =>
    Endings s p ((system cfg).observe (cutShort p) (.ok Sys.init) es)) ?_ ?_ h).2
  · exact ⟨fun _ => rfl, fun h hh => by cases hh⟩
  · intro es s e s' hrun hI hP hs
    rw [Machine.observe_snoc _ e hrun]
    exact hs.endings hI hP

/-- **When a response with status 200 is complete.** A handler that returned after it wrote status 200
has written the content of the client if and only if it did not leave its forwarding loop because the
request was closed, nor because a write failed before the last byte. -/
theorem body_whole_iff_not_cutShort {es : List SysEvent}
    (h : (system cfg).run (.ok Sys.init) es = some (.ok s)) {p : Ptr} {handler : Handler}
    (hh : s.handlers p = some handler) (hpc : handler.pc = .finished)
    (hst : handler.status = some .ok) :
    WholeBody cfg es s p handler.body ↔
      (system cfg).observe (cutShort p) (.ok Sys.init) es = [] := by
  have hI := sysInv_of_run h
  have hend := (endings_of_run h p).ending handler hh
  constructor
  · intro hw
    by_contra hc
    obtain ⟨-, -, header, h1, h2⟩ := hend.short hc
    obtain ⟨header', h3, h4⟩ := hw.size
    rw [h1] at h3
    cases h3
    omega
  · intro hc
    obtain ⟨header, h1, h2, h3⟩ := hend.whole hc (.inl hpc) hst
    exact wholeBody_of_chunkLog h (hI.handler p handler hh).lt h1 h2 h3

/-- The client closes its response after the first of two chunks. -/
def truncatedDownload : List SysEvent :=
  [.forwardRequest "a" 0 true, .recv ⟨some (.contentHeader sampleHeader)⟩ 1,
    .serve 0 .takeResponse, .serve 0 (.checkAccept .acceptable),
    .recv ⟨some (.contentChunk ⟨1, 0, [1, 2]⟩)⟩ 2, .write, .serve 0 .takeChunk, .serve 0 .wrote,
    .recv ⟨some (.closeResponse ⟨1⟩)⟩ 3, .serve 0 .seesClosed, .serve 0 .closeStep]

theorem truncated_download_looks_complete :
    ¬ ∀ (es : List SysEvent) (s : Sys) (p : Ptr) (handler : Handler),
      (system sampleConfig).run (.ok Sys.init) es = some (.ok s) →
      s.handlers p = some handler → handler.pc = .finished → handler.status = some .ok →
      WholeBody sampleConfig es s p handler.body := by
  intro h
  have hw := h truncatedDownload (sysAfter sampleConfig truncatedDownload) 0
    { pc := .finished, status := some .ok, body := [1, 2], written := 2, success := none } rfl rfl
    rfl rfl
  obtain ⟨header, h1, h2⟩ := hw.size
  have h3 : ((sysAfter sampleConfig truncatedDownload).core.objs 0).header = some sampleHeader := rfl
  rw [h3] at h1
  cases h1
  exact absurd h2 (by decide)

/-- The sample download, to the return of its handler. -/
def finishedDownload : List SysEvent :=
  sampleDownload ++ [.serve 0 .closeStep, .serve 0 .closeStep, .serve 0 .closeStep]

theorem body_whole_iff_not_cutShort_finishedDownload :
    WholeBody sampleConfig finishedDownload (sysAfter sampleConfig finishedDownload) 0 [1, 2, 3] ↔
      (system sampleConfig).observe (cutShort 0) (.ok Sys.init) finishedDownload = [] := by
  have hrun : (system sampleConfig).run (.ok Sys.init) finishedDownload =
      some (.ok (sysAfter sampleConfig finishedDownload)) := rfl
  have hh : (sysAfter sampleConfig finishedDownload).handlers 0 =
      some { sampleHandler with pc := .finished } := rfl
  exact body_whole_iff_not_cutShort hrun hh rfl rfl

end Truncation

end Loon
