import Loon.Link.Delivery
import Loon.Link.Relay
import Loon.Server.Provenance

set_option autoImplicit false

/-!
# From the source of a content to the body of an HTTP response

The bytes of a content on their way through the whole system: the request handler of the client cuts
its source into chunks, the chunks cross the connection with those of other requests, the protocol
loop puts them on the channel of their request, and the HTTP handler of that request writes them
out.

* `Carried`, `Carried.step`: what a request of the server holds, against the messages received for it;
* `RelayBooks`, **`RelayBooks.step`**: the same for all requests and their handlers;
* **`body_of_source`**: an HTTP body consists of the first bytes of a content that was registered
  under the path of the request, and of all of them if the handler got to its call of `Success`;
* **`notFound_of_missing`**: status 404 means that there was no content under that path.
-/

namespace Loon

open Chunking

/-! ## Messages for a request -/

/-- The bytes of the chunks among the messages. -/
def chunkBytes (l : List ClientData) : List Bytes := (chunksOf l).map ContentChunk.data

theorem chunkBytes_append (l l' : List ClientData) :
    chunkBytes (l ++ l') = chunkBytes l ++ chunkBytes l' := by
  rw [chunkBytes, chunksOf, List.filterMap_append, List.map_append]
  rfl

theorem chunkBytes_mono {l l' : List ClientData} (h : l <+: l') : chunkBytes l <+: chunkBytes l' := by
  obtain ⟨t, rfl⟩ := h
  rw [chunkBytes_append]
  exact List.prefix_append _ _

theorem about_prefix {p : ℕ} {l l' : List Outgoing} (h : l <+: l') : about p l <+: about p l' := by
  obtain ⟨t, rfl⟩ := h
  rw [about_append]
  exact List.prefix_append _ _

section Carried

variable {ext : Externals} {cfg : Config ext} {n n' : Relay} {s s' : Sys}

/-- **What the request `p` of the server holds is what the client sent for it.** -/
structure Carried (n : Relay) (s : Sys) (p : Ptr) : Prop where
  log : (s.core.objs p).chunkLog <+: chunkBytes (about p n.received)
  all : s.core.phase = .loop → (s.core.objs p).isClosed = false →
    (s.core.objs p).chunkLog ++ s.inFlight p = chunkBytes (about p n.received)
  header : ∀ header, (s.core.objs p).header = some header → .contentHeader header ∈ about p n.received
  empty : none ∈ (s.core.objs p).pendingResponse.sent → ∃ m, .emptyResponse m ∈ about p n.received

theorem LoopInv.fault_none (h : LoopInv cfg s.pc s.core) (hph : s.core.phase = .loop) :
    s.core.fault = none := by
  cases hpc : s.pc with
  | select =>
      rw [hpc] at h
      exact Inv.fault_none h hph
  | sending w =>
      rw [hpc] at h
      exact (h.1.writing w rfl).1
  | completing p =>
      rw [hpc] at h
      exact h.1.fault
  | draining p =>
      rw [hpc] at h
      exact h.1.fault

/-- Messages are received at a select, while the loop runs. -/
theorem SysSteps.recv_ready {m : ClientMessage} {now : Time} (hs : SysSteps cfg s (.recv m now) s') :
    s.pc = .select ∧ s.core.phase = .loop := by
  cases hs with
  | loop hpc he hst =>
      refine ⟨hpc, ?_⟩
      rcases he with ⟨rfl, he⟩ | ⟨_, _, rfl, he⟩ | ⟨_, rfl, he⟩ | ⟨_, _, rfl, he⟩ |
        ⟨m, now, rfl, he, -⟩ <;>
        cases he
      cases hst with
      | recv hp => exact hp
  | begin hpc _ hp => exact ⟨hpc, hp⟩

/-- **The id of a message leads to the request it is about.** -/
theorem RelayInv.lookup (h : RelayInv cfg n s) (hpc : s.pc = .select) (hph : s.core.phase = .loop)
    {x : Outgoing} {rest : List Outgoing} (hq : n.toServer = x :: rest) :
    s.core.requests.lookup x.data.requestId = some x.origin := by
  have hlinked := h.linked hph
  rw [Sys.view_of_select hpc] at hlinked
  obtain ⟨hlt, hid⟩ := hlinked.flying x (by change x ∈ n.toServer; rw [hq]; exact List.mem_cons_self)
  obtain ⟨σ, σ', hat, hfol, -⟩ := hlinked.tracks x.origin hlt
  change σ.follow _ (about x.origin n.toServer) = _ at hfol
  rw [hq, about_cons_self rfl] at hfol
  obtain ⟨τ, hnext, -⟩ := Stage.follow_cons hfol
  rw [hid]
  exact hat.present hnext

/-- The chunk that the loop accepts is the one that was sent. -/
theorem receivedChunk_eq (hI : SysInv cfg s) {x : Outgoing} {now : Time} {p : Ptr}
    (hs : SysSteps cfg s (.recv ⟨some x.data⟩ now) s') (hfault : s'.core.fault = none)
    (hl : s.core.requests.lookup x.data.requestId = some x.origin) :
    receivedChunk cfg p (.ok s) (.recv ⟨some x.data⟩ now) = chunkBytes (about p [x]) := by
  have hacc := (hs.recv hI).2
  rw [hfault] at hacc
  simp only [receivedChunk, hacc, Option.isNone_none, if_true]
  by_cases hp : x.origin = p
  · subst hp
    rw [about_cons_self rfl, about_nil]
    cases hd : x.data with
    | contentChunk c =>
        rw [hd] at hl
        simp only [chunkData]
        exact if_pos hl
    | _ => rfl
  · rw [about_cons_ne hp, about_nil]
    cases hd : x.data with
    | contentChunk c =>
        rw [hd] at hl
        simp only [chunkData]
        refine if_neg fun hl' => hp ?_
        exact Option.some.inj (hl.symm.trans hl')
    | _ => rfl

/-- The receipt of a message. -/
theorem Carried.recv (h : RelayInv cfg n s) {p : Ptr} (hp : p < s.core.created) (hc : Carried n s p)
    {x : Outgoing} {rest : List Outgoing} {now : Time} (hq : n.toServer = x :: rest)
    (hs : SysSteps cfg s (.recv ⟨some x.data⟩ now) s') :
    Carried { n with server := .ok s', toServer := rest, received := n.received ++ [x] } s' p := by
  obtain ⟨hpc, hph⟩ := hs.recv_ready
  have hl := h.lookup hpc hph hq
  have hsub : about p n.received <+: about p (n.received ++ [x]) := about_prefix (List.prefix_append _ _)
  refine ⟨?_, fun hph' hopen' => ?_, fun header hheader => ?_, fun hnone => ?_⟩
  · refine .trans ?_ (chunkBytes_mono hsub)
    cases hs.gains h.sys hp with
    | nothing hsame =>
        rw [hsame.log]
        exact hc.log
    | message _ _ _ _ _ hlog =>
        rw [hlog]
        exact hc.log
    | chunk hpc' =>
        rw [hpc] at hpc'
        cases hpc'
  · have hopen := ((hs.grows h.sys.loop).objs p hp).not_closed hopen'
    rw [hs.conveys h.sys hp hopen', hc.all hph hopen,
      receivedChunk_eq h.sys hs ((hs.sysInv h.sys).loop.fault_none hph') hl, about_append,
      chunkBytes_append]
  · cases hs.gains h.sys hp with
    | nothing hsame =>
        rw [hsame.header] at hheader
        exact hsub.subset (hc.header header hheader)
    | @message m now' d he hd hl' hnew =>
        cases he
        obtain rfl : x.data = d := Option.some.inj hd
        obtain rfl : x.origin = p := Option.some.inj (hl.symm.trans hl')
        rcases hnew with hold | ⟨header', hdata, hnew⟩
        · rw [hold] at hheader
          exact hsub.subset (hc.header header hheader)
        · rw [hnew] at hheader
          cases hheader
          rw [about_append, about_cons_self rfl, hdata]
          simp
    | chunk hpc' =>
        rw [hpc] at hpc'
        cases hpc'
  · have hold : none ∈ (s.core.objs p).pendingResponse.sent →
        ∃ m, .emptyResponse m ∈ about p (n.received ++ [x]) := fun hnone => by
      obtain ⟨m, hm⟩ := hc.empty hnone
      exact ⟨m, hsub.subset hm⟩
    cases hs.gains h.sys hp with
    | nothing hsame =>
        rw [hsame.pending] at hnone
        exact hold hnone
    | @message m now' d he hd hl' _ hnew =>
        cases he
        obtain rfl : x.data = d := Option.some.inj hd
        obtain rfl : x.origin = p := Option.some.inj (hl.symm.trans hl')
        rcases hnew with hsame | ⟨m, hdata, -⟩ | ⟨header, hnew⟩
        · rw [hsame] at hnone
          exact hold hnone
        · refine ⟨m, ?_⟩
          rw [about_append, about_cons_self rfl, hdata]
          simp
        · rw [hnew] at hnone
          rcases List.mem_append.mp hnone with hnone | hnone
          · exact hold hnone
          · cases List.mem_singleton.mp hnone
    | chunk hpc' =>
        rw [hpc] at hpc'
        cases hpc'

/-- A step of the server that receives no message. -/
theorem Carried.server (h : RelayInv cfg n s) {p : Ptr} (hp : p < s.core.created) (hc : Carried n s p)
    {e : SysEvent} (he : ∀ m now, e ≠ .recv m now) (hs : SysSteps cfg s e s') :
    Carried { n with server := .ok s' } s' p := by
  have hL := h.sys.loop
  cases hs.gains h.sys hp with
  | nothing hsame =>
      refine ⟨?_, fun hph' hopen' => ?_, fun header hheader => ?_, fun hnone => ?_⟩
      · rw [hsame.log]
        exact hc.log
      · have hopen := ((hs.grows hL).objs p hp).not_closed hopen'
        rw [hs.conveys h.sys hp hopen', hc.all (hs.phase_loop hL hph') hopen,
          (receivedChunk_of_ne he p).1, List.append_nil]
      · rw [hsame.header] at hheader
        exact hc.header header hheader
      · rw [hsame.pending] at hnone
        exact hc.empty hnone
  | message he' => exact absurd he' (he _ _)
  | @chunk w hpc hw hopen hheader hpending hlog =>
      -- the loop sends the last of the chunks that were received
      have hph : s.core.phase = .loop := by
        rw [hpc] at hL
        exact hL.2
      have hall := hc.all hph hopen
      have hfly : s.inFlight p = [w.data] := by simp [Sys.inFlight, hpc, hw]
      refine ⟨?_, fun hph' hopen' => ?_, fun header hh => ?_, fun hnone => ?_⟩
      · rw [hlog, ← hall, hfly]
      · rw [hs.conveys h.sys hp hopen', hall, (receivedChunk_of_ne he p).1, List.append_nil]
      · rw [hheader] at hh
        exact hc.header header hh
      · rw [hpending] at hnone
        exact hc.empty hnone

theorem Steps.forward_phase {s s' : St} {path : String} {now : Time} {sendOk : Bool}
    (h : Steps cfg s (.forwardRequest path now sendOk) s') : s.phase = .loop := by
  cases h with
  | forward hp => exact hp

/-- A request that was just created. -/
theorem Carried.create (h : RelayInv cfg n s) {p : Ptr} (hge : s.core.created ≤ p)
    (hp : p < s'.core.created) {e : SysEvent} (hs : SysSteps cfg s e s') :
    Carried { n with server := .ok s' } s' p := by
  rcases hs.created with hsame | ⟨path, now, sendOk, -, hst, hpc⟩
  · exact absurd (hsame ▸ hp) (Nat.not_lt.mpr hge)
  rcases hst.created with hsame | ⟨hcreated, id, path', now', hnew⟩
  · exact absurd (hsame ▸ hp) (Nat.not_lt.mpr hge)
  rw [hcreated] at hp
  obtain rfl : p = s.core.created := Nat.le_antisymm (Nat.lt_succ_iff.mp hp) hge
  have hph : s.core.phase = .loop := hst.forward_phase
  have hnil : about s.core.created n.received = [] := by
    refine about_eq_nil fun m hm => ?_
    have hlt := h.ledger.old m (List.mem_append_left _ hm)
    have hle : n.session.client.seen ≤ s.view.created := (h.linked hph).seen_le
    rw [Sys.view_created] at hle
    exact (hlt.trans_le hle).ne
  refine ⟨?_, fun _ _ => ?_, fun header hheader => ?_, fun hnone => ?_⟩
  · rw [hnew]
    exact List.nil_prefix
  · change _ = chunkBytes (about s.core.created n.received)
    rw [hnew, hnil, Sys.inFlight_of_select hpc]
    rfl
  · rw [hnew] at hheader
    cases hheader
  · rw [hnew] at hnone
    cases hnone

end Carried

/-! ## What is asked for -/

section Asks

variable {ext : Externals} {cfg : Config ext} {s s' : Sys} {e : SysEvent}

/-- What the client is asked for. -/
def asksIn (l : List ServerMessage) : List (UInt64 × String) := l.filterMap ServerMessage.asked

/-- The ids and the paths of the requests. -/
def St.asks (s : St) : List (UInt64 × String) :=
  (List.range s.created).map fun p => ((s.objs p).id, (s.objs p).path)

theorem asksIn_append (l l' : List ServerMessage) :
    asksIn (l ++ l') = asksIn l ++ asksIn l' := List.filterMap_append

/-- A message without a new id asks for nothing. -/
theorem asksIn_of_ids {l : List ServerMessage} (h : l.filterMap ServerMessage.newId = []) :
    asksIn l = [] := by
  rw [List.filterMap_eq_nil_iff] at h
  refine List.filterMap_eq_nil_iff.mpr fun m hm => ?_
  cases m with
  | request id path => cases h _ hm
  | success id => rfl
  | requestClosed id message => rfl

theorem Steps.asksIn_eq {s s' : St} {e : Event} (hI : Inv cfg s) (h : Steps cfg s e s')
    (he : ∀ path now sendOk, e ≠ .forwardRequest path now sendOk) :
    asksIn s'.send = asksIn s.send := by
  obtain ⟨l, hl⟩ := (h.grows hI).send
  have hids := h.sentIds_eq hI he
  unfold St.sentIds at hids
  rw [← hl, List.filterMap_append, List.append_right_eq_self] at hids
  rw [← hl, asksIn_append, asksIn_of_ids hids, List.append_nil]

/-- Only a request to the client asks for a path. -/
theorem SysSteps.asks (hI : SysInv cfg s) (hs : SysSteps cfg s e s') :
    (asksIn s'.core.send = asksIn s.core.send ∧ s'.core.created = s.core.created) ∨
      ∃ path now sendOk, Steps cfg s.core (.forwardRequest path now sendOk) s'.core := by
  have hL := hI.loop
  have hloop : ∀ {e' : Event} {core : St}, s.pc = .select → Steps cfg s.core e' core →
      (∀ path now sendOk, e' ≠ .forwardRequest path now sendOk) →
      asksIn core.send = asksIn s.core.send ∧ core.created = s.core.created := by
    intro e' core hpc hst he
    rw [hpc] at hL
    exact ⟨hst.asksIn_eq hL he, hst.created_eq he⟩
  cases hs with
  | loop hpc he hst =>
      rcases he with ⟨rfl, -⟩ | ⟨_, _, rfl, -⟩ | ⟨_, rfl, -⟩ | ⟨path, now, rfl, -⟩ | ⟨_, _, rfl, -⟩
      · exact .inl (hloop hpc hst (by rintro _ _ _ ⟨⟩))
      · exact .inl (hloop hpc hst (by rintro _ _ _ ⟨⟩))
      · exact .inl (hloop hpc hst (by rintro _ _ _ ⟨⟩))
      · exact .inr ⟨path, now, false, hst⟩
      · exact .inl (hloop hpc hst (by rintro _ _ _ ⟨⟩))
  | @start path now core hpc hst => exact .inr ⟨path, now, true, hst⟩
  | closeTrigger _ _ hpc hst => exact .inl (hloop hpc hst (by rintro _ _ _ ⟨⟩))
  | successTrigger _ _ hpc hst => exact .inl (hloop hpc hst (by rintro _ _ _ ⟨⟩))
  | begin _ _ _ hb =>
      cases hb with
      | accept => exact .inl ⟨rfl, rfl⟩
  | finish _ hf =>
      left
      change asksIn (St.top _).send = _ ∧ (St.top _).created = _
      rw [St.top_send, St.top_created, hf.frame.created]
      cases hf <;> exact ⟨rfl, rfl⟩
  | drain =>
      left
      change asksIn (St.top _).send = _ ∧ (St.top _).created = _
      rw [St.top_send, St.top_created]
      exact ⟨rfl, rfl⟩
  | _ => exact .inl ⟨rfl, rfl⟩

/-- The requests that existed keep their ids and paths. -/
theorem SysSteps.asks_prefix (hI : SysInv cfg s) (hs : SysSteps cfg s e s') :
    s.core.asks <+: s'.core.asks := by
  have hg := hs.grows hI.loop
  obtain ⟨d, hd⟩ := Nat.exists_eq_add_of_le hg.created
  unfold St.asks
  rw [hd, List.range_add, List.map_append]
  refine ⟨_, congrArg (· ++ _) (List.map_congr_left fun p hp => ?_)⟩
  have hlt := List.mem_range.mp hp
  exact (congrArg₂ Prod.mk (hg.objs p hlt).sameId (hs.path hlt)).symm

/-- **The client is asked for every request**, in their order. -/
theorem SysSteps.asked (hI : SysInv cfg s) (hs : SysSteps cfg s e s')
    (h : asksIn s.core.send <+: s.core.asks)
    (hall : s.core.phase = .loop → asksIn s.core.send = s.core.asks) :
    asksIn s'.core.send <+: s'.core.asks ∧
      (s'.core.phase = .loop → asksIn s'.core.send = s'.core.asks) := by
  have hpre := hs.asks_prefix hI
  rcases hs.asks hI with ⟨hsame, hcreated⟩ | ⟨path, now, sendOk, hst⟩
  · rw [hsame]
    refine ⟨h.trans hpre, fun hph => ?_⟩
    rw [hall (hs.phase_loop hI.loop hph)]
    refine hpre.eq_of_length ?_
    rw [St.asks, St.asks, List.length_map, List.length_map, List.length_range, List.length_range,
      hcreated]
  · have hold := hall hst.forward_phase
    have hst' := hst
    generalize s'.core = t at hst hpre ⊢
    cases hst with
    | @forward _ _ _ id =>
        cases sendOk with
        | false =>
            -- the send failed, and the loop is about to return
            refine ⟨?_, fun hph => ?_⟩
            · rw [St.top_send]
              exact h.trans hpre
            · simp [St.sendMessage, St.top] at hph
        | true =>
            have hasks :
                (((s.core.allocate id path now).sendMessage (.request id path) true).1.top).asks =
                s.core.asks ++ [(id, path)] := by
              unfold St.asks at hpre ⊢
              rw [St.top_created, St.top_objs]
              change (List.range (s.core.created + 1)).map _ = _
              rw [List.range_succ, List.map_append]
              refine congrArg₂ _ (List.map_congr_left fun p hp => ?_) ?_
              · exact congrArg (fun r : Request => (r.id, r.path))
                  (St.put_objs_ne _ _ (Nat.ne_of_lt (List.mem_range.mp hp)))
              · exact congrArg (fun r : Request => [(r.id, r.path)]) (St.put_objs_self _ _ _)
            have hsend : asksIn
                (((s.core.allocate id path now).sendMessage (.request id path) true).1.top).send =
                s.core.asks ++ [(id, path)] := by
              rw [St.top_send, ← hold]
              exact asksIn_append _ _
            rw [hsend, hasks]
            exact ⟨List.prefix_rfl, fun _ => rfl⟩

end Asks

/-! ## Runs -/

section Runs

variable {ext : Externals} (cfg : Config ext)

/-- The client handled the `Request` message with the number `p`, for `path`, when it had no content
under this path. -/
def Missing (es : List RelayEvent) (p : ℕ) (path : String) : Prop :=
  ∃ es₁ limited sent es₂ n₁ id, es = es₁ ++ .deliver limited sent :: es₂ ∧
    (relay cfg).run Relay.init es₁ = some n₁ ∧ n₁.nextMessage = some (.request id path) ∧
    n₁.session.client.seen = p ∧ n₁.session.client.content path = none

/-- **What is known of a connection** after the events `es`. -/
structure RelayBooks (es : List RelayEvent) (n : Relay) (s : Sys) : Prop where
  carried : ∀ p, p < s.core.created → Carried n s p
  shows : ∀ p h, s.handlers p = some h → (s.core.objs p).Shows h
  asked : asksIn s.core.send <+: s.core.asks
  everyone : s.core.phase = .loop → asksIn s.core.send = s.core.asks
  registered : ∀ i, i < n.session.client.registered → RelayEvent.client
    (.register (n.session.client.handlers i).source (n.session.client.handlers i).info) ∈ es
  missing : ∀ p, (∃ r, n.session.client.responding = some r ∧ r.origin = p) ∨
    (∃ m, .emptyResponse m ∈ about p (n.received ++ n.toServer)) →
    ∃ id path, (asksIn n.session.handled)[p]? = some (id, path) ∧ Missing cfg es p path

variable {cfg} {es : List RelayEvent} {n n' : Relay} {s s' : Sys}

theorem Missing.snoc {p : ℕ} {path : String} (h : Missing cfg es p path) (e : RelayEvent) :
    Missing cfg (es ++ [e]) p path := by
  obtain ⟨es₁, limited, sent, es₂, n₁, id, rfl, hrest⟩ := h
  exact ⟨es₁, limited, sent, es₂ ++ [e], n₁, id, by rw [List.append_assoc]; rfl, hrest⟩

theorem emptyResponse_iff {p : ℕ} {l : List Outgoing} : (∃ m, .emptyResponse m ∈ about p l) ↔
    ∃ x ∈ l, x.origin = p ∧ x.data.isEmpty = true := by
  constructor
  · rintro ⟨m, hm⟩
    obtain ⟨x, hx, hd⟩ := List.mem_map.mp hm
    obtain ⟨hx, hp⟩ := List.mem_filter.mp hx
    exact ⟨x, hx, by simpa using hp, by rw [hd]; rfl⟩
  · rintro ⟨x, hx, hp, hempty⟩
    cases hd : x.data with
    | emptyResponse m => exact ⟨m, List.mem_map.mpr ⟨x, List.mem_filter.mpr ⟨hx, by simpa using hp⟩, hd⟩⟩
    | _ =>
        rw [hd] at hempty
        cases hempty

/-- A step of the client, which is the event `e'` of the connection. -/
theorem RelayBooks.client (h : RelayInv cfg n s) (hb : RelayBooks cfg es n s)
    (hrun : (relay cfg).run Relay.init es = some n) {e : ClientEvent} {e' : RelayEvent} {c : Client}
    {out : List Outgoing} (hc : n.session.client.step cfg.hello e = some (c, out))
    (hreg : ∀ source info, e = .register source info → e' = .client e)
    (hmsg : ∀ m limited ok, e = .message m limited ok →
      e' = .deliver limited ok ∧ n.nextMessage = some m)
    (d : ℕ) : RelayBooks cfg (es ++ [e'])
      { n with session := ⟨c, n.session.handled ++ e.handled,
                 n.session.client.record n.session.logs out e⟩,
               delivered := d, toServer := n.toServer ++ out } s := by
  -- what was missing before
  have hold : ∀ p, (∃ r, n.session.client.responding = some r ∧ r.origin = p) ∨
      (∃ m, .emptyResponse m ∈ about p (n.received ++ n.toServer)) → ∃ id path,
      (asksIn (n.session.handled ++ e.handled))[p]? = some (id, path) ∧
        Missing cfg (es ++ [e']) p path := by
    intro p hp
    obtain ⟨id, path, hpath, hmiss⟩ := hb.missing p hp
    refine ⟨id, path, ?_, hmiss.snoc e'⟩
    rw [asksIn_append]
    exact List.getElem?_append_left (List.getElem?_eq_some_iff.mp hpath).1 ▸ hpath
  refine ⟨fun p hp => ?_, hb.shows, hb.asked, hb.everyone, fun i hi => ?_, fun p hp => ?_⟩
  · have hcar := hb.carried p hp
    exact ⟨hcar.log, hcar.all, hcar.header, hcar.empty⟩
  · rcases h.ledger.registration (k := cfg.hello) (Session.steps_of_client hc) hi with
      ⟨hlt, hsource, hinfo⟩ | hnew
    · rw [hsource, hinfo]
      exact List.mem_append_left _ (hb.registered i hlt)
    · have he' := hreg _ _ hnew
      rw [hnew] at he'
      exact List.mem_append_right _ (List.mem_singleton.mpr he'.symm)
  · rcases hp with ⟨r, hr, rfl⟩ | ⟨m, hm⟩
    · rcases Client.responding_of_step hc hr with hr | ⟨id, path, limited, ok, rfl, hseen, hnone⟩
      · exact hold _ (.inl ⟨r, hr, rfl⟩)
      · obtain ⟨rfl, hnext⟩ := hmsg _ _ _ rfl
        refine ⟨id, path, ?_, es, limited, ok, [], n, id, rfl, hrun, hnext, hseen.symm, hnone⟩
        have hcount : (asksIn n.session.handled).length = n.session.client.seen := h.ledger.count
        rw [hseen, ← hcount, asksIn_append]
        exact List.getElem?_concat_length
    · obtain ⟨x, hx, horigin, hempty⟩ := emptyResponse_iff.mp ⟨m, hm⟩
      rw [← List.append_assoc] at hx
      rcases List.mem_append.mp hx with hx | hx
      · exact hold p (.inr (emptyResponse_iff.mpr ⟨x, hx, horigin, hempty⟩))
      · obtain ⟨r, hr, hro⟩ := Client.empty_of_step hc hx hempty
        exact hold p (.inl ⟨r, hr, hro.trans horigin⟩)

/-- **Every step keeps the books.** -/
theorem RelayBooks.step (h : RelayInv cfg n s) (hb : RelayBooks cfg es n s)
    (hrun : (relay cfg).run Relay.init es = some n) {e : RelayEvent}
    (hs : RelaySteps cfg n s e n' s') : RelayBooks cfg (es ++ [e]) n' s' := by
  cases hs with
  | @recv x rest now _ hq hst =>
      have hcreated : s'.core.created = s.core.created :=
        hst.created.resolve_right (by rintro ⟨_, _, _, ⟨⟩, -⟩)
      obtain ⟨h1, h2⟩ := hst.asked h.sys hb.asked hb.everyone
      refine ⟨fun p hp => ?_, hst.shows h.sys (by rintro _ _ ⟨⟩) hb.shows, h1, h2, fun i hi => ?_,
        fun p hp => ?_⟩
      · rw [hcreated] at hp
        exact (hb.carried p hp).recv h hp hq hst
      · exact List.mem_append_left _ (hb.registered i hi)
      · have hsent : n.received ++ [x] ++ rest = n.received ++ n.toServer := by
          rw [hq, List.append_assoc]
          rfl
        obtain ⟨id, path, hpath, hmiss⟩ := hb.missing p (hsent ▸ hp)
        exact ⟨id, path, hpath, hmiss.snoc _⟩
  | @deliver m limited ok c out hm hc =>
      refine hb.client h hrun hc ?_ ?_ _
      · rintro _ _ ⟨⟩
      · rintro _ _ _ ⟨⟩
        refine ⟨rfl, ?_⟩
        unfold Relay.nextMessage
        rw [h.server]
        exact hm
  | @server e _ hne hst hraw =>
      obtain ⟨h1, h2⟩ := hst.asked h.sys hb.asked hb.everyone
      refine ⟨fun p hp => ?_, hst.shows h.sys (fun _ _ _ => hraw) hb.shows, h1, h2, fun i hi => ?_,
        fun p hp => ?_⟩
      · rcases Nat.lt_or_ge p s.core.created with hlt | hge
        · exact (hb.carried p hlt).server h hlt hne hst
        · exact .create h hge hp hst
      · exact List.mem_append_left _ (hb.registered i hi)
      · obtain ⟨id, path, hpath, hmiss⟩ := hb.missing p hp
        exact ⟨id, path, hpath, hmiss.snoc _⟩
  | @client e c out hmsg hc =>
      have hbooks := hb.client h hrun hc (fun _ _ _ => rfl) ?_ n.delivered
      · rw [ClientEvent.handled_of_isMessage hmsg, List.append_nil] at hbooks
        exact hbooks
      · rintro m limited ok rfl
        cases hmsg

theorem relayBooks_init : RelayBooks cfg [] Relay.init Sys.init := by
  refine ⟨fun p hp => absurd hp (Nat.not_lt_zero p), ?_, List.nil_prefix, fun _ => rfl,
    fun i hi => absurd hi (Nat.not_lt_zero i), ?_⟩
  · rintro p h ⟨⟩
  · rintro p (⟨r, ⟨⟩, -⟩ | ⟨m, ⟨⟩⟩)

theorem relayBooks_of_run (hes : ∀ e ∈ es, e.Exact) (h : (relay cfg).run Relay.init es = some n) :
    ∃ s, RelayInv cfg n s ∧ RelayBooks cfg es n s :=
  relay_induction (P := RelayBooks cfg) relayBooks_init
    (fun _ _ _ _ _ _ hrun hI hb _ hst => hb.step hI hrun hst) hes h

end Runs

/-! ## Bodies -/

section Bodies

variable {ext : Externals} {cfg : Config ext} {es : List RelayEvent} {n : Relay} {s : Sys} {p : Ptr}

theorem chunkBytes_responseUpTo {C : ℕ} (hC : 0 < C) (source : ContentSource) (info : ContentInfo)
    (r : ServeRequest) {k : ℕ} (hk : k ≤ source.chunks C) :
    (chunkBytes (responseUpTo C source info r k)).flatten <+: source.data := by
  have hpre : responseUpTo C source info r k <+: responseUpTo C source info r (source.chunks C) :=
    responseUpTo_prefix hk
  obtain ⟨t, ht⟩ := chunkBytes_mono hpre
  have hwhole : (chunkBytes (responseUpTo C source info r (source.chunks C))).flatten = source.data := by
    rw [chunkBytes, chunksOf_responseUpTo]
    exact flatten_expectedChunks hC r.id source.data
  rw [← hwhole, ← ht, List.flatten_append]
  exact List.prefix_append _ _

/-- The messages about a request for which a header was sent are those of one handler of the
client. -/
theorem RelayInv.answered (h : RelayInv cfg n s) {header : ContentHeader}
    (hheader : .contentHeader header ∈ about p n.received) :
    ∃ i r, i < n.session.client.registered ∧ r ∈ (n.session.logs i).accepted ∧ r.origin = p ∧
      header = (newRequestHandler (n.session.client.handlers i).source
        (n.session.client.handlers i).info).contentHeader r ∧
      (chunkBytes (about p n.received)).flatten <+: (n.session.client.handlers i).source.data := by
  have hpre : about p n.received <+: about p (n.received ++ n.toServer) :=
    about_prefix (List.prefix_append _ _)
  have hmem := hpre.subset hheader
  obtain ⟨i, r, hr, rfl⟩ : ∃ i r, r ∈ (n.session.logs i).accepted ∧ r.origin = p := by
    by_contra hnone
    obtain ⟨m, hm⟩ := h.ledger.empty p (fun i r hr he => hnone ⟨i, r, hr, he⟩) _ hmem
    cases hm
  have hi : i < n.session.client.registered := by
    by_contra hge
    rw [h.ledger.blank i (Nat.not_lt.mp hge)] at hr
    cases hr
  obtain ⟨l, close, hall, hclose, hl⟩ := h.ledger.messages hr
  have hbytes : chunkBytes (about r.origin (n.received ++ n.toServer)) = chunkBytes l := by
    rw [hall, chunkBytes_append]
    rcases hclose with rfl | rfl <;> exact List.append_nil _
  rw [hall] at hmem
  have hmem' : .contentHeader header ∈ l := by
    rcases List.mem_append.mp hmem with hmem | hmem
    · exact hmem
    · rcases hclose with rfl | rfl
      · cases hmem
      · cases List.mem_singleton.mp hmem
  rcases hl with rfl | ⟨k, hk, rfl⟩
  · cases hmem'
  · refine ⟨i, r, hi, hr, rfl, ?_, ?_⟩
    · rcases List.mem_cons.mp hmem' with heq | hmem'
      · exact ClientData.contentHeader.inj heq
      · obtain ⟨j, -, hj⟩ := List.mem_map.mp hmem'
        cases hj
    · obtain ⟨t, ht⟩ := chunkBytes_mono hpre
      rw [hbytes] at ht
      refine .trans ?_ (chunkBytes_responseUpTo cfg.chunkSize_pos (n.session.client.handlers i).source
        (n.session.client.handlers i).info r hk)
      rw [← ht, List.flatten_append]
      exact List.prefix_append _ _

/-- The id and the path of a request are those that the client was asked for. -/
theorem RelayBooks.asked_eq (h : RelayInv cfg n s) (hb : RelayBooks cfg es n s) {id : UInt64}
    {path : String} (hask : (asksIn n.session.handled)[p]? = some (id, path)) :
    p < s.core.created ∧ (s.core.objs p).id = id ∧ (s.core.objs p).path = path := by
  obtain ⟨t, ht⟩ := h.handled
  obtain ⟨u, hu⟩ := hb.asked
  have hlt := (List.getElem?_eq_some_iff.mp hask).1
  have hget : s.core.asks[p]? = some (id, path) := by
    rw [← hu, ← ht, asksIn_append, List.append_assoc, List.getElem?_append_left hlt, hask]
  have hp : p < s.core.created := by
    have hp := (List.getElem?_eq_some_iff.mp hget).1
    rwa [St.asks, List.length_map, List.length_range] at hp
  rw [St.asks, List.getElem?_map, List.getElem?_range hp] at hget
  have heq := Option.some.inj hget
  exact ⟨hp, congrArg Prod.fst heq, congrArg Prod.snd heq⟩

/-- What a handler with status 200 has written. -/
theorem RelayBooks.body (hI : RelayInv cfg n s) (hb : RelayBooks cfg es n s) {h : Handler}
    (hh : s.handlers p = some h) (hok : h.status = some .ok) :
    ∃ i r, i < n.session.client.registered ∧ r ∈ (n.session.logs i).accepted ∧ r.origin = p ∧
      (s.core.objs p).id = r.id ∧
      (s.core.objs p).path = (n.session.client.handlers i).info.path ∧
      (s.core.objs p).header = some ((newRequestHandler (n.session.client.handlers i).source
        (n.session.client.handlers i).info).contentHeader r) ∧
      h.body <+: (n.session.client.handlers i).source.data ∧
      (h.success ≠ none → h.body = (n.session.client.handlers i).source.data) := by
  have hhandler := hI.sys.handler p h hh
  have hshows := hb.shows p h hh
  have hcar := hb.carried p hhandler.lt
  obtain ⟨header, hheader⟩ := Option.isSome_iff_exists.mp (hshows.ok hok)
  obtain ⟨i, r, hi, hr, rfl, rfl, hbytes⟩ := hI.answered (hcar.header header hheader)
  have hlog : (s.core.objs r.origin).chunkLog.flatten <+:
      (n.session.client.handlers i).source.data := by
    refine .trans ?_ hbytes
    obtain ⟨t, ht⟩ := hcar.log
    rw [← ht, List.flatten_append]
    exact List.prefix_append _ _
  obtain ⟨-, hid, hpath⟩ := hb.asked_eq hI (hI.ledger.asked i r hr)
  refine ⟨i, r, hi, hr, rfl, hid, hpath, hheader, hshows.body.trans hlog, fun hsuccess => ?_⟩
  -- the whole content has the size that was announced
  obtain ⟨header', hheader', hbody, hchunks⟩ := (hhandler.success hsuccess).whole
  rw [hheader] at hheader'
  obtain rfl := Option.some.inj hheader'
  have hsize := (hI.sound.handler i hi).exact
  rw [hbody]
  refine hlog.eq_of_length ?_
  rw [hchunks.length_flatten, hsize]
  rfl

/-- **The body of an HTTP response comes from the content under its path.** In every run of a
connection whose sources supply exactly what they announce, a handler that wrote status 200
announces, and has written the first bytes of, a content that was registered under the path of its
request; and all of them once it is at its call of `Success`. -/
theorem body_of_source (hes : ∀ e ∈ es, e.Exact) (hrun : (relay cfg).run Relay.init es = some n)
    (hs : n.server = .ok s) {h : Handler} (hh : s.handlers p = some h) (hok : h.status = some .ok) :
    ∃ source info r, RelayEvent.client (.register source info) ∈ es ∧
      info.path = (s.core.objs p).path ∧
      (s.core.objs p).header = some ((newRequestHandler source info).contentHeader r) ∧
      h.body <+: source.data ∧ (h.success ≠ none → h.body = source.data) := by
  obtain ⟨s', hI, hb⟩ := relayBooks_of_run hes hrun
  obtain rfl : s' = s := Except.ok.inj (hI.server.symm.trans hs)
  obtain ⟨i, r, hi, -, -, -, hpath, hheader, hbody, hwhole⟩ := hb.body hI hh hok
  exact ⟨_, _, r, hb.registered i hi, hpath.symm, hheader, hbody, hwhole⟩

/-- A page that is registered, asked for and served, up to the call of `Success`. -/
def pageRun : List RelayEvent :=
  [.client (.register ⟨"text/html", 4, [1, 2, 3, 4]⟩ ⟨"page", none, none⟩),
   .server (.forwardRequest "page" 0 true), .deliver false true, .client (.serve 0 true),
   .client (.serve 0 true), .client (.serve 0 true), .client (.serve 0 true), .client (.serve 0 true),
   .client (.serve 0 true), .recv 1,
   .server (.serve 0 .takeResponse), .server (.serve 0 (.checkAccept .acceptable)), .recv 2,
   .server .write, .server (.serve 0 .takeChunk), .server (.serve 0 .wrote), .recv 3, .server .write,
   .server .complete, .server .drain, .server (.serve 0 .takeChunk), .server (.serve 0 .wrote),
   .server (.serve 0 .takeChunk)]

/-- The connection after the events `es`. -/
def relayAfter (es : List RelayEvent) : Relay :=
  ((relay sampleConfig).run Relay.init es).getD Relay.init

theorem body_of_source_page : ∃ n s h, (relay sampleConfig).run Relay.init pageRun = some n ∧
    n.server = .ok s ∧ s.handlers 0 = some h ∧
    ∃ source info r, RelayEvent.client (.register source info) ∈ pageRun ∧
      info.path = (s.core.objs 0).path ∧
      (s.core.objs 0).header = some ((newRequestHandler source info).contentHeader r) ∧
      h.body <+: source.data ∧ (h.success ≠ none → h.body = source.data) := by
  have hes : ∀ e ∈ pageRun, e.Exact := by
    simp [pageRun, RelayEvent.Exact, ClientEvent.Exact]
  obtain ⟨n, hn⟩ : ∃ n, (relay sampleConfig).run Relay.init pageRun = some n :=
    ⟨relayAfter pageRun, rfl⟩
  obtain rfl : relayAfter pageRun = n := by rw [relayAfter, hn, Option.getD_some]
  obtain ⟨s, hs⟩ : ∃ s, (relayAfter pageRun).server = .ok s := ⟨_, rfl⟩
  obtain ⟨h, hh, hok⟩ : ∃ h, s.handlers 0 = some h ∧ h.status = some .ok := by
    cases hs
    exact ⟨_, rfl, rfl⟩
  exact ⟨_, s, h, hn, hs, hh, body_of_source hes hn hs hh hok⟩

/-- What status 404 says. -/
theorem RelayBooks.missing_of_notFound (hI : RelayInv cfg n s) (hb : RelayBooks cfg es n s) {h : Handler}
    (hh : s.handlers p = some h) (hst : h.status = some .notFound) :
    Missing cfg es p (s.core.objs p).path := by
  have hlt := (hI.sys.handler p h hh).lt
  obtain ⟨m, hm⟩ := (hb.carried p hlt).empty ((hb.shows p h hh).notFound hst)
  have hpre : about p n.received <+: about p (n.received ++ n.toServer) :=
    about_prefix (List.prefix_append _ _)
  obtain ⟨id, path, hask, hmiss⟩ := hb.missing p (.inr ⟨m, hpre.subset hm⟩)
  rw [(hb.asked_eq hI hask).2.2]
  exact hmiss

/-- **Status 404 means that there was no content.** If the sources supply exactly what they
announce, a handler has written status 404 only if the client had no content under the path of its
request when it handled the `Request` message. -/
theorem notFound_of_missing (hes : ∀ e ∈ es, e.Exact) (hrun : (relay cfg).run Relay.init es = some n)
    (hs : n.server = .ok s) {h : Handler} (hh : s.handlers p = some h)
    (hst : h.status = some .notFound) : Missing cfg es p (s.core.objs p).path := by
  obtain ⟨s', hI, hb⟩ := relayBooks_of_run hes hrun
  obtain rfl : s' = s := Except.ok.inj (hI.server.symm.trans hs)
  exact hb.missing_of_notFound hI hh hst

/-- A page that nobody registered. -/
def missingRun : List RelayEvent :=
  [.server (.forwardRequest "page" 0 true), .deliver false true, .client (.emptyResponse true), .recv 1,
   .server (.serve 0 .takeResponse)]

theorem notFound_of_missing_page : ∃ s, (relayAfter missingRun).server = .ok s ∧
    Missing sampleConfig missingRun 0 (s.core.objs 0).path := by
  have hes : ∀ e ∈ missingRun, e.Exact := by
    simp [missingRun, RelayEvent.Exact, ClientEvent.Exact]
  obtain ⟨n, hn⟩ : ∃ n, (relay sampleConfig).run Relay.init missingRun = some n :=
    ⟨relayAfter missingRun, rfl⟩
  obtain rfl : relayAfter missingRun = n := by rw [relayAfter, hn, Option.getD_some]
  obtain ⟨s, hs⟩ : ∃ s, (relayAfter missingRun).server = .ok s := ⟨_, rfl⟩
  obtain ⟨h, hh, hst⟩ : ∃ h, s.handlers 0 = some h ∧ h.status = some .notFound := by
    cases hs
    exact ⟨_, rfl, rfl⟩
  exact ⟨s, hs, notFound_of_missing hes hn hs hh hst⟩

end Bodies

end Loon
