import Loon.Client.Served
import Loon.Link.EndToEnd
import Loon.Server.Discipline

set_option autoImplicit false

/-!
# Confirmed responses

The served callback of a content and the HTTP responses. The client calls it once it has sent the
whole response and has received `Success`; the server sends `Success` once a handler has written the
whole body.

* `SysSteps.sendInv`: the send channel of a server with its handlers;
* `Acknowledging`: every `Success` message is due to a handler;
* `SendInv.disciplined`: the client hears a disciplined server;
* **`served_after_whole_body`**: the served callback is called at most once for a request, and only
  when the whole content has been written to the HTTP response.
-/

namespace Loon

/-! ## The send channel -/

section Channel

variable {ext : Externals} {cfg : Config ext} {s s' : Sys} {e : SysEvent}

theorem SysSteps.sendInv (hI : SysInv cfg s) (h : SendInv s.core) (hs : SysSteps cfg s e s')
    (hlt : s'.core.created < 2 ^ 64) : SendInv s'.core := by
  have hL := hI.loop
  have hg := hs.grows hL
  have hph := hs.phase_loop hL
  -- a step of the loop that sends nothing
  have hquiet : ∀ {core : St}, s' = s.atTop core → core.created = s.core.created →
      core.nextRequest = s.core.nextRequest → core.send = s.core.send → Shrinks s.core core →
      SendInv s'.core := by
    rintro core rfl hc hn hsend hshrinks
    refine h.quiet ((St.top_created core).trans hc) ?_ ((St.top_send core).trans hsend) hg ?_ hph
    · refine Eq.trans ?_ hn
      change core.top.nextRequest = _
      unfold St.top
      split <;> rfl
    · intro id p hl
      change core.top.requests.lookup id = _ at hl
      rw [St.top_requests] at hl
      exact hshrinks id p hl
  cases hs with
  | loop hpc _ hst | start hpc hst | closeTrigger _ _ hpc hst | successTrigger _ _ hpc hst =>
      rw [hpc] at hL
      exact hst.sendInv hL h hlt
  | begin hpc _ hp hb =>
      have hshrinks := hb.shrinks
      cases hb with
      | accept => exact h.quiet rfl rfl rfl hg hshrinks hph
  | finish hpc hf =>
      have hshrinks := hf.shrinks
      cases hf <;> exact hquiet rfl rfl rfl rfl hshrinks
  | drain hpc => exact hquiet rfl rfl rfl rfl (Shrinks.refl _)
  | last | complete | disconnect | discardStart | discardTake | discardStop | discardExit | serves
    | takeResponse | takeChunk => exact h.quiet rfl rfl rfl hg (Shrinks.refl _) hph

/-- What a message follows on the send channel, if it is not a `Request`. -/
theorem SendInv.earlier {s : St} (h : SendInv s) {l t : List ServerMessage} {m : ServerMessage}
    (hsend : s.send = l ++ m :: t) (hm : m.newId = none) :
    ∃ path, l.filter (·.requestId = m.requestId) = [.request m.requestId path] := by
  obtain ⟨p, hp, hid⟩ := h.known m (by rw [hsend]; exact List.mem_append_right _ List.mem_cons_self)
  have hlog : s.logOf m.requestId =
      l.filter (·.requestId = m.requestId) ++ m :: t.filter (·.requestId = m.requestId) := by
    rw [St.logOf, hsend, List.filter_append, List.filter_cons_of_pos (by simp)]
  have hshape := h.log p hp
  rw [hid, hlog] at hshape
  generalize l.filter (·.requestId = m.requestId) = l' at hshape ⊢
  generalize t.filter (·.requestId = m.requestId) = t' at hshape
  rw [← hid]
  -- only the first message about a request has a new id
  obtain ⟨path, last, hlast, hlen⟩ : ∃ path last,
      l' ++ m :: t' = .request (s.objs p).id path :: last ∧ last.length ≤ 1 := by
    generalize hlog : l' ++ m :: t' = log at hshape
    cases hshape with
    | unsent => simp at hlog
    | requested path => exact ⟨path, [], rfl, Nat.zero_le 1⟩
    | succeeded path => exact ⟨path, _, rfl, le_rfl⟩
    | closed path message => exact ⟨path, _, rfl, le_rfl⟩
  refine ⟨path, ?_⟩
  cases l' with
  | nil =>
      obtain rfl : m = _ := (List.cons.inj hlast).1
      cases hm
  | cons a l'' =>
      rw [List.cons_append] at hlast
      obtain ⟨rfl, rfl⟩ := List.cons.inj hlast
      rw [List.length_append, List.length_cons] at hlen
      rw [List.length_eq_zero_iff.mp (by omega : l''.length = 0)]

/-- **The client hears a disciplined server.** -/
theorem SendInv.disciplined {s : St} (h : SendInv s) {c : Session} {m : ServerMessage}
    (hsend : c.handled ++ [m] <+: s.send) (limited ok : Bool) :
    Disciplined c (.message m limited ok) := by
  obtain ⟨t, ht⟩ := hsend
  rw [List.append_assoc] at ht
  have hearlier : ∀ {id : UInt64}, m.requestId = id → m.newId = none →
      id ∈ c.requested ∧ id ∉ c.succeeded ∧ id ∉ c.closed := by
    rintro _ rfl hm
    obtain ⟨path, hpath⟩ := h.earlier ht.symm hm
    have honly : ∀ m' ∈ c.handled, m'.requestId = m.requestId →
        m' = .request m.requestId path := fun m' hm' hid => by
      have hmem : m' ∈ c.handled.filter (·.requestId = m.requestId) :=
        List.mem_filter.mpr ⟨hm', by simpa using hid⟩
      rw [hpath] at hmem
      exact List.mem_singleton.mp hmem
    refine ⟨?_, ?_, ?_⟩
    · have hmem : ServerMessage.request m.requestId path ∈ c.handled :=
        List.mem_of_mem_filter (hpath ▸ List.mem_singleton_self _)
      exact List.mem_filterMap.mpr ⟨_, hmem, rfl⟩
    · intro hid
      obtain ⟨m', hm', hid⟩ := List.mem_filterMap.mp hid
      cases m' with
      | success id =>
          cases hid
          cases honly _ hm' rfl
      | request | requestClosed => cases hid
    · intro hid
      obtain ⟨m', hm', hid⟩ := List.mem_filterMap.mp hid
      cases m' with
      | requestClosed id message =>
          cases hid
          cases honly _ hm' rfl
      | request | success => cases hid
  cases m with
  | request id path =>
      -- the ids of new requests increase
      have horder := h.order
      rw [St.sentIds, ← ht, List.filterMap_append] at horder
      intro hid
      exact absurd ((List.pairwise_append.mp horder).2.2 id hid id List.mem_cons_self)
        (UInt64.lt_irrefl id)
  | success id => exact hearlier rfl rfl
  | requestClosed id message => exact hearlier rfl rfl

/-! ## Success -/

/-- Every `Success` message is due to a handler at its call of `Success`. -/
def Acknowledging (s : Sys) : Prop :=
  ∀ id, .success id ∈ s.core.send → ∃ p h, s.handlers p = some h ∧ (s.core.objs p).id = id ∧
    h.success ≠ none

/-- Only a call of `Success` sends a `Success` message, which is about its request. -/
theorem Steps.success_mem {s s' : St} {e : Event} (hI : Inv cfg s) (hst : Steps cfg s e s')
    {id : UInt64} (hid : .success id ∈ s'.send) : .success id ∈ s.send ∨
      ∃ p sendOk, e = .triggerSuccess p sendOk ∧ (s.objs p).id = id := by
  have hcl : ∀ {s₁ : St}, (∃ l, s₁.send = s.send ++ l ∧ ∀ m ∈ l, ClosesOpen s m) →
      .success id ∈ s₁.top.send → .success id ∈ s.send := by
    rintro s₁ ⟨l, h1, h2⟩ hmem
    rw [St.top_send, h1] at hmem
    exact (List.mem_append.mp hmem).resolve_right fun hl => (h2 _ hl).ne_success id rfl
  cases hst with
  | recv _ _ _ hh =>
      rw [St.top_send, hh.send_eq] at hid
      exact .inl hid
  | @forward path now sendOk id' =>
      left
      rw [St.top_send] at hid
      cases sendOk with
      | false => exact hid
      | true => exact (List.mem_append.mp hid).resolve_right (by simp)
  | @success p sendOk s' err _ hq hr hh =>
      rw [St.top_send] at hid
      cases hh with
      | refused | failed => exact .inl hid
      | @sent q hl hc hd =>
          refine (List.mem_append.mp hid).imp_right fun hid => ⟨p, sendOk, rfl, ?_⟩
          cases List.mem_singleton.mp hid
          exact (hI.core.entry _ _ hl).2.symm
  | close _ _ _ hh => exact .inl (hcl (hh.sends hI.core) hid)
  | timeout _ _ hh => exact .inl (hcl (hh.sends hI.core) hid)
  | count =>
      rw [St.top_send] at hid
      exact .inl hid
  | done | takeResponse | takeChunk => exact .inl hid
  | ret _ _ _ hh =>
      left
      have hsend := hh.send_eq
      change ServerMessage.success id ∈ _ at hid
      exact hsend ▸ hid

theorem Handler.closeNext_success (h : Handler) (message : String) (after : After)
    (next : Option CloseCall) : (h.closeNext message after next).success = h.success := by
  cases next with
  | none => exact h.closeReturned_success after
  | some call => rfl

/-- A call of `Success` is not taken back. -/
theorem SysSteps.success_ne (hs : SysSteps cfg s e s') {p : Ptr} {h : Handler}
    (hI : SysInv cfg s) (hh : s.handlers p = some h) (hne : h.success ≠ none) :
    ∃ h', s'.handlers p = some h' ∧ h'.success ≠ none := by
  -- the handler `h₁` of the request `q` becomes `h'`
  have hset : ∀ {q : Ptr} {t : Sys} {h₁ h' : Handler}, s' = t.setHandler q h' →
      t.handlers = s.handlers → s.handlers q = some h₁ → (h₁.success ≠ none → h'.success ≠ none) →
      ∃ h', s'.handlers p = some h' ∧ h'.success ≠ none := by
    intro q t h₁ h' hs' ht hq hkeep
    by_cases hpq : p = q
    · subst hpq
      rw [hh] at hq
      cases hq
      refine ⟨h', ?_, hkeep hne⟩
      rw [hs', Sys.setHandler_self]
    · refine ⟨h, ?_, hne⟩
      rw [hs', Sys.setHandler_ne _ _ hpq, ht, hh]
  cases hs with
  | loop | begin | finish | last | complete | drain | disconnect => exact ⟨h, hh, hne⟩
  | discardTake | discardStop | discardExit => exact ⟨h, hh, hne⟩
  | start =>
      refine ⟨h, ?_, hne⟩
      rw [Sys.setHandler_ne _ _ (hI.handler p h hh).lt.ne]
      exact hh
  | discardStart _ hq => exact hset rfl rfl hq id
  | serves hq hsv =>
      refine hset rfl rfl hq fun hne => ?_
      cases hsv with
      | close => rwa [Handler.closeNext_success]
      | forwarded | success => exact Option.some_ne_none _
      | _ => exact hne
  | @takeResponse q h₁ o =>
      refine hset rfl rfl (show s.handlers q = some h₁ by assumption) fun hne => ?_
      rcases o with _ | _ | header <;> exact hne
  | takeChunk hq => exact hset rfl rfl hq id
  | @closeTrigger _ h₁ message after _ _ _ hq =>
      refine hset rfl rfl hq fun hne => ?_
      rwa [Handler.closeReturned_success]
  | successTrigger hq => exact hset rfl rfl hq fun _ => Option.some_ne_none _

theorem SysSteps.acknowledging (hI : SysInv cfg s) (h : Acknowledging s) (hs : SysSteps cfg s e s') :
    Acknowledging s' := by
  have hL := hI.loop
  have hg := hs.grows hL
  -- the messages that were there
  have hold : ∀ id, .success id ∈ s.core.send → ∃ p h, s'.handlers p = some h ∧
      (s'.core.objs p).id = id ∧ h.success ≠ none := by
    intro id hid
    obtain ⟨p, h₁, hh, rfl, hne⟩ := h id hid
    obtain ⟨h', hh', hne'⟩ := hs.success_ne hI hh hne
    exact ⟨p, h', hh', (hg.objs p (hI.handler p h₁ hh).lt).sameId, hne'⟩
  intro id hid
  have hloop : ∀ {e' : Event}, s.pc = .select → Steps cfg s.core e' s'.core →
      (∀ p sendOk, e' ≠ .triggerSuccess p sendOk) → ∃ p h, s'.handlers p = some h ∧
        (s'.core.objs p).id = id ∧ h.success ≠ none := by
    intro e' hpc hst he
    rw [hpc] at hL
    rcases hst.success_mem hL hid with hid | ⟨p, sendOk, rfl, -⟩
    · exact hold id hid
    · exact absurd rfl (he p sendOk)
  cases hs with
  | loop hpc he hst =>
      refine hloop hpc hst ?_
      rcases he with ⟨rfl, -⟩ | ⟨_, _, rfl, -⟩ | ⟨_, rfl, -⟩ | ⟨_, _, rfl, -⟩ | ⟨_, _, rfl, -⟩ <;>
        rintro _ _ ⟨⟩
  | start hpc hst => exact hloop hpc hst (by rintro _ _ ⟨⟩)
  | closeTrigger _ _ hpc hst => exact hloop hpc hst (by rintro _ _ ⟨⟩)
  | @successTrigger p h₁ sendOk core err hq hc hpc hst =>
      rw [hpc] at hL
      rcases hst.success_mem hL hid with hid | ⟨p', sendOk', he, rfl⟩
      · exact hold id hid
      · cases he
        exact ⟨p, _, Sys.setHandler_self _ _ _, (hg.objs p (hI.handler p h₁ hq).lt).sameId,
          Option.some_ne_none _⟩
  | begin _ _ _ hb =>
      cases hb with
      | accept => exact hold id hid
  | finish _ hf =>
      change _ ∈ (St.top _).send at hid
      rw [St.top_send] at hid
      cases hf <;> exact hold id hid
  | drain =>
      change _ ∈ (St.top _).send at hid
      rw [St.top_send] at hid
      exact hold id hid
  | _ => exact hold id hid

end Channel

/-! ## Confirmed requests -/

section Confirmed

variable {ext : Externals} {cfg : Config ext} {es : List RelayEvent} {n n' : Relay} {s s' : Sys}

variable (cfg) in
/-- The acknowledgements on a connection with fewer than 2⁶⁴ requests. -/
structure Confirming (n : Relay) (s : Sys) : Prop where
  sendInv : SendInv s.core
  acknowledging : Acknowledging s
  session : n.session.Inv cfg.chunkSize.toNat

theorem Confirming.step (hI : RelayInv cfg n s) (h : Confirming cfg n s) {e : RelayEvent}
    (hs : RelaySteps cfg n s e n' s') (hlt : s'.core.created < 2 ^ 64) : Confirming cfg n' s' := by
  cases hs with
  | recv hq hst =>
      exact ⟨hst.sendInv hI.sys h.sendInv hlt, hst.acknowledging hI.sys h.acknowledging, h.session⟩
  | server hne hst =>
      exact ⟨hst.sendInv hI.sys h.sendInv hlt, hst.acknowledging hI.sys h.acknowledging, h.session⟩
  | @deliver m limited ok c out hm hc =>
      have hd := h.sendInv.disciplined (hI.handled_next hm) limited ok
      exact ⟨h.sendInv, h.acknowledging, h.session.step hd (Session.steps_of_client hc)⟩
  | @client e c out hmsg hc =>
      have hd : Disciplined n.session e := by
        cases e with
        | message => cases hmsg
        | _ => trivial
      have hsession := h.session.step hd (Session.steps_of_client hc)
      rw [ClientEvent.handled_of_isMessage hmsg, List.append_nil] at hsession
      exact ⟨h.sendInv, h.acknowledging, hsession⟩

theorem confirming_init : Confirming cfg Relay.init Sys.init := by
  refine ⟨sendInv_init, ?_, Session.inv_init _⟩
  rintro id ⟨⟩

theorem confirming_of_run (hes : ∀ e ∈ es, e.Exact) (h : (relay cfg).run Relay.init es = some n) :
    ∃ s, RelayInv cfg n s ∧ (s.core.created < 2 ^ 64 → Confirming cfg n s) := by
  refine relay_induction (P := fun _ n s => s.core.created < 2 ^ 64 → Confirming cfg n s)
    (fun _ => confirming_init) ?_ hes h
  intro es n s e n' s' _ hI hP _ hst hlt
  have hle : s.core.created ≤ s'.core.created := by
    cases hst with
    | recv _ hst | server _ hst => exact (hst.grows hI.sys.loop).created
    | deliver | client => exact le_rfl
  exact (hP (hle.trans_lt hlt)).step hI hst hlt

/-- **The served callback comes after the body.** In every run of a connection with fewer than 2⁶⁴
requests whose sources supply exactly what they announce, the client calls the served callback at
most once for a request, and then the handler of this request has written status 200 and the whole
content, which is the one under the path that was asked for. -/
theorem served_after_whole_body (hes : ∀ e ∈ es, e.Exact)
    (hrun : (relay cfg).run Relay.init es = some n) (hs : n.server = .ok s)
    (hlt : s.core.created < 2 ^ 64) : (n.session.client.served.map Prod.snd).Nodup ∧
    ∀ i id, (i, id) ∈ n.session.client.served → ∃ p h, s.handlers p = some h ∧
      (s.core.objs p).id = id ∧ (s.core.objs p).path = (n.session.client.handlers i).info.path ∧
      h.status = some .ok ∧ h.body = (n.session.client.handlers i).source.data := by
  obtain ⟨s', hI, hconfirming⟩ := confirming_of_run hes hrun
  obtain rfl : s' = s := Except.ok.inj (hI.server.symm.trans hs)
  obtain ⟨s'', hI', hb⟩ := relayBooks_of_run hes hrun
  obtain rfl : s'' = s' := Except.ok.inj (hI'.server.symm.trans hs)
  obtain ⟨hsend, hack, hsession⟩ := hconfirming hlt
  refine ⟨hsession.served.1, fun i id hserved => ?_⟩
  obtain ⟨hsucc, r, hr, rfl, -⟩ := hsession.served.2 i id hserved
  -- the handler that sent `Success`
  obtain ⟨m, hm, hmid⟩ := List.mem_filterMap.mp hsucc
  obtain rfl : m = .success r.id := by
    cases m with
    | success id =>
        cases hmid
        rfl
    | request | requestClosed => cases hmid
  obtain ⟨p, h, hh, hid, hsuccess⟩ := hack r.id (hI.handled.subset hm)
  have hhandler := hI.sys.handler p h hh
  have hok := (hhandler.success hsuccess).status
  obtain ⟨j, r', -, hr', rfl, hid', hpath, -, -, hwhole⟩ := hb.body hI hh hok
  -- the content is the one that has the request
  obtain rfl : j = i := hsession.roster.owned j i r' hr' r hr (hid'.symm.trans hid)
  exact ⟨_, h, hh, hid, hpath, hok, hwhole hsuccess⟩

/-- The page of `pageRun` is confirmed. -/
def confirmedRun : List RelayEvent :=
  pageRun ++ [.server (.serve 0 .successStep), .server (.serve 0 .successStep),
    .server (.serve 0 (.successTrigger true)), .deliver false true, .client (.serve 0 true),
    .client (.serve 0 true)]

theorem served_after_whole_body_page : ∃ s p h, (relayAfter confirmedRun).server = .ok s ∧
    (0, 1) ∈ (relayAfter confirmedRun).session.client.served ∧ s.handlers p = some h ∧
    h.body = ((relayAfter confirmedRun).session.client.handlers 0).source.data := by
  have hes : ∀ e ∈ confirmedRun, e.Exact := by
    simp [confirmedRun, pageRun, RelayEvent.Exact, ClientEvent.Exact]
  obtain ⟨n, hn⟩ : ∃ n, (relay sampleConfig).run Relay.init confirmedRun = some n :=
    ⟨relayAfter confirmedRun, rfl⟩
  obtain rfl : relayAfter confirmedRun = n := by rw [relayAfter, hn, Option.getD_some]
  obtain ⟨s, hs⟩ : ∃ s, (relayAfter confirmedRun).server = .ok s := ⟨_, rfl⟩
  have hcreated : s.core.created = 1 := by
    cases hs
    rfl
  have hserved : (0, 1) ∈ (relayAfter confirmedRun).session.client.served := by
    have heq : (relayAfter confirmedRun).session.client.served = [(0, 1)] := rfl
    rw [heq]
    exact List.mem_singleton_self _
  obtain ⟨-, hall⟩ := served_after_whole_body hes hn hs (by rw [hcreated]; decide)
  obtain ⟨p, h, hh, -, -, -, hbody⟩ := hall 0 1 hserved
  exact ⟨s, p, h, hs, hserved, hh, hbody⟩

end Confirmed

end Loon
