import Loon.Client.Ledger
import Loon.Link.Crossing
import Loon.Server.Shutdown

set_option autoImplicit false

/-!
# A connection with its HTTP handlers

The client and the goroutines of the server, joined by the two channels of `Link`. The protocol loop
of the server is `system` here, so the handlers of HTTP requests, the chunk discarder and the calls
of `Request.Close` and `Request.Success` take their steps between those of the two sides.

* `Relay`, `relay`: the connection as a machine;
* `Sys.view`: the state of the loop as the client can tell it; a request is over as soon as its last
  chunk was taken from the connection;
* `SysSteps.linked`, `SysSteps.linked_recv`: the steps of the goroutines keep `Linked`;
* `RelayInv`, **`RelayInv.step`**: the invariant of the connection.
-/

namespace Loon

open Chunking

/-- The two sides with the messages on the way; `received` lists the client messages that the server
has taken, and nothing reads it. -/
structure Relay where
  server : Except Panic Sys
  session : Session
  delivered : ℕ
  toServer : List Outgoing
  received : List Outgoing

inductive RelayEvent where
  | recv (now : Time)
  | deliver (limited sent : Bool)
  | server (e : SysEvent)
  | client (e : ClientEvent)
  deriving DecidableEq, Repr

/-- The protocol loop reads its messages from the channel only. -/
def SysEvent.isRecv : SysEvent → Bool
  | .recv _ _ => true
  | _ => false

/-- A source that is registered supplies exactly as many bytes as it announces. -/
def RelayEvent.Exact : RelayEvent → Prop
  | .client e => e.Exact
  | _ => True

namespace Relay

/-- The connection right after the `Hello` message. -/
def init : Relay where
  server := .ok Sys.init
  session := Session.init
  delivered := 0
  toServer := []
  received := []

variable {ext : Externals} (cfg : Config ext) (n : Relay)

/-- The next message for the client. -/
def nextMessage : Option ServerMessage :=
  match n.server with
  | .ok s => s.core.send[n.delivered]?
  | .error _ => none

/-- A step of the client, whose messages go on their way. -/
def clientStep (e : ClientEvent) : Option Relay :=
  (n.session.client.step cfg.hello e).bind fun result =>
    (n.session.step cfg.hello e).map fun session =>
      { n with session := session, toServer := n.toServer ++ result.2 }

/-- The protocol loop takes the next message. -/
def recv (now : Time) : Option Relay :=
  match n.toServer with
  | [] => none
  | x :: rest =>
    ((system cfg).step n.server (.recv ⟨some x.data⟩ now)).map fun server =>
      { n with server := server, toServer := rest, received := n.received ++ [x] }

/-- The client handles the next message. -/
def deliver (limited sent : Bool) : Option Relay :=
  n.nextMessage.bind fun m =>
    (n.clientStep cfg (.message m limited sent)).map fun n => { n with delivered := n.delivered + 1 }

def step : RelayEvent → Option Relay
  | .recv now => n.recv cfg now
  | .deliver limited sent => n.deliver cfg limited sent
  | .server e =>
    if e.isRecv then none
    else ((system cfg).step n.server e).map fun server => { n with server := server }
  | .client e => if e.isMessage then none else n.clientStep cfg e

/-- The connection as the two sides see it. -/
def link : Link where
  server := n.server.map Sys.core
  client := n.session.client
  delivered := n.delivered
  toServer := n.toServer
  received := n.received

end Relay

/-- **The machine of a connection with its HTTP handlers.** -/
def relay {ext : Externals} (cfg : Config ext) : Machine Relay RelayEvent where
  init := Relay.init
  step n e := n.step cfg e

/-! ## The loop as the client can tell it -/

namespace Sys

variable (s : Sys)

/-- The request whose last chunk the loop has taken and not finished with. -/
def ending : Option Ptr :=
  match s.pc with
  | .select => none
  | .sending w => if w.last then some w.ptr else none
  | .completing p => some p
  | .draining p => some p

/-- The loop, without the request that is ending. -/
def view : St :=
  match s.ending with
  | none => s.core
  | some p => s.core.deleteRequest (s.core.objs p)

variable {s} {p q : Ptr}

theorem view_of_none (h : s.ending = none) : s.view = s.core := by
  unfold view
  rw [h]

theorem view_of_some (h : s.ending = some p) : s.view = s.core.deleteRequest (s.core.objs p) := by
  unfold view
  rw [h]

theorem view_of_select (h : s.pc = .select) : s.view = s.core :=
  view_of_none (by rw [ending, h])

@[simp] theorem view_objs : s.view.objs = s.core.objs := by
  unfold view
  split <;> rfl

@[simp] theorem view_send : s.view.send = s.core.send := by
  unfold view
  split <;> rfl

@[simp] theorem view_created : s.view.created = s.core.created := by
  unfold view
  split <;> rfl

/-- The response of a request that is ending is over. -/
theorem eq_ended_of_view {σ : Stage} (h : s.ending = some p) (hat : s.view.At p σ) : σ = .ended := by
  have hno : ¬ s.view.Present p := by
    rw [view_of_some h, St.Present]
    change ¬ (s.core.requests.erase (s.core.objs p).id).lookup (s.core.objs p).id = some p
    rw [Finmap.lookup_erase]
    exact nofun
  cases σ with
  | fresh => exact absurd (St.Awaits.present hat) hno
  | begun N k => exact absurd (St.Awaits.present hat) hno
  | ended => rfl

/-- The ending request may change. -/
theorem view_at_put {s' : Sys} {r : Request} {σ : Stage} (h : s.ending = some p)
    (h' : s'.ending = some p) (hcore : s'.core = s.core.put p r) (hid : r.id = (s.core.objs p).id)
    (hat : s.view.At q σ) : s'.view.At q σ := by
  by_cases hq : q = p
  · subst hq
    rw [eq_ended_of_view h hat]
    trivial
  · have hview : s'.view = s.view.put p r := by
      rw [view_of_some h', view_of_some h, hcore, St.put_objs_self]
      unfold St.deleteRequest
      rw [hid]
      rfl
    rw [hview]
    cases σ with
    | fresh => exact St.Awaits.put_ne hat (Ne.symm hq) r
    | begun N k => exact St.Awaits.put_ne hat (Ne.symm hq) r
    | ended => trivial

/-- Somebody receives from the channels of a request. -/
theorem view_at_receives {s' : Sys} {r : Request} {σ : Stage} (h : s'.pc = s.pc)
    (hcore : s'.core = s.core.put p r) (hr : (s.core.objs p).Receives r) (hat : s.view.At q σ) :
    s'.view.At q σ := by
  have hview : s'.view = s.view.put p r := by
    have hend : s'.ending = s.ending := by rw [ending, h, ending]
    cases he : s.ending with
    | none => rw [view_of_none (hend.trans he), view_of_none he, hcore]
    | some x =>
        rw [view_of_some (hend.trans he), view_of_some he, hcore]
        have hid : ((s.core.put p r).objs x).id = (s.core.objs x).id :=
          St.put_rel (R := fun r r' => r'.id = r.id) (fun _ => rfl) hr.sameId x
        unfold St.deleteRequest
        rw [hid]
        rfl
  have hobj : s.view.objs p = s.core.objs p := by rw [view_objs]
  rw [hview]
  cases σ with
  | fresh =>
      exact St.Awaits.put hat (hobj ▸ hr.sameId) (hobj ▸ hr.isCompleted_eq) (hobj ▸ hr.progress)
  | begun N k =>
      exact St.Awaits.put hat (hobj ▸ hr.sameId) (hobj ▸ hr.isCompleted_eq) (hobj ▸ hr.progress)
  | ended => trivial

end Sys

/-! ## Steps of the goroutines -/

section Linked

variable {ext : Externals} {cfg : Config ext} {n : Link} {s s' : Sys} {e : SysEvent}

/-- What the client can tell of the loop stays as it is. -/
theorem Linked.transfer {t t' : St} (h : Linked cfg n t) (hsend : t'.send = t.send)
    (hcreated : t'.created = t.created) (hobjs : ∀ p, (t'.objs p).id = (t.objs p).id ∧
      ∀ header, (t.objs p).header = some header → (t'.objs p).header = some header)
    (hat : ∀ p σ, t.At p σ → t'.At p σ) : Linked cfg n t' := by
  have hids : t'.sentIds = t.sentIds := sentIds_congr hsend
  refine ⟨?_, ?_, fun x hx => (hobjs _).1.trans (h.known x hx), fun x hx => ?_, fun p hp => ?_,
    fun x hx m hm => ?_⟩
  · rw [St.Requested, hids, hcreated, h.requested]
    exact List.map_congr_left fun p _ => (hobjs p).1.symm
  · rw [hsend]
    exact h.handled
  · rw [hcreated, (hobjs _).1]
    exact h.flying x hx
  · obtain ⟨σ, σ', h1, hrest⟩ := h.tracks p (hcreated ▸ hp)
    exact ⟨σ, σ', hat p σ h1, hrest⟩
  · obtain ⟨hlt, header, hheader⟩ := h.begun x hx m hm
    exact ⟨hcreated ▸ hlt, header, (hobjs _).2 header hheader⟩

/-- The ids and headers of the requests after one of them has changed. -/
theorem St.put_ids {t : St} {p : Ptr} {r : Request} (hid : r.id = (t.objs p).id)
    (hheader : r.header = (t.objs p).header) (q : Ptr) : ((t.put p r).objs q).id = (t.objs q).id ∧
      ∀ header, (t.objs q).header = some header → ((t.put p r).objs q).header = some header :=
  St.put_rel (R := fun r r' => r'.id = r.id ∧
    ∀ header, r.header = some header → r'.header = some header) (fun _ => ⟨rfl, fun _ h => h⟩)
    ⟨hid, fun _ h => hheader.trans h⟩ q

/-- **A step that is not the receipt of a message.** -/
theorem SysSteps.linked (hI : SysInv cfg s) (hs : SysSteps cfg s e s') (he : ∀ m now, e ≠ .recv m now)
    (hN : n.client.Numbered) (hph : s'.core.phase = .loop) (h : Linked cfg n s.view) :
    Linked cfg n s'.view := by
  have hL := hI.loop
  -- a step of the loop between two selects
  have hloop : ∀ {e' : Event} {core : St}, s.pc = .select → s'.pc = .select → s'.core = core →
      (∀ m now, e' ≠ .recv m now) → Steps cfg s.core e' core → Linked cfg n s'.view := by
    intro e' core hpc hpc' hcore hne hst
    rw [hpc] at hL
    rw [Sys.view_of_select hpc] at h
    rw [Sys.view_of_select hpc', hcore]
    have hlinked := h.server hN hL hst hne (hcore ▸ hph)
    exact ⟨hlinked.requested, hlinked.handled, hlinked.known, hlinked.flying, hlinked.tracks,
      hlinked.begun⟩
  -- somebody receives from the channels of a request
  have hreceives : ∀ {q : Ptr} {r : Request}, s'.pc = s.pc → s'.core = s.core.put q r →
      (s.core.objs q).Receives r → Linked cfg n s'.view := by
    intro q r hpc hcore hr
    refine h.transfer ?_ ?_ ?_ fun p σ => Sys.view_at_receives hpc hcore hr
    · rw [Sys.view_send, Sys.view_send, hcore]
      rfl
    · rw [Sys.view_created, Sys.view_created, hcore]
      rfl
    · rw [Sys.view_objs, Sys.view_objs, hcore]
      exact St.put_ids hr.sameId hr.header
  cases hs with
  | loop hpc hev hst =>
      refine hloop hpc hpc rfl ?_ hst
      rcases hev with ⟨rfl, -⟩ | ⟨_, _, rfl, -⟩ | ⟨_, rfl, -⟩ | ⟨_, _, rfl, -⟩ | ⟨m, now, -, rfl, -⟩
      · rintro _ _ ⟨⟩
      · rintro _ _ ⟨⟩
      · rintro _ _ ⟨⟩
      · rintro _ _ ⟨⟩
      · exact absurd rfl (he m now)
  | start hpc hst => exact hloop hpc hpc rfl (by rintro _ _ ⟨⟩) hst
  | closeTrigger _ _ hpc hst => exact hloop hpc hpc rfl (by rintro _ _ ⟨⟩) hst
  | successTrigger _ _ hpc hst => exact hloop hpc hpc rfl (by rintro _ _ ⟨⟩) hst
  | begin => exact absurd rfl (he _ _)
  | @finish w core hpc hf hroom hl =>
      have hview : (s.atTop core).view = core.top := Sys.view_of_select rfl
      rw [hview]
      have hgoal : Linked cfg n core := by
        cases hf with
        | discard hc hlast =>
            rwa [Sys.view_of_none (by rw [Sys.ending, hpc]; simp [hlast])] at h
        | drop hc hlast =>
            rwa [Sys.view_of_some (p := w.ptr) (by rw [Sys.ending, hpc]; simp [hlast])] at h
        | forward hc hlast =>
            rw [Sys.view_of_none (by rw [Sys.ending, hpc]; simp [hlast])] at h
            refine h.transfer rfl rfl (St.put_ids rfl (Request.header_written _ _)) fun p σ hat => ?_
            cases σ with
            | fresh => exact St.Awaits.put hat rfl rfl (Request.progress_written _ _)
            | begun N k => exact St.Awaits.put hat rfl rfl (Request.progress_written _ _)
            | ended => trivial
        | complete hc hlast =>
            rw [hl hc] at hlast
            cases hlast
      refine hgoal.transfer (St.top_send _) (St.top_created _) (fun p => ?_) fun p σ => St.At.top
      rw [St.top_objs]
      exact ⟨rfl, fun _ h => h⟩
  | @last w hpc hc hroom hl =>
      refine h.transfer ?_ ?_ ?_ fun p σ => Sys.view_at_put (p := w.ptr)
        (by rw [Sys.ending, hpc]; simp [hl])
        rfl rfl rfl
      · rw [Sys.view_send, Sys.view_send]
        rfl
      · rw [Sys.view_created, Sys.view_created]
        rfl
      · rw [Sys.view_objs, Sys.view_objs]
        exact St.put_ids rfl (Request.header_written _ _)
  | @complete p hpc =>
      refine h.transfer ?_ ?_ ?_ fun q σ => Sys.view_at_put (p := p)
        (by rw [Sys.ending, hpc]) rfl rfl rfl
      · rw [Sys.view_send, Sys.view_send]
        rfl
      · rw [Sys.view_created, Sys.view_created]
        rfl
      · rw [Sys.view_objs, Sys.view_objs]
        exact St.put_ids rfl rfl
  | @drain p hpc =>
      have hend : s.ending = some p := by rw [Sys.ending, hpc]
      have hview : (s.atTop (s.core.put p (s.core.objs p).drained)).view =
          (s.core.put p (s.core.objs p).drained).top := Sys.view_of_select rfl
      have hheader : (s.core.objs p).drained.header = (s.core.objs p).header := by
        cases hr : (s.core.objs p).response <;> simp [Request.drained, Request.header, hr]
      rw [hview]
      refine h.transfer ?_ ?_ ?_ fun q σ hat => St.At.top ?_
      · rw [St.top_send, Sys.view_send]
        rfl
      · rw [St.top_created, Sys.view_created]
        rfl
      · rw [St.top_objs, Sys.view_objs]
        exact St.put_ids rfl hheader
      · by_cases hq : q = p
        · subst hq
          rw [Sys.eq_ended_of_view hend hat]
          trivial
        · -- another request is in the map as before
          rw [Sys.view_of_some hend] at hat
          have hback : ∀ {o}, (s.core.deleteRequest (s.core.objs p)).Awaits q o → s.core.Awaits q o := by
            intro o ha
            refine ⟨?_, ha.incomplete, ha.progress⟩
            have hpres := ha.present
            unfold St.Present at hpres ⊢
            change (s.core.requests.erase (s.core.objs p).id).lookup (s.core.objs q).id = some q at hpres
            by_cases hid : (s.core.objs q).id = (s.core.objs p).id
            · rw [hid, Finmap.lookup_erase] at hpres
              cases hpres
            · rwa [Finmap.lookup_erase_ne hid] at hpres
          cases σ with
          | fresh => exact St.Awaits.put_ne (hback hat) (Ne.symm hq) _
          | begun N k => exact St.Awaits.put_ne (hback hat) (Ne.symm hq) _
          | ended => trivial
  | disconnect =>
      have hview : ({ s with core := { s.core with done := true } } : Sys).view =
          { s.view with done := true } := by
        unfold Sys.view
        rw [show ({ s with core := { s.core with done := true } } : Sys).ending = s.ending from rfl]
        cases s.ending <;> rfl
      rw [hview]
      refine h.transfer rfl rfl (fun p => ⟨rfl, fun _ h => h⟩) fun p σ hat => ?_
      cases σ with
      | fresh => exact St.Awaits.congr hat rfl rfl
      | begun N k => exact St.Awaits.congr hat rfl rfl
      | ended => trivial
  | discardStart | discardStop | discardExit | serves => exact h
  | @discardTake q _ _ _ _ hr hch =>
      have hrec := Request.receives_popChunk (s.core.objs q)
      rw [← Request.tookChunk_eq hr hch] at hrec
      exact hreceives rfl rfl hrec
  | @takeResponse q _ _ _ _ _ hr =>
      have hrec := Request.receives_popResponse (s.core.objs q)
      rw [← Request.tookResponse_eq hr] at hrec
      exact hreceives rfl rfl hrec
  | @takeChunk q _ _ _ _ _ _ hr hch =>
      have hrec := Request.receives_popChunk (s.core.objs q)
      rw [← Request.tookChunk_eq hr hch] at hrec
      exact hreceives rfl rfl hrec

/-- Before the write of a chunk the client can tell of the loop what it can tell after it. -/
theorem Finishes.view_at {C : ℕ} {w : PendingWrite} {t' : St} (hcore : Core C (some w) s.core)
    (hpc : s.pc = .sending w) (hf : Finishes s.core w t') {p : Ptr} {σ : Stage} (hat : t'.At p σ) :
    s.view.At p σ := by
  have hview_last : w.last = true → s.view = s.core.deleteRequest (s.core.objs w.ptr) := fun hl =>
    Sys.view_of_some (by rw [Sys.ending, hpc]; simp [hl])
  have hview : w.last = false → s.view = s.core := fun hl =>
    Sys.view_of_none (by rw [Sys.ending, hpc]; simp [hl])
  -- a request that waits after the write has waited before it
  have hwaits : ∀ {o}, t'.Awaits p o → s.view.Awaits p o := by
    intro o ha
    cases hf with
    | discard _ hl => rwa [hview hl]
    | drop _ hl => rwa [hview_last hl]
    | forward _ hl =>
        rw [hview hl]
        have hback := ha.put (q := w.ptr) (r := s.core.objs w.ptr)
          (by rw [St.put_objs_self]; rfl) (by rw [St.put_objs_self]; rfl)
          (by rw [St.put_objs_self, Request.progress_written])
        rwa [St.put_put, St.put_self] at hback
    | complete _ hl =>
        have hne : w.ptr ≠ p := by
          rintro rfl
          have hdone := ha.incomplete
          rw [St.put_objs_self] at hdone
          cases hdone
        have hback := ha.put_ne hne (s.core.objs w.ptr)
        rw [St.put_put, St.put_self] at hback
        rw [hview_last hl]
        refine hback.delete fun hid => hne ?_
        have hw := (hcore.writing w rfl).2.1
        have hp := hback.present
        unfold St.Present at hw hp
        rw [hid, hp] at hw
        exact (Option.some.inj hw).symm
  cases σ with
  | fresh => exact hwaits hat
  | begun N k => exact hwaits hat
  | ended => trivial

/-- **The receipt of a message.** -/
theorem SysSteps.linked_recv {x : Outgoing} {rest : List Outgoing} {now : Time} (hI : SysInv cfg s)
    (hs : SysSteps cfg s (.recv ⟨some x.data⟩ now) s') (hN : n.client.Numbered)
    (hq : n.toServer = x :: rest) (hph : s'.core.phase = .loop) (h : Linked cfg n s.view) :
    Linked cfg { n with toServer := rest, received := n.received ++ [x] } s'.view := by
  have hL := hI.loop
  cases hs with
  | @loop _ e' core hpc hev hst =>
      rw [hpc] at hL
      rw [Sys.view_of_select hpc] at h
      have hview : ({ s with core := core } : Sys).view = core := Sys.view_of_select hpc
      rcases hev with ⟨-, hev⟩ | ⟨_, _, -, hev⟩ | ⟨_, -, hev⟩ | ⟨_, _, -, hev⟩ |
        ⟨m, now', rfl, hev, -⟩ <;>
        cases hev
      have hlinked := h.recv hN hL hq hst hph
      rw [hview]
      exact ⟨hlinked.requested, hlinked.handled, hlinked.known, hlinked.flying, hlinked.tracks,
        hlinked.begun⟩
  | @begin _ chunk _ core w hpc hm hp hb hr =>
      rw [hpc] at hL
      rw [Sys.view_of_select hpc] at h
      have hdata : x.data = .contentChunk chunk := Option.some.inj hm
      have hfault := hL.fault_none hp
      have hcore := hb.core cfg.chunkSize_pos hL.core hfault
      obtain ⟨t, -, hf⟩ := finishChunk_spec hcore
      have hh : Handles cfg.chunkSize.toNat cfg.bufferSize s.core now x.data t := by
        rw [hdata]
        exact .chunk hb hf
      obtain ⟨σ, τ, σ', hat, hnext, hfol, hstage, hfresh, hout⟩ := h.recv_spec hL hp hq hh
      have hpres : s.core.Present x.origin := hat.present hnext
      -- after the write the response is where the chunk takes it
      have hat' : t.At x.origin τ := by
        rcases hout with ⟨-, hat'⟩ | ⟨-, m, hm⟩ | ⟨close, hclose, -⟩
        · exact hat'
        · rw [hdata] at hm
          cases hm
        · rw [hf.fault_eq, (hcore.writing w rfl).1] at hclose
          cases hclose
      have hother : ∀ {p σ}, p ≠ x.origin → s.core.At p σ → t.At p σ := by
        intro p σ hpx hat
        have hwaits : ∀ {o}, s.core.Awaits p o → t.Awaits p o := fun ha =>
          hh.awaits hL.core ha fun hid => hpx (by
            rw [(h.flying x (by rw [hq]; exact List.mem_cons_self)).2] at hid
            have hp' := ha.present
            unfold St.Present at hpres hp'
            rw [hid, hp'] at hpres
            exact Option.some.inj hpres)
        cases σ with
        | fresh => exact hwaits hat
        | begun N k => exact hwaits hat
        | ended => trivial
      have hgrows : s.core.Grows ({ s with core := core, pc := .sending w } : Sys).view := by
        have hg : s.core.Grows core := hb.grows
        refine ⟨?_, ?_, ?_, ?_⟩
        · rw [Sys.view_created]
          exact hg.created
        · rw [Sys.view_objs]
          exact hg.objs
        · rw [Sys.view_send]
          exact hg.send
        · unfold Sys.view
          split
          · exact hg.done
          · exact hg.done
      have hcreated : ({ s with core := core, pc := .sending w } : Sys).view.created =
          s.core.created := by
        rw [Sys.view_created]
        exact hb.frame.created
      obtain ⟨h1, h2, h3, h4⟩ := h.grows hN hgrows
      refine ⟨?_, h1, h2, fun y hy => h3 y (hq ▸ List.mem_cons_of_mem x hy), fun p hp' => ?_,
        fun y hy header hheader => ?_⟩
      · have hsend : ({ s with core := core, pc := .sending w } : Sys).view.send = s.core.send := by
          rw [Sys.view_send]
          cases hb with
          | accept => rfl
        rw [St.Requested, sentIds_congr hsend, hcreated, h.requested, hgrows.ids]
      · have hview_at : ∀ {p σ}, t.At p σ →
          ({ s with core := core, pc := .sending w } : Sys).view.At p σ :=
          fun hat => hf.view_at (s := { s with core := core, pc := .sending w }) hcore rfl hat
        by_cases hpx : p = x.origin
        · subst hpx
          exact ⟨τ, σ', hview_at hat', hfol, hstage, hfresh⟩
        · obtain ⟨σ, σ', hat, hfol, hrest⟩ := h.tracks p (hcreated ▸ hp')
          rw [hq, about_cons_ne (Ne.symm hpx)] at hfol
          exact ⟨σ, σ', hview_at (hother hpx hat), hfol, hrest⟩
      · rcases List.mem_append.mp hy with hy | hy
        · exact h4 y hy header hheader
        · rw [List.mem_singleton.mp hy, hdata] at hheader
          cases hheader

end Linked

/-! ## Steps of the connection -/

section Steps

variable {ext : Externals} (cfg : Config ext)

/-- **What a step of the connection does.** -/
inductive RelaySteps (n : Relay) (s : Sys) : RelayEvent → Relay → Sys → Prop where
  | recv {x : Outgoing} {rest : List Outgoing} {now : Time} {s' : Sys} (hq : n.toServer = x :: rest)
      (h : SysSteps cfg s (.recv ⟨some x.data⟩ now) s') :
      RelaySteps n s (.recv now)
        { n with server := .ok s', toServer := rest, received := n.received ++ [x] } s'
  | deliver {m : ServerMessage} {limited ok : Bool} {c : Client} {out : List Outgoing}
      (hm : s.core.send[n.delivered]? = some m)
      (h : n.session.client.step cfg.hello (.message m limited ok) = some (c, out)) :
      RelaySteps n s (.deliver limited ok)
        { n with session := ⟨c, n.session.handled ++ [m],
                   n.session.client.record n.session.logs out (.message m limited ok)⟩,
                 delivered := n.delivered + 1, toServer := n.toServer ++ out } s
  | server {e : SysEvent} {s' : Sys} (he : ∀ m now, e ≠ .recv m now) (h : SysSteps cfg s e s')
      (hr : (system cfg).step (.ok s) e = some (.ok s')) :
      RelaySteps n s (.server e) { n with server := .ok s' } s'
  | client {e : ClientEvent} {c : Client} {out : List Outgoing} (he : e.isMessage = false)
      (h : n.session.client.step cfg.hello e = some (c, out)) :
      RelaySteps n s (.client e)
        { n with session := ⟨c, n.session.handled, n.session.client.record n.session.logs out e⟩,
                 toServer := n.toServer ++ out } s

variable {cfg} {n n' : Relay} {s : Sys}

/-- A step of the client is one of its session. -/
theorem Session.steps_of_client {k : Constraints} {c : Session} {e : ClientEvent} {c' : Client}
    {out : List Outgoing} (hc : c.client.step k e = some (c', out)) :
    c.Steps k e ⟨c', c.handled ++ e.handled, c.client.record c.logs out e⟩ := by
  refine Session.steps_of_step ?_
  unfold Session.step
  rw [hc]
  rfl

theorem ClientEvent.handled_of_isMessage {e : ClientEvent} (he : e.isMessage = false) :
    e.handled = [] := by
  cases e with
  | message => cases he
  | _ => rfl

/-- The server inside a connection does not panic: its messages are set. -/
theorem Relay.server_step (hI : SysInv cfg s) (hn : n.server = .ok s) {e : SysEvent}
    {server : Except Panic Sys} (hs : (system cfg).step n.server e = some server)
    (he : ∀ m now, e = .recv m now → m.data.isSome) :
    ∃ s', server = .ok s' ∧ SysSteps cfg s e s' := by
  rw [hn] at hs
  rcases sysStep_spec hI.loop hs with h | ⟨-, m, now, rfl, hm⟩
  · exact h
  · have hset := he m now rfl
    rw [hm] at hset
    cases hset

theorem Relay.clientStep_eq_some {e : ClientEvent} (hs : n.clientStep cfg e = some n') :
    ∃ c out, n.session.client.step cfg.hello e = some (c, out) ∧
      n' = { n with
        session := ⟨c, n.session.handled ++ e.handled, n.session.client.record n.session.logs out e⟩
        toServer := n.toServer ++ out } := by
  unfold Relay.clientStep at hs
  obtain ⟨⟨c, out⟩, hc, hs⟩ := Option.bind_eq_some_iff.mp hs
  obtain ⟨session, hsession, rfl⟩ := Option.map_eq_some_iff.mp hs
  unfold Session.step at hsession
  rw [hc] at hsession
  cases hsession
  exact ⟨c, out, hc, rfl⟩

/-- **Inversion of a step of the connection.** -/
theorem Relay.steps_of_step (hI : SysInv cfg s) (hn : n.server = .ok s) {e : RelayEvent}
    (hs : (relay cfg).step n e = some n') : ∃ s', RelaySteps cfg n s e n' s' ∧ n'.server = .ok s' := by
  cases e with
  | recv now =>
      change n.recv cfg now = some n' at hs
      unfold Relay.recv at hs
      cases hq : n.toServer with
      | nil =>
          rw [hq] at hs
          cases hs
      | cons x rest =>
          rw [hq] at hs
          obtain ⟨server, hserver, rfl⟩ := Option.map_eq_some_iff.mp hs
          obtain ⟨s', rfl, hst⟩ := Relay.server_step hI hn hserver fun m now hm => by
            cases hm
            rfl
          exact ⟨s', .recv hq hst, rfl⟩
  | deliver limited ok =>
      change n.deliver cfg limited ok = some n' at hs
      unfold Relay.deliver at hs
      obtain ⟨m, hm, hs⟩ := Option.bind_eq_some_iff.mp hs
      obtain ⟨n₁, hclient, rfl⟩ := Option.map_eq_some_iff.mp hs
      obtain ⟨c, out, hc, rfl⟩ := Relay.clientStep_eq_some hclient
      unfold Relay.nextMessage at hm
      rw [hn] at hm
      exact ⟨s, .deliver hm hc, hn⟩
  | server e =>
      change (if e.isRecv then none else _) = some n' at hs
      split_ifs at hs with hrecv
      obtain ⟨server, hserver, rfl⟩ := Option.map_eq_some_iff.mp hs
      have hne : ∀ m now, e ≠ .recv m now := by
        rintro m now rfl
        exact hrecv rfl
      obtain ⟨s', rfl, hst⟩ := Relay.server_step hI hn hserver fun m now hm => absurd hm (hne m now)
      rw [hn] at hserver
      exact ⟨s', .server hne hst hserver, rfl⟩
  | client e =>
      change (if e.isMessage then none else _) = some n' at hs
      split_ifs at hs with hmsg
      obtain ⟨c, out, hc, rfl⟩ := Relay.clientStep_eq_some hs
      have he : e.isMessage = false := by simpa using hmsg
      rw [ClientEvent.handled_of_isMessage he, List.append_nil]
      exact ⟨s, .client he hc, hn⟩

/-! ## The invariant -/

variable (cfg) in
/-- **The invariant of a connection** whose server is in the state `s`. -/
structure RelayInv (n : Relay) (s : Sys) : Prop where
  server : n.server = .ok s
  sys : SysInv cfg s
  sound : n.session.client.Sound cfg.chunkSize.toNat
  numbered : n.session.client.Numbered
  ledger : n.session.Ledger cfg.chunkSize.toNat (n.received ++ n.toServer)
  handled : n.session.handled <+: s.core.send
  delivered : n.session.handled.length = n.delivered
  linked : s.core.phase = .loop → Linked cfg n.link s.view

/-- The messages that were handled, and the next one. -/
theorem RelayInv.handled_next (h : RelayInv cfg n s) {m : ServerMessage}
    (hm : s.core.send[n.delivered]? = some m) : n.session.handled ++ [m] <+: s.core.send := by
  obtain ⟨t, ht⟩ := h.handled
  rw [← ht, List.getElem?_append_right h.delivered.le, h.delivered, Nat.sub_self] at hm
  cases t with
  | nil => cases hm
  | cons a t =>
      cases hm
      exact ⟨t, by rw [← ht, List.append_assoc]; rfl⟩

/-- A step of the session. -/
theorem RelayInv.client (h : RelayInv cfg n s) {e : ClientEvent} {c : Client} {out : List Outgoing}
    (he : e.Exact) (hc : n.session.client.step cfg.hello e = some (c, out)) :
    c.Sound cfg.chunkSize.toNat ∧ n.session.client.Changes cfg.chunkSize.toNat c e out ∧
      Session.Ledger cfg.chunkSize.toNat ⟨c, n.session.handled ++ e.handled,
        n.session.client.record n.session.logs out e⟩ (n.received ++ (n.toServer ++ out)) := by
  obtain ⟨hS, hch⟩ := Client.step_spec (k := cfg.hello) rfl cfg.chunkSize_pos h.sound he hc
  refine ⟨hS, hch, ?_⟩
  rw [← List.append_assoc]
  exact h.ledger.step (k := cfg.hello) h.sound.requests hc

/-- **Every step keeps the invariant of the connection.** -/
theorem RelayInv.step (h : RelayInv cfg n s) {e : RelayEvent} {s' : Sys} (he : e.Exact)
    (hs : RelaySteps cfg n s e n' s') : RelayInv cfg n' s' := by
  cases hs with
  | @recv x rest now _ hq hst =>
      have hg := hst.grows h.sys.loop
      refine ⟨rfl, hst.sysInv h.sys, h.sound, h.numbered, ?_, h.handled.trans hg.send,
        h.delivered, fun hph => ?_⟩
      · have hsent : n.received ++ [x] ++ rest = n.received ++ n.toServer := by
          rw [hq, List.append_assoc]
          rfl
        exact hsent ▸ h.ledger
      · have hlinked := hst.linked_recv h.sys (n := n.link) h.numbered hq hph
          (h.linked (hst.phase_loop h.sys.loop hph))
        exact ⟨hlinked.requested, hlinked.handled, hlinked.known, hlinked.flying, hlinked.tracks,
          hlinked.begun⟩
  | @deliver m limited ok c out hm hc =>
      obtain ⟨hS, hch, hledger⟩ := h.client (e := .message m limited ok) trivial hc
      refine ⟨h.server, h.sys, hS, hch.numbered h.numbered, hledger, ?_, ?_, fun hph => ?_⟩
      · exact h.handled_next hm
      · change (n.session.handled ++ [m]).length = n.delivered + 1
        rw [List.length_append, h.delivered]
        rfl
      · have hlinked := (h.linked hph).deliver (n := n.link) (m := m) h.numbered
          (by rw [Sys.view_send]; exact hm) hch
        exact ⟨hlinked.requested, hlinked.handled, hlinked.known, hlinked.flying, hlinked.tracks,
          hlinked.begun⟩
  | @server e _ hne hst =>
      have hg := hst.grows h.sys.loop
      refine ⟨rfl, hst.sysInv h.sys, h.sound, h.numbered, h.ledger, h.handled.trans hg.send,
        h.delivered, fun hph => ?_⟩
      have hlinked := hst.linked h.sys hne (n := n.link) h.numbered hph
        (h.linked (hst.phase_loop h.sys.loop hph))
      exact ⟨hlinked.requested, hlinked.handled, hlinked.known, hlinked.flying, hlinked.tracks,
        hlinked.begun⟩
  | @client e c out hmsg hc =>
      obtain ⟨hS, hch, hledger⟩ := h.client he hc
      rw [ClientEvent.handled_of_isMessage hmsg, List.append_nil] at hledger
      refine ⟨h.server, h.sys, hS, hch.numbered h.numbered, hledger, h.handled, h.delivered,
        fun hph => ?_⟩
      have hlinked := (h.linked hph).client (n := n.link) h.numbered hmsg hch
      exact ⟨hlinked.requested, hlinked.handled, hlinked.known, hlinked.flying, hlinked.tracks,
        hlinked.begun⟩

theorem relayInv_init : RelayInv cfg Relay.init Sys.init := by
  have hlink := linkInv_init cfg
  obtain ⟨s, hs, -, hlinked⟩ := hlink.server
  cases hs
  refine ⟨rfl, sysInv_init, hlink.sound, hlink.numbered, .init _, List.prefix_rfl, rfl,
    fun hph => ?_⟩
  have h := hlinked hph
  exact ⟨h.requested, h.handled, h.known, h.flying, h.tracks, h.begun⟩

/-- **Run induction for connections** with sources that supply what they announce. -/
theorem relay_induction {P : List RelayEvent → Relay → Sys → Prop} (h0 : P [] Relay.init Sys.init)
    (hstep : ∀ es n s e n' s', (relay cfg).run Relay.init es = some n → RelayInv cfg n s → P es n s →
      e.Exact → RelaySteps cfg n s e n' s' → P (es ++ [e]) n' s') {es : List RelayEvent}
    (hes : ∀ e ∈ es, e.Exact) (h : (relay cfg).run Relay.init es = some n) :
    ∃ s, RelayInv cfg n s ∧ P es n s := by
  refine Machine.run_induction (M := relay cfg)
    (P := fun es n => (∀ e ∈ es, e.Exact) → ∃ s, RelayInv cfg n s ∧ P es n s)
    (fun _ => ⟨_, relayInv_init, h0⟩) ?_ h hes
  intro es n e n' hrun hP hs hes
  obtain ⟨s, hI, hp⟩ := hP fun e he => hes e (List.mem_append_left _ he)
  have he := hes e (List.mem_append_right _ List.mem_cons_self)
  obtain ⟨s', hst, -⟩ := Relay.steps_of_step hI.sys hI.server hs
  exact ⟨s', hI.step he hst, hstep es n s e n' s' hrun hI hp he hst⟩

end Steps

end Loon
