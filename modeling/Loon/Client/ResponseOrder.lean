import Loon.Client.Graceful
import Loon.Client.ServeSteps

set_option autoImplicit false

/-!
# The order of the responses

The messages of a request handler as the server sees them, by request id. The source supplies
exactly the announced bytes, and no id is used twice. Any send may fail.

* `Over`, `Follows`: the shapes of the messages for one id;
* `Answering.follows`, `Answering.inHand`: what the invariant says of one request;
* `Handling.step_sent`: what a step may send;
* **`responses_in_order`**: every response has one of the three shapes, no two responses overlap,
  and the headers come in the order of the calls of `serve_request`.
-/

namespace Loon

open Chunking

/-- The id of a call of `serve_request`. -/
def HandlingEvent.servedId : HandlingEvent → Option UInt64
  | .serveRequest id => some id
  | _ => none

/-- The id in a header. -/
def ClientData.headerId : ClientData → Option UInt64
  | .contentHeader m => some m.requestId
  | _ => none

/-- The messages that were sent. -/
def Handling.messages (s : Handling) : List ClientData := s.sent.map Outgoing.data

/-- The messages for a request id. -/
def forId (id : UInt64) (l : List ClientData) : List ClientData := l.filter (·.requestId = id)

section Shapes

variable (C : ℕ) (source : ContentSource) (info : ContentInfo) (r : ServeRequest)

/-- The response to `r` has ended: it is complete, or was closed after some of its chunks. -/
def Over (l : List ClientData) : Prop :=
  l = response C source info r ∨ ∃ k < pieces C source.size.toNat,
    l = responseUpTo C source info r k ++ [.closeResponse ⟨r.id⟩]

/-- The messages for `r` are the beginning of its response, of a response that was closed after some
of its chunks, or of a lone `CloseResponse`. -/
def Follows (l : List ClientData) : Prop :=
  l <+: response C source info r ∨
  (∃ k < pieces C source.size.toNat,
    l <+: responseUpTo C source info r k ++ [.closeResponse ⟨r.id⟩]) ∨
  l <+: [.closeResponse ⟨r.id⟩]

variable {C source info r} {l : List ClientData}

theorem Over.follows (h : Over C source info r l) : Follows C source info r l := by
  rcases h with rfl | ⟨k, hk, rfl⟩
  · exact .inl (List.prefix_refl _)
  · exact .inr (.inl ⟨k, hk, List.prefix_refl _⟩)

/-- A response that begins with a `CloseResponse` is nothing else. -/
theorem Follows.lone (h : Follows C source info r (.closeResponse ⟨r.id⟩ :: l)) : l = [] := by
  rcases h with h | ⟨k, -, h⟩ | h
  · cases (List.cons_prefix_cons.mp h).1
  · cases (List.cons_prefix_cons.mp h).1
  · exact List.prefix_nil.mp (List.cons_prefix_cons.mp h).2

/-- A settled response is over, or was closed before its header. -/
theorem Settled.over {c : Prop} (hpos : 0 < C) (hsize : 0 < source.size)
    (hexact : source.data.length = source.size.toNat) (h : Settled C source info r c l) :
    Over C source info r l ∨ l = [.closeResponse ⟨r.id⟩] := by
  have hN : 0 < source.size.toNat := UInt64.lt_iff_toNat_lt.mp hsize
  rcases h with rfl | ⟨-, rfl | ⟨k, hk, rfl, hne⟩ | ⟨k, hk, rfl, heq⟩⟩
  · exact .inl (.inl (responseUpTo_chunks hexact))
  · exact .inr rfl
  · refine .inl (.inr ⟨k, (lt_pieces_iff hpos).mpr ?_, rfl⟩)
    rcases Nat.eq_zero_or_pos k with rfl | hk
    · rwa [Nat.zero_mul]
    · have := hne hk
      rw [ContentSource.supplied, hexact] at this
      omega
  · rw [eq_chunks_of_supplied hpos hexact hk heq]
    exact .inl (.inl (responseUpTo_chunks hexact))

end Shapes

section Invariant

variable {C : ℕ} {source : ContentSource} {info : ContentInfo} {q : ServeRequest → Prop}
  {lost : ServeRequest → Prop} {accepted : List ServeRequest} {sent a : List Outgoing}
  {h : RequestHandler} {r : ServeRequest}

/-- A broken response is the beginning of the whole one. -/
theorem Broken.follows {dead : Prop} {l : List ClientData}
    (hexact : source.data.length = source.size.toNat) (h : Broken C source info r dead l) :
    Follows C source info r l := by
  rcases h with rfl | ⟨-, k, hk, rfl⟩
  · exact .inl List.nil_prefix
  · left
    rw [← responseUpTo_chunks hexact]
    exact responseUpTo_prefix hk

/-- **The messages for a request** have one of the three shapes. -/
theorem Answering.follows (hpos : 0 < C) (hsize : 0 < source.size)
    (hexact : source.data.length = source.size.toNat)
    (h' : Answering C source info q lost accepted sent h) (hr : r ∈ accepted) :
    Follows C source info r (about r.origin sent) := by
  by_cases hhand : h.point.request = some r
  · rcases (h'.progress r hhand).upTo hhand with hnil | ⟨k, hk, hsent⟩
    · rw [hnil]
      exact .inl List.nil_prefix
    · rw [hsent]
      refine .inl ?_
      rw [← responseUpTo_chunks hexact]
      exact responseUpTo_prefix hk
  · by_cases hpend : r ∈ h.pendingRequests
    · rw [h'.books.fresh r hpend]
      exact .inl List.nil_prefix
    · have hopen : r ∉ h.openRequests := fun hopen =>
        (RequestHandler.mem_openRequests.mp hopen).elim hhand hpend
      rcases h'.ended hr hopen with hsettled | ⟨-, hbroken⟩
      · rcases hsettled.over hpos hsize hexact with hover | hlone
        · exact hover.follows
        · rw [hlone]
          exact .inr (.inr (List.prefix_refl _))
      · exact hbroken.follows hexact

/-- **A response that has begun and is not over is in hand**, while the serve thread runs. -/
theorem Answering.inHand (hpos : 0 < C) (hsize : 0 < source.size)
    (hexact : source.data.length = source.size.toNat)
    (h' : Answering C source info q lost accepted sent h) (hd : h.isDone = false) (hr : r ∈ accepted)
    (hbegun : r ∈ headersOf sent) (hover : ¬ Over C source info r (about r.origin sent)) :
    h.point.request = some r := by
  obtain ⟨x, hx, hb⟩ := List.mem_filterMap.mp hbegun
  by_contra hhand
  have hsettled := h'.books.settled_of_begins (by rw [hd]; exact Bool.false_ne_true) hx hb
    fun hmem => hhand (Option.mem_toList.mp hmem)
  obtain rfl := Outgoing.begins_eq hb
  refine hover ((hsettled.over hpos hsize hexact).resolve_right fun hlone => ?_)
  have hmem : x.data ∈ about x.request.origin sent :=
    List.mem_map.mpr ⟨x, List.mem_filter.mpr ⟨hx, by simp [Outgoing.request]⟩, rfl⟩
  rw [hlone, List.mem_singleton] at hmem
  rw [Outgoing.begins, hmem] at hb
  cases hb

/-- By the ids the messages are told apart as by the numbers of the requests. -/
theorem Answering.forId_eq (h' : Answering C source info q lost accepted sent h)
    (hids : (accepted.map ServeRequest.id).Nodup) (ha : ∀ m ∈ a, m ∈ sent) (hr : r ∈ accepted) :
    forId r.id (a.map Outgoing.data) = about r.origin a := by
  rw [forId, List.filter_map, about]
  congr 1
  refine List.filter_congr fun m hm => decide_eq_decide.mpr ?_
  have hknown := h'.books.known m (ha m hm)
  constructor
  · intro hid
    exact congrArg ServeRequest.origin (List.inj_on_of_nodup_map hids hknown hr hid)
  · intro horigin
    exact congrArg ServeRequest.id (h'.books.eq_of_origin hknown hr horigin)

end Invariant

/-! ## Steps -/

section Steps

variable {chunkSize : UInt64} {C : ℕ} {h h₁ : RequestHandler} {out : List Outgoing} {m : Outgoing}

/-- The serve thread only sends messages about the request in hand. -/
theorem RequestHandler.Serves.about_hand (hs : h.Serves C h₁ out) (hm : m ∈ out) :
    ∃ r, h.point.request = some r ∧ m.origin = r.origin := by
  cases hs with
  | wakes | leaves | fails => cases hm
  | @moves r _ _ hr _ _ hout => exact ⟨r, hr, hout m hm⟩
  | @ends r _ hr _ hout =>
      obtain ⟨id, rfl⟩ := hout m hm
      exact ⟨r, hr, rfl⟩

/-- **What a step may send**: messages about the request in hand, and the close of one that waits; and
nothing once the serve thread has returned. -/
theorem Handling.step_sent {s s' : Handling} {e : HandlingEvent}
    (hs : s.step chunkSize e = some s') : ∃ out, s'.sent = s.sent ++ out ∧ ∀ m ∈ out,
      s.handler.isDone = false ∧ ((∃ r, s.handler.point.request = some r ∧ m.origin = r.origin) ∨
        ∃ r ∈ s.handler.pendingRequests, m = ⟨r.origin, .closeResponse ⟨r.id⟩⟩) := by
  have hquiet : s'.sent = s.sent → ∃ out, s'.sent = s.sent ++ out ∧ ∀ m ∈ out,
      s.handler.isDone = false ∧ ((∃ r, s.handler.point.request = some r ∧ m.origin = r.origin) ∨
        ∃ r ∈ s.handler.pendingRequests, m = ⟨r.origin, .closeResponse ⟨r.id⟩⟩) := by
    intro heq
    exact ⟨[], by rw [heq, List.append_nil], by rintro m ⟨⟩⟩
  cases Handling.steps_of_step hs with
  | dropped | accepted | refused | gone | exits | returns => exact hquiet rfl
  | @cancel id =>
      refine ⟨_, rfl, fun m hm => ?_⟩
      have hm := mem_of_mem_delivered hm
      rcases s.handler.cancelRequest_cases id with ⟨heq, -⟩ | ⟨-, -, heq⟩ |
        ⟨hd, -, r, a, b, hab, rfl, heq⟩
      · rw [heq] at hm
        cases hm
      · rw [heq] at hm
        cases hm
      · rw [heq] at hm
        exact ⟨hd, .inr ⟨r, by rw [hab]; simp, List.mem_singleton.mp hm⟩⟩
  | serves hserve =>
      refine ⟨_, rfl, fun m hm => ?_⟩
      obtain ⟨r, hr, horigin⟩ := (RequestHandler.serves_of_serve hserve).about_hand hm
      exact ⟨RequestHandler.isDone_of_request hr, .inl ⟨r, hr, horigin⟩⟩

/-- The accepted requests are among those that `serve_request` was called for, in their order. -/
theorem Handling.accepted_sublist {source : ContentSource} {info : ContentInfo}
    {es : List HandlingEvent} {s : Handling}
    (hr : (handling source info chunkSize).run (.init source info) es = some s) :
    (s.accepted.map ServeRequest.id).Sublist (es.filterMap HandlingEvent.servedId) := by
  refine Machine.run_induction (M := handling source info chunkSize) (P := fun es s =>
    (s.accepted.map ServeRequest.id).Sublist (es.filterMap HandlingEvent.servedId)) .slnil ?_ hr
  intro es s e s' _ ih hs
  rw [List.filterMap_append]
  have hstay : s'.accepted = s.accepted → (s'.accepted.map ServeRequest.id).Sublist
      (es.filterMap HandlingEvent.servedId ++ [e].filterMap HandlingEvent.servedId) := by
    intro heq
    rw [heq]
    exact ih.trans (List.sublist_append_left _ _)
  cases Handling.steps_of_step hs with
  | accepted =>
      rw [List.map_append]
      exact ih.append (.refl _)
  | dropped | cancel | refused | gone | exits | returns | serves => exact hstay rfl

end Steps

/-! ## Runs -/

section Order

variable {C : ℕ} {source : ContentSource} {info : ContentInfo} {q lost : ServeRequest → Prop}
  {accepted : List ServeRequest} {sent a : List Outgoing} {h : RequestHandler} {r : ServeRequest}

theorem headerIds_eq (a : List Outgoing) :
    (a.map Outgoing.data).filterMap ClientData.headerId = (headersOf a).map ServeRequest.id := by
  rw [List.filterMap_map, headersOf, List.map_filterMap]
  congr 1
  funext m
  unfold Outgoing.begins Outgoing.request
  simp only [Function.comp]
  cases m.data <;> rfl

/-- The headers that are in a part of the log belong to accepted requests. -/
theorem Answering.begun (h' : Answering C source info q lost accepted sent h)
    (hids : (accepted.map ServeRequest.id).Nodup) (ha : ∀ m ∈ a, m ∈ sent) (hr : r ∈ accepted)
    (hid : r.id ∈ (a.map Outgoing.data).filterMap ClientData.headerId) : r ∈ headersOf a := by
  rw [headerIds_eq] at hid
  obtain ⟨r', hr', heq⟩ := List.mem_map.mp hid
  obtain ⟨m, hm, hb⟩ := List.mem_filterMap.mp hr'
  have hmem : r' ∈ accepted := Outgoing.begins_eq hb ▸ h'.books.known m (ha m hm)
  obtain rfl := List.inj_on_of_nodup_map hids hmem hr heq
  exact hr'

/-- **No two responses overlap.** -/
theorem Answering.apart_ids (hpos : 0 < C) (hsize : 0 < source.size)
    (hexact : source.data.length = source.size.toNat)
    (h' : Answering C source info q lost accepted sent h)
    (hids : (accepted.map ServeRequest.id).Nodup) {l l' : List ClientData} {m : ClientData}
    (hl : sent.map Outgoing.data = l ++ m :: l') (hr : r ∈ accepted)
    (hbegun : r.id ∈ l.filterMap ClientData.headerId) (hne : m.requestId ≠ r.id) :
    Over C source info r (forId r.id l) ∨
      m = .closeResponse ⟨m.requestId⟩ ∧ forId m.requestId (sent.map Outgoing.data) = [m] := by
  obtain ⟨a, b, hab, rfl, hb⟩ := List.map_eq_append_iff.mp hl
  obtain ⟨x, b, rfl, rfl, rfl⟩ := List.map_eq_cons_iff.mp hb
  have ha : ∀ y ∈ a, y ∈ sent := fun y hy => hab ▸ List.mem_append_left _ hy
  have hx : x ∈ sent := hab ▸ List.mem_append_right _ List.mem_cons_self
  have hknown := h'.books.known x hx
  have hheader := h'.begun hids ha hr hbegun
  obtain ⟨y, hy, hbegins⟩ := List.mem_filterMap.mp hheader
  have hone : forId x.data.requestId (a.map Outgoing.data) = about x.origin a :=
    h'.forId_eq hids ha hknown
  have horigin : r.origin ≠ x.origin := by
    intro he
    have heq : r = x.request := h'.books.eq_of_origin hr hknown he
    exact hne (congrArg ServeRequest.id heq.symm)
  rcases h'.books.apart a x b hab y hy r hbegins horigin with hsettled | ⟨hclose, hnil⟩
  · left
    rw [h'.forId_eq hids ha hr]
    refine (hsettled.over hpos hsize hexact).resolve_right fun hlone => ?_
    have hmem : y.data ∈ about r.origin a := by
      obtain rfl := Outgoing.begins_eq hbegins
      exact List.mem_map.mpr ⟨y, List.mem_filter.mpr ⟨hy, by simp [Outgoing.request]⟩, rfl⟩
    rw [hlone, List.mem_singleton] at hmem
    rw [Outgoing.begins, hmem] at hbegins
    cases hbegins
  · refine .inr ⟨hclose, ?_⟩
    have hfollows := h'.follows hpos hsize hexact hknown
    have hall : forId x.data.requestId (sent.map Outgoing.data) =
        x.data :: forId x.data.requestId (b.map Outgoing.data) := by
      rw [hab, List.map_append, List.map_cons, forId, List.filter_append,
        show List.filter _ (a.map Outgoing.data) = [] from hone.trans hnil, List.nil_append,
        List.filter_cons_of_pos (by simp), forId]
    rw [← h'.forId_eq hids (fun _ hm => hm) hknown] at hfollows
    rw [show forId x.request.id (sent.map Outgoing.data) = _ from hall, hclose] at hfollows
    rw [hall, show forId x.data.requestId (b.map Outgoing.data) = [] from hfollows.lone]

end Order

/-- **The responses of a handler.** For a source that supplies exactly its size and calls of
`serve_request` with distinct ids, in every run, whichever sends fail: the messages for each id have
one of the three shapes; between a header and the end of its response there is nothing else but a
lone `CloseResponse`, and its request still waits when it is sent; and the headers come in the order
of the calls. -/
theorem responses_in_order {source : ContentSource} {info : ContentInfo} {chunkSize : UInt64}
    (hpos : 0 < chunkSize) (hsize : 0 < source.size)
    (hexact : source.data.length = source.size.toNat) {es : List HandlingEvent} {s : Handling}
    (hr : (handling source info chunkSize).run (.init source info) es = some s)
    (hids : (es.filterMap HandlingEvent.servedId).Nodup) :
    (∀ r ∈ s.accepted, Follows chunkSize.toNat source info r (forId r.id s.messages)) ∧
    (∀ d ∈ s.messages, ∃ r ∈ s.accepted, d.requestId = r.id) ∧
    (∀ l m l', s.messages = l ++ m :: l' → ∀ r ∈ s.accepted,
      r.id ∈ l.filterMap ClientData.headerId → m.requestId ≠ r.id →
      Over chunkSize.toNat source info r (forId r.id l) ∨
        m = .closeResponse ⟨m.requestId⟩ ∧ forId m.requestId s.messages = [m]) ∧
    (∀ e s' out, s.step chunkSize e = some s' → s'.messages = s.messages ++ out → ∀ m ∈ out,
      ∀ r ∈ s.accepted, r.id ∈ s.messages.filterMap ClientData.headerId →
      ¬ Over chunkSize.toNat source info r (forId r.id s.messages) → m.requestId ≠ r.id →
      ∃ r' ∈ s.handler.pendingRequests, m = .closeResponse ⟨r'.id⟩) ∧
    (s.messages.filterMap ClientData.headerId).Sublist (es.filterMap HandlingEvent.servedId) := by
  have hpos' : 0 < chunkSize.toNat := hpos
  obtain ⟨hnum, h⟩ := Handling.answering_of_run hr
    (Machine.along_of_forall fun e _ s => s.cancels_any e)
    (Machine.along_of_forall fun e _ s => s.loses_any e)
  have hsub := Handling.accepted_sublist hr
  have hnodup := hids.sublist hsub
  refine ⟨fun r hr => ?_, fun d hd => ?_, fun l m l' hl r hr hbegun hne => ?_, ?_, ?_⟩
  · rw [Handling.messages, h.forId_eq hnodup (fun _ hm => hm) hr]
    exact h.follows hpos' hsize hexact hr
  · obtain ⟨m, hm, rfl⟩ := List.mem_map.mp hd
    exact ⟨m.request, h.books.known m hm, rfl⟩
  · exact h.apart_ids hpos' hsize hexact hnodup hl hr hbegun hne
  · intro e s' out hs hout m hm r hr hbegun hover hne
    obtain ⟨out', hsent, hwhat⟩ := Handling.step_sent hs
    have h₁ := Handling.answering_step rfl hnum h (s.cancels_any e) (s.loses_any e) hs
    obtain rfl : out = out'.map Outgoing.data := by
      rw [Handling.messages, hsent, List.map_append] at hout
      exact (List.append_cancel_left hout).symm
    obtain ⟨m, hm', rfl⟩ := List.mem_map.mp hm
    rw [Handling.messages, h.forId_eq hnodup (fun _ hm => hm) hr] at hover
    obtain ⟨hd, hwhat⟩ := hwhat m hm'
    have hhand := h.inHand hpos' hsize hexact hd hr (h.begun hnodup (fun _ hm => hm) hr hbegun) hover
    rcases hwhat with ⟨r', hhand', horigin⟩ | ⟨r', hr', rfl⟩
    · obtain rfl : r = r' := Option.some.inj (hhand.symm.trans hhand')
      have hknown : m.request ∈ s'.accepted :=
        h₁.books.known m (by rw [hsent]; exact List.mem_append_right _ hm')
      have hmem : r ∈ s'.accepted := by
        cases Handling.steps_of_step hs with
        | accepted => exact List.mem_append_left _ hr
        | dropped | cancel | refused | gone | exits | returns | serves => exact hr
      exact absurd (congrArg ServeRequest.id (h₁.books.eq_of_origin hknown hmem horigin)) hne
    · exact ⟨r', hr', rfl⟩
  · rw [Handling.messages, headerIds_eq]
    refine List.Sublist.trans ?_ hsub
    exact ((List.sublist_append_left _ _).trans h.order).map _

/-! ## A sample run -/

/-- Of three requests the second is cancelled in the queue, the first after its first chunk; the first
chunk for the third cannot be sent. -/
def cancelledBetween : List HandlingEvent :=
  [.serveRequest 7, .serveRequest 8, .serveRequest 9, .serve true, .serve true, .serve true, .serve true,
    .cancelRequest 8 true, .cancelRequest 7 true, .serve true, .serve true, .serve true, .serve false]

theorem responses_in_order_cancelledBetween :
    (handlingAfter cancelledBetween).messages.map ClientData.requestId = [7, 7, 8, 7, 9] ∧
    Follows 2 threeBytes threeBytesInfo ⟨0, 7⟩ (forId 7 (handlingAfter cancelledBetween).messages) ∧
    Follows 2 threeBytes threeBytesInfo ⟨1, 8⟩ (forId 8 (handlingAfter cancelledBetween).messages) ∧
    Follows 2 threeBytes threeBytesInfo ⟨2, 9⟩ (forId 9 (handlingAfter cancelledBetween).messages) ∧
    ((handlingAfter cancelledBetween).messages.filterMap ClientData.headerId).Sublist [7, 8, 9] := by
  have hrun : (handling threeBytes threeBytesInfo 2).run (.init threeBytes threeBytesInfo)
      cancelledBetween = some (handlingAfter cancelledBetween) := rfl
  obtain ⟨hfollows, -, -, -, horder⟩ :=
    responses_in_order (by decide) (by decide) rfl hrun (by decide)
  exact ⟨by decide, hfollows ⟨0, 7⟩ (by decide), hfollows ⟨1, 8⟩ (by decide),
    hfollows ⟨2, 9⟩ (by decide), horder⟩

end Loon
