import Mathlib.Data.List.Nodup
import Loon.Lib.Chunking
import Loon.Client.RequestHandler

set_option autoImplicit false

/-!
# Responses of the request handler

What a request handler sends about each of its requests, whatever the other threads do between two
steps of the serve thread. The stream of the source may hold more than the announced size; the
chunks go by the stream.

* `responseUpTo`, `Cut`, `Settled`: the shapes of a response that is over;
* `Broken`, `Ended`: what is left of it if a send fails;
* `Apart`: between a header and the end of its response, nothing but the close of a request of which
  nothing was sent;
* `Books`: the accepted requests against what was sent;
* `RequestHandler.serve_cases`: a step of the serve thread whose send fails;
* `ServePoint.Trail`: what was sent of the response at each point of `serve`;
* `Answering`: the invariant of the handler, with one rule for each of its methods.
-/

namespace Loon

open Chunking

/-! ## Shapes of responses -/

/-- The request a message is about. -/
def Outgoing.request (m : Outgoing) : ServeRequest := ⟨m.origin, m.data.requestId⟩

/-- The request whose response the message begins. -/
def Outgoing.begins (m : Outgoing) : Option ServeRequest :=
  match m.data with
  | .contentHeader _ => some m.request
  | _ => none

/-- The requests whose headers were sent, in the order of the headers. -/
def headersOf (sent : List Outgoing) : List ServeRequest := sent.filterMap Outgoing.begins

section Shapes

variable (C : ℕ) (source : ContentSource) (info : ContentInfo) (r : ServeRequest)

/-- The header and the first `k` chunks of the response to `r`. -/
def responseUpTo (k : ℕ) : List ClientData :=
  .contentHeader ((newRequestHandler source info).contentHeader r) ::
    (List.range k).map fun i =>
      .contentChunk ⟨r.id, .ofNat i, (source.data.drop (i * C)).take C⟩

/-- The header and all chunks. -/
def response : List ClientData := responseUpTo C source info r ((source.size.toNat + C - 1) / C)

/-- The number of bytes in the first `k` chunks. -/
def ContentSource.supplied (k : ℕ) : ℕ := min (k * C) source.data.length

/-- The number of chunks in the stream. -/
def ContentSource.chunks : ℕ := pieces C source.data.length

/-- The response to `r` after a cancellation: closed before the header or after some chunks, unless
these have the announced size. -/
def Cut (l : List ClientData) : Prop :=
  l = [.closeResponse ⟨r.id⟩] ∨
  (∃ k ≤ source.chunks C, l = responseUpTo C source info r k ++ [.closeResponse ⟨r.id⟩] ∧
    (0 < k → source.supplied C k ≠ source.size.toNat)) ∨
  ∃ k ≤ source.chunks C, l = responseUpTo C source info r k ∧
    source.supplied C k = source.size.toNat

/-- The response to `r` is over; `cancelled` if the request may have been cancelled. -/
def Settled (cancelled : Prop) (l : List ClientData) : Prop :=
  l = responseUpTo C source info r (source.chunks C) ∨ cancelled ∧ Cut C source info r l

/-- What was sent of a response when a send failed: nothing, or its beginning. In the latter case the
handler is `dead`: its serve thread has returned. -/
def Broken (dead : Prop) (l : List ClientData) : Prop :=
  l = [] ∨ dead ∧ ∃ k ≤ source.chunks C, l = responseUpTo C source info r k

/-- The response to `r` is over, or a send for it has failed, if it may have been `lost`. -/
def Ended (cancelled lost dead : Prop) (l : List ClientData) : Prop :=
  Settled C source info r cancelled l ∨ lost ∧ Broken C source info r dead l

/-- Nothing is sent between a header and the end of its response but the close of a request of which
nothing was sent. -/
def Apart (sent : List Outgoing) : Prop :=
  ∀ l m l', sent = l ++ m :: l' → ∀ x ∈ l, ∀ r, x.begins = some r → r.origin ≠ m.origin →
    Settled C source info r True (about r.origin l) ∨
    m.data = .closeResponse ⟨m.data.requestId⟩ ∧ about m.origin l = []

end Shapes

section Books

variable {C : ℕ} {source : ContentSource} {info : ContentInfo} {r r' : ServeRequest}
  {l : List ClientData} {sent : List Outgoing} {m : Outgoing}

theorem Settled.mono {c c' : Prop} (hc : c → c') (h : Settled C source info r c l) :
    Settled C source info r c' l := h.imp_right (And.imp_left hc)

theorem Ended.mono {c b d d' : Prop} (hd : d → d') (h : Ended C source info r c b d l) :
    Ended C source info r c b d' l :=
  h.imp_right fun ⟨hb, hl⟩ => ⟨hb, hl.imp_right fun ⟨hd', hk⟩ => ⟨hd hd', hk⟩⟩

theorem Ended.settled {c b d : Prop} (hb : ¬ b) (h : Ended C source info r c b d l) :
    Settled C source info r c l := h.resolve_right fun hl => hb hl.1

theorem responseUpTo_succ (k : ℕ) : responseUpTo C source info r (k + 1) =
    responseUpTo C source info r k ++
      [.contentChunk ⟨r.id, .ofNat k, (source.data.drop (k * C)).take C⟩] := by
  unfold responseUpTo
  rw [List.range_succ, List.map_append, List.cons_append]
  rfl

theorem responseUpTo_prefix {k n : ℕ} (h : k ≤ n) :
    responseUpTo C source info r k <+: responseUpTo C source info r n := by
  obtain ⟨d, rfl⟩ := Nat.exists_eq_add_of_le h
  rw [responseUpTo, responseUpTo, List.range_add, List.map_append, ← List.cons_append]
  exact List.prefix_append _ _

/-- A message about another request changes nothing. -/
theorem about_send (h : m.origin ≠ r.origin) :
    about r.origin (sent ++ [m]) = about r.origin sent := by
  rw [about_append, about_cons_ne h, about_nil, List.append_nil]

theorem about_send_self (h : m.origin = r.origin) :
    about r.origin (sent ++ [m]) = about r.origin sent ++ [m.data] := by
  rw [about_append, about_cons_self h, about_nil]

theorem about_eq_nil {p : ℕ} {l : List Outgoing} (h : ∀ m ∈ l, m.origin ≠ p) : about p l = [] := by
  unfold about
  rw [List.map_eq_nil_iff, List.filter_eq_nil_iff]
  intro m hm
  rw [decide_eq_true_eq]
  exact h m hm

theorem about_ne_nil (hm : m ∈ sent) : about m.origin sent ≠ [] := by
  have hmem : m.data ∈ about m.origin sent :=
    List.mem_map.mpr ⟨m, List.mem_filter.mpr ⟨hm, by simp⟩, rfl⟩
  exact List.ne_nil_of_mem hmem

theorem Outgoing.begins_eq {x : Outgoing} (h : x.begins = some r) : x.request = r := by
  unfold Outgoing.begins at h
  split at h <;> cases h
  rfl

/-- The last message of a list is one of its parts. -/
theorem Apart.snoc (h : Apart C source info sent)
    (hm : ∀ x ∈ sent, ∀ r, x.begins = some r → r.origin ≠ m.origin →
      Settled C source info r True (about r.origin sent) ∨
      m.data = .closeResponse ⟨m.data.requestId⟩ ∧ about m.origin sent = []) :
    Apart C source info (sent ++ [m]) := by
  intro l m' l' heq
  rcases List.eq_nil_or_concat l' with rfl | ⟨l', y, rfl⟩
  · obtain ⟨rfl, h1⟩ := List.append_inj' heq rfl
    obtain rfl : m = m' := by simpa using h1
    exact hm
  · rw [List.concat_eq_append, ← List.cons_append, ← List.append_assoc] at heq
    exact h l m' l' (List.append_inj' heq rfl).1

variable (C source info) in
/-- **The books**: which of the accepted requests wait, and what was sent of the others; `q` are the
requests that may have been cancelled, and `lost` those for which a send may have failed. -/
structure Books (q lost : ServeRequest → Prop) (dead : Prop) (accepted : List ServeRequest)
    (sent : List Outgoing) (hand : Option ServeRequest) (pending : List ServeRequest) : Prop where
  distinct : (accepted.map ServeRequest.origin).Nodup
  opens : (hand.toList ++ pending).Sublist accepted
  known : ∀ m ∈ sent, m.request ∈ accepted
  fresh : ∀ r ∈ pending, about r.origin sent = []
  ended : ∀ r ∈ accepted, r ∉ hand.toList ++ pending →
    Ended C source info r (q r) (lost r) dead (about r.origin sent)
  apart : Apart C source info sent

namespace Books

variable {q lost : ServeRequest → Prop} {dead dead' : Prop} {accepted pending a b : List ServeRequest}
  {hand : Option ServeRequest}

theorem init : Books C source info q lost dead [] [] none [] := by
  refine ⟨List.nodup_nil, .slnil, ?_, ?_, ?_, ?_⟩
  · rintro m ⟨⟩
  · rintro r ⟨⟩
  · rintro r ⟨⟩
  · intro l m l' h
    cases l <;> cases h

theorem mono (h : Books C source info q lost dead accepted sent hand pending) (hd : dead → dead') :
    Books C source info q lost dead' accepted sent hand pending :=
  ⟨h.distinct, h.opens, h.known, h.fresh, fun r hr hopen => (h.ended r hr hopen).mono hd, h.apart⟩

theorem nodup (h : Books C source info q lost dead accepted sent hand pending) : accepted.Nodup :=
  List.Nodup.of_map ServeRequest.origin h.distinct

theorem eq_of_origin (h : Books C source info q lost dead accepted sent hand pending) (hr : r ∈ accepted)
    (hr' : r' ∈ accepted) (he : r.origin = r'.origin) : r = r' :=
  List.inj_on_of_nodup_map h.distinct hr hr' he

theorem mem_hand (h : Books C source info q lost dead accepted sent (some r) pending) : r ∈ accepted :=
  h.opens.subset (by simp)

theorem mem_pending (h : Books C source info q lost dead accepted sent hand pending) (hr : r ∈ pending) :
    r ∈ accepted := h.opens.subset (List.mem_append_right _ hr)

/-- The request in hand does not wait. -/
theorem notMem (h : Books C source info q lost dead accepted sent (some r) pending) : r ∉ pending :=
  (List.nodup_cons.mp (h.nodup.sublist h.opens)).1

/-- Of a request that was not accepted yet nothing was sent. -/
theorem about_new (h : Books C source info q lost dead accepted sent hand pending)
    (hr : ∀ r' ∈ accepted, r'.origin ≠ r.origin) : about r.origin sent = [] :=
  about_eq_nil fun m hm => hr _ (h.known m hm)

theorem distinct_concat (h : Books C source info q lost dead accepted sent hand pending)
    (hr : ∀ r' ∈ accepted, r'.origin ≠ r.origin) :
    ((accepted ++ [r]).map ServeRequest.origin).Nodup := by
  rw [List.map_append, List.nodup_append]
  refine ⟨h.distinct, List.nodup_singleton _, fun p hp p' hp' => ?_⟩
  obtain ⟨r', hr', rfl⟩ := List.mem_map.mp hp
  rw [List.map_singleton, List.mem_singleton] at hp'
  rw [hp']
  exact hr r' hr'

/-- `serve_request`. -/
theorem accept (h : Books C source info q lost dead accepted sent hand pending)
    (hr : ∀ r' ∈ accepted, r'.origin ≠ r.origin) :
    Books C source info q lost dead (accepted ++ [r]) sent hand (pending ++ [r]) := by
  refine ⟨h.distinct_concat hr, ?_, fun m hm => List.mem_append_left _ (h.known m hm),
    fun r' hr' => ?_, fun r' hr' hopen => ?_, h.apart⟩
  · rw [← List.append_assoc]
    exact h.opens.append (.refl _)
  · rcases List.mem_append.mp hr' with hr' | hr'
    · exact h.fresh r' hr'
    · rw [List.mem_singleton.mp hr']
      exact h.about_new hr
  · rcases List.mem_append.mp hr' with hr' | hr'
    · refine h.ended r' hr' fun hmem => hopen ?_
      rw [← List.append_assoc]
      exact List.mem_append_left _ hmem
    · rw [List.mem_singleton.mp hr'] at hopen
      exact absurd (List.mem_append_right _ (List.mem_append_right _ (List.mem_singleton_self r)))
        hopen

/-- `serve_request` once the serve thread has returned. -/
theorem drop (h : Books C source info q lost dead accepted sent hand pending)
    (hr : ∀ r' ∈ accepted, r'.origin ≠ r.origin) (hl : lost r) :
    Books C source info q lost dead (accepted ++ [r]) sent hand pending := by
  refine ⟨h.distinct_concat hr, h.opens.trans (List.sublist_append_left _ _),
    fun m hm => List.mem_append_left _ (h.known m hm), h.fresh, fun r' hr' hopen => ?_, h.apart⟩
  rcases List.mem_append.mp hr' with hr' | hr'
  · exact h.ended r' hr' hopen
  · rw [List.mem_singleton.mp hr', h.about_new hr]
    exact .inr ⟨hl, .inl rfl⟩

/-- The serve thread takes the next request. -/
theorem take (h : Books C source info q lost dead accepted sent none (r :: pending)) :
    Books C source info q lost dead accepted sent (some r) pending :=
  ⟨h.distinct, h.opens, h.known, fun r' hr' => h.fresh r' (List.mem_cons_of_mem r hr'), h.ended,
    h.apart⟩

/-- While the serve thread runs, a header in the log is that of a request that is over, or of the
one in hand. -/
theorem settled_of_begins (h : Books C source info q lost dead accepted sent hand pending)
    (hd : ¬ dead) {x : Outgoing} (hx : x ∈ sent) (hb : x.begins = some r) (hr : r ∉ hand.toList) :
    Settled C source info r True (about r.origin sent) := by
  obtain rfl := Outgoing.begins_eq hb
  have hended : Ended C source info x.request (q x.request) (lost x.request) dead
      (about x.request.origin sent) := by
    refine h.ended _ (h.known x hx) fun hmem => ?_
    rcases List.mem_append.mp hmem with hmem | hmem
    · exact hr hmem
    · exact about_ne_nil hx (h.fresh _ hmem)
  refine (hended.resolve_right ?_).mono fun _ => trivial
  rintro ⟨-, hnil | ⟨hdead, -⟩⟩
  · exact about_ne_nil hx hnil
  · exact hd hdead

/-- A message about the request in hand. -/
theorem send (h : Books C source info q lost dead accepted sent (some r) pending) (hd : ¬ dead)
    (hm : m.request = r) :
    Books C source info q lost dead accepted (sent ++ [m]) (some r) pending := by
  have horigin : m.origin = r.origin := congrArg ServeRequest.origin hm
  have hne : ∀ r' ∈ accepted, r' ≠ r → m.origin ≠ r'.origin := by
    intro r' hr' hne he
    exact hne (h.eq_of_origin hr' h.mem_hand (he.symm.trans horigin))
  refine ⟨h.distinct, h.opens, fun m' hm' => ?_, fun r' hr' => ?_, fun r' hr' hopen => ?_,
    h.apart.snoc fun x hx r' hb hr' => .inl (h.settled_of_begins hd hx hb ?_)⟩
  · rcases List.mem_append.mp hm' with hm' | hm'
    · exact h.known m' hm'
    · rw [List.mem_singleton.mp hm', hm]
      exact h.mem_hand
  · rw [about_send (hne r' (h.mem_pending hr') ?_)]
    · exact h.fresh r' hr'
    · rintro rfl
      exact h.notMem hr'
  · rw [about_send (hne r' hr' ?_)]
    · exact h.ended r' hr' hopen
    · rintro rfl
      exact hopen (by simp)
  · intro hmem
    obtain rfl : r' = r := by simpa using hmem
    exact hr' horigin.symm

/-- The response in hand is over. -/
theorem conclude (h : Books C source info q lost dead accepted sent (some r) pending)
    (hr : Ended C source info r (q r) (lost r) dead (about r.origin sent)) :
    Books C source info q lost dead accepted sent none pending := by
  refine ⟨h.distinct, (List.sublist_cons_self r pending).trans h.opens, h.known, h.fresh,
    fun r' hr' hopen => ?_, h.apart⟩
  by_cases he : r' = r
  · rw [he]
    exact hr
  · refine h.ended r' hr' fun hmem => hopen ?_
    simpa [he] using hmem

/-- A request that waits is taken out of the queue, with what is sent about it. -/
theorem remove (h : Books C source info q lost dead accepted sent hand (a ++ r :: b))
    {out : List Outgoing}
    (hknown : ∀ m ∈ out, m.request ∈ accepted)
    (hout : ∀ r' ∈ accepted, r' ≠ r → about r'.origin (sent ++ out) = about r'.origin sent)
    (hended : Ended C source info r (q r) (lost r) dead (about r.origin (sent ++ out)))
    (hapart : Apart C source info (sent ++ out)) :
    Books C source info q lost dead accepted (sent ++ out) hand (a ++ b) := by
  have hsub : (a ++ b).Sublist (a ++ r :: b) := (List.sublist_cons_self r b).append_left a
  have hnot : r ∉ hand.toList ++ (a ++ b) := by
    have hnodup := h.nodup.sublist h.opens
    rw [← List.append_assoc] at hnodup ⊢
    exact (List.nodup_middle.mp hnodup).notMem
  refine ⟨h.distinct, (hsub.append_left _).trans h.opens, fun m' hm' => ?_, fun r' hr' => ?_,
    fun r' hr' hopen => ?_, hapart⟩
  · exact (List.mem_append.mp hm').elim (h.known m') (hknown m')
  · have hr'' := hsub.subset hr'
    have hne : r' ≠ r := by
      rintro rfl
      exact hnot (List.mem_append_right _ hr')
    rw [hout r' (h.mem_pending hr'') hne]
    exact h.fresh r' hr''
  · by_cases he : r' = r
    · rw [he]
      exact hended
    · rw [hout r' hr' he]
      refine h.ended r' hr' fun hopen' => hopen ?_
      simpa [he] using hopen'

/-- A request that waits is closed, if that can be sent. -/
theorem close (h : Books C source info q lost dead accepted sent hand (a ++ r :: b)) (hq : q r)
    (ok : Bool) (hl : ok = false → lost r) :
    Books C source info q lost dead accepted
      (sent ++ delivered ok [⟨r.origin, .closeResponse ⟨r.id⟩⟩]) hand (a ++ b) := by
  have hmem : r ∈ a ++ r :: b := by simp
  have hnil := h.fresh r hmem
  cases ok with
  | true =>
      refine h.remove (fun m hm => ?_) (fun r' hr' hne => about_send fun he => ?_) ?_
        (h.apart.snoc fun _ _ _ _ _ => .inr ⟨rfl, hnil⟩)
      · rw [List.mem_singleton.mp hm]
        exact h.mem_pending hmem
      · exact hne (h.eq_of_origin hr' (h.mem_pending hmem) he.symm)
      · rw [delivered_true, about_send_self rfl, hnil]
        exact .inl (.inr ⟨hq, .inl rfl⟩)
  | false =>
      refine h.remove (by rintro m ⟨⟩) (fun r' _ _ => by rw [delivered_false, List.append_nil]) ?_ ?_
      · rw [delivered_false, List.append_nil, hnil]
        exact .inr ⟨hl rfl, .inl rfl⟩
      · rw [delivered_false, List.append_nil]
        exact h.apart

end Books

end Books

/-! ## The handler -/

/-- The request the handler works on and those that wait. -/
def RequestHandler.openRequests (h : RequestHandler) : List ServeRequest :=
  h.point.request.toList ++ h.pendingRequests

theorem RequestHandler.mem_openRequests {h : RequestHandler} {r : ServeRequest} :
    r ∈ h.openRequests ↔ h.point.request = some r ∨ r ∈ h.pendingRequests := by
  rw [openRequests, List.mem_append, Option.mem_toList]

theorem RequestHandler.isDone_of_request {h : RequestHandler} {r : ServeRequest}
    (hr : h.point.request = some r) : h.isDone = false := by
  rw [isDone, decide_eq_false_iff_not]
  intro hd
  rw [hd] at hr
  cases hr

/-- The requests that wait for their header. -/
def RequestHandler.unheaded (h : RequestHandler) : List ServeRequest :=
  match h.point with
  | .header r => r :: h.pendingRequests
  | _ => h.pendingRequests

theorem RequestHandler.serveRequest_point {h : RequestHandler} {r : ServeRequest} :
    (h.serveRequest r).point = h.point := by
  unfold serveRequest
  split <;> rfl

/-- What `cancel_request` does: nothing, or it marks the request in hand, or it closes one that
waits. -/
theorem RequestHandler.cancelRequest_cases (h : RequestHandler) (id : UInt64) :
    (h.cancelRequest id = (h, []) ∧ (h.isDone = true ∨
      h.handlingRequestId ≠ some id ∧ ∀ r ∈ h.pendingRequests, r.id ≠ id)) ∨
    (h.isDone = false ∧ h.handlingRequestId = some id ∧
      h.cancelRequest id = ({ h with cancelHandlingRequest := true }, [])) ∨
    (h.isDone = false ∧ h.handlingRequestId ≠ some id ∧ ∃ r a b,
      h.pendingRequests = a ++ r :: b ∧ r.id = id ∧
      h.cancelRequest id =
        ({ h with pendingRequests := a ++ b }, [⟨r.origin, .closeResponse ⟨id⟩⟩])) := by
  unfold RequestHandler.cancelRequest
  split
  · rename_i hd
    exact .inl ⟨rfl, .inl hd⟩
  rename_i hd
  have hd : h.isDone = false := by simpa using hd
  split
  · rename_i hid
    exact .inr (.inl ⟨hd, hid, rfl⟩)
  rename_i hid
  split
  · rename_i hfind
    refine .inl ⟨rfl, .inr ⟨hid, fun r hr => ?_⟩⟩
    simpa using List.find?_eq_none.mp hfind r hr
  · rename_i r hfind
    obtain ⟨hr, a, b, hab, hnot⟩ := List.find?_eq_some_iff_append.mp hfind
    have hne : ∀ r' ∈ a, ¬ (decide (r'.id = id)) = true := by
      intro r' hr'
      simpa using hnot r' hr'
    have hr : r.id = id := by simpa using hr
    refine .inr (.inr ⟨hd, hid, r, a, b, hab, hr, ?_⟩)
    rw [hab, List.eraseP_append_right _ hne]
    simp [hr]

/-! ### Sends that fail -/

section Fails

variable {h h₁ : RequestHandler} {r : ServeRequest} {chunkSize : UInt64} {ok : Bool}
  {out : List Outgoing}

theorem RequestHandler.closing_eq_nil (hc : h.cancelHandlingRequest = false) : h.closing r = [] := by
  unfold closing
  split
  · rw [hc]
    rfl
  · rfl

/-- At the top of the loop nothing has to be sent, or it fails. -/
theorem RequestHandler.nextIteration_false :
    h.nextIteration r false = h.nextIteration r true ∧ (h.nextIteration r true).2 = [] ∨
    (h.nextIteration r false).2 ≠ [] ∧ h.cancelHandlingRequest = true ∧
      (h.nextIteration r false).1 = h.leave := by
  unfold nextIteration
  by_cases hclose : h.closing r = []
  · left
    simp [hclose]
  · right
    refine ⟨hclose, ?_, by simp [hclose]⟩
    by_contra hc
    exact hclose (closing_eq_nil (by simpa using hc))

theorem RequestHandler.finish_false (total : ℕ) :
    h.finish r total false = h.finish r total true ∧ (h.finish r total true).2 = [] ∨
    (h.finish r total false).2 ≠ [] ∧ h.cancelHandlingRequest = true ∧
      (h.finish r total false).1 = h.leave := by
  unfold finish
  split
  · have hclose : { h with cancelHandlingRequest := false }.closing r = [] := closing_eq_nil rfl
    left
    simp [nextIteration, hclose]
  · exact h.nextIteration_false

/-- **A step of the serve thread** does what it does if its send succeeds, or its send has failed
and it returns. -/
theorem RequestHandler.serve_cases (hs : h.serve chunkSize ok = some (h₁, out)) :
    h.serve chunkSize true = some (h₁, out) ∧ delivered ok out = out ∨
    ok = false ∧ out ≠ [] ∧ h₁ = h.leave ∧ ∃ r, h.point.request = some r ∧
      (h.point.sends = true ∨ h.point.late = false ∧ h.cancelHandlingRequest = true ∨
        h.point.reported = some r ∧ h.cancelHandlingRequest = true) := by
  cases ok with
  | true => exact .inl ⟨hs, rfl⟩
  | false =>
      unfold serve at hs ⊢
      cases hp : h.point with
      | waiting =>
          simp only [hp] at hs ⊢
          split at hs <;> cases hs
          rename_i hwake
          exact .inl ⟨if_pos hwake, rfl⟩
      | header r =>
          simp only [hp] at hs
          cases hs
          exact .inr ⟨rfl, List.cons_ne_nil _ _, rfl, r, rfl, .inl rfl⟩
      | headerSent r =>
          simp only [hp] at hs ⊢
          split at hs
          · rename_i hc
            have hs := Option.some.inj hs
            rcases h.nextIteration_false (r := r) with ⟨heq, hclose⟩ | ⟨hclose, -, hleave⟩
            · left
              rw [← heq, hs] at hclose
              rw [if_pos hc, ← heq, hs, show out = [] from hclose]
              exact ⟨rfl, rfl⟩
            · rw [hs] at hclose hleave
              exact .inr ⟨trivial, hclose, hleave, r, rfl, .inr (.inl ⟨rfl, hc⟩)⟩
          · rename_i hc
            left
            split at hs <;> cases hs
            · rename_i hstop
              rw [if_neg hc, if_pos hstop]
              exact ⟨rfl, rfl⟩
            · rename_i hstop
              rw [if_neg hc, if_neg hstop]
              exact ⟨rfl, rfl⟩
      | chunk r sequence total data stream =>
          simp only [hp] at hs
          cases hs
          exact .inr ⟨rfl, List.cons_ne_nil _ _, rfl, r, rfl, .inl rfl⟩
      | chunkSent r sequence total stream =>
          simp only [hp] at hs ⊢
          split at hs
          · rename_i hc
            have hs := Option.some.inj hs
            rcases h.finish_false (r := r) total with ⟨heq, hclose⟩ | ⟨hclose, -, hleave⟩
            · left
              rw [← heq, hs] at hclose
              rw [if_pos hc, ← heq, hs, show out = [] from hclose]
              exact ⟨rfl, rfl⟩
            · rw [hs] at hclose hleave
              exact .inr ⟨trivial, hclose, hleave, r, rfl, .inr (.inl ⟨rfl, hc⟩)⟩
          · rename_i hc
            left
            split at hs <;> cases hs
            · rename_i hstop
              rw [if_neg hc, if_pos hstop]
              exact ⟨rfl, rfl⟩
            · rename_i hstop
              rw [if_neg hc, if_neg hstop]
              exact ⟨rfl, rfl⟩
      | callback r total =>
          simp only [hp] at hs ⊢
          cases hs
          exact .inl ⟨rfl, rfl⟩
      | called r total =>
          simp only [hp] at hs ⊢
          have hs := Option.some.inj hs
          rcases h.finish_false (r := r) total with ⟨heq, hclose⟩ | ⟨hclose, hc, hleave⟩
          · left
            rw [← heq, hs] at hclose
            rw [← heq, hs, show out = [] from hclose]
            exact ⟨rfl, rfl⟩
          · rw [hs] at hclose hleave
            exact .inr ⟨trivial, hclose, hleave, r, rfl, .inr (.inr ⟨rfl, hc⟩)⟩
      | done =>
          simp only [hp] at hs
          cases hs

end Fails

section Answering

variable (C : ℕ) (source : ContentSource) (info : ContentInfo)

/-- What was sent of the response to the request in hand. -/
def ServePoint.Trail (l : List ClientData) : ServePoint → Prop
  | .header _ => l = []
  | .headerSent r => l = responseUpTo C source info r 0
  | .chunk r sequence total data stream => ∃ k < source.chunks C, sequence = .ofNat k ∧
      total = k * C ∧ data = (source.data.drop (k * C)).take C ∧
      stream = source.data.drop ((k + 1) * C) ∧ l = responseUpTo C source info r k
  | .chunkSent r sequence total stream => ∃ k < source.chunks C, sequence = .ofNat (k + 1) ∧
      total = source.supplied C (k + 1) ∧ stream = source.data.drop ((k + 1) * C) ∧
      l = responseUpTo C source info r (k + 1)
  | .callback r total => total = source.supplied C (source.chunks C) ∧
      l = responseUpTo C source info r (source.chunks C)
  | .called r total => total = source.supplied C (source.chunks C) ∧
      l = responseUpTo C source info r (source.chunks C)
  | _ => True

/-- **The invariant of a handler** that accepted `accepted` and sent `sent`. -/
structure Answering (q lost : ServeRequest → Prop) (accepted : List ServeRequest)
    (sent : List Outgoing) (h : RequestHandler) : Prop where
  hasSource : h.source = source
  hasInfo : h.info = info
  handling : h.handlingRequestId = h.point.request.map ServeRequest.id
  stop : h.stop = true → h.point.request.isSome = true → h.cancelHandlingRequest = true
  cancelled : ∀ r, h.point.request = some r → h.cancelHandlingRequest = true → q r
  idle : h.point = .waiting → h.cancelHandlingRequest = false
  books : Books C source info q lost (h.isDone = true) accepted sent h.point.request h.pendingRequests
  order : (headersOf sent ++ h.unheaded).Sublist accepted
  progress : ∀ r, h.point.request = some r →
    h.point.Trail C source info (about r.origin sent)

variable {C source info} {q lost : ServeRequest → Prop} {accepted : List ServeRequest}
  {sent : List Outgoing} {h : RequestHandler} {r : ServeRequest}

/-- At every point the chunks sent are the first ones of the stream. -/
theorem ServePoint.Trail.upTo {p : ServePoint} {l : List ClientData}
    (h : p.Trail C source info l) (hr : p.request = some r) :
    l = [] ∨ ∃ k ≤ source.chunks C, l = responseUpTo C source info r k := by
  cases p with
  | waiting | done => cases hr
  | header =>
      cases hr
      exact .inl h
  | headerSent =>
      cases hr
      exact .inr ⟨0, Nat.zero_le _, h⟩
  | chunk =>
      cases hr
      obtain ⟨k, hk, -, -, -, -, hl⟩ := h
      exact .inr ⟨k, hk.le, hl⟩
  | chunkSent =>
      cases hr
      obtain ⟨k, hk, -, -, -, hl⟩ := h
      exact .inr ⟨k + 1, hk, hl⟩
  | callback | called =>
      cases hr
      exact .inr ⟨_, le_rfl, h.2⟩

theorem headersOf_append (sent sent' : List Outgoing) :
    headersOf (sent ++ sent') = headersOf sent ++ headersOf sent' := List.filterMap_append

theorem headersOf_other {m : Outgoing} (hm : m.begins = none) :
    headersOf (sent ++ [m]) = headersOf sent := by
  rw [headersOf, List.filterMap_append, List.filterMap_cons_none hm, List.filterMap_nil,
    List.append_nil, headersOf]

theorem headersOf_header {m : Outgoing} (hm : m.begins = some r) :
    headersOf (sent ++ [m]) = headersOf sent ++ [r] := by
  rw [headersOf, List.filterMap_append, List.filterMap_cons_some hm, List.filterMap_nil, headersOf]

theorem RequestHandler.pending_sublist_unheaded (h : RequestHandler) :
    h.pendingRequests.Sublist h.unheaded := by
  unfold unheaded
  split
  · exact List.sublist_cons_self _ _
  · exact .refl _

/-- Away from a header only the requests in the queue wait for theirs. -/
theorem RequestHandler.unheaded_eq (hp : ∀ r, h.point ≠ .header r) :
    h.unheaded = h.pendingRequests := by
  unfold unheaded
  split
  · rename_i r hr
    exact absurd hr (hp r)
  · rfl

namespace Answering

/-- The wait for the next request. -/
theorem await (hs : h.source = source) (hi : h.info = info) (hn : h.handlingRequestId = none)
    (hc : h.cancelHandlingRequest = false)
    (hb : Books C source info q lost False accepted sent none h.pendingRequests)
    (ho : (headersOf sent ++ h.pendingRequests).Sublist accepted) :
    Answering C source info q lost accepted sent h.await := by
  unfold RequestHandler.await
  split
  · refine ⟨hs, hi, rfl, ?_, ?_, by rintro ⟨⟩, hb.mono False.elim, ho, ?_⟩
    · rintro - ⟨⟩
    · rintro _ ⟨⟩
    · rintro _ ⟨⟩
  · rename_i hstop
    split
    · refine ⟨hs, hi, hn, ?_, ?_, fun _ => hc, hb.mono False.elim, ho, ?_⟩
      · rintro - ⟨⟩
      · rintro _ ⟨⟩
      · rintro _ ⟨⟩
    · rename_i r rs hq
      rw [hq] at hb ho
      refine ⟨hs, hi, rfl, fun h' => absurd h' hstop, fun _ _ hc' => ?_, by rintro ⟨⟩,
        hb.take.mono False.elim, ho, ?_⟩
      · change h.cancelHandlingRequest = true at hc'
        rw [hc] at hc'
        cases hc'
      · rintro _ ⟨⟩
        exact hb.fresh r List.mem_cons_self

theorem pending_order (h' : Answering C source info q lost accepted sent h) :
    (headersOf sent ++ h.pendingRequests).Sublist accepted :=
  (h.pending_sublist_unheaded.append_left _).trans h'.order

theorem request_books (h' : Answering C source info q lost accepted sent h)
    (hr : h.point.request = some r) :
    Books C source info q lost False accepted sent (some r) h.pendingRequests := by
  have hbooks := h'.books
  rw [hr] at hbooks
  refine hbooks.mono fun hd => ?_
  rw [RequestHandler.isDone_of_request hr] at hd
  cases hd

/-- The top of the loop, with the flag `c`: the response in hand is closed, or it was over. -/
theorem nextIteration (h' : Answering C source info q lost accepted sent h)
    (hr : h.point.request = some r) {c : Bool}
    (hend : Settled C source info r (q r)
      (about r.origin sent ++ if c then [.closeResponse ⟨r.id⟩] else [])) :
    Answering C source info q lost accepted
      (sent ++ ({ h with cancelHandlingRequest := c }.nextIteration r true).2)
      ({ h with cancelHandlingRequest := c }.nextIteration r true).1 := by
  have hid : h.handlingRequestId = some r.id := by
    rw [h'.handling, hr]
    rfl
  have hbooks := h'.request_books hr
  unfold RequestHandler.nextIteration RequestHandler.closing
  simp only [hid, true_or, if_true]
  cases c with
  | true =>
      simp only [if_true] at hend ⊢
      rw [← about_send_self (m := ⟨r.origin, .closeResponse ⟨r.id⟩⟩) rfl] at hend
      refine await h'.hasSource h'.hasInfo rfl rfl ((hbooks.send id rfl).conclude (.inl hend)) ?_
      rw [headersOf_other rfl]
      exact h'.pending_order
  | false =>
      simp only [Bool.false_eq_true, if_false, List.append_nil] at hend ⊢
      exact await h'.hasSource h'.hasInfo rfl rfl (hbooks.conclude (.inl hend)) h'.pending_order

/-- The serve thread gives up the request in hand, since a send has failed. -/
theorem leave (h' : Answering C source info q lost accepted sent h) (hr : h.point.request = some r)
    (hl : lost r) : Answering C source info q lost accepted sent h.leave := by
  have hbroken : Broken C source info r True (about r.origin sent) :=
    ((h'.progress r hr).upTo hr).imp_right fun hk => ⟨trivial, hk⟩
  refine ⟨h'.hasSource, h'.hasInfo, rfl, ?_, ?_, by rintro ⟨⟩, ?_, h'.pending_order, ?_⟩
  · rintro - ⟨⟩
  · rintro _ ⟨⟩
  · exact (((h'.request_books hr).mono fun _ => trivial).conclude (.inr ⟨hl, hbroken⟩)).mono fun _ => rfl
  · rintro _ ⟨⟩

/-- The serve thread goes on with the request in hand, with what it has sent meanwhile. -/
theorem proceed (h' : Answering C source info q lost accepted sent h) (hr : h.point.request = some r)
    {point : ServePoint} {sent' : List Outgoing} (hr' : point.request = some r)
    (hh : ∀ r, point ≠ .header r)
    (hb : Books C source info q lost False accepted sent' (some r) h.pendingRequests)
    (ho : (headersOf sent' ++ h.pendingRequests).Sublist accepted)
    (hp : point.Trail C source info (about r.origin sent')) :
    Answering C source info q lost accepted sent' { h with point := point } := by
  refine ⟨h'.hasSource, h'.hasInfo, ?_, fun hstop _ => ?_, fun r₁ hr₁ => ?_, fun hn => ?_,
    ?_, ?_, fun r₁ hr₁ => ?_⟩
  · change h.handlingRequestId = point.request.map _
    rw [h'.handling, hr, hr']
  · exact h'.stop hstop (by rw [hr]; rfl)
  · refine h'.cancelled r₁ ?_
    rw [hr, ← hr']
    exact hr₁
  · change point = .waiting at hn
    rw [hn] at hr'
    cases hr'
  · change Books C source info q lost _ accepted _ point.request h.pendingRequests
    rw [hr']
    exact hb.mono False.elim
  · rw [RequestHandler.unheaded_eq (h := { h with point := point }) hh]
    exact ho
  · change point.request = some r₁ at hr₁
    rw [hr'] at hr₁
    cases hr₁
    exact hp

/-- It only moves. -/
theorem move (h' : Answering C source info q lost accepted sent h) (hr : h.point.request = some r)
    {point : ServePoint} (hr' : point.request = some r) (hh : ∀ r, point ≠ .header r)
    (hp : point.Trail C source info (about r.origin sent)) :
    Answering C source info q lost accepted sent { h with point := point } :=
  h'.proceed hr hr' hh (h'.request_books hr) h'.pending_order hp

/-- It sends a message of the response. -/
theorem send (h' : Answering C source info q lost accepted sent h) (hr : h.point.request = some r)
    {point : ServePoint} {d : ClientData} (hd : d.requestId = r.id) (hr' : point.request = some r)
    (hh : ∀ r, point ≠ .header r)
    (ho : (headersOf (sent ++ [⟨r.origin, d⟩]) ++ h.pendingRequests).Sublist accepted)
    (hp : point.Trail C source info (about r.origin sent ++ [d])) :
    Answering C source info q lost accepted (sent ++ [⟨r.origin, d⟩]) { h with point := point } := by
  refine h'.proceed hr hr' hh ((h'.request_books hr).send id ?_) ho ?_
  · rw [Outgoing.request, hd]
  · rw [about_send_self rfl]
    exact hp

/-- The end of an iteration with `k` chunks sent. -/
theorem finish (h' : Answering C source info q lost accepted sent h) (hr : h.point.request = some r)
    {k : ℕ} (hk : k ≤ source.chunks C)
    (hsent : about r.origin sent = responseUpTo C source info r k)
    (hend : h.cancelHandlingRequest = false → k = source.chunks C) :
    Answering C source info q lost accepted (sent ++ (h.finish r (source.supplied C k) true).2)
      (h.finish r (source.supplied C k) true).1 := by
  have hq := h'.cancelled r hr
  have hsize : h.source.size = source.size := by rw [h'.hasSource]
  unfold RequestHandler.finish
  rw [hsize]
  cases hc : h.cancelHandlingRequest with
  | false =>
      have hall := hend hc
      have hover : Settled C source info r (q r) (about r.origin sent ++ []) := by
        rw [List.append_nil, hsent, hall]
        exact .inl rfl
      split
      · exact h'.nextIteration hr (c := false) hover
      · have hsame : h = { h with cancelHandlingRequest := false } := by rw [← hc]
        rw [hsame]
        exact h'.nextIteration hr (c := false) hover
  | true =>
      split
      · rename_i htotal
        refine h'.nextIteration hr (c := false) ?_
        rw [hsent]
        exact .inr ⟨hq hc, .inr (.inr ⟨k, hk, List.append_nil _, htotal⟩)⟩
      · rename_i htotal
        have hsame : h = { h with cancelHandlingRequest := true } := by rw [← hc]
        rw [hsame]
        refine h'.nextIteration hr (c := true) ?_
        rw [hsent]
        exact .inr ⟨hq hc, .inr (.inl ⟨k, hk, rfl, fun _ => htotal⟩)⟩

variable {chunkSize : UInt64}

/-- The next chunk is read, or the stream is at its end. -/
theorem readChunk (hC : C = chunkSize.toNat) (h' : Answering C source info q lost accepted sent h)
    (hr : h.point.request = some r) {k : ℕ} (hk : k ≤ source.chunks C)
    (hsent : about r.origin sent = responseUpTo C source info r k) :
    Answering C source info q lost accepted sent
      (h.readChunk chunkSize r (.ofNat k) (source.supplied C k) (source.data.drop (k * C))) := by
  have hmore : k < source.chunks C ↔ (source.data.drop (k * C)).take C ≠ [] :=
    lt_pieces_iff_ne_nil
  unfold RequestHandler.readChunk
  rw [← hC]
  simp only
  split
  · rename_i hnil
    have hall : k = source.chunks C := by
      refine hk.eq_of_not_lt fun hlt => ?_
      exact hmore.mp hlt hnil
    refine h'.move hr rfl (by rintro _ ⟨⟩) ⟨?_, ?_⟩
    · rw [hall]
    · rw [hsent, hall]
  · rename_i hdata
    have hlt := hmore.mpr hdata
    have hoffset := (lt_pieces_iff (pos_of_lt_pieces hlt)).mp hlt
    refine h'.move hr rfl (by rintro _ ⟨⟩) ⟨k, hlt, rfl, ?_, rfl, ?_, hsent⟩
    · rw [ContentSource.supplied, min_eq_left hoffset.le]
    · rw [List.drop_drop, Nat.succ_mul]

/-- The request in hand and what was sent of its response. -/
theorem trail_at (h' : Answering C source info q lost accepted sent h) {p : ServePoint}
    (hp : h.point = p) (hr : p.request = some r) :
    h.point.request = some r ∧ p.Trail C source info (about r.origin sent) := by
  subst hp
  exact ⟨hr, h'.progress r hr⟩

/-- A step of the serve thread whose send, if there is one, succeeds. -/
theorem serve_true (hC : C = chunkSize.toNat) (h' : Answering C source info q lost accepted sent h)
    {h₁ : RequestHandler} {out : List Outgoing} (hs : h.serve chunkSize true = some (h₁, out)) :
    Answering C source info q lost accepted (sent ++ out) h₁ := by
  unfold RequestHandler.serve at hs
  cases hp : h.point with
  | waiting =>
      simp only [hp] at hs
      split at hs <;> cases hs
      have hbooks := h'.books
      have hhandling := h'.handling
      rw [hp] at hbooks hhandling
      rw [List.append_nil]
      refine await h'.hasSource h'.hasInfo hhandling (h'.idle hp) (hbooks.mono fun hd => ?_)
        h'.pending_order
      rw [RequestHandler.isDone, hp] at hd
      cases hd
  | header r =>
      obtain ⟨hr, htrail⟩ := h'.trail_at hp rfl
      have horder := h'.order
      simp only [hp] at hs
      cases hs
      refine h'.send hr rfl rfl (by rintro _ ⟨⟩) ?_ ?_
      · rw [headersOf_header (r := r) rfl, List.append_assoc]
        rwa [RequestHandler.unheaded, hp] at horder
      · rw [show about r.origin sent = [] from htrail]
        change _ = responseUpTo C source info r 0
        unfold RequestHandler.contentHeader
        rw [h'.hasSource, h'.hasInfo]
        rfl
  | headerSent r =>
      obtain ⟨hr, htrail⟩ := h'.trail_at hp rfl
      simp only [hp] at hs
      split at hs
      · rename_i hc
        have hsame : h = { h with cancelHandlingRequest := true } := by rw [← hc]
        have hnext := h'.nextIteration hr (c := true) ?_
        · rw [← hsame] at hnext
          rwa [Option.some.inj hs] at hnext
        · rw [show about r.origin sent = _ from htrail]
          refine .inr ⟨h'.cancelled r hr hc, .inr (.inl ⟨0, Nat.zero_le _, rfl, ?_⟩)⟩
          rintro ⟨⟩
      · rename_i hc
        split at hs
        · rename_i hstop
          exact absurd (h'.stop hstop (by rw [hr]; rfl)) hc
        · cases hs
          rw [List.append_nil, h'.hasSource]
          have hread := h'.readChunk hC hr (Nat.zero_le _) htrail
          rwa [ContentSource.supplied, Nat.zero_mul, Nat.zero_min, List.drop_zero] at hread
  | chunk r sequence total data stream =>
      obtain ⟨hr, htrail⟩ := h'.trail_at hp rfl
      obtain ⟨k, hlt, rfl, rfl, rfl, rfl, hsent⟩ := htrail
      simp only [hp] at hs
      cases hs
      refine h'.send hr rfl rfl (by rintro _ ⟨⟩) ?_ ⟨k, hlt, ?_, ?_, rfl, ?_⟩
      · rw [headersOf_other rfl]
        exact h'.pending_order
      · rw [UInt64.ofNat_add]
        rfl
      · have hmore := (lt_pieces_iff (pos_of_lt_pieces hlt)).mp hlt
        rw [List.length_take, List.length_drop, ContentSource.supplied, Nat.succ_mul]
        omega
      · rw [hsent, responseUpTo_succ]
  | chunkSent r sequence total stream =>
      obtain ⟨hr, htrail⟩ := h'.trail_at hp rfl
      obtain ⟨k, hlt, rfl, rfl, rfl, hsent⟩ := htrail
      simp only [hp] at hs
      split at hs
      · rename_i hc
        have hfin := h'.finish hr hlt hsent fun hc' => by
          rw [hc] at hc'
          cases hc'
        rwa [Option.some.inj hs] at hfin
      · rename_i hc
        split at hs
        · rename_i hstop
          exact absurd (h'.stop hstop (by rw [hr]; rfl)) hc
        · cases hs
          rw [List.append_nil]
          exact h'.readChunk hC hr hlt hsent
  | callback r total =>
      obtain ⟨hr, htrail⟩ := h'.trail_at hp rfl
      simp only [hp] at hs
      cases hs
      rw [List.append_nil]
      exact h'.move hr rfl (by rintro _ ⟨⟩) htrail
  | called r total =>
      obtain ⟨hr, rfl, hsent⟩ := h'.trail_at hp rfl
      simp only [hp] at hs
      have hfin := h'.finish hr le_rfl hsent fun _ => rfl
      rwa [Option.some.inj hs] at hfin
  | done =>
      simp only [hp] at hs
      cases hs

/-- **A step of the serve thread.** -/
theorem serve (hC : C = chunkSize.toNat) (h' : Answering C source info q lost accepted sent h)
    {h₁ : RequestHandler} {out : List Outgoing} {ok : Bool} (hs : h.serve chunkSize ok = some (h₁, out))
    (hl : ok = false → ∀ r, h.point.request = some r → lost r) :
    Answering C source info q lost accepted (sent ++ delivered ok out) h₁ := by
  rcases RequestHandler.serve_cases hs with ⟨hs, hout⟩ | ⟨rfl, -, rfl, r, hr, -⟩
  · rw [hout]
    exact h'.serve_true hC hs
  · rw [delivered_false, List.append_nil]
    exact h'.leave hr (hl rfl r hr)

/-- `serve_request`. Once the serve thread has returned, it does nothing. -/
theorem serveRequest (h' : Answering C source info q lost accepted sent h)
    (hr : ∀ r' ∈ accepted, r'.origin ≠ r.origin) (hl : h.isDone = true → lost r) :
    Answering C source info q lost (accepted ++ [r]) sent (h.serveRequest r) := by
  unfold RequestHandler.serveRequest
  split
  · rename_i hd
    exact ⟨h'.hasSource, h'.hasInfo, h'.handling, h'.stop, h'.cancelled, h'.idle,
      h'.books.drop hr (hl hd), h'.order.trans (List.sublist_append_left _ _), h'.progress⟩
  refine ⟨h'.hasSource, h'.hasInfo, h'.handling, h'.stop, h'.cancelled, h'.idle, h'.books.accept hr,
    ?_, h'.progress⟩
  have hun : { h with pendingRequests := h.pendingRequests ++ [r] }.unheaded =
      h.unheaded ++ [r] := by
    unfold RequestHandler.unheaded
    cases h.point <;> rfl
  rw [hun, ← List.append_assoc]
  exact h'.order.append (.refl _)

/-- `cancel_request`: the request in hand is marked, one that waits is closed at once. -/
theorem cancelRequest (h' : Answering C source info q lost accepted sent h) (id : UInt64) (ok : Bool)
    (hq : ∀ r ∈ h.openRequests, r.id = id → q r)
    (hl : ok = false → ∀ r ∈ h.openRequests, r.id = id → lost r) :
    Answering C source info q lost accepted (sent ++ delivered ok (h.cancelRequest id).2)
      (h.cancelRequest id).1 := by
  rcases h.cancelRequest_cases id with ⟨heq, -⟩ | ⟨-, hid, heq⟩ | ⟨-, -, r, a, b, hab, hid, heq⟩
  · rw [heq, delivered_nil, List.append_nil]
    exact h'
  · rw [heq, delivered_nil, List.append_nil]
    refine ⟨h'.hasSource, h'.hasInfo, h'.handling, fun _ _ => rfl, fun r hr _ => ?_, fun hn => ?_,
      h'.books, h'.order, h'.progress⟩
    · have hr : h.point.request = some r := hr
      rw [h'.handling, hr] at hid
      exact hq r (RequestHandler.mem_openRequests.mpr (.inl hr)) (Option.some.inj hid)
    · have hn : h.point = .waiting := hn
      rw [h'.handling, hn] at hid
      cases hid
  · subst hid
    rw [heq]
    have hbooks := h'.books
    have hsub : (a ++ b).Sublist h.pendingRequests := by
      rw [hab]
      exact (List.sublist_cons_self r b).append_left a
    have hmem : r ∈ h.pendingRequests := by
      rw [hab]
      simp
    have hopen := RequestHandler.mem_openRequests.mpr (.inr hmem)
    -- nothing is said about another request
    have hclose : ∀ m ∈ delivered ok [⟨r.origin, .closeResponse ⟨r.id⟩⟩],
        m = Outgoing.mk r.origin (.closeResponse ⟨r.id⟩) := fun m hm =>
      List.mem_singleton.mp (mem_of_mem_delivered hm)
    refine ⟨h'.hasSource, h'.hasInfo, h'.handling, h'.stop, h'.cancelled, h'.idle, ?_, ?_,
      fun r' hr' => ?_⟩
    · rw [hab] at hbooks
      exact hbooks.close (hq r hopen rfl) ok fun hok => hl hok r hopen rfl
    · have hheaders : headersOf (delivered ok [⟨r.origin, .closeResponse ⟨r.id⟩⟩]) = [] := by
        refine List.filterMap_eq_nil_iff.mpr fun m hm => ?_
        rw [hclose m hm]
        rfl
      rw [headersOf_append, hheaders, List.append_nil]
      refine (List.Sublist.append_left ?_ _).trans h'.order
      unfold RequestHandler.unheaded
      cases h.point with
      | header r' => exact hsub.cons_cons r'
      | _ => exact hsub
    · have hr' : h.point.request = some r' := hr'
      have hbooks := h'.request_books hr'
      have hother : about r'.origin (delivered ok [⟨r.origin, .closeResponse ⟨r.id⟩⟩]) = [] := by
        refine about_eq_nil fun m hm he => ?_
        rw [hclose m hm] at he
        rw [hbooks.eq_of_origin (hbooks.mem_pending hmem) hbooks.mem_hand he] at hmem
        exact hbooks.notMem hmem
      rw [about_append, hother, List.append_nil]
      exact h'.progress r' hr'

/-- `exit_gracefully` up to its wait. -/
theorem exitGracefully (h' : Answering C source info q lost accepted sent h) {h₁ : RequestHandler}
    (hq : ∀ r, h.point.request = some r → q r) (he : h.exitGracefully = .ok h₁) :
    Answering C source info q lost accepted sent h₁ := by
  unfold RequestHandler.exitGracefully at he
  split at he
  · cases he
    exact h'
  split at he
  · cases he
  · cases he
    refine ⟨h'.hasSource, h'.hasInfo, h'.handling, fun _ hr => ?_, fun r hr _ => hq r hr, fun hn => ?_,
      h'.books, h'.order, h'.progress⟩
    · change (h.handlingRequestId.isSome || h.cancelHandlingRequest) = true
      rw [h'.handling, Option.isSome_map, show h.point.request.isSome = true from hr, Bool.true_or]
    · have hn : h.point = .waiting := hn
      change (h.handlingRequestId.isSome || h.cancelHandlingRequest) = false
      rw [h'.handling, hn, h'.idle hn]
      rfl

theorem init : Answering C source info q lost [] [] (newRequestHandler source info) := by
  refine ⟨rfl, rfl, rfl, ?_, ?_, fun _ => rfl, Books.init, .slnil, ?_⟩
  · rintro - ⟨⟩
  · rintro _ ⟨⟩
  · rintro _ ⟨⟩

/-- A request that is not open any more has its whole response, or was cut short, or lost. -/
theorem ended (h' : Answering C source info q lost accepted sent h) (hr : r ∈ accepted)
    (hopen : r ∉ h.openRequests) :
    Ended C source info r (q r) (lost r) (h.isDone = true) (about r.origin sent) :=
  h'.books.ended r hr hopen

end Answering

end Answering

end Loon
