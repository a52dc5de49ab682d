import Loon.Client.Completion

set_option autoImplicit false

/-!
# Lookups in the table of requests

`response_sent` and `on_success` assert that the table has an entry for their request. The serve
thread decides to run its callback under the lock of the handler, and looks the request up later
under that of the table; if `RequestClosed` is handled in between, the entry is gone.

* `Misses`: a lookup that fails;
* `InTime`: no `RequestClosed` comes in between, and `Success` comes for requests that a handler has
  got;
* **`lookups_hit_iff`**: lookups never fail exactly under this condition.
-/

namespace Loon

/-- `on_success` or `response_sent` runs for a request without an entry. -/
def Misses (s : Session) : ClientEvent → Prop
  | .message (.success id) _ _ => s.client.requests id = none
  | .serve i _ => ∃ r, (s.client.handlers i).point.calls = some r ∧ s.client.requests r.id = none
  | _ => False

/-- `Success` comes for a request that was handed to a handler, and `RequestClosed` not between the
decision to run the callback of its request and the callback. -/
def InTime (s : Session) : ClientEvent → Prop
  | .message (.success id) _ _ => ∃ i, (i, id) ∈ s.posted
  | .message (.requestClosed id _) _ _ =>
    ∀ i r, (s.client.handlers i).point.calls = some r → r.id ≠ id
  | _ => True

/-- No serve thread is about to run the callback of a request that the server has closed. -/
def Session.Punctual (s : Session) : Prop := ∀ i, Loon.Punctual s.closed (s.client.handlers i)

section Lookups

variable {k : Constraints} {s s' : Session} {e : ClientEvent} {C : ℕ}

/-- The entry of a callback that is about to be run is missing exactly if the server has closed the
request. -/
theorem Session.Inv.requests_eq_none (h : s.Inv C) {i : ℕ} {r : ServeRequest}
    (hr : (s.client.handlers i).point.calls = some r) :
    s.client.requests r.id = none ↔ r.id ∈ s.closed := by
  have hopen := RequestHandler.mem_openRequests.mpr (.inl (ServePoint.request_of_calls hr).1)
  have hposted : ∃ o, (o, r.id) ∈ s.posted := ⟨i, r, (h.working i).mem_accepted hopen, rfl⟩
  have hno := h.notMem_reported hr
  rw [← not_iff_not, ← ne_eq, ← Option.isSome_iff_ne_none]
  refine (h.records.isSome_iff (i := r.id)).trans ?_
  constructor
  · rintro ⟨-, hc, -⟩
    exact hc
  · intro hc
    exact ⟨hposted, hc, fun hb => hno hb.2⟩

/-- Lookups succeed in time. -/
theorem Session.Inv.not_misses (h : s.Inv C) (hd : Disciplined s e) (hp : s.Punctual)
    (ht : InTime s e) : ¬ Misses s e := by
  cases e with
  | message m limited ok =>
      cases m with
      | success id =>
          intro hno
          obtain ⟨i, hi⟩ := ht
          have hsome := h.records.isSome_iff.mpr ⟨⟨i, hi⟩, hd.2.2, fun hb => hd.2.1 hb.1⟩
          rw [show s.client.board.entries id = none from hno] at hsome
          cases hsome
      | _ => exact id
  | serve i ok =>
      rintro ⟨r, hr, hno⟩
      exact hp i r hr ((h.requests_eq_none hr).mp hno)
  | _ => exact id

/-- A handler that is about to run a callback stays there until it does. -/
theorem Session.Inv.calls_eq (h : s.Inv k.chunkSize.toNat) (hd : Disciplined s e)
    (hs : Session.Steps k s e s') {i : ℕ} (he : ∀ ok, e ≠ .serve i ok) {r : ServeRequest}
    (hr : (s.client.handlers i).point.calls = some r) : (s'.client.handlers i).point.calls = some r := by
  obtain ⟨l, ht⟩ := h.takes hd hs i
  rw [(h.working i).point_eq ht.turn (fun ok hl => he ok (ht.serves ok hl))
    (ServePoint.request_of_calls hr).1]
  exact hr

/-- **One step.** -/
theorem Session.Inv.inTime_iff (h : s.Inv k.chunkSize.toNat) (hd : Disciplined s e)
    (hs : Session.Steps k s e s') : ¬ Misses s e ∧ s'.Punctual ↔ s.Punctual ∧ InTime s e := by
  constructor
  · rintro ⟨hhit, hp⟩
    refine ⟨fun i r hr hcl => ?_, ?_⟩
    · by_cases he : ∃ ok, e = .serve i ok
      · obtain ⟨ok, rfl⟩ := he
        exact hhit ⟨r, hr, (h.requests_eq_none hr).mpr hcl⟩
      · exact hp i r (h.calls_eq hd hs (fun ok he' => he ⟨ok, he'⟩) hr) (hs.closed_subset hcl)
    · cases e with
      | message m limited ok =>
          cases m with
          | success id =>
              have hsome : (s.client.board.entries id).isSome := by
                rw [Option.isSome_iff_ne_none]
                exact hhit
              exact (h.records.isSome_iff.mp hsome).1
          | requestClosed id msg =>
              intro i r hr he
              refine hp i r (h.calls_eq hd hs (by rintro _ ⟨⟩) hr) ?_
              rw [Session.closed, hs.handled_eq, ClientEvent.handled, idsBy_some id rfl, he]
              exact Set.mem_insert _ _
          | request => trivial
      | _ => trivial
  · rintro ⟨hp, ht⟩
    refine ⟨h.not_misses hd hp ht, fun i => ?_⟩
    obtain ⟨l, hl⟩ := h.takes hd hs i
    refine (hp i).turn (h.working i) hl.turn fun id ok hid r hr => ?_
    obtain ⟨msg, limited, rfl⟩ := hl.cancels id ok hid
    exact ht i r hr

/-- **When lookups never fail.** In every run of a disciplined server, the client and its serve
threads: no lookup has failed and none is about to, if and only if `Success` only came for requests
that a handler had got, and no `RequestClosed` came between the decision to run a callback and the
callback. -/
theorem lookups_hit_iff {es : List ClientEvent} (hr : (session k).run .init es = some s)
    (hd : (session k).Along Disciplined .init es) :
    (session k).Along (fun s e => ¬ Misses s e) .init es ∧ s.Punctual ↔
      (session k).Along InTime .init es := by
  refine (Machine.Along.induction (M := session k) (C := Disciplined)
    (P := fun es s => s.Inv k.chunkSize.toNat ∧
      ((session k).Along (fun s e => ¬ Misses s e) (session k).init es ∧ s.Punctual ↔
        (session k).Along InTime (session k).init es)) ?_ ?_ hd hr).2
  · refine ⟨Session.inv_init _, fun _ => trivial, fun _ => ⟨trivial, ?_⟩⟩
    rintro i r ⟨⟩
  · rintro es s e s' hr ⟨h, hiff⟩ hd hs
    have hs := Session.steps_of_step hs
    refine ⟨h.step hd hs, ?_⟩
    rw [Machine.along_snoc_iff hr, Machine.along_snoc_iff hr, ← hiff, and_assoc, and_assoc,
      h.inTime_iff hd hs]

end Lookups

/-! ## Sample runs -/

def sampleHello : Constraints := ⟨2, 100, ["text/plain"]⟩

def oneByte : ContentSource := ⟨"text/plain", 1, [7]⟩

def oneByteInfo : ContentInfo := ⟨"one", none, none⟩

/-- One byte is requested and sent, up to the decision to run the callback. -/
def untilCallback : List ClientEvent :=
  [.register oneByte oneByteInfo, .message (.request 1 "one") false true, .serve 0 true, .serve 0 true,
    .serve 0 true, .serve 0 true, .serve 0 true]

/-- The connection after the events `es`. -/
def sessionAfter (es : List ClientEvent) : Session :=
  ((session sampleHello).run .init es).getD .init

/-- The callback is run before `Success` comes. -/
theorem lookups_hit_untilSuccess :
    (session sampleHello).run .init (untilCallback ++
      [.serve 0 true, .message (.success 1) false true]) =
      some (sessionAfter (untilCallback ++ [.serve 0 true, .message (.success 1) false true])) ∧
    (session sampleHello).Along (fun s e => ¬ Misses s e) .init
      (untilCallback ++ [.serve 0 true, .message (.success 1) false true]) := by
  have hcalm : (session sampleHello).Along InTime .init (untilCallback ++ [.serve 0 true]) := by
    refine Machine.along_of_forall fun e he s => ?_
    simp only [untilCallback, List.cons_append, List.nil_append, List.mem_cons, List.not_mem_nil,
      or_false] at he
    rcases he with rfl | rfl | rfl | rfl | rfl | rfl | rfl | rfl <;> trivial
  have htime : (session sampleHello).Along InTime .init
      (untilCallback ++ [.serve 0 true] ++ [.message (.success 1) false true]) := by
    refine hcalm.snoc fun s' hs' => ⟨0, ⟨0, 1⟩, ?_, rfl⟩
    cases hs'
    decide
  exact ⟨rfl, ((lookups_hit_iff rfl (by decide)).mpr htime).1⟩

/-- `RequestClosed` comes between the decision to run the callback and the callback. -/
theorem closed_before_callback_misses :
    (session sampleHello).run .init
        (untilCallback ++ [.message (.requestClosed 1 "timed out") false true, .serve 0 true]) =
      some (sessionAfter (untilCallback ++
        [.message (.requestClosed 1 "timed out") false true, .serve 0 true])) ∧
    (session sampleHello).Along Disciplined .init
      (untilCallback ++ [.message (.requestClosed 1 "timed out") false true, .serve 0 true]) ∧
    ¬ (session sampleHello).Along (fun s e => ¬ Misses s e) .init
      (untilCallback ++ [.message (.requestClosed 1 "timed out") false true, .serve 0 true]) := by
  refine ⟨rfl, by decide, fun h => ?_⟩
  have hsplit : (session sampleHello).Along (fun s e => ¬ Misses s e) .init
      (untilCallback ++ [.message (.requestClosed 1 "timed out") false true] ++ [.serve 0 true]) := h
  exact (hsplit.of_snoc rfl).2 ⟨⟨0, 1⟩, rfl, rfl⟩

end Loon
