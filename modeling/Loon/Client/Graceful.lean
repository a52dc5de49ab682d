import Loon.Lib.Machine
import Loon.Client.Responses

set_option autoImplicit false

/-!
# Graceful exit

The request handler with the threads that call it: `serve_request`, `cancel_request` and
`exit_gracefully` may come between any two steps of the serve thread. A request that was accepted is
concluded once the server has its whole response or a `CloseResponse` for it.

* `Handling`, `handling`: the handler, the requests it accepted and what it sent;
* `Handling.Steps`: what a step of the two does;
* `Handling.answering_of_run`: what was sent in any run, if only certain requests are cancelled, or
  lost;
* **`graceful_exit_concludes`**: when `exit_gracefully` has returned and no send has failed, every
  accepted request is concluded if and only if none was pending when the serve thread left.
-/

namespace Loon

/-- A handler with the requests that `serve_request` accepted, what was sent and the calls of
`exit_gracefully`: how many of them wait, and whether one has returned. -/
structure Handling where
  handler : RequestHandler
  accepted : List ServeRequest
  sent : List Outgoing
  exiting : ℕ
  exited : Bool

inductive HandlingEvent where
  | serveRequest (id : UInt64)
  | cancelRequest (id : UInt64) (sent : Bool)
  | exitGracefully
  | exitReturns
  | serve (sent : Bool)
  deriving DecidableEq, Repr

/-- If the step sends a message, this succeeds. -/
def HandlingEvent.sends : HandlingEvent → Bool
  | .cancelRequest _ sent => sent
  | .serve sent => sent
  | _ => true

namespace Handling

def step (chunkSize : UInt64) (s : Handling) : HandlingEvent → Option Handling
  | .serveRequest id =>
    if s.handler.isDone then some s
    else
      let r : ServeRequest := ⟨s.accepted.length, id⟩
      some { s with handler := s.handler.serveRequest r, accepted := s.accepted ++ [r] }
  | .cancelRequest id sent =>
    let result := s.handler.cancelRequest id
    some { s with handler := result.1, sent := s.sent ++ delivered sent result.2 }
  | .exitGracefully =>
    match s.handler.exitGracefully with
    | .error _ => some s
    | .ok h =>
      if s.handler.isDone then some { s with exited := true }
      else some { s with handler := h, exiting := s.exiting + 1 }
  | .exitReturns =>
    if s.exiting ≠ 0 ∧ s.handler.isDone then
      some { s with exiting := s.exiting - 1, exited := true }
    else none
  | .serve sent =>
    (s.handler.serve chunkSize sent).map fun result =>
      { s with handler := result.1, sent := s.sent ++ delivered sent result.2 }

/-- The handler of `source` after its construction. -/
def init (source : ContentSource) (info : ContentInfo) : Handling :=
  ⟨newRequestHandler source info, [], [], 0, false⟩

end Handling

/-- The handler of `source` and the threads that call it. -/
def handling (source : ContentSource) (info : ContentInfo) (chunkSize : UInt64) :
    Machine Handling HandlingEvent := ⟨.init source info, Handling.step chunkSize⟩

/-! ## Steps -/

/-- What a step does. -/
inductive Handling.Steps (chunkSize : UInt64) (s : Handling) : HandlingEvent → Handling → Prop where
  | dropped {id : UInt64} (hd : s.handler.isDone = true) : Steps chunkSize s (.serveRequest id) s
  | accepted {id : UInt64} (hd : s.handler.isDone = false) : Steps chunkSize s (.serveRequest id)
      { s with
        handler := s.handler.serveRequest ⟨s.accepted.length, id⟩
        accepted := s.accepted ++ [⟨s.accepted.length, id⟩] }
  | cancel {id : UInt64} {ok : Bool} : Steps chunkSize s (.cancelRequest id ok)
      { s with
        handler := (s.handler.cancelRequest id).1
        sent := s.sent ++ delivered ok (s.handler.cancelRequest id).2 }
  | refused {msg : String} (he : s.handler.exitGracefully = .error msg) :
      Steps chunkSize s .exitGracefully s
  | gone (hd : s.handler.isDone = true) :
      Steps chunkSize s .exitGracefully { s with exited := true }
  | exits {h : RequestHandler} (hd : s.handler.isDone = false)
      (he : s.handler.exitGracefully = .ok h) :
      Steps chunkSize s .exitGracefully { s with handler := h, exiting := s.exiting + 1 }
  | returns (hd : s.handler.isDone = true) :
      Steps chunkSize s .exitReturns { s with exiting := s.exiting - 1, exited := true }
  | serves {h : RequestHandler} {out : List Outgoing} {ok : Bool}
      (hs : s.handler.serve chunkSize ok = some (h, out)) :
      Steps chunkSize s (.serve ok) { s with handler := h, sent := s.sent ++ delivered ok out }

theorem Handling.steps_of_step {chunkSize : UInt64} {s s' : Handling} {e : HandlingEvent}
    (hs : s.step chunkSize e = some s') : Handling.Steps chunkSize s e s' := by
  cases e with
  | serveRequest id =>
      simp only [Handling.step] at hs
      split at hs <;> cases hs
      · rename_i hd
        exact .dropped hd
      · rename_i hd
        exact .accepted (by simpa using hd)
  | cancelRequest id ok =>
      cases hs
      exact .cancel
  | exitGracefully =>
      simp only [Handling.step] at hs
      split at hs
      · rename_i he
        cases hs
        exact .refused he
      · rename_i he
        split at hs <;> cases hs
        · rename_i hd
          exact .gone hd
        · rename_i hd
          exact .exits (by simpa using hd) he
  | exitReturns =>
      simp only [Handling.step] at hs
      split at hs <;> cases hs
      rename_i hd
      exact .returns hd.2
  | serve ok =>
      obtain ⟨⟨h, out⟩, hserve, rfl⟩ := Option.map_eq_some_iff.mp hs
      exact .serves hserve

/-! ## Runs -/

/-- Only requests in `q` are cancelled: by `cancel_request` with their id while they are open, or by
`exit_gracefully` while they are in hand. -/
def Handling.Cancels (q : ServeRequest → Prop) (s : Handling) (e : HandlingEvent) : Prop :=
  (∀ id ok, e = .cancelRequest id ok → ∀ r ∈ s.handler.openRequests, r.id = id → q r) ∧
  (e = .exitGracefully → ∀ r, s.handler.point.request = some r → q r)

theorem Handling.cancels_any (s : Handling) (e : HandlingEvent) : s.Cancels (fun _ => True) e :=
  ⟨fun _ _ _ _ _ _ => trivial, fun _ _ _ => trivial⟩

/-- Sends fail only for requests in `lost`: one of the serve thread while no others are open, and one
of `cancel_request` with their id. -/
def Handling.Loses (lost : ServeRequest → Prop) (s : Handling) (e : HandlingEvent) : Prop :=
  (e = .serve false → ∀ r ∈ s.handler.openRequests, lost r) ∧
  ∀ id, e = .cancelRequest id false → ∀ r ∈ s.handler.openRequests, r.id = id → lost r

theorem Handling.loses_any (s : Handling) (e : HandlingEvent) : s.Loses (fun _ => True) e :=
  ⟨fun _ _ _ => trivial, fun _ _ _ _ _ => trivial⟩

theorem Handling.loses_none {lost : ServeRequest → Prop} {e : HandlingEvent} (he : e.sends = true)
    (s : Handling) : s.Loses lost e := by
  constructor
  · rintro rfl
    cases he
  · rintro id rfl
    cases he

section Runs

variable {C : ℕ} {source : ContentSource} {info : ContentInfo} {chunkSize : UInt64}
  {q lost : ServeRequest → Prop} {s s' : Handling} {e : HandlingEvent}

/-- A request is accepted under its number. -/
theorem Handling.origins_step (h : s.accepted.map ServeRequest.origin = List.range s.accepted.length)
    (hs : s.step chunkSize e = some s') :
    s'.accepted.map ServeRequest.origin = List.range s'.accepted.length := by
  cases Handling.steps_of_step hs with
  | dropped | cancel | refused | gone | exits | returns | serves => exact h
  | accepted =>
      rw [List.map_append, h, List.length_append, List.length_singleton, List.range_succ]
      rfl

/-- **A step keeps the invariant of the handler.** -/
theorem Handling.answering_step (hC : C = chunkSize.toNat)
    (hnum : s.accepted.map ServeRequest.origin = List.range s.accepted.length)
    (h : Answering C source info q lost s.accepted s.sent s.handler) (he : s.Cancels q e)
    (hl : s.Loses lost e) (hs : s.step chunkSize e = some s') :
    Answering C source info q lost s'.accepted s'.sent s'.handler := by
  cases Handling.steps_of_step hs with
  | dropped | refused | gone | returns => exact h
  | accepted hd =>
      refine h.serveRequest (fun r hr heq => ?_) fun hdone => absurd (hd.symm.trans hdone) (by decide)
      have hmem := List.mem_map_of_mem hr (f := ServeRequest.origin)
      rw [hnum, heq] at hmem
      exact lt_irrefl _ (List.mem_range.mp hmem)
  | cancel =>
      refine h.cancelRequest _ _ (he.1 _ _ rfl) ?_
      rintro rfl
      exact hl.2 _ rfl
  | exits _ hexit => exact h.exitGracefully (he.2 rfl) hexit
  | serves hserve =>
      refine h.serve hC hserve ?_
      rintro rfl r hr
      exact hl.1 rfl r (RequestHandler.mem_openRequests.mpr (.inl hr))

/-- **What a handler sent in a run.** -/
theorem Handling.answering_of_run {es : List HandlingEvent}
    (hr : (handling source info chunkSize).run (.init source info) es = some s)
    (hq : (handling source info chunkSize).Along (Handling.Cancels q) (.init source info) es)
    (hl : (handling source info chunkSize).Along (Handling.Loses lost) (.init source info) es) :
    s.accepted.map ServeRequest.origin = List.range s.accepted.length ∧
      Answering chunkSize.toNat source info q lost s.accepted s.sent s.handler := by
  refine (hq.and hl).inv (P := fun s =>
    s.accepted.map ServeRequest.origin = List.range s.accepted.length ∧
      Answering chunkSize.toNat source info q lost s.accepted s.sent s.handler) ?_ ⟨rfl, .init⟩ hr
  rintro s e s' ⟨hnum, h⟩ ⟨he, hl⟩ hs
  exact ⟨Handling.origins_step hnum hs, Handling.answering_step rfl hnum h he hl hs⟩

/-- The same for a run in which no send fails. -/
theorem Handling.answering_of_sends {es : List HandlingEvent}
    (hr : (handling source info chunkSize).run (.init source info) es = some s)
    (hq : (handling source info chunkSize).Along (Handling.Cancels q) (.init source info) es)
    (hsends : ∀ e ∈ es, e.sends = true) :
    Answering chunkSize.toNat source info q (fun _ => False) s.accepted s.sent s.handler :=
  (answering_of_run hr hq (Machine.along_of_forall fun e he => loses_none (hsends e he))).2

end Runs

/-! ## Concluded requests -/

section Response

variable (C : ℕ) (source : ContentSource) (info : ContentInfo) (r : ServeRequest)

/-- The response was closed, or all of it was sent. -/
def Concluded (sent : List Outgoing) : Prop :=
  ⟨r.origin, .closeResponse ⟨r.id⟩⟩ ∈ sent ∨ about r.origin sent = response C source info r

variable {C source info r} {sent : List Outgoing}

theorem mem_of_mem_about {d : ClientData} (h : d ∈ about r.origin sent) :
    ⟨r.origin, d⟩ ∈ sent := by
  obtain ⟨m, hm, rfl⟩ := List.mem_map.mp h
  obtain ⟨hm, horigin⟩ := List.mem_filter.mp hm
  rw [← show m.origin = r.origin by simpa using horigin]
  exact hm

/-- If the stream has the announced size, a response with that many bytes has all chunks. -/
theorem eq_chunks_of_supplied (hpos : 0 < C) (hexact : source.data.length = source.size.toNat)
    {k : ℕ} (hk : k ≤ source.chunks C) (hsize : source.supplied C k = source.size.toNat) :
    k = source.chunks C := by
  have hlt : k < source.chunks C ↔ k * C < source.data.length := Chunking.lt_pieces_iff hpos
  rw [ContentSource.supplied] at hsize
  omega

theorem responseUpTo_chunks (hexact : source.data.length = source.size.toNat) :
    responseUpTo C source info r (source.chunks C) = response C source info r := by
  rw [ContentSource.chunks, hexact]
  rfl

/-- A response that is over is concluded. -/
theorem Settled.concluded {q : Prop} (hpos : 0 < C)
    (hexact : source.data.length = source.size.toNat)
    (h : Settled C source info r q (about r.origin sent)) : Concluded C source info r sent := by
  have hall : about r.origin sent = responseUpTo C source info r (source.chunks C) →
      Concluded C source info r sent := fun h => .inr (h.trans (responseUpTo_chunks hexact))
  rcases h with h | ⟨-, h | ⟨k, -, h, -⟩ | ⟨k, hk, h, hsize⟩⟩
  · exact hall h
  · exact .inl (mem_of_mem_about (by rw [h]; simp))
  · exact .inl (mem_of_mem_about (by rw [h]; simp))
  · exact hall (by rw [h, ← eq_chunks_of_supplied hpos hexact hk hsize])

end Response

/-! ## The exit of the serve thread -/

/-- The serve thread looks at `m_stop` in its next step, and finds it set. -/
def RequestHandler.leaves (h : RequestHandler) : Bool :=
  h.stop &&
    match h.point with
    | .waiting => true
    | .headerSent _ => true
    | .chunkSent _ _ _ _ => true
    | .called _ _ => true
    | _ => false

/-- No request waits when the serve thread leaves. -/
def NoneWaits (s : Handling) : HandlingEvent → Prop
  | .serve _ => s.handler.leaves = true → s.handler.pendingRequests = []
  | _ => True

instance (s : Handling) : ∀ e, Decidable (NoneWaits s e)
  | .serve _ => inferInstanceAs (Decidable (s.handler.leaves = true → s.handler.pendingRequests = []))
  | .serveRequest _ => inferInstanceAs (Decidable True)
  | .cancelRequest _ _ => inferInstanceAs (Decidable True)
  | .exitGracefully => inferInstanceAs (Decidable True)
  | .exitReturns => inferInstanceAs (Decidable True)

section Exit

variable {h h₁ : RequestHandler} {out : List Outgoing} {chunkSize : UInt64} {r : ServeRequest}

theorem RequestHandler.await_isDone : h.await.isDone = h.stop ∧
    (h.stop = true → h.await.pendingRequests = h.pendingRequests) := by
  unfold RequestHandler.await
  cases hs : h.stop with
  | true => exact ⟨rfl, fun _ => rfl⟩
  | false =>
      simp only [Bool.false_eq_true, if_false]
      refine ⟨?_, by rintro ⟨⟩⟩
      split <;> rfl

theorem RequestHandler.finish_isDone (total : ℕ) : (h.finish r total true).1.isDone = h.stop ∧
    (h.stop = true → (h.finish r total true).1.pendingRequests = h.pendingRequests) := by
  unfold RequestHandler.finish RequestHandler.nextIteration
  simp only [true_or, if_true]
  split
  · exact RequestHandler.await_isDone (h := { h with
      handlingRequestId := none, cancelHandlingRequest := false })
  · exact RequestHandler.await_isDone (h := { h with
      handlingRequestId := none, cancelHandlingRequest := false })

theorem RequestHandler.readChunk_isDone {sequence : UInt64} {total : ℕ} {stream : Bytes} :
    (h.readChunk chunkSize r sequence total stream).isDone = false := by
  unfold RequestHandler.readChunk
  simp only
  split <;> rfl

/-- If no send fails, the serve thread returns in a step exactly if it leaves, and takes no request
then. -/
theorem RequestHandler.serve_leaves (hs : h.serve chunkSize true = some (h₁, out)) :
    h₁.isDone = h.leaves ∧ (h.leaves = true → h₁.pendingRequests = h.pendingRequests) := by
  unfold RequestHandler.serve at hs
  cases hp : h.point with
  | waiting =>
      simp only [hp] at hs
      split at hs
      · cases hs
        simp only [leaves, hp, Bool.and_true]
        exact await_isDone
      · cases hs
  | header r =>
      simp only [hp] at hs
      cases hs
      simp only [leaves, hp, Bool.and_false]
      exact ⟨rfl, by rintro ⟨⟩⟩
  | headerSent r =>
      simp only [hp] at hs
      simp only [leaves, hp, Bool.and_true]
      split at hs
      · cases hs
        exact await_isDone (h := { h with
          handlingRequestId := none, cancelHandlingRequest := false })
      split at hs
      · rename_i hstop
        cases hs
        exact ⟨by rw [hstop]; rfl, fun _ => rfl⟩
      · rename_i hstop
        cases hs
        exact ⟨by rw [readChunk_isDone]; simpa using hstop, fun h' => absurd h' hstop⟩
  | chunk r sequence total data stream =>
      simp only [hp] at hs
      cases hs
      simp only [leaves, hp, Bool.and_false]
      exact ⟨rfl, by rintro ⟨⟩⟩
  | chunkSent r sequence total stream =>
      simp only [hp] at hs
      simp only [leaves, hp, Bool.and_true]
      split at hs
      · have hfin := finish_isDone (h := h) (r := r) total
        rwa [Option.some.inj hs] at hfin
      split at hs
      · rename_i hstop
        cases hs
        exact ⟨by rw [hstop]; rfl, fun _ => rfl⟩
      · rename_i hstop
        cases hs
        exact ⟨by rw [readChunk_isDone]; simpa using hstop, fun h' => absurd h' hstop⟩
  | callback r total =>
      simp only [hp] at hs
      cases hs
      simp only [leaves, hp, Bool.and_false]
      exact ⟨rfl, by rintro ⟨⟩⟩
  | called r total =>
      simp only [hp] at hs
      simp only [leaves, hp, Bool.and_true]
      have hfin := finish_isDone (h := h) (r := r) total
      rwa [Option.some.inj hs] at hfin
  | done =>
      simp only [hp] at hs
      cases hs

theorem RequestHandler.exitGracefully_point (he : h.exitGracefully = .ok h₁) :
    h₁.point = h.point := by
  unfold RequestHandler.exitGracefully at he
  split at he
  · cases he
    rfl
  split at he
  · cases he
  · cases he
    rfl

variable {s s' : Handling} {e : HandlingEvent}

/-- Calls of other threads do not move the serve thread. -/
theorem Handling.step_point (hs : s.step chunkSize e = some s') (he : ∀ ok, e ≠ .serve ok) :
    s'.handler.point = s.handler.point := by
  cases Handling.steps_of_step hs with
  | dropped | refused | gone | returns => rfl
  | accepted =>
      unfold RequestHandler.serveRequest
      split <;> rfl
  | cancel =>
      unfold RequestHandler.cancelRequest
      repeat' split
      all_goals rfl
  | exits _ hexit => exact RequestHandler.exitGracefully_point hexit
  | serves => exact absurd rfl (he _)

/-- Once the serve thread has returned nothing changes in the handler. -/
theorem Handling.step_done (hs : s.step chunkSize e = some s') (hd : s.handler.isDone = true) :
    s'.handler = s.handler ∧ s'.sent = s.sent := by
  cases Handling.steps_of_step hs with
  | dropped | refused | gone | returns => exact ⟨rfl, rfl⟩
  | accepted hd' | exits hd' =>
      rw [hd] at hd'
      cases hd'
  | cancel =>
      simp only [RequestHandler.cancelRequest, hd, if_true, delivered_nil, List.append_nil, and_self]
  | serves hserve =>
      have hp : s.handler.point = .done := by simpa [RequestHandler.isDone] using hd
      simp only [RequestHandler.serve, hp] at hserve
      cases hserve

variable {source : ContentSource} {info : ContentInfo}

/-- `exit_gracefully` returns only once the serve thread has. -/
theorem Handling.done_of_exited {es : List HandlingEvent}
    (hr : (handling source info chunkSize).run (.init source info) es = some s)
    (he : s.exited = true) : s.handler.isDone = true := by
  revert he
  refine Machine.run_inv (M := handling source info chunkSize)
    (P := fun s => s.exited = true → s.handler.isDone = true) ?_ (by rintro ⟨⟩) hr
  intro s e s' h hs
  have hstays : s.handler.isDone = true → s'.handler.isDone = true := by
    intro hd
    rw [(Handling.step_done hs hd).1, hd]
  cases Handling.steps_of_step hs with
  | dropped | refused => exact h
  | gone hd | returns hd => exact fun _ => hd
  | accepted | cancel | exits | serves => exact fun he => hstays (h he)

/-- No request waited when the serve thread left if and only if none waits now that it has. -/
theorem noneWaits_iff {es : List HandlingEvent}
    (hr : (handling source info chunkSize).run (.init source info) es = some s)
    (hsends : ∀ e ∈ es, e.sends = true) :
    (handling source info chunkSize).Along NoneWaits (.init source info) es ↔
      (s.handler.isDone = true → s.handler.pendingRequests = []) := by
  revert hsends
  refine Machine.run_induction (M := handling source info chunkSize)
    (P := fun es s => (∀ e ∈ es, e.sends = true) →
      ((handling source info chunkSize).Along NoneWaits (.init source info) es ↔
        (s.handler.isDone = true → s.handler.pendingRequests = []))) ?_ ?_ hr
  · exact fun _ => ⟨fun _ => by rintro ⟨⟩, fun _ => trivial⟩
  intro es s e s' hr ih hs hsends
  have ih := ih fun e he => hsends e (List.mem_append_left _ he)
  refine ((Machine.along_snoc_iff hr).trans (and_congr ih Iff.rfl)).trans ?_
  cases hd : s.handler.isDone with
  | true =>
      rw [(Handling.step_done hs hd).1, hd]
      have hp : s.handler.point = .done := by simpa [RequestHandler.isDone] using hd
      have hstill : NoneWaits s e := by
        cases e with
        | serve =>
            intro hl
            simp only [RequestHandler.leaves, hp, Bool.and_false] at hl
            cases hl
        | _ => trivial
      exact ⟨fun h => h.1, fun h => ⟨h, hstill⟩⟩
  | false =>
      simp only [Bool.false_eq_true, false_imp_iff, true_and]
      by_cases he : ∃ ok, e = .serve ok
      · obtain ⟨ok, rfl⟩ := he
        obtain rfl : ok = true := hsends (.serve ok) (by simp)
        obtain ⟨⟨h₁, out⟩, hserve, rfl⟩ := Option.map_eq_some_iff.mp hs
        obtain ⟨h1, h2⟩ := RequestHandler.serve_leaves hserve
        simp only [NoneWaits, h1]
        refine imp_congr_right fun hl => ?_
        rw [h2 hl]
      · have hne : ∀ ok, e ≠ .serve ok := fun ok he' => he ⟨ok, he'⟩
        have hd' : s'.handler.isDone = false := by
          rw [← hd, RequestHandler.isDone, Handling.step_point hs hne, RequestHandler.isDone]
        simp only [hd', Bool.false_eq_true, false_imp_iff, iff_true]
        cases e with
        | serve ok => exact absurd rfl (hne ok)
        | _ => trivial

end Exit

/-- **Graceful exit concludes every accepted request**, if sends succeed, if and only if no request
waits when the serve thread leaves: those that wait then are never answered. -/
theorem graceful_exit_concludes {source : ContentSource} {info : ContentInfo} {chunkSize : UInt64}
    (hpos : 0 < chunkSize) (hexact : source.data.length = source.size.toNat)
    {es : List HandlingEvent} {s : Handling}
    (hr : (handling source info chunkSize).run (.init source info) es = some s)
    (hsends : ∀ e ∈ es, e.sends = true) (he : s.exited = true) :
    (∀ r ∈ s.accepted, Concluded chunkSize.toNat source info r s.sent) ↔
      (handling source info chunkSize).Along NoneWaits (.init source info) es := by
  have hpos' : 0 < chunkSize.toNat := hpos
  have h := Handling.answering_of_sends hr (Machine.along_of_forall fun e _ s => s.cancels_any e) hsends
  have hd := Handling.done_of_exited hr he
  have hp : s.handler.point = .done := by simpa [RequestHandler.isDone] using hd
  rw [noneWaits_iff hr hsends]
  constructor
  · intro hall _
    refine List.eq_nil_iff_forall_not_mem.mpr fun r hr => ?_
    have hnone := h.books.fresh r hr
    rcases hall r (h.books.mem_pending hr) with hclose | hresponse
    · exact about_ne_nil hclose hnone
    · rw [hnone] at hresponse
      cases hresponse
  · intro hnone r hr
    refine ((h.ended hr fun hopen => ?_).settled id).concluded hpos' hexact
    rcases RequestHandler.mem_openRequests.mp hopen with hhand | hpend
    · rw [hp] at hhand
      cases hhand
    · rw [hnone hd] at hpend
      cases hpend

/-! ## Sample runs -/

def threeBytes : ContentSource := ⟨"text/plain", 3, [1, 2, 3]⟩

def threeBytesInfo : ContentInfo := ⟨"example.txt", none, none⟩

/-- The handler of the sample, with chunks of two bytes, after the events `es`. -/
def handlingAfter (es : List HandlingEvent) : Handling :=
  ((handling threeBytes threeBytesInfo 2).run (.init threeBytes threeBytesInfo) es).getD
    (.init threeBytes threeBytesInfo)

/-- The header of the first request is out when the handler has to exit. -/
def exitAfterHeader : List HandlingEvent :=
  [.serve true, .serve true, .exitGracefully, .serve true, .exitReturns]

theorem graceful_exit_concludes_oneRequest :
    (handlingAfter (.serveRequest 7 :: exitAfterHeader)).accepted = [⟨0, 7⟩] ∧
    ∀ r ∈ (handlingAfter (.serveRequest 7 :: exitAfterHeader)).accepted,
      Concluded 2 threeBytes threeBytesInfo r
        (handlingAfter (.serveRequest 7 :: exitAfterHeader)).sent := by
  have hrun : (handling threeBytes threeBytesInfo 2).run (.init threeBytes threeBytesInfo)
      (.serveRequest 7 :: exitAfterHeader) =
      some (handlingAfter (.serveRequest 7 :: exitAfterHeader)) := rfl
  have hnone : (handling threeBytes threeBytesInfo 2).Along NoneWaits (.init threeBytes threeBytesInfo)
      (.serveRequest 7 :: exitAfterHeader) := by decide
  exact ⟨rfl, (graceful_exit_concludes (by decide) rfl hrun (by decide) rfl).mpr hnone⟩

/-- The second request waits when the handler has to exit, and the server hears nothing of it. -/
theorem exit_drops_waiting_request :
    (handling threeBytes threeBytesInfo 2).run (.init threeBytes threeBytesInfo)
      (.serveRequest 7 :: .serveRequest 8 :: exitAfterHeader) =
      some (handlingAfter (.serveRequest 7 :: .serveRequest 8 :: exitAfterHeader)) ∧
    (handlingAfter (.serveRequest 7 :: .serveRequest 8 :: exitAfterHeader)).exited = true ∧
    ⟨1, 8⟩ ∈ (handlingAfter (.serveRequest 7 :: .serveRequest 8 :: exitAfterHeader)).accepted ∧
    about 1 (handlingAfter (.serveRequest 7 :: .serveRequest 8 :: exitAfterHeader)).sent = [] ∧
    ¬ Concluded 2 threeBytes threeBytesInfo ⟨1, 8⟩
      (handlingAfter (.serveRequest 7 :: .serveRequest 8 :: exitAfterHeader)).sent := by
  refine ⟨rfl, rfl, by decide, rfl, ?_⟩
  rintro (h | h)
  · revert h
    decide
  · cases h

end Loon
