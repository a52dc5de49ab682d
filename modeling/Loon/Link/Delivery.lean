import Loon.Client.Graceful
import Loon.Client.ServeSteps
import Loon.Link.Receive

set_option autoImplicit false

/-!
# The bytes of a response

The request handler cuts the stream of its source into chunks until the stream is at its end, while
the server goes by the size that was announced. A stream may hold more than that. The chunks go
through a buffer of `chunk_size` bytes; if it cannot be made, an exception leaves the serve thread
and ends the process.

* `chunksOf_responseUpTo`: the chunks of a whole response are those of the stream;
* `HandlerProcess`, `serving`: a handler in its process;
* `RequestHandler.serve_progress`, `response_ends`: the serve thread comes to the end of a response,
  or of the process;
* `HandlerProcess.inv_of_run`: what was sent, with a buffer and without;
* `HandlerProcess.lost_of_run`: what was sent if a send of the serve thread has failed;
* `Delivers`: the content arrives, and nothing else;
* **`delivers_iff`**: a response that is not cancelled delivers the content if and only if the stream
  holds no more than its size and the buffer can be made, and the sends succeed.
-/

namespace Loon

open Chunking

/-! ## The buffer -/

/-- The next step of the serve thread makes the buffer for the chunks. -/
def RequestHandler.makesBuffer (h : RequestHandler) : Bool :=
  match h.point with
  | .headerSent _ => !h.cancelHandlingRequest && !h.stop
  | _ => false

/-- A handler with its threads, and whether an exception has ended the process. -/
structure HandlerProcess where
  handling : Handling
  terminated : Bool

/-- The step is one of the serve thread. -/
def HandlingEvent.isServe : HandlingEvent → Bool
  | .serve _ => true
  | _ => false

namespace HandlerProcess

/-- A `std::vector<char>` of more than `maxBuffer` bytes cannot be made: the constructor throws
`std::length_error` beyond `max_size()` and `std::bad_alloc` if there is no memory. -/
def step (chunkSize : UInt64) (maxBuffer : ℕ) (s : HandlerProcess) (e : HandlingEvent) :
    Option HandlerProcess :=
  if s.terminated then none
  else if e.isServe ∧ s.handling.handler.makesBuffer ∧ maxBuffer < chunkSize.toNat then
    some { s with terminated := true }
  else (s.handling.step chunkSize e).map fun handling => { s with handling := handling }

def init (source : ContentSource) (info : ContentInfo) : HandlerProcess :=
  ⟨.init source info, false⟩

end HandlerProcess

/-- The handler of `source` in its process. -/
def serving (source : ContentSource) (info : ContentInfo) (chunkSize : UInt64) (maxBuffer : ℕ) :
    Machine HandlerProcess HandlingEvent :=
  ⟨.init source info, HandlerProcess.step chunkSize maxBuffer⟩

/-! ## The end of a response -/

section Ends

variable {h : RequestHandler} {r : ServeRequest} {chunkSize : UInt64}

/-- A bound on the steps that the serve thread still takes for the request in hand. -/
def RequestHandler.rank (h : RequestHandler) : ℕ :=
  match h.point with
  | .header _ => 2 * h.source.data.length + 4
  | .headerSent _ => 2 * h.source.data.length + 3
  | .chunk _ _ _ _ stream => 2 * stream.length + 4
  | .chunkSent _ _ _ stream => 2 * stream.length + 3
  | .callback _ _ => 2
  | .called _ _ => 1
  | _ => 0

theorem RequestHandler.nextIteration_request (r' : ServeRequest) (hn : r ∉ h.pendingRequests) :
    r ∉ (h.nextIteration r' true).1.openRequests := by
  unfold RequestHandler.nextIteration
  rw [if_pos (.inl rfl), await_openRequests]
  exact hn

theorem RequestHandler.finish_request (r' : ServeRequest) (total : ℕ) (hn : r ∉ h.pendingRequests) :
    r ∉ (h.finish r' total true).1.openRequests := by
  unfold RequestHandler.finish
  split
  · exact nextIteration_request (h := { h with cancelHandlingRequest := false }) r' hn
  · exact nextIteration_request r' hn

theorem RequestHandler.leave_request (hn : r ∉ h.pendingRequests) : r ∉ h.leave.openRequests := by
  rw [mem_openRequests]
  rintro (⟨⟨⟩⟩ | hr)
  exact hn hr

/-- A chunk is read from a stream that becomes shorter, or the stream is at its end. -/
theorem RequestHandler.readChunk_rank (hpos : 0 < chunkSize) (sequence : UInt64) (total : ℕ)
    (stream : Bytes) :
    (h.readChunk chunkSize r sequence total stream).rank < 2 * stream.length + 3 ∧
    (h.readChunk chunkSize r sequence total stream).pendingRequests = h.pendingRequests := by
  have hC : 0 < chunkSize.toNat := UInt64.lt_iff_toNat_lt.mp hpos
  unfold RequestHandler.readChunk
  simp only
  split
  · exact ⟨by simp only [rank]; omega, rfl⟩
  · rename_i hdata
    have hlen : 0 < stream.length := by
      refine List.length_pos_iff.mpr ?_
      rintro rfl
      exact hdata List.take_nil
    refine ⟨?_, rfl⟩
    simp only [rank, List.length_drop]
    omega

/-- **The serve thread goes on** with the request in hand, and comes closer to its end. -/
theorem RequestHandler.serve_progress (hpos : 0 < chunkSize) (hr : h.point.request = some r)
    (hn : r ∉ h.pendingRequests) : ∃ h₁ out, h.serve chunkSize true = some (h₁, out) ∧
      (r ∉ h₁.openRequests ∨ h₁.rank < h.rank ∧ r ∉ h₁.pendingRequests) := by
  unfold RequestHandler.serve
  cases hp : h.point with
  | waiting | done =>
      rw [hp] at hr
      cases hr
  | header r' =>
      refine ⟨_, _, rfl, .inr ⟨?_, hn⟩⟩
      simp only [rank, hp, if_true]
      omega
  | headerSent r' =>
      simp only
      split
      · exact ⟨_, _, rfl, .inl (nextIteration_request r' hn)⟩
      split
      · exact ⟨_, _, rfl, .inl (leave_request hn)⟩
      · obtain ⟨hrank, hpend⟩ := readChunk_rank (h := h) (r := r') hpos 0 0 h.source.data
        refine ⟨_, _, rfl, .inr ⟨?_, by rwa [hpend]⟩⟩
        simp only [rank, hp] at hrank ⊢
        exact hrank
  | chunk r' sequence total data stream =>
      refine ⟨_, _, rfl, .inr ⟨?_, hn⟩⟩
      simp only [rank, hp, if_true]
      omega
  | chunkSent r' sequence total stream =>
      simp only
      split
      · exact ⟨_, _, rfl, .inl (finish_request r' total hn)⟩
      split
      · exact ⟨_, _, rfl, .inl (leave_request hn)⟩
      · obtain ⟨hrank, hpend⟩ := readChunk_rank (h := h) (r := r') hpos sequence total stream
        refine ⟨_, _, rfl, .inr ⟨?_, by rwa [hpend]⟩⟩
        simp only [rank, hp] at hrank ⊢
        exact hrank
  | callback r' total =>
      exact ⟨_, _, rfl, .inr ⟨by simp only [rank, hp]; omega, hn⟩⟩
  | called r' total => exact ⟨_, _, rfl, .inl (finish_request r' total hn)⟩

/-- **Every response ends**, if its sends succeed: steps of the serve thread alone lead to a state in
which the request in hand is not open any more, or end the process. -/
theorem response_ends {source : ContentSource} {info : ContentInfo} {maxBuffer : ℕ}
    (hpos : 0 < chunkSize) {s : HandlerProcess} (hn : r ∉ s.handling.handler.pendingRequests) :
    ∃ n s', (serving source info chunkSize maxBuffer).run s (List.replicate n (.serve true)) = some s' ∧
      (s'.terminated = true ∨ r ∉ s'.handling.handler.openRequests) := by
  induction hrank : s.handling.handler.rank using Nat.strong_induction_on generalizing s with
  | _ m ih =>
      by_cases hdead : s.terminated = true
      · exact ⟨0, s, rfl, .inl hdead⟩
      by_cases hr : s.handling.handler.point.request = some r
      · have hstep : (serving source info chunkSize maxBuffer).step s (.serve true) = _ := if_neg hdead
        split_ifs at hstep with hbuffer
        · exact ⟨1, _, by rw [List.replicate_one, Machine.run_cons, hstep]; rfl, .inl rfl⟩
        · obtain ⟨h₁, out, hs, hend⟩ := RequestHandler.serve_progress hpos hr hn
          have hserve : s.handling.step chunkSize (.serve true) =
              some { s.handling with handler := h₁, sent := s.handling.sent ++ out } := by
            change (s.handling.handler.serve chunkSize true).map _ = _
            rw [hs]
            rfl
          rw [hserve] at hstep
          rcases hend with hover | ⟨hlt, hn₁⟩
          · exact ⟨1, _, by rw [List.replicate_one, Machine.run_cons, hstep]; rfl, .inr hover⟩
          · obtain ⟨n, s', hrun, hover⟩ := ih h₁.rank (hrank ▸ hlt) (s := { s with
              handling := { s.handling with handler := h₁, sent := s.handling.sent ++ out } }) hn₁ rfl
            refine ⟨n + 1, s', ?_, hover⟩
            rw [List.replicate_succ, Machine.run_cons, hstep]
            exact hrun
      · refine ⟨0, s, rfl, .inr fun hopen => ?_⟩
        rcases RequestHandler.mem_openRequests.mp hopen with h | h
        · exact hr h
        · exact hn h

end Ends

/-! ## What was sent -/

/-- The serve thread is in the chunk loop, or past it. -/
def ServePoint.chunking : ServePoint → Bool
  | .chunk _ _ _ _ _ => true
  | .chunkSent _ _ _ _ => true
  | .callback _ _ => true
  | .called _ _ => true
  | _ => false

/-- No chunk was sent, and the serve thread is not about to send one. -/
structure Handling.Chunkless (s : Handling) : Prop where
  point : s.handler.point.chunking = false
  sent : ∀ m ∈ s.sent, m.data.chunk = none

/-- While `r` is open it is not cancelled. -/
def HandlerProcess.Spares (r : ServeRequest) (s : HandlerProcess) (e : HandlingEvent) : Prop :=
  s.handling.Cancels (· ≠ r) e

/-- No send of the serve thread fails while `r` is open. -/
def HandlerProcess.Connected (chunkSize : UInt64) (r : ServeRequest) (s : HandlerProcess)
    (e : HandlingEvent) : Prop :=
  e = .serve false → r ∈ s.handling.handler.openRequests →
    ∀ h out, s.handling.handler.serve chunkSize false = some (h, out) → out = []

section Sent

variable {source : ContentSource} {info : ContentInfo} {chunkSize : UInt64} {maxBuffer : ℕ}
  {r : ServeRequest} {s s' : HandlerProcess} {e : HandlingEvent}

/-- A step of the process is the end of it, or a step of the handler. -/
theorem HandlerProcess.step_cases (hs : s.step chunkSize maxBuffer e = some s') :
    s.terminated = false ∧
    (s.handling.handler.makesBuffer = true ∧ maxBuffer < chunkSize.toNat ∧
        s' = { s with terminated := true } ∨
      (e.isServe = true → maxBuffer < chunkSize.toNat → s.handling.handler.makesBuffer = false) ∧
        ∃ handling, s.handling.step chunkSize e = some handling ∧
          s' = { s with handling := handling }) := by
  unfold HandlerProcess.step at hs
  split at hs
  · cases hs
  rename_i hlive
  refine ⟨by simpa using hlive, ?_⟩
  split at hs
  · rename_i hbuffer
    cases hs
    exact .inl ⟨hbuffer.2.1, hbuffer.2.2, rfl⟩
  · rename_i hbuffer
    obtain ⟨handling, hstep, rfl⟩ := Option.map_eq_some_iff.mp hs
    exact .inr ⟨fun he hbig => Bool.eq_false_iff.mpr fun hmakes => hbuffer ⟨he, hmakes, hbig⟩,
      handling, hstep, rfl⟩

/-- A step of the serve thread that sends nothing cannot fail. -/
theorem Handling.step_true {s s' : Handling}
    (hnil : ∀ h out, s.handler.serve chunkSize false = some (h, out) → out = [])
    (hs : s.step chunkSize (.serve false) = some s') : s.step chunkSize (.serve true) = some s' := by
  obtain ⟨⟨h, out⟩, hserve, rfl⟩ := Option.map_eq_some_iff.mp hs
  obtain rfl := hnil h out hserve
  rcases RequestHandler.serve_cases hserve with ⟨hserve, -⟩ | ⟨-, hne, -⟩
  · change (s.handler.serve chunkSize true).map _ = _
    rw [hserve]
    rfl
  · exact absurd rfl hne

theorem RequestHandler.await_chunking (h : RequestHandler) : h.await.point.chunking = false := by
  unfold RequestHandler.await
  split
  · rfl
  · split <;> rfl

theorem RequestHandler.nextIteration_chunking (h : RequestHandler) (r : ServeRequest) (ok : Bool) :
    (h.nextIteration r ok).1.point.chunking = false ∧
      ∀ m ∈ (h.nextIteration r ok).2, m.data.chunk = none := by
  constructor
  · unfold RequestHandler.nextIteration
    split
    · exact RequestHandler.await_chunking _
    · rfl
  · intro m hm
    unfold RequestHandler.nextIteration RequestHandler.closing at hm
    dsimp only at hm
    split at hm
    · split at hm
      · rw [List.mem_singleton.mp hm]
        rfl
      · cases hm
    · cases hm

/-- A step of the serve thread before the buffer is made. -/
theorem RequestHandler.serve_chunkless {h h₁ : RequestHandler} {out : List Outgoing} {ok : Bool}
    (hp : h.point.chunking = false) (hbuffer : h.makesBuffer = false)
    (hs : h.serve chunkSize ok = some (h₁, out)) :
    h₁.point.chunking = false ∧ ∀ m ∈ out, m.data.chunk = none := by
  have hnil : ∀ m ∈ ([] : List Outgoing), m.data.chunk = none := nofun
  unfold RequestHandler.serve at hs
  unfold RequestHandler.makesBuffer at hbuffer
  cases hpoint : h.point with
  | waiting =>
      simp only [hpoint] at hs
      split at hs <;> cases hs
      exact ⟨h.await_chunking, hnil⟩
  | header r =>
      simp only [hpoint] at hs
      cases hs
      refine ⟨by split <;> rfl, fun m hm => ?_⟩
      rw [List.mem_singleton.mp hm]
      rfl
  | headerSent r =>
      simp only [hpoint] at hs hbuffer
      split at hs
      · have hnext := h.nextIteration_chunking r ok
        rwa [Option.some.inj hs] at hnext
      split at hs
      · cases hs
        exact ⟨rfl, hnil⟩
      · rename_i hcancel hstop
        simp [hcancel, hstop] at hbuffer
  | chunk | chunkSent | callback | called =>
      rw [hpoint] at hp
      cases hp
  | done =>
      simp only [hpoint] at hs
      cases hs

/-- A step before the buffer is made. -/
theorem Handling.Chunkless.step {s s' : Handling} {e : HandlingEvent} (h : s.Chunkless)
    (hbuffer : e.isServe = true → s.handler.makesBuffer = false)
    (hs : s.step chunkSize e = some s') : s'.Chunkless := by
  have hsent : ∀ {ok out}, (∀ m ∈ out, m.data.chunk = none) →
      ∀ m ∈ s.sent ++ delivered ok out, m.data.chunk = none := by
    intro ok out hout m hm
    rcases List.mem_append.mp hm with hm | hm
    · exact h.sent m hm
    · exact hout m (mem_of_mem_delivered hm)
  cases Handling.steps_of_step hs with
  | dropped | refused | gone | returns => exact ⟨h.point, h.sent⟩
  | @accepted id =>
      refine ⟨?_, h.sent⟩
      rw [RequestHandler.serveRequest_point]
      exact h.point
  | @cancel id ok =>
      have hcancel : (s.handler.cancelRequest id).1.point = s.handler.point ∧
          ∀ m ∈ (s.handler.cancelRequest id).2, m.data.chunk = none := by
        unfold RequestHandler.cancelRequest
        split
        · exact ⟨rfl, nofun⟩
        split
        · exact ⟨rfl, nofun⟩
        split
        · exact ⟨rfl, nofun⟩
        · refine ⟨rfl, fun m hm => ?_⟩
          rw [List.mem_singleton.mp hm]
          rfl
      exact ⟨by rw [hcancel.1]; exact h.point, hsent hcancel.2⟩
  | exits hd he =>
      refine ⟨?_, h.sent⟩
      unfold RequestHandler.exitGracefully at he
      split at he
      · cases he
        exact h.point
      split at he <;> cases he
      exact h.point
  | serves hserve =>
      obtain ⟨hpoint, hout⟩ := RequestHandler.serve_chunkless h.point (hbuffer rfl) hserve
      exact ⟨hpoint, hsent hout⟩

/-- **The invariant of a handler in its process** in which `r` is spared. -/
structure HandlerProcess.Inv (source : ContentSource) (info : ContentInfo) (chunkSize : UInt64)
    (maxBuffer : ℕ) (r : ServeRequest) (s : HandlerProcess) : Prop where
  origins : s.handling.accepted.map ServeRequest.origin = List.range s.handling.accepted.length
  answering : Answering chunkSize.toNat source info (· ≠ r) (· ≠ r) s.handling.accepted s.handling.sent
    s.handling.handler
  buffer : chunkSize.toNat ≤ maxBuffer → s.terminated = false
  noBuffer : maxBuffer < chunkSize.toNat → s.handling.Chunkless

/-- A step while the sends for `r` succeed. -/
theorem HandlerProcess.Inv.answering_step (h : s.Inv source info chunkSize maxBuffer r)
    (hspares : s.Spares r e) (hconn : s.Connected chunkSize r e) {handling : Handling}
    (hs : s.handling.step chunkSize e = some handling) :
    Answering chunkSize.toNat source info (· ≠ r) (· ≠ r) handling.accepted handling.sent
      handling.handler := by
  by_cases hfails : e = .serve false ∧ r ∈ s.handling.handler.openRequests
  · obtain ⟨rfl, hopen⟩ := hfails
    have hs' := Handling.step_true (hconn rfl hopen) hs
    refine Handling.answering_step rfl h.origins h.answering ⟨?_, ?_⟩ (Handling.loses_none rfl _) hs'
    · rintro id ok ⟨⟩
    · rintro ⟨⟩
  · refine Handling.answering_step rfl h.origins h.answering hspares ⟨fun he r' hr' heq => ?_,
      fun id he => ?_⟩ hs
    · exact hfails ⟨he, heq ▸ hr'⟩
    · exact hspares.1 id false he

theorem HandlerProcess.inv_of_run {es : List HandlingEvent}
    (hr : (serving source info chunkSize maxBuffer).run (.init source info) es = some s)
    (hspared : (serving source info chunkSize maxBuffer).Along (HandlerProcess.Spares r)
      (.init source info) es)
    (hconn : (serving source info chunkSize maxBuffer).Along (HandlerProcess.Connected chunkSize r)
      (.init source info) es) : s.Inv source info chunkSize maxBuffer r := by
  refine (hspared.and hconn).inv (P := HandlerProcess.Inv source info chunkSize maxBuffer r) ?_
    ⟨rfl, .init, fun _ => rfl, fun _ => ⟨rfl, fun m hm => by cases hm⟩⟩ hr
  rintro s e s' h ⟨hspares, hconn⟩ hs
  obtain ⟨-, ⟨-, hbig, rfl⟩ | ⟨hbuffer, handling, hstep, rfl⟩⟩ := HandlerProcess.step_cases hs
  · exact ⟨h.origins, h.answering, fun hfits => absurd hbig hfits.not_gt, h.noBuffer⟩
  · exact ⟨Handling.origins_step h.origins hstep, h.answering_step hspares hconn hstep, h.buffer,
      fun hbig => (h.noBuffer hbig).step (fun he => hbuffer he hbig) hstep⟩

/-! ## A send that failed -/

/-- The serve thread has returned, with not all chunks of the response to `r` sent. -/
def HandlerProcess.Lost (source : ContentSource) (info : ContentInfo) (C : ℕ) (r : ServeRequest)
    (s : HandlerProcess) : Prop :=
  s.handling.handler.isDone = true ∧ (about r.origin s.handling.sent = [] ∨
    ∃ k < source.chunks C, about r.origin s.handling.sent = responseUpTo C source info r k)

theorem HandlerProcess.Lost.step {C : ℕ} (h : s.Lost source info C r)
    (hs : s.step chunkSize maxBuffer e = some s') : s'.Lost source info C r := by
  obtain ⟨-, ⟨-, -, rfl⟩ | ⟨-, handling, hstep, rfl⟩⟩ := HandlerProcess.step_cases hs
  · exact h
  · obtain ⟨hhandler, hsent⟩ := Handling.step_done hstep h.1
    refine ⟨?_, ?_⟩
    · change handling.handler.isDone = true
      rw [hhandler]
      exact h.1
    · change about r.origin handling.sent = [] ∨ ∃ k < _, about r.origin handling.sent = _
      rw [hsent]
      exact h.2

/-- A step of the serve thread that sends is one in front of a message of the response, or closes a
response that was cancelled. -/
theorem RequestHandler.sends_or_cancelled {h h₁ : RequestHandler} {out : List Outgoing}
    (hs : h.serve chunkSize false = some (h₁, out)) (hout : out ≠ []) :
    h₁ = h.leave ∧ (h.point.sends = true ∨ h.cancelHandlingRequest = true) := by
  rcases RequestHandler.serve_cases hs with ⟨-, hnil⟩ | ⟨-, -, hleave, r, -, hsends | ⟨-, hc⟩ | ⟨-, hc⟩⟩
  · exact absurd hnil.symm hout
  · exact ⟨hleave, .inl hsends⟩
  · exact ⟨hleave, .inr hc⟩
  · exact ⟨hleave, .inr hc⟩

/-- The serve thread does not send where it makes the buffer. -/
theorem RequestHandler.nil_of_makesBuffer {h h₁ : RequestHandler} {out : List Outgoing}
    (hbuffer : h.makesBuffer = true) (hs : h.serve chunkSize false = some (h₁, out)) : out = [] := by
  by_contra hout
  obtain ⟨-, hsends | hc⟩ := RequestHandler.sends_or_cancelled hs hout
  all_goals
    unfold RequestHandler.makesBuffer at hbuffer
    split at hbuffer
  · rename_i hp
    rw [hp] at hsends
    cases hsends
  · cases hbuffer
  · rw [hc] at hbuffer
    cases hbuffer
  · cases hbuffer

/-- **A send of the serve thread fails** while `r` is open. -/
theorem Answering.lost {lost : ServeRequest → Prop} {C : ℕ} {accepted : List ServeRequest}
    {sent : List Outgoing} {h h₁ : RequestHandler} {out : List Outgoing}
    (ha : Answering C source info (· ≠ r) lost accepted sent h) (hopen : r ∈ h.openRequests)
    (hs : h.serve chunkSize false = some (h₁, out)) (hout : out ≠ []) :
    h₁.isDone = true ∧ (about r.origin sent = [] ∨
      ∃ k < source.chunks C, about r.origin sent = responseUpTo C source info r k) := by
  obtain ⟨rfl, hwhy⟩ := RequestHandler.sends_or_cancelled hs hout
  refine ⟨rfl, ?_⟩
  rcases RequestHandler.mem_openRequests.mp hopen with hhand | hpending
  · -- the request in hand was not cancelled, so the message is one of its response
    have hsends : h.point.sends = true := hwhy.resolve_right fun hc => ha.cancelled r hhand hc rfl
    have htrail := ha.progress r hhand
    cases hp : h.point with
    | header r' =>
        rw [hp] at htrail
        exact .inl htrail
    | chunk r' sequence total data stream =>
        rw [hp] at htrail
        obtain ⟨k, hk, -, -, -, -, hsent⟩ := htrail
        rw [hp] at hhand
        cases hhand
        exact .inr ⟨k, hk, hsent⟩
    | waiting | headerSent | chunkSent | callback | called | done =>
        rw [hp] at hsends
        cases hsends
  · exact .inl (ha.books.fresh r hpending)

/-- **What a failed send leaves.** In a run in which `r` is not cancelled every send of the serve
thread has succeeded while `r` was open, or the thread has returned in the middle of the response. -/
theorem HandlerProcess.lost_of_run {es : List HandlingEvent}
    (hr : (serving source info chunkSize maxBuffer).run (.init source info) es = some s)
    (hspared : (serving source info chunkSize maxBuffer).Along (HandlerProcess.Spares r)
      (.init source info) es) :
    (s.handling.accepted.map ServeRequest.origin = List.range s.handling.accepted.length ∧
      Answering chunkSize.toNat source info (· ≠ r) (fun _ => True) s.handling.accepted s.handling.sent
        s.handling.handler) ∧
    ((serving source info chunkSize maxBuffer).Along (HandlerProcess.Connected chunkSize r)
      (.init source info) es ∨ s.Lost source info chunkSize.toNat r) := by
  refine hspared.induction (P := fun es s =>
    (s.handling.accepted.map ServeRequest.origin = List.range s.handling.accepted.length ∧
      Answering chunkSize.toNat source info (· ≠ r) (fun _ => True) s.handling.accepted s.handling.sent
        s.handling.handler) ∧
    ((serving source info chunkSize maxBuffer).Along (HandlerProcess.Connected chunkSize r)
      (.init source info) es ∨ s.Lost source info chunkSize.toNat r))
    ⟨⟨rfl, .init⟩, .inl trivial⟩ ?_ hr
  rintro es s e s' hrun ⟨⟨hnum, ha⟩, hlost⟩ hspares hs
  have hstep := HandlerProcess.step_cases hs
  refine ⟨?_, ?_⟩
  · obtain ⟨-, ⟨-, -, rfl⟩ | ⟨-, handling, hstep, rfl⟩⟩ := hstep
    · exact ⟨hnum, ha⟩
    · exact ⟨Handling.origins_step hnum hstep,
        Handling.answering_step rfl hnum ha hspares (Handling.loses_any _ _) hstep⟩
  rcases hlost with halong | hlost
  · by_cases hconn : s.Connected chunkSize r e
    · exact .inl ((Machine.along_snoc_iff hrun).mpr ⟨halong, hconn⟩)
    · right
      unfold HandlerProcess.Connected at hconn
      push Not at hconn
      obtain ⟨rfl, hopen, h₁, out, hserve, hout⟩ := hconn
      obtain ⟨hd, hsent⟩ := ha.lost hopen hserve hout
      have hserves : s.handling.step chunkSize (.serve false) =
          some { s.handling with handler := h₁, sent := s.handling.sent ++ delivered false out } := by
        change (s.handling.handler.serve chunkSize false).map _ = _
        rw [hserve]
        rfl
      obtain ⟨-, ⟨hbuffer, -⟩ | ⟨-, handling, hstep, rfl⟩⟩ := hstep
      · exact absurd (RequestHandler.nil_of_makesBuffer hbuffer hserve) hout
      obtain rfl := Option.some.inj (hserves.symm.trans hstep)
      refine ⟨hd, ?_⟩
      rw [delivered_false, List.append_nil]
      exact hsent
  · exact .inr (hlost.step hs)

end Sent

/-! ## The content -/

/-- The chunks hold exactly the first `size()` bytes of the stream, and the server accepts them for a
content of that size. -/
def Delivers (source : ContentSource) (chunkSize id : UInt64) (chunks : List ContentChunk) : Prop :=
  (chunks.map ContentChunk.data).flatten = source.data.take source.size.toNat ∧
  ∀ {ext : Externals} (cfg : Config ext) (st : St) (p : Ptr) (times : List Time),
    cfg.chunkSize = chunkSize → (st.objs p).id = id → Expects cfg st p source.size.toNat 0 →
    times.length = chunks.length → (receiveChunks cfg st (chunks.zip times)).isSome

section Content

variable {C : ℕ} {source : ContentSource} {info : ContentInfo} {r : ServeRequest}

theorem chunksOf_upTo (k : ℕ) : chunksOf (responseUpTo C source info r k) =
    (List.range k).map (expectedChunk C r.id source.data) := by
  rw [chunksOf, responseUpTo, List.filterMap_cons_none rfl, List.filterMap_map]
  exact congrFun List.filterMap_eq_map _

/-- The chunks of a whole response are those of the stream. -/
theorem chunksOf_responseUpTo :
    chunksOf (responseUpTo C source info r (source.chunks C)) = expectedChunks C r.id source.data :=
  chunksOf_upTo _

/-- The chunks of the stream are those of the content if it holds nothing else. -/
theorem delivers_expectedChunks {chunkSize id : UInt64} (hpos : 0 < chunkSize)
    (hdata : source.size.toNat ≤ source.data.length) :
    Delivers source chunkSize id (expectedChunks chunkSize.toNat id source.data) ↔
      source.data.length = source.size.toNat := by
  have hflat : ((expectedChunks chunkSize.toNat id source.data).map ContentChunk.data).flatten =
      source.data := flatten_expectedChunks hpos id source.data
  constructor
  · rintro ⟨hbytes, -⟩
    rw [hflat] at hbytes
    have hlen := congrArg List.length hbytes
    rw [List.length_take] at hlen
    omega
  · intro hexact
    refine ⟨?_, fun cfg st p times hsame hid hexpects htimes => ?_⟩
    · rw [hflat, List.take_of_length_le hexact.le]
    · have hlen : times.length = pieces chunkSize.toNat source.size.toNat := by
        rw [htimes, expectedChunks, List.length_map, List.length_range, hexact]
      obtain ⟨st', hst'⟩ := hexpects.receive_all hexact (by rw [hsame]) times hlen
      rw [List.take_of_length_le (by simp [expectedChunks, hexact, hsame]), hsame, hid] at hst'
      rw [hst']
      rfl

/-- No chunks are those of a content of no bytes. -/
theorem delivers_nil {chunkSize id : UInt64} (hdata : source.size.toNat ≤ source.data.length) :
    Delivers source chunkSize id [] ↔ source.size.toNat = 0 := by
  constructor
  · rintro ⟨hbytes, -⟩
    have hlen := congrArg List.length hbytes
    rw [List.map_nil, List.flatten_nil, List.length_nil, List.length_take] at hlen
    omega
  · intro hzero
    refine ⟨?_, fun cfg st p times _ _ _ _ => rfl⟩
    rw [hzero]
    rfl

/-- What is left of a response when a send has failed does not deliver a content of some bytes. -/
theorem HandlerProcess.Lost.not_delivers {s : HandlerProcess} {chunkSize : UInt64}
    (h : s.Lost source info chunkSize.toNat r) (hexact : source.data.length = source.size.toNat)
    (hsize : 0 < source.size.toNat) :
    ¬ Delivers source chunkSize r.id (chunksOf (about r.origin s.handling.sent)) := by
  rcases h.2 with hnil | ⟨k, hk, hsent⟩
  · rw [hnil, chunksOf, List.filterMap_nil, delivers_nil hexact.ge]
    exact hsize.ne'
  · rintro ⟨hbytes, -⟩
    have hpieces : ((List.range k).map (piece chunkSize.toNat source.data)).flatten =
        source.data.take (k * chunkSize.toNat) := flatten_pieces source.data k
    have hlt := (lt_pieces_iff (pos_of_lt_pieces hk)).mp hk
    rw [hsent, chunksOf_upTo, List.map_map] at hbytes
    have hlen := congrArg List.length (hpieces.symm.trans hbytes)
    rw [List.length_take, List.length_take] at hlen
    omega

end Content

/-- The stream holds no more than the announced size. Without a buffer nothing of it is sent, which is
what a content of no bytes needs. -/
def ContentSource.Deliverable (source : ContentSource) (chunkSize : UInt64) (maxBuffer : ℕ) : Prop :=
  if chunkSize.toNat ≤ maxBuffer then source.data.length = source.size.toNat else source.size.toNat = 0

/-- **A response delivers its content if and only if the stream holds exactly the announced size and
the buffer for the chunks can be made**, as long as its sends succeed. For every source whose stream
supplies at least its size and every run in which the request is not cancelled while it is open: the
serve thread can come to the end of the response or of the process, and once it is there and no send
of the thread has failed before, the chunks that were sent are the first `size()` bytes, in chunks
the server accepts, exactly under this condition. Under the condition on the stream they never are if
a send has failed. -/
theorem delivers_iff {source : ContentSource} {info : ContentInfo} {chunkSize : UInt64} {maxBuffer : ℕ}
    (hpos : 0 < chunkSize) (hdata : source.size.toNat ≤ source.data.length)
    {es : List HandlingEvent} {s : HandlerProcess}
    (hr : (serving source info chunkSize maxBuffer).run (.init source info) es = some s)
    {r : ServeRequest} (hmem : r ∈ s.handling.accepted)
    (hspared : (serving source info chunkSize maxBuffer).Along (HandlerProcess.Spares r)
      (.init source info) es) :
    (s.handling.handler.point.request = some r → ∃ n s',
      (serving source info chunkSize maxBuffer).run s (List.replicate n (.serve true)) = some s' ∧
      (s'.terminated = true ∨ r ∉ s'.handling.handler.openRequests)) ∧
    ((serving source info chunkSize maxBuffer).Along (HandlerProcess.Connected chunkSize r)
        (.init source info) es →
      s.terminated = true ∨ r ∉ s.handling.handler.openRequests →
      (Delivers source chunkSize r.id (chunksOf (about r.origin s.handling.sent)) ↔
        source.Deliverable chunkSize maxBuffer)) ∧
    (source.data.length = source.size.toNat → 0 < source.size.toNat →
      Delivers source chunkSize r.id (chunksOf (about r.origin s.handling.sent)) →
      (serving source info chunkSize maxBuffer).Along (HandlerProcess.Connected chunkSize r)
        (.init source info) es) := by
  obtain ⟨⟨-, hanswering⟩, hlost⟩ := HandlerProcess.lost_of_run hr hspared
  refine ⟨fun hhand => response_ends hpos (hanswering.request_books hhand).notMem,
    fun hconn hover => ?_, fun hexact hsize hdelivers =>
      hlost.resolve_right fun hlost => hlost.not_delivers hexact hsize hdelivers⟩
  have h := HandlerProcess.inv_of_run hr hspared hconn
  unfold ContentSource.Deliverable
  split_ifs with hfits
  · have hopen : r ∉ s.handling.handler.openRequests :=
      hover.resolve_left (Bool.eq_false_iff.mp (h.buffer hfits))
    have hsent : about r.origin s.handling.sent =
        responseUpTo chunkSize.toNat source info r (source.chunks chunkSize.toNat) :=
      ((h.answering.ended hmem hopen).settled fun hlost => hlost rfl).resolve_right
        fun hcut => hcut.1 rfl
    rw [hsent, chunksOf_responseUpTo]
    exact delivers_expectedChunks hpos hdata
  · have hnone : chunksOf (about r.origin s.handling.sent) = [] := by
      refine List.filterMap_eq_nil_iff.mpr fun d hd => ?_
      exact (h.noBuffer (Nat.lt_of_not_le hfits)).sent _ (mem_of_mem_about hd)
    rw [hnone]
    exact delivers_nil hdata

/-! ## Sample runs -/

/-- What a `std::vector<char>` can hold. -/
def maxVector : ℕ := 2 ^ 63 - 1

/-- One request, served to its end. -/
def servedOnce : List HandlingEvent := .serveRequest 1 :: List.replicate 9 (.serve true)

/-- The handler of `source`, with chunks of `chunkSize` bytes, after `servedOnce`. -/
def servedBy (source : ContentSource) (chunkSize : UInt64) (es : List HandlingEvent) : HandlerProcess :=
  ((serving source threeBytesInfo chunkSize maxVector).run (.init source threeBytesInfo) es).getD
    (.init source threeBytesInfo)

theorem delivers_threeBytes :
    (servedBy threeBytes 2 servedOnce).handling.accepted = [⟨0, 1⟩] ∧
    Delivers threeBytes 2 1 (chunksOf (about 0 (servedBy threeBytes 2 servedOnce).handling.sent)) := by
  have hrun : (serving threeBytes threeBytesInfo 2 maxVector).run (.init threeBytes threeBytesInfo)
      servedOnce = some (servedBy threeBytes 2 servedOnce) := rfl
  have hspared : (serving threeBytes threeBytesInfo 2 maxVector).Along (HandlerProcess.Spares ⟨0, 1⟩)
      (.init threeBytes threeBytesInfo) servedOnce := by
    refine Machine.along_of_forall fun e he s => ⟨?_, ?_⟩
    · rintro id ok rfl
      exact absurd he (by simp [servedOnce])
    · rintro rfl
      exact absurd he (by simp [servedOnce])
  have hconn : (serving threeBytes threeBytesInfo 2 maxVector).Along
      (HandlerProcess.Connected 2 ⟨0, 1⟩) (.init threeBytes threeBytesInfo) servedOnce := by
    refine Machine.along_of_forall fun e he s => ?_
    rintro rfl
    exact absurd he (by simp [servedOnce])
  exact ⟨rfl, ((delivers_iff (by decide) (by decide) hrun (by decide) hspared).2.1 hconn
    (.inr (by decide))).mpr rfl⟩

/-- A stream of four bytes for a content of three. -/
def longStream : ContentSource := ⟨"text/plain", 3, [1, 2, 3, 4]⟩

/-- The last chunk has a byte too many, and the server does not accept it. -/
theorem longStream_not_delivered :
    (serving longStream threeBytesInfo 2 maxVector).run (.init longStream threeBytesInfo) servedOnce =
      some (servedBy longStream 2 servedOnce) ∧
    (chunksOf (about 0 (servedBy longStream 2 servedOnce).handling.sent)).map ContentChunk.data =
      [[1, 2], [3, 4]] ∧
    (receiveChunks sampleConfig (stateAfter sampleConfig
        [.forwardRequest "path" 0 true, .recv ⟨some (.contentHeader sampleHeader)⟩ 1])
      ((chunksOf (about 0 (servedBy longStream 2 servedOnce).handling.sent)).zip [2, 3])).isSome =
      false ∧
    ¬ Delivers longStream 2 1 (chunksOf (about 0 (servedBy longStream 2 servedOnce).handling.sent)) := by
  refine ⟨rfl, by decide, rfl, ?_⟩
  rintro ⟨hbytes, -⟩
  revert hbytes
  decide

/-- The buffer for chunks of `2 ^ 63` bytes cannot be made, and the process ends after the header. -/
example : (servedBy threeBytes 9223372036854775808 (servedOnce.take 4)).terminated = true ∧
    (about 0 (servedBy threeBytes 9223372036854775808 (servedOnce.take 4)).handling.sent).length = 1 :=
  ⟨rfl, rfl⟩

end Loon
