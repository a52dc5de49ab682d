import Loon.Client.Responses

set_option autoImplicit false

/-!
# Steps of the serve thread

The steps of `serve` by what they mean for the request in hand: the thread wakes up, it moves on
with the request, it ends with it, or it leaves because the handler was stopped or because a send
has failed.

* `RequestHandler.spent`: nothing is left to read for the request in hand;
* **`RequestHandler.serves_of_serve`**: every step is one of the five.
-/

namespace Loon

/-! ## Before and after the callback -/

/-- The next read of the stream returns nothing. -/
def RequestHandler.spent (C : ℕ) (h : RequestHandler) : Prop :=
  match h.point with
  | .header _ => h.source.data.take C = []
  | .headerSent _ => h.source.data.take C = []
  | .chunk _ _ _ _ stream => stream.take C = []
  | .chunkSent _ _ _ stream => stream.take C = []
  | _ => False

instance (C : ℕ) (h : RequestHandler) : Decidable (h.spent C) := by
  unfold RequestHandler.spent
  split <;> infer_instance

theorem ServePoint.request_of_calls {p : ServePoint} {r : ServeRequest} (h : p.calls = some r) :
    p.request = some r ∧ p.reported = none ∧ p.late = true := by
  cases p <;> cases h
  exact ⟨rfl, rfl, rfl⟩

theorem ServePoint.request_of_reported {p : ServePoint} {r : ServeRequest} (h : p.reported = some r) :
    p.request = some r := by
  cases p <;> cases h
  rfl

theorem ServePoint.late_iff {p : ServePoint} :
    p.late = true ↔ (∃ r, p.calls = some r) ∨ ∃ r, p.reported = some r := by
  cases p <;> simp [late, calls, reported]

/-- Away from the callback it was not run for the request in hand. -/
theorem ServePoint.reported_of_late {p : ServePoint} (h : p.late = false) :
    p.calls = none ∧ p.reported = none := by
  cases p with
  | callback | called => cases h
  | _ => exact ⟨rfl, rfl⟩

/-! ## The wait -/

section Await

variable {h : RequestHandler}

theorem RequestHandler.await_openRequests : h.await.openRequests = h.pendingRequests := by
  unfold RequestHandler.await
  split
  · rfl
  · split
    · rfl
    · rename_i r rs hq
      exact hq.symm

/-- After the wait the thread has returned, waits, or has taken a request that waited. -/
theorem RequestHandler.await_point :
    h.await.point.late = false ∧ ∀ r, h.await.point.request = some r → r ∈ h.pendingRequests := by
  unfold RequestHandler.await
  split
  · exact ⟨rfl, by rintro r ⟨⟩⟩
  · split
    · exact ⟨rfl, by rintro r ⟨⟩⟩
    · rename_i r rs hq
      refine ⟨rfl, ?_⟩
      rintro r' ⟨⟩
      rw [hq]
      exact List.mem_cons_self

theorem RequestHandler.await_flags : h.await.stop = h.stop ∧
    h.await.cancelHandlingRequest = h.cancelHandlingRequest ∧
    h.await.source = h.source ∧ (h.await.isDone = true → h.stop = true) := by
  unfold RequestHandler.await
  split
  · rename_i hstop
    exact ⟨rfl, rfl, rfl, fun _ => hstop⟩
  · split
    · exact ⟨rfl, rfl, rfl, by rintro ⟨⟩⟩
    · exact ⟨rfl, rfl, rfl, by rintro ⟨⟩⟩

end Await

/-! ## The steps -/

/-- What changes when the thread moves on to the point `p`: the callback is run between its two
points, and a request that was cancelled does not get there. -/
structure RequestHandler.Advances (C : ℕ) (h : RequestHandler) (p : ServePoint) : Prop where
  reported : h.point.reported = none ∧ p.reported = h.point.calls
  late : h.cancelHandlingRequest = true → p.late = h.point.late
  calls : ∀ r, p.calls = some r → h.cancelHandlingRequest = false ∧ h.point.late = false
  spent : h.cancelHandlingRequest = true → { h with point := p }.spent C → h.spent C

/-- **What a step of the serve thread does**, with what the server receives of it. -/
inductive RequestHandler.Serves (C : ℕ) (h : RequestHandler) :
    RequestHandler → List Outgoing → Prop where
  | wakes (hp : h.point = .waiting) : Serves C h h.await []
  | moves {r : ServeRequest} {p : ServePoint} {out : List Outgoing} (hr : h.point.request = some r)
      (hp : p.request = some r) (hm : h.Advances C p) (hout : ∀ m ∈ out, m.origin = r.origin) :
      Serves C h { h with point := p } out
  | ends {r : ServeRequest} {out : List Outgoing} (hr : h.point.request = some r)
      (hend : h.point.late = false ∧ h.cancelHandlingRequest = true ∨ h.point.reported = some r)
      (hout : ∀ m ∈ out, ∃ id, m = ⟨r.origin, .closeResponse ⟨id⟩⟩) :
      Serves C h { h with handlingRequestId := none, cancelHandlingRequest := false }.await out
  | leaves {r : ServeRequest} (hr : h.point.request = some r) (hstop : h.stop = true)
      (hc : h.cancelHandlingRequest = false) : Serves C h h.leave []
  | fails {r : ServeRequest} (hr : h.point.request = some r)
      (hend : h.point.sends = true ∨ h.point.late = false ∧ h.cancelHandlingRequest = true ∨
        h.point.reported = some r) : Serves C h h.leave []

section Steps

variable {chunkSize : UInt64} {h h₁ : RequestHandler} {out : List Outgoing}
  {r : ServeRequest} {ok : Bool}

theorem RequestHandler.Serves.of_nextIteration {C : ℕ} (hr : h.point.request = some r)
    (hend : h.point.late = false ∧ h.cancelHandlingRequest = true ∨ h.point.reported = some r)
    {c : Bool} (heq : { h with cancelHandlingRequest := c }.nextIteration r true = (h₁, out)) :
    h.Serves C h₁ out := by
  cases heq
  simp only [true_or, if_true]
  refine .ends hr hend fun m hm => ?_
  simp only [closing] at hm
  split at hm
  · split at hm
    · rw [List.mem_singleton.mp hm]
      exact ⟨_, rfl⟩
    · cases hm
  · cases hm

theorem RequestHandler.Serves.of_finish {C : ℕ} (hr : h.point.request = some r)
    (hend : h.point.late = false ∧ h.cancelHandlingRequest = true ∨ h.point.reported = some r)
    {total : ℕ} (heq : h.finish r total true = (h₁, out)) : h.Serves C h₁ out := by
  unfold RequestHandler.finish at heq
  split at heq
  · exact .of_nextIteration hr hend heq
  · exact .of_nextIteration hr hend (c := h.cancelHandlingRequest) heq

/-- The head of the chunk loop, for a request that was not cancelled. -/
theorem RequestHandler.Serves.of_readChunk {C : ℕ} (hr : h.point.request = some r)
    (hlate : h.point.late = false) (hc : h.cancelHandlingRequest = false) {sequence : UInt64} {total : ℕ}
    {stream : Bytes} : h.Serves C (h.readChunk chunkSize r sequence total stream) [] := by
  have hno : h.cancelHandlingRequest ≠ true := by
    rw [hc]
    exact Bool.false_ne_true
  obtain ⟨hcalls, hreported⟩ := ServePoint.reported_of_late hlate
  unfold RequestHandler.readChunk
  simp only
  split
  · refine .moves hr rfl ⟨⟨hreported, hcalls.symm⟩, fun h' => absurd h' hno, fun _ _ => ⟨hc, hlate⟩,
      fun h' => absurd h' hno⟩ ?_
    rintro m ⟨⟩
  · refine .moves hr rfl ⟨⟨hreported, hcalls.symm⟩, fun h' => absurd h' hno, by rintro _ ⟨⟩,
      fun h' => absurd h' hno⟩ ?_
    rintro m ⟨⟩

theorem RequestHandler.Serves.of_serve_true (hs : h.serve chunkSize true = some (h₁, out)) :
    h.Serves chunkSize.toNat h₁ out := by
  have hsingle : ∀ (r : ServeRequest) (d : ClientData), ∀ m ∈ [Outgoing.mk r.origin d],
      m.origin = r.origin := by
    intro r d m hm
    rw [List.mem_singleton.mp hm]
  unfold RequestHandler.serve at hs
  cases hp : h.point with
  | waiting =>
      simp only [hp] at hs
      split at hs <;> cases hs
      exact .wakes hp
  | header r =>
      simp only [hp] at hs
      cases hs
      refine .moves (by rw [hp]; rfl) rfl ⟨by rw [hp]; exact ⟨rfl, rfl⟩, fun _ => by rw [hp]; rfl,
        by rintro _ ⟨⟩, fun _ => ?_⟩ (hsingle r _)
      simp only [spent, hp]
      exact id
  | headerSent r =>
      simp only [hp] at hs
      split at hs
      · rename_i hc
        exact .of_nextIteration (by rw [hp]; rfl) (.inl ⟨by rw [hp]; rfl, hc⟩)
          (c := h.cancelHandlingRequest) (Option.some.inj hs)
      · rename_i hc
        split at hs <;> cases hs
        · rename_i hstop
          exact .leaves (by rw [hp]; rfl) hstop (by simpa using hc)
        · exact .of_readChunk (by rw [hp]; rfl) (by rw [hp]; rfl) (by simpa using hc)
  | chunk r sequence total data stream =>
      simp only [hp] at hs
      cases hs
      refine .moves (by rw [hp]; rfl) rfl ⟨by rw [hp]; exact ⟨rfl, rfl⟩, fun _ => by rw [hp]; rfl,
        by rintro _ ⟨⟩, fun _ => ?_⟩ (hsingle r _)
      simp only [spent, hp]
      exact id
  | chunkSent r sequence total stream =>
      simp only [hp] at hs
      split at hs
      · rename_i hc
        exact .of_finish (by rw [hp]; rfl) (.inl ⟨by rw [hp]; rfl, hc⟩) (Option.some.inj hs)
      · rename_i hc
        split at hs <;> cases hs
        · rename_i hstop
          exact .leaves (by rw [hp]; rfl) hstop (by simpa using hc)
        · exact .of_readChunk (by rw [hp]; rfl) (by rw [hp]; rfl) (by simpa using hc)
  | callback r total =>
      simp only [hp] at hs
      cases hs
      refine .moves (by rw [hp]; rfl) rfl ⟨by rw [hp]; exact ⟨rfl, rfl⟩, fun _ => by rw [hp]; rfl,
        by rintro _ ⟨⟩, fun _ => ?_⟩ (by rintro m ⟨⟩)
      rintro ⟨⟩
  | called r total =>
      simp only [hp] at hs
      exact .of_finish (by rw [hp]; rfl) (.inr (by rw [hp]; rfl)) (Option.some.inj hs)
  | done =>
      simp only [hp] at hs
      cases hs

theorem RequestHandler.serves_of_serve (hs : h.serve chunkSize ok = some (h₁, out)) :
    h.Serves chunkSize.toNat h₁ (delivered ok out) := by
  rcases serve_cases hs with ⟨hs, hout⟩ | ⟨rfl, -, rfl, r, hr, hend⟩
  · rw [hout]
    exact .of_serve_true hs
  · exact .fails hr (hend.imp_right (Or.imp_right And.left))

end Steps

end Loon
