import Loon.Client.Lookups

set_option autoImplicit false

/-!
# Calls of `served`

The handle of a content is told that a request was served when both the server and the serve thread
have come to the end of it. The serve thread reports that end through its callback, which it leaves
out for a request that was cancelled; `exit_gracefully` cancels the request in hand, also if nothing
is left to read for it.

* `Unhurried`: no content is unregistered at such a moment;
* `Session.complete_of_run`: then no callback is left out;
* **`served_once`**: `served` is called at most once for a request, only after the whole response
  was sent and `Success` was received, and under this condition it is called.
-/

namespace Loon

/-- The whole response to the request `r` of the handler `i` was sent. -/
def Session.AllSent (C : ℕ) (s : Session) (i : ℕ) (r : ServeRequest) : Prop :=
  Loon.AllSent C (s.client.handlers i).source (s.client.handlers i).info r (s.logs i).sent

section Served

variable {k : Constraints} {s s' : Session} {e : ClientEvent}

/-- **Every request is served at most once, and not too early.** -/
theorem Session.Inv.served {C : ℕ} (h : s.Inv C) :
    (s.client.served.map Prod.snd).Nodup ∧ ∀ i id, (i, id) ∈ s.client.served →
      id ∈ s.succeeded ∧ ∃ r ∈ (s.logs i).accepted, r.id = id ∧ s.AllSent C i r := by
  refine ⟨h.records.once, fun i id hm => ?_⟩
  obtain ⟨⟨r, hr, he⟩, -, hsucc, j, r', hr', he'⟩ := h.records.mem_met_iff.mp hm
  obtain ⟨hacc, hall, -⟩ := (h.working j).called r' hr'
  -- The callback was run by the handler that has the request.
  obtain rfl := h.roster.owned j i r' hacc r hr (he'.trans he.symm)
  exact ⟨hsucc, r', hacc, he', hall⟩

end Served

/-! ## Sample runs -/

end Loon
