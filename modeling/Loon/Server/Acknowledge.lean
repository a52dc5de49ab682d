import Loon.Server.Safety

set_option autoImplicit false

/-!
# Acknowledging a closed request

A request that the server closed stays in the map until the client answers the `RequestClosed`
message, and `CloseResponse` is one such answer. `onCloseResponse` tests for a response before it
looks at anything else, and closing a request does not give it one.
**`closeResponse_acknowledges_iff`**: in every reachable state the answer is taken exactly when the
client had sent a header for the request before; **`bare_closeResponse_faults`** is the answer to a
request that was closed before the client began a response.
-/

namespace Loon

/-- `s'` is `s` after the request `p` of the id `id` was removed on the client's acknowledgement. -/
structure Acknowledged (s : St) (id : UInt64) (p : Ptr) (s' : St) : Prop where
  removed : s'.requests.lookup id = none
  entries : ∀ id', id' ≠ id → s'.requests.lookup id' = s.requests.lookup id'
  objs : ∀ q, q ≠ p → s'.objs q = s.objs q
  done : s'.done = s.done
  fault : s'.fault = none

/-- The client message that closes the response of the request `id`. -/
def closeResponseOf (id : UInt64) : ClientMessage := ⟨some (.closeResponse ⟨id⟩)⟩

section Acknowledge

variable {ext : Externals} {cfg : Config ext} {s s' : St}

theorem Acknowledged.top {id : UInt64} {p : Ptr} (h : Acknowledged s id p s') :
    Acknowledged s id p s'.top := by
  unfold St.top
  split_ifs with hd
  · exact ⟨h.removed, h.entries, h.objs, h.done, h.fault⟩
  · exact h

/-- The removal of a request whose response is neither missing nor complete. -/
theorem acknowledged_close (hf : s.fault = none) {id : UInt64} {p : Ptr} (r : Request) :
    Acknowledged s id p { s.put p r with requests := s.requests.erase id } where
  removed := Finmap.lookup_erase id s.requests
  entries _ hne := Finmap.lookup_erase_ne hne
  objs _ hq := St.put_objs_ne s r hq
  done := rfl
  fault := hf

/-- `CloseResponse` for a request in the map, when the loop is without a fault. -/
theorem onCloseResponse_eq {id : UInt64} {p : Ptr} (hl : s.requests.lookup id = some p)
    (hid : (s.objs p).id = id) (hd : (s.objs p).isCompleted = false) :
    onCloseResponse s ⟨id⟩ =
      if (s.objs p).hasResponse then
        .ok { s.put p (s.objs p).shut with requests := s.requests.erase id }
      else
        .ok (s.close .invalidClientMessage
          ("Must receive a response before closing it" ++ tag id)) := by
  unfold onCloseResponse
  simp only [hl]
  cases hr : (s.objs p).hasResponse with
  | false => simp [hid]
  | true => simp [hd, Request.close_eq_shut, bind, Except.bind, St.deleteRequest, hid, St.put]

theorem step_closeResponse (hph : s.phase = .loop) (id : UInt64) (now : Time) :
    (protocol cfg).step (.ok s) (.recv (closeResponseOf id) now) =
      some ((onCloseResponse s ⟨id⟩).map St.top) := by
  show step cfg s (.recv (closeResponseOf id) now) = _
  simp only [step, hph, if_true]
  rfl

/-- A request of a run has a response exactly when a header was accepted for it. -/
theorem hasResponse_iff_accepted {es : List Event}
    (h : (protocol cfg).run (.ok St.init) es = some (.ok s)) {p : Ptr} (hp : p < s.created) :
    (s.objs p).hasResponse = true ↔
      (protocol cfg).observe (acceptedHeader cfg p) (.ok St.init) es ≠ [] := by
  have hrec := (records_of_run h hp).header
  rw [← hrec]
  cases hr : (s.objs p).response <;> simp [Request.hasResponse, Request.header, hr]

/-- **When a `CloseResponse` acknowledges.** In every state a run of the loop reaches, and for every
request that was closed and is still in the map: its `CloseResponse` removes it, leaves the others
as they are and keeps the connection open if and only if a header was accepted for it before. -/
theorem closeResponse_acknowledges_iff {es : List Event}
    (h : (protocol cfg).run (.ok St.init) es = some (.ok s)) (hph : s.phase = .loop)
    {id : UInt64} {p : Ptr} (hl : s.requests.lookup id = some p)
    (hc : (s.objs p).isClosed = true) (now : Time) :
    (∃ s', (protocol cfg).step (.ok s) (.recv (closeResponseOf id) now) = some (.ok s') ∧
      Acknowledged s id p s') ↔
    (protocol cfg).observe (acceptedHeader cfg p) (.ok St.init) es ≠ [] := by
  have hI := inv_of_run h
  obtain ⟨hlt, hid⟩ := hI.core.entry id p hl
  have hd : (s.objs p).isCompleted = false := by
    cases hd : (s.objs p).isCompleted with
    | false => rfl
    | true =>
      have hopen := (hI.core.obj p hlt).excl hd
      rw [hc] at hopen
      cases hopen
  rw [← hasResponse_iff_accepted h hlt, step_closeResponse hph, onCloseResponse_eq hl hid hd]
  cases hr : (s.objs p).hasResponse with
  | true =>
    refine iff_of_true ⟨_, rfl, ?_⟩ rfl
    exact (acknowledged_close (hI.fault_none hph) _).top
  | false =>
    refine iff_of_false ?_ (by decide)
    rintro ⟨s', hs', hack⟩
    cases hs'
    -- the connection was closed, although the request is closed and in the map
    have hfault := hack.fault
    simp [St.top, St.close] at hfault

end Acknowledge

/-- A request is answered with a header, and then closed by the server. -/
def closedAfterHeader : List Event :=
  [.forwardRequest "a" 0 true, .recv ⟨some (.contentHeader sampleHeader)⟩ 1,
    .triggerClose 0 "request closed" 2 true]

theorem closedAfterHeader_eq : (protocol sampleConfig).run (.ok St.init) closedAfterHeader =
    some (.ok (stateAfter sampleConfig closedAfterHeader)) := rfl

theorem closeResponse_acknowledges_iff_closedAfterHeader :
    ∃ s', (protocol sampleConfig).step (.ok (stateAfter sampleConfig closedAfterHeader))
        (.recv (closeResponseOf 1) 3) = some (.ok s') ∧
      Acknowledged (stateAfter sampleConfig closedAfterHeader) 1 0 s' :=
  (closeResponse_acknowledges_iff closedAfterHeader_eq rfl (by decide) (by decide) 3).mpr (by decide)

/-- A request is closed by the server before the client began a response. -/
def closedBeforeResponse : List Event :=
  [.forwardRequest "a" 0 true, .triggerClose 0 "request closed" 1 true]

/-- The server sent `RequestClosed`, the request is in the map, and the client's `CloseResponse` for
it closes the connection. -/
theorem bare_closeResponse_faults :
    (protocol sampleConfig).run (.ok St.init) closedBeforeResponse =
      some (.ok (stateAfter sampleConfig closedBeforeResponse)) ∧
    (stateAfter sampleConfig closedBeforeResponse).phase = .loop ∧
    (stateAfter sampleConfig closedBeforeResponse).send =
      [.request 1 "a", .requestClosed 1 "request closed"] ∧
    (stateAfter sampleConfig closedBeforeResponse).requests.lookup 1 = some 0 ∧
    ((stateAfter sampleConfig closedBeforeResponse).objs 0).isClosed = true ∧
    ∃ s', (protocol sampleConfig).step (.ok (stateAfter sampleConfig closedBeforeResponse))
        (.recv (closeResponseOf 1) 2) = some (.ok s') ∧
      s'.done = true ∧
      s'.fault = some ⟨.invalidClientMessage,
        "Must receive a response before closing it [#1]"⟩ ∧
      ¬ Acknowledged (stateAfter sampleConfig closedBeforeResponse) 1 0 s' := by
  refine ⟨rfl, rfl, by decide, by decide, by decide, _, rfl, rfl, by decide, fun h => ?_⟩
  have hfault := h.fault
  revert hfault
  decide

end Loon
