import Loon.GoClient.Pumps

set_option autoImplicit false

/-!
# Who is cancelled by the Go client

The token of a cancellation does not say which request it is for: the goroutine that receives it
closes the `cancel` of its own call of `respond`.

* `Respond.Past`: a call that has made its last check;
* `Respond.Honest`: the invariant of a call; a cancellation that it can observe was meant for it;
* `Addressed`: the steps on which a token is taken only while the handle responds to the request it
  was sent for, or by a call that cannot observe it any more;
* `ClientInv`: the invariant of the client;
* **`cancels_named_request`**: on every run of such steps a call of `respond` observes a cancellation
  and sends a `CloseResponse` only if a `RequestClosed` for its request was received or it has failed.
-/

namespace Loon.GoClient

namespace Respond

variable {r r' : Respond} {told told' : Prop} {c : Content} {request : Request} {clientDone : Bool}

/-- The call has made its last check. -/
def Past (r : Respond) : Prop := r.point = .closeResponse ∨ r.point = .returned

theorem not_past {p : RespondPoint} (hp : r.point = p) (h1 : p ≠ .closeResponse)
    (h2 : p ≠ .returned) : ¬ r.Past := by
  unfold Past
  rw [hp]
  rintro (h | h)
  · exact h1 h
  · exact h2 h

/-- **The invariant of a call** that was `told` to stop or not: whatever it observes it was told or
brought about by a failure. -/
structure Honest (told : Prop) (r : Respond) : Prop where
  failing : r.point = .closeCancel → r.failed = true
  cancel : 0 < r.cancel → r.failed = true ∨ r.helper = .closed
  token : r.TokenTaken → told ∨ r.Past
  closing : r.point = .closeResponse → r.observed = true
  sent : ∀ m, .closeResponse m ∈ r.sent → r.observed = true
  observed : r.observed = true → told ∨ r.failed = true

theorem Honest.init : Honest told .init := by
  refine ⟨by rintro ⟨⟩, by rintro ⟨⟩, ?_, by rintro ⟨⟩, by rintro m ⟨⟩, by rintro ⟨⟩⟩
  rintro (⟨⟨⟩⟩ | ⟨⟨⟩⟩)

theorem Honest.mono (h : r.Honest told) (ht : told → told') : r.Honest told' :=
  ⟨h.failing, h.cancel, fun ht' => (h.token ht').imp_left ht, h.closing, h.sent,
    fun ho => (h.observed ho).imp_left ht⟩

/-- What a call sees before its last check, it was told or brought about. -/
theorem Honest.sees (h : r.Honest told) (hp : ¬ r.Past) (hc : 0 < r.cancel) :
    told ∨ r.failed = true := by
  rcases h.cancel hc with hf | hclosed
  · exact .inr hf
  · exact .inl ((h.token (.inr hclosed)).resolve_right hp)

/-- A step before the last check that closes nothing and sends no `CloseResponse`. -/
theorem Honest.advance (h : r.Honest told) (hp : ¬ r.Past) (hhelper : r'.helper = r.helper)
    (hcancel : r'.cancel = r.cancel) (hfailed : r.failed = true → r'.failed = true)
    (hfailing : r'.point = .closeCancel → r'.failed = true)
    (hclosing : r'.point = .closeResponse → r'.observed = true)
    (hsent : ∀ m, .closeResponse m ∈ r'.sent → .closeResponse m ∈ r.sent)
    (hkeep : r.observed = true → r'.observed = true)
    (hobserved : r'.observed = true → r.observed = true ∨ 0 < r.cancel) : r'.Honest told := by
  refine ⟨hfailing, ?_, ?_, hclosing, fun m hm => hkeep (h.sent m (hsent m hm)), fun ho => ?_⟩
  · rw [hcancel, hhelper]
    exact fun hc => (h.cancel hc).imp_left hfailed
  · unfold TokenTaken
    rw [hhelper]
    exact fun ht => .inl ((h.token ht).resolve_right hp)
  · rcases hobserved ho with ho | hc
    · exact (h.observed ho).imp_right hfailed
    · exact (h.sees hp hc).imp_right hfailed

/-- A step that only moves on. -/
theorem Honest.move (h : r.Honest told) (hp : ¬ r.Past) {p : RespondPoint} (hp1 : p ≠ .closeCancel)
    (hp2 : p ≠ .closeResponse) : Honest told { r with point := p } :=
  h.advance hp rfl rfl (fun hf => hf) (fun hp' => absurd hp' hp1) (fun hp' => absurd hp' hp2)
    (fun _ hm => hm) (fun ho => ho) .inl

/-- A check that finds `cancel` closed. -/
theorem Honest.observe (h : r.Honest told) (hp : ¬ r.Past) (hc : 0 < r.cancel) {p : RespondPoint}
    (hp1 : p ≠ .closeCancel) : Honest told { r with point := p, observed := true } :=
  h.advance hp rfl rfl (fun hf => hf) (fun hp' => absurd hp' hp1) (fun _ => rfl) (fun _ hm => hm)
    (fun _ => rfl) fun _ => .inr hc

theorem Honest.fail (h : r.Honest told) (hp : ¬ r.Past) : r.fail.Honest told :=
  h.advance hp rfl rfl (fun _ => rfl) (fun _ => rfl) (by rintro ⟨⟩) (fun _ hm => hm) (fun ho => ho) .inl

theorem Honest.write (h : r.Honest told) (hp : ¬ r.Past) {m : ClientData} {p : RespondPoint}
    (hm : ∀ m', m ≠ .closeResponse m') (hp1 : p ≠ .closeCancel) (hp2 : p ≠ .closeResponse) :
    (r.write clientDone m p).Honest told := by
  unfold Respond.write
  split
  · exact h.fail hp
  · refine h.advance hp rfl rfl (fun hf => hf) (fun hp' => absurd hp' hp1)
      (fun hp' => absurd hp' hp2) (fun m' hm' => ?_) (fun ho => ho) .inl
    rcases List.mem_append.mp hm' with hm' | hm'
    · exact hm'
    · exact absurd (List.mem_singleton.mp hm').symm (hm m')

theorem Honest.dataReturns (h : r.Honest told) {ok : Bool} (hs : r.dataReturns ok = some r') :
    r'.Honest told := by
  unfold Respond.dataReturns at hs
  split at hs
  swap
  · cases hs
  rename_i hp
  have hnot := not_past hp (by rintro ⟨⟩) (by rintro ⟨⟩)
  cases hs
  cases ok with
  | true => exact h.move hnot (by rintro ⟨⟩) (by rintro ⟨⟩)
  | false => exact h.fail hnot

theorem Honest.readReturns (h : r.Honest told) {results : List ReadResult}
    (hs : r.readReturns c results = some r') : r'.Honest told := by
  unfold Respond.readReturns at hs
  split at hs
  swap
  · cases hs
  rename_i sequence hp
  have hnot := not_past hp (by rintro ⟨⟩) (by rintro ⟨⟩)
  obtain ⟨result, -, rfl⟩ := Option.map_eq_some_iff.mp hs
  cases result with
  | ok buf => exact h.move hnot (by rintro ⟨⟩) (by rintro ⟨⟩)
  | error err =>
      cases herr : err.isEof with
      | true =>
          simp only [Respond.afterRead, herr, if_true]
          exact h.move hnot (by rintro ⟨⟩) (by rintro ⟨⟩)
      | false =>
          simp only [Respond.afterRead, herr, Bool.false_eq_true, if_false]
          exact h.fail hnot

theorem Honest.step (h : r.Honest told) (hs : r.step c request clientDone = some r') :
    r'.Honest told := by
  unfold Respond.step at hs
  -- all points of these steps but `closeResponse` come before the last check
  cases hp : r.point with
  | header =>
      have hnot := not_past hp (by rintro ⟨⟩) (by rintro ⟨⟩)
      simp only [hp, Option.some.injEq] at hs
      subst hs
      split
      · exact h.fail hnot
      · refine h.write hnot (by rintro _ ⟨⟩) ?_ ?_
        · split <;> rintro ⟨⟩
        · split <;> rintro ⟨⟩
  | loop sequence =>
      have hnot := not_past hp (by rintro ⟨⟩) (by rintro ⟨⟩)
      simp only [hp, Option.some.injEq] at hs
      subst hs
      split
      · exact h.move hnot (by rintro ⟨⟩) (by rintro ⟨⟩)
      · split
        · rename_i hcancel
          exact h.observe hnot hcancel (by rintro ⟨⟩)
        · exact h.move hnot (by rintro ⟨⟩) (by rintro ⟨⟩)
  | chunk sequence data =>
      have hnot := not_past hp (by rintro ⟨⟩) (by rintro ⟨⟩)
      simp only [hp, Option.some.injEq] at hs
      subst hs
      exact h.write hnot (by rintro _ ⟨⟩) (by rintro ⟨⟩) (by rintro ⟨⟩)
  | closeCancel =>
      have hnot := not_past hp (by rintro ⟨⟩) (by rintro ⟨⟩)
      simp only [hp, Option.some.injEq] at hs
      subst hs
      exact ⟨by rintro ⟨⟩, fun _ => .inl (h.failing hp),
        fun ht => .inl ((h.token ht).resolve_right hnot), by rintro ⟨⟩, h.sent, h.observed⟩
  | closeDone =>
      have hnot := not_past hp (by rintro ⟨⟩) (by rintro ⟨⟩)
      simp only [hp, Option.some.injEq] at hs
      subst hs
      exact h.advance hnot rfl rfl (fun hf => hf) (by rintro ⟨⟩) (by rintro ⟨⟩) (fun _ hm => hm)
        (fun ho => ho) .inl
  | checkCancel =>
      have hnot := not_past hp (by rintro ⟨⟩) (by rintro ⟨⟩)
      simp only [hp, Option.some.injEq] at hs
      subst hs
      split
      · rename_i hcancel
        exact h.observe hnot hcancel (by rintro ⟨⟩)
      · exact h.move hnot (by rintro ⟨⟩) (by rintro ⟨⟩)
  | closeResponse =>
      simp only [hp, Option.some.injEq] at hs
      subst hs
      exact ⟨by rintro ⟨⟩, h.cancel, fun _ => .inr (.inr rfl), by rintro ⟨⟩,
        fun _ _ => h.closing hp, h.observed⟩
  | data | read _ | returned | panicked =>
      simp only [hp] at hs
      cases hs

/-- The goroutine receives a cancellation that was meant for the call, or comes too late for it. -/
theorem Honest.takeToken (h : r.Honest told) (ht : told ∨ r.Past) (hs : r.token = some r') :
    r'.Honest told := by
  unfold Respond.token at hs
  split at hs
  swap
  · cases hs
  rename_i hw
  cases hs
  refine ⟨h.failing, fun hc => .inl ?_, fun _ => ht, h.closing, h.sent, h.observed⟩
  refine (h.cancel hc).resolve_right ?_
  rw [hw]
  rintro ⟨⟩

theorem Honest.helperStep (h : r.Honest told) (hs : r.helperStep clientDone = some r') :
    r'.Honest told := by
  unfold Respond.helperStep at hs
  cases hh : r.helper with
  | waiting =>
      simp only [hh] at hs
      split at hs <;> cases hs
      refine ⟨h.failing, fun hc => .inl ?_, ?_, h.closing, h.sent, h.observed⟩
      · refine (h.cancel hc).resolve_right ?_
        rw [hh]
        rintro ⟨⟩
      · rintro (⟨⟨⟩⟩ | ⟨⟨⟩⟩)
  | closing =>
      simp only [hh, Option.some.injEq] at hs
      subst hs
      exact ⟨h.failing, fun _ => .inr rfl, fun _ => h.token (.inl hh), h.closing, h.sent, h.observed⟩
  | closed | exited =>
      simp only [hh] at hs
      cases hs

/-- **A step of a call or of its goroutine.** -/
theorem Honest.next (h : r.Honest told) {e : RespondEvent} (he : e ≠ .token)
    (hs : Responding.respondNext c request ⟨r, clientDone⟩ e = some r') : r'.Honest told := by
  cases e with
  | data ok => exact h.dataReturns hs
  | read results => exact h.readReturns hs
  | step => exact h.step hs
  | token => exact absurd rfl he
  | helper => exact h.helperStep hs
  | clientDone =>
      cases hs
      exact h

theorem token_point (hs : r.token = some r') : r'.point = r.point := by
  unfold Respond.token at hs
  split at hs <;> cases hs
  rfl

/-- No step leads back from the end of a call. -/
theorem returned_of_next {e : RespondEvent} (hp : r.point = .returned)
    (hs : Responding.respondNext c request ⟨r, clientDone⟩ e = some r') : r'.point = .returned := by
  cases e with
  | data ok =>
      simp only [Responding.respondNext, Respond.dataReturns, hp] at hs
      cases hs
  | read results =>
      simp only [Responding.respondNext, Respond.readReturns, hp] at hs
      cases hs
  | step =>
      simp only [Responding.respondNext, Respond.step, hp] at hs
      cases hs
  | token => exact (token_point hs).trans hp
  | helper =>
      simp only [Responding.respondNext, Respond.helperStep] at hs
      split at hs
      · split at hs <;> cases hs
        exact hp
      · cases hs
        exact hp
      · cases hs
  | clientDone =>
      cases hs
      exact hp

end Respond

/-! ## The client -/

/-- A `RequestClosed` for the id was received. -/
def Told (es : List ClientEvent) (id : UInt64) : Prop :=
  ∃ message, ClientEvent.receive (.requestClosed id message) ∈ es

/-- When a goroutine takes the token of a cancellation, the handle responds to the request that was
closed, or the goroutine belongs to a call that has made its last check. -/
def Addressed (s : Client) (e : ClientEvent) : Prop :=
  ∀ k call i request, e = .token k → s.calls[k]? = some call → s.readPump = .cancelling i request →
    call.respond.Past ∨ ∃ h k' call', s.handles[i]? = some h ∧ h.current = some k' ∧
      s.calls[k']? = some call' ∧ call'.request.id = request.id

/-- The invariant of the read pump. -/
structure Reading (es : List ClientEvent) (readPump : ReadPoint)
    (requests : UInt64 → Option Request) : Prop where
  cancelling : ∀ i request, readPump = .cancelling i request → Told es request.id
  requests : ∀ id request, requests id = some request → request.id = id

/-- The invariant of the calls: those that have not returned are the ones the response pumps are
in. -/
structure Running (es : List ClientEvent) (handles : List Handle) (calls : List Call) : Prop where
  current : ∀ (k : ℕ) (call : Call), calls[k]? = some call → call.respond.point ≠ .returned →
    ∃ h : Handle, handles[call.handle]? = some h ∧ h.current = some k
  honest : ∀ (k : ℕ) (call : Call), calls[k]? = some call → call.respond.Honest (Told es call.request.id)

section Steps

variable {es es' : List ClientEvent} {handles handles' : List Handle} {calls : List Call}

theorem Told.mono {id : UInt64} (h : Told es id) (hes : es ⊆ es') : Told es' id := by
  obtain ⟨message, hm⟩ := h
  exact ⟨message, hes hm⟩

theorem Running.mono (h : Running es handles calls) (hes : es ⊆ es') : Running es' handles calls :=
  ⟨h.current, fun k call hk => (h.honest k call hk).mono fun ht => ht.mono hes⟩

/-- The handles may change, but not the calls they are in. -/
theorem Running.of_handles (h : Running es handles calls)
    (hh : ∀ (i : ℕ) (h : Handle), handles[i]? = some h →
      ∃ h' : Handle, handles'[i]? = some h' ∧ h'.current = h.current) :
    Running es handles' calls := by
  refine ⟨fun k call hk hp => ?_, h.honest⟩
  obtain ⟨h0, hi, hcurrent⟩ := h.current k call hk hp
  obtain ⟨h1, hi', hcurrent'⟩ := hh _ _ hi
  exact ⟨h1, hi', hcurrent'.trans hcurrent⟩

/-- A step of a call. -/
theorem Running.setCall (h : Running es handles calls) {k : ℕ} {call : Call} {r : Respond}
    (hk : calls[k]? = some call) (hr : r.Honest (Told es call.request.id))
    (hreturned : call.respond.point = .returned → r.point = .returned) :
    Running es handles (calls.set k { call with respond := r }) := by
  have hlt := (List.getElem?_eq_some_iff.mp hk).1
  have hcases : ∀ (j : ℕ) (call' : Call), (calls.set k { call with respond := r })[j]? = some call' →
      (j = k ∧ call' = { call with respond := r }) ∨ (j ≠ k ∧ calls[j]? = some call') := by
    intro j call' hj
    rw [List.getElem?_set] at hj
    by_cases hkj : k = j
    · rw [if_pos hkj, if_pos hlt] at hj
      cases hj
      exact .inl ⟨hkj.symm, rfl⟩
    · rw [if_neg hkj] at hj
      exact .inr ⟨fun he => hkj he.symm, hj⟩
  refine ⟨fun j call' hj hp => ?_, fun j call' hj => ?_⟩
  · rcases hcases j call' hj with ⟨rfl, rfl⟩ | ⟨-, hj⟩
    · exact h.current j call hk fun hp' => hp (hreturned hp')
    · exact h.current j call' hj hp
  · rcases hcases j call' hj with ⟨rfl, rfl⟩ | ⟨-, hj⟩
    · exact hr
    · exact h.honest j call' hj

/-- A response pump that is in no call begins one. -/
theorem Running.begin (h : Running es handles calls) {i : ℕ} {h0 h1 : Handle}
    (hi : handles[i]? = some h0) (hnone : h0.current = none)
    (hcurrent : h1.current = some calls.length) {call : Call} (hcall : call.handle = i)
    (hinit : call.respond = .init) : Running es (handles.set i h1) (calls ++ [call]) := by
  have hlt := (List.getElem?_eq_some_iff.mp hi).1
  have hcases : ∀ (j : ℕ) (call' : Call), (calls ++ [call])[j]? = some call' →
      (j = calls.length ∧ call' = call) ∨ calls[j]? = some call' := by
    intro j call' hj
    rcases Nat.lt_trichotomy j calls.length with hj' | rfl | hj'
    · rw [List.getElem?_append_left hj'] at hj
      exact .inr hj
    · rw [List.getElem?_concat_length] at hj
      cases hj
      exact .inl ⟨rfl, rfl⟩
    · rw [List.getElem?_eq_none (by simp only [List.length_append, List.length_singleton]; omega)] at hj
      cases hj
  refine ⟨fun j call' hj hp => ?_, fun j call' hj => ?_⟩
  · rcases hcases j call' hj with ⟨rfl, rfl⟩ | hj
    · exact ⟨h1, by rw [hcall, List.getElem?_set, if_pos rfl, if_pos hlt], hcurrent⟩
    · obtain ⟨h2, hi2, hcurrent2⟩ := h.current j call' hj hp
      refine ⟨h2, ?_, hcurrent2⟩
      rw [List.getElem?_set, if_neg]
      · exact hi2
      · intro he
        rw [← he, hi] at hi2
        cases hi2
        rw [hnone] at hcurrent2
        cases hcurrent2
  · rcases hcases j call' hj with ⟨rfl, rfl⟩ | hj
    · rw [hinit]
      exact Respond.Honest.init
    · exact h.honest j call' hj

/-- A response pump leaves a call that has returned. -/
theorem Running.finish (h : Running es handles calls) {i k : ℕ} {h0 h1 : Handle} {call : Call}
    (hi : handles[i]? = some h0) (hcurrent : h0.current = some k) (hk : calls[k]? = some call)
    (hp : call.respond.point = .returned) : Running es (handles.set i h1) calls := by
  refine ⟨fun j call' hj hp' => ?_, h.honest⟩
  obtain ⟨h2, hi2, hcurrent2⟩ := h.current j call' hj hp'
  refine ⟨h2, ?_, hcurrent2⟩
  rw [List.getElem?_set, if_neg]
  · exact hi2
  · intro he
    rw [← he, hi] at hi2
    cases hi2
    rw [hcurrent] at hcurrent2
    cases hcurrent2
    rw [hk] at hj
    cases hj
    exact hp' hp

/-- The read pump is not about to cancel anything. -/
theorem Reading.of_not_cancelling {readPump readPump' : ReadPoint}
    {requests : UInt64 → Option Request} (h : Reading es readPump requests)
    (hp : ∀ i request, readPump' ≠ .cancelling i request) (es' : List ClientEvent) :
    Reading es' readPump' requests :=
  ⟨fun i request hp' => absurd hp' (hp i request), h.requests⟩

theorem Reading.mono {readPump : ReadPoint} {requests : UInt64 → Option Request}
    (h : Reading es readPump requests) (hes : es ⊆ es') : Reading es' readPump requests :=
  ⟨fun i request hp => (h.cancelling i request hp).mono hes, h.requests⟩

/-- A request is removed from the table. -/
theorem Reading.erase {readPump : ReadPoint} {requests : UInt64 → Option Request}
    (h : Reading es readPump requests) (id : UInt64) :
    Reading es readPump (Function.update requests id none) := by
  refine ⟨h.cancelling, fun id' request hsome => ?_⟩
  rw [Function.update_apply] at hsome
  split at hsome
  · cases hsome
  · exact h.requests id' request hsome

/-- **The invariant of the client**, after the events `es`. -/
structure ClientInv (es : List ClientEvent) (s : Client) : Prop where
  reading : Reading es s.readPump s.requests
  running : Running es s.handles s.calls

variable {s s' : Client}

/-- The read pump receives a message. -/
theorem ClientInv.receive (h : ClientInv es s) (m : ServerMessage) :
    ClientInv (es ++ [.receive m]) (s.receive m) := by
  have hes : es ⊆ es ++ [.receive m] := List.subset_append_left _ _
  cases m with
  | request id path =>
      refine ⟨⟨fun i request hc => ?_, fun id' request hsome => ?_⟩, h.running.mono hes⟩
      · simp only [Client.receive, Client.handleRequest] at hc
        split at hc <;> cases hc
      · simp only [Client.receive, Client.handleRequest, Function.update_apply] at hsome
        split at hsome
        · rename_i hid
          cases hsome
          exact hid.symm
        · exact h.reading.requests id' request hsome
  | success id =>
      exact ⟨(h.reading.mono hes).erase id, h.running.mono hes⟩
  | requestClosed id message =>
      simp only [Client.receive]
      cases hlookup : s.requests id with
      | none => exact ⟨h.reading.mono hes, h.running.mono hes⟩
      | some request =>
          have herase := (h.reading.mono hes).erase id
          refine ⟨⟨fun i request' hc => ?_, herase.requests⟩, h.running.mono hes⟩
          simp only [Client.cancelResponse] at hc
          split at hc <;> cases hc
          rw [h.reading.requests id request hlookup]
          exact ⟨message, List.mem_append_right _ (List.mem_singleton.mpr rfl)⟩

/-- **A goroutine takes the token** of a cancellation that is addressed to it: a call that has not
made its last check is the one its handle is in. -/
theorem ClientInv.told (h : ClientInv es s) {k i : ℕ} {call : Call} {request : Request}
    (ha : Addressed s (.token k)) (hp : s.readPump = .cancelling i request)
    (hk : s.calls[k]? = some call) (hi : call.handle = i) :
    Told es call.request.id ∨ call.respond.Past := by
  by_cases hpast : call.respond.Past
  · exact .inr hpast
  · refine .inl ?_
    obtain ⟨h0, hi0, hcurrent⟩ := h.running.current k call hk fun hp' => hpast (.inr hp')
    obtain ⟨h1, k', call', hi1, hcurrent', hk', hid⟩ :=
      (ha k call i request rfl hk hp).resolve_left hpast
    rw [hi, hi1] at hi0
    cases hi0
    rw [hcurrent'] at hcurrent
    cases hcurrent
    rw [hk] at hk'
    cases hk'
    rw [hid]
    exact h.reading.cancelling i request hp

/-- **A step keeps the invariant**, when no token goes astray. -/
theorem ClientInv.step (h : ClientInv es s) {e : ClientEvent} (ha : Addressed s e)
    (hs : s.next e = some s') : ClientInv (es ++ [e]) s' := by
  have hes : es ⊆ es ++ [e] := List.subset_append_left _ _
  have hinv : ClientInv (es ++ [e]) s := ⟨h.reading.mono hes, h.running.mono hes⟩
  cases (Client.steps_of_next hs).2 with
  | frame hf =>
      refine ⟨⟨fun i request hp => ?_, fun id request => ?_⟩, ?_⟩
      · exact hinv.reading.cancelling i request (hf.readPump i request hp)
      · rw [hf.requests]
        exact hinv.reading.requests id request
      · rw [hf.calls]
        exact hinv.running.of_handles hf.handles
  | receive => exact h.receive _
  | token hp hk hi hr =>
      refine ⟨hinv.reading.of_not_cancelling (by rintro _ _ ⟨⟩) _, ?_⟩
      have hhonest := (hinv.running.honest _ _ hk).takeToken (hinv.told ha hp hk hi) hr
      refine hinv.running.setCall hk hhonest fun hret => ?_
      rw [Respond.token_point hr]
      exact hret
  | take hi hcurrent => exact ⟨hinv.reading, hinv.running.begin hi hcurrent rfl rfl rfl⟩
  | finish hi hcurrent hk hp => exact ⟨hinv.reading, hinv.running.finish hi hcurrent hk hp⟩
  | respond ht hd hk hr =>
      refine ⟨hinv.reading, hinv.running.setCall hk ?_ fun hret => Respond.returned_of_next hret hr⟩
      exact (hinv.running.honest _ _ hk).next ht hr
  | done => exact ⟨hinv.reading, hinv.running⟩

end Steps

theorem ClientInv.init : ClientInv [] .init := by
  refine ⟨⟨by rintro _ _ ⟨⟩, by rintro _ _ ⟨⟩⟩, ⟨fun k call hk => ?_, fun k call hk => ?_⟩⟩
  · cases hk
  · cases hk

/-- **The client cancels the request it was told to cancel**: on every run on which each token is
taken while its handle responds to the request that was closed, or too late to be observed, a call
of `respond` observes a cancellation or sends a `CloseResponse` only if a `RequestClosed` for its
request was received, or reading its source or writing its messages has failed. -/
theorem cancels_named_request {es : List ClientEvent} {s : Client}
    (hr : goClient.run .init es = some s) (hC : goClient.Along Addressed .init es) {k : ℕ}
    {call : Call} (hk : s.calls[k]? = some call)
    (ho : call.respond.observed = true ∨
      .closeResponse ⟨call.request.id⟩ ∈ call.respond.sent) :
    (∃ message, ClientEvent.receive (.requestClosed call.request.id message) ∈ es) ∨
      call.respond.failed = true := by
  have h : ClientInv es s :=
    Machine.Along.induction (M := goClient) (C := Addressed) (P := ClientInv) ClientInv.init
      (fun es s e s' _ h ha hs => h.step ha hs) hC hr
  have hhonest := h.running.honest k call hk
  rcases ho with ho | hsent
  · exact hhonest.observed ho
  · exact hhonest.observed (hhonest.sent _ hsent)

/-! ## Sample runs -/

/-- Two requests for the same content arrive, and the first one is being responded to. -/
def twoRequests : List ClientEvent :=
  [.register "path" threeBytes, .receive (.request 1 "path"), .readStep,
    .receive (.request 2 "path"), .readStep, .take 0, .respond 0 (.data true), .respond 0 .step]

/-- A request is closed, and the goroutine of the call in progress takes the token. -/
def closes (id : UInt64) : List ClientEvent :=
  [.receive (.requestClosed id ""), .token 0, .respond 0 .helper, .respond 0 .step,
    .respond 0 .step, .respond 0 .step, .respond 0 .step]

/-- The state after the events `es` of a client. -/
def clientAfter (es : List ClientEvent) : Client := (goClient.run .init es).getD .init

/-- The call of `respond` for the first request after the events `es`. -/
def firstCall (es : List ClientEvent) : Call :=
  (clientAfter es).calls[0]?.getD ⟨0, threeBytes, ⟨0, ""⟩, .init⟩

theorem cancels_named_request_first :
    (firstCall (twoRequests ++ closes 1)).respond.observed = true ∧
    ((∃ message, ClientEvent.receive
      (.requestClosed (firstCall (twoRequests ++ closes 1)).request.id message) ∈
        twoRequests ++ closes 1) ∨
      (firstCall (twoRequests ++ closes 1)).respond.failed = true) := by
  have hrun : goClient.run .init (twoRequests ++ closes 1) =
      some (clientAfter (twoRequests ++ closes 1)) := rfl
  have hcall : (clientAfter (twoRequests ++ closes 1)).calls[0]? =
      some (firstCall (twoRequests ++ closes 1)) := rfl
  have hobserved : (firstCall (twoRequests ++ closes 1)).respond.observed = true := rfl
  refine ⟨hobserved, cancels_named_request hrun ?_ hcall (.inl hobserved)⟩
  iterate 9
    refine ⟨by rintro _ _ _ _ ⟨⟩, ?_⟩
    rintro _ ⟨⟩
  -- the goroutine of the first call takes the token of the first request
  refine ⟨?_, ?_⟩
  · rintro _ _ _ _ ⟨⟩ ⟨⟩ ⟨⟩
    exact .inr ⟨_, 0, _, rfl, rfl, rfl, rfl⟩
  rintro _ ⟨⟩
  iterate 5
    refine ⟨by rintro _ _ _ _ ⟨⟩, ?_⟩
    rintro _ ⟨⟩
  trivial

/-- The second request is closed, and the response to the first one is cancelled. -/
theorem cancels_other_request :
    goClient.run .init (twoRequests ++ closes 2) = some (clientAfter (twoRequests ++ closes 2)) ∧
    (clientAfter (twoRequests ++ closes 2)).calls[0]? =
      some (firstCall (twoRequests ++ closes 2)) ∧
    (firstCall (twoRequests ++ closes 2)).request.id = 1 ∧
    (firstCall (twoRequests ++ closes 2)).respond.observed = true ∧
    ClientData.closeResponse ⟨1⟩ ∈ (firstCall (twoRequests ++ closes 2)).respond.sent ∧
    ¬ ((∃ message, ClientEvent.receive (.requestClosed 1 message) ∈ twoRequests ++ closes 2) ∨
      (firstCall (twoRequests ++ closes 2)).respond.failed = true) := by
  have hsent : (firstCall (twoRequests ++ closes 2)).respond.sent =
      [.contentHeader ⟨1, "text/plain", 3, some 0, none⟩, .closeResponse ⟨1⟩] := rfl
  refine ⟨rfl, rfl, rfl, rfl, ?_, ?_⟩
  · rw [hsent]
    exact List.mem_cons_of_mem _ List.mem_cons_self
  · rintro (⟨message, hm⟩ | hf)
    · simp [twoRequests, closes] at hm
    · cases hf

end Loon.GoClient
