import Loon.Client.Session

set_option autoImplicit false

/-!
# The table of requests

The table of requests is a board on which the server and the request handlers meet: an entry is
posted with a request, `Success` and the end of the response arrive at it, and `RequestClosed`
withdraws it.

* `Session.Answered`: the messages of a disciplined server;
* `Session.Roster`: which handler has which request;
* `Session.Inv`: the handlers keep their callbacks in order, and the table records what was handled
  and reported;
* `Session.Takes`, `Session.Inv.takes`: what a step is for each of the handlers;
* **`Session.Inv.step`**, `Session.inv_of_run`.
-/

namespace Loon

/-- Only requested ids are answered, and not in both ways. -/
structure Session.Answered (s : Session) : Prop where
  succeeded : s.succeeded ⊆ s.requested
  closed : s.closed ⊆ s.requested
  apart : ∀ id ∈ s.succeeded, id ∉ s.closed

/-- Which handler has which request; no two requests have the same number or the same id. -/
structure Session.Roster (s : Session) : Prop where
  blank : ∀ i, s.client.registered ≤ i → s.logs i = .empty
  numbered : ∀ i, ∀ r ∈ (s.logs i).accepted, r.origin < s.client.seen
  known : ∀ i, ∀ r ∈ (s.logs i).accepted, r.id ∈ s.requested
  owned : ∀ i j, ∀ r ∈ (s.logs i).accepted, ∀ r' ∈ (s.logs j).accepted, r.id = r'.id → i = j

/-- **The invariant of a connection.** -/
structure Session.Inv (C : ℕ) (s : Session) : Prop where
  answered : s.Answered
  roster : s.Roster
  live : s.client.Live
  working : ∀ i, Working C (s.client.handlers i).source (s.client.handlers i).info s.closed (s.logs i)
    (s.client.handlers i)
  records : Board.Records s.posted s.succeeded s.reported s.closed s.client.board

variable {k : Constraints} {s s' : Session} {e : ClientEvent}

/-! ## Messages -/

theorem Session.Steps.handled_eq (hs : Session.Steps k s e s') :
    s'.handled = s.handled ++ e.handled := by
  cases hs with
  | quiet he => rw [he, List.append_nil]
  | registers | unregisters | unregistered | serves => exact (List.append_nil _).symm
  | _ => rfl

theorem Session.Answered.step (h : s.Answered) (hd : Disciplined s e)
    (hs : s'.handled = s.handled ++ e.handled) : s'.Answered := by
  have hreq : s'.requested = idsBy ServerMessage.newId (s.handled ++ e.handled) :=
    congrArg (idsBy _) hs
  have hsucc : s'.succeeded = idsBy ServerMessage.successId (s.handled ++ e.handled) :=
    congrArg (idsBy _) hs
  have hclosed : s'.closed = idsBy ServerMessage.closedId (s.handled ++ e.handled) :=
    congrArg (idsBy _) hs
  cases e with
  | message m limited ok =>
      simp only [ClientEvent.handled] at hreq hsucc hclosed
      cases m with
      | request id path =>
          rw [idsBy_some id rfl] at hreq
          rw [idsBy_none rfl] at hsucc hclosed
          refine ⟨?_, ?_, ?_⟩
          · rw [hsucc, hreq]
            exact h.succeeded.trans (Set.subset_insert _ _)
          · rw [hclosed, hreq]
            exact h.closed.trans (Set.subset_insert _ _)
          · rw [hsucc, hclosed]
            exact h.apart
      | success id =>
          obtain ⟨hmem, -, hno⟩ := hd
          rw [idsBy_some id rfl] at hsucc
          rw [idsBy_none rfl] at hreq hclosed
          refine ⟨?_, ?_, ?_⟩
          · rw [hsucc, hreq]
            exact Set.insert_subset hmem h.succeeded
          · rw [hclosed, hreq]
            exact h.closed
          · rw [hsucc, hclosed]
            rintro j (rfl | hj)
            · exact hno
            · exact h.apart j hj
      | requestClosed id msg =>
          obtain ⟨hmem, hno, -⟩ := hd
          rw [idsBy_some id rfl] at hclosed
          rw [idsBy_none rfl] at hreq hsucc
          refine ⟨?_, ?_, ?_⟩
          · rw [hsucc, hreq]
            exact h.succeeded
          · rw [hclosed, hreq]
            exact Set.insert_subset hmem h.closed
          · rw [hsucc, hclosed]
            rintro j hj (rfl | hj')
            · exact hno hj
            · exact h.apart j hj hj'
  | _ =>
      simp only [ClientEvent.handled, List.append_nil] at hreq hsucc hclosed
      refine ⟨?_, ?_, ?_⟩
      · rw [hsucc, hreq]
        exact h.succeeded
      · rw [hclosed, hreq]
        exact h.closed
      · rw [hsucc, hclosed]
        exact h.apart

/-! ## Requests and their handlers -/

theorem Session.Steps.requested_subset (hs : Session.Steps k s e s') : s.requested ⊆ s'.requested := by
  rw [Session.requested, Session.requested, hs.handled_eq]
  exact idsBy_subset _

theorem Session.Steps.closed_subset (hs : Session.Steps k s e s') : s.closed ⊆ s'.closed := by
  rw [Session.closed, Session.closed, hs.handled_eq]
  exact idsBy_subset _

/-- A step that hands no request to a handler. -/
theorem Session.Roster.same (h : s.Roster) (hreq : s.requested ⊆ s'.requested)
    (hreg : s.client.registered ≤ s'.client.registered)
    (hblank : ∀ i, s'.client.registered ≤ i → s'.logs i = s.logs i)
    (hseen : s.client.seen ≤ s'.client.seen)
    (hacc : ∀ i, (s'.logs i).accepted = (s.logs i).accepted) : s'.Roster := by
  refine ⟨fun i hi => ?_, fun i r hr => ?_, fun i r hr => ?_, fun i j r hr r' hr' => ?_⟩
  · rw [hblank i hi]
    exact h.blank i (hreg.trans hi)
  · rw [hacc] at hr
    exact (h.numbered i r hr).trans_le hseen
  · rw [hacc] at hr
    exact hreq (h.known i r hr)
  · rw [hacc] at hr hr'
    exact h.owned i j r hr r' hr'

/-- A handler with requests has been registered. -/
theorem Session.Roster.lt_registered (h : s.Roster) {i : ℕ} {r : ServeRequest}
    (hr : r ∈ (s.logs i).accepted) : i < s.client.registered := by
  by_contra hge
  rw [h.blank i (not_lt.mp hge)] at hr
  cases hr

theorem update_accepted {logs : ℕ → HandlerLog} {i : ℕ} {log : HandlerLog}
    (h : log.accepted = (logs i).accepted) (j : ℕ) :
    (Function.update logs i log j).accepted = (logs j).accepted := by
  by_cases hj : j = i
  · subst hj
    rw [Function.update_self, h]
  · rw [Function.update_of_ne hj]

/-- An entry is that of a request. -/
theorem Session.Inv.mem_posted {C : ℕ} (h : s.Inv C) {id : UInt64} {i : ℕ} {f : Bool}
    (he : s.client.requests id = some (i, f)) : ∃ r ∈ (s.logs i).accepted, r.id = id :=
  (((h.records.recorded id).entry i f).mp he).1

theorem Session.Inv.roster_step {C : ℕ} (h : s.Inv C) (hd : Disciplined s e)
    (hs : Session.Steps k s e s') : s'.Roster := by
  have hro := h.roster
  have hreq := hs.requested_subset
  cases hs with
  | quiet | unknown | unregisters | unregistered =>
      exact hro.same hreq le_rfl (fun _ _ => rfl) le_rfl fun _ => rfl
  | refused => exact hro.same hreq le_rfl (fun _ _ => rfl) (Nat.le_succ _) fun _ => rfl
  | @succeeded id =>
      obtain ⟨-, -, hreg, -, hseen⟩ := s.client.callServedCallback_same id
      exact hro.same hreq hreg.ge (fun _ _ => rfl) hseen.ge fun _ => rfl
  | @accepted id path limited ok i hpath =>
      have hnew : ∀ j, ∀ r ∈ (s.logs j).accepted, r.id ≠ id := by
        rintro j r hr rfl
        exact hd (hro.known j r hr)
      have hi := (h.live.running path i hpath).1
      have hmem : ∀ j r, r ∈ (Function.update s.logs i
          { s.logs i with accepted := (s.logs i).accepted ++ [⟨s.client.seen, id⟩] } j).accepted →
          r ∈ (s.logs j).accepted ∨ j = i ∧ r = ⟨s.client.seen, id⟩ := by
        intro j r hr
        by_cases hj : j = i
        · subst hj
          rw [Function.update_self, List.mem_append, List.mem_singleton] at hr
          exact hr.imp_right fun hr => ⟨rfl, hr⟩
        · rw [Function.update_of_ne hj] at hr
          exact .inl hr
      refine ⟨fun j hj => ?_, fun j r hr => ?_, fun j r hr => ?_, fun j j' r hr r' hr' he => ?_⟩
      · have hne : j ≠ i := by
          rintro rfl
          exact absurd hi (not_lt.mpr hj)
        simp only [Function.update_of_ne hne]
        exact hro.blank j hj
      · rcases hmem j r hr with hr | ⟨-, rfl⟩
        · exact (hro.numbered j r hr).trans (Nat.lt_succ_self _)
        · exact Nat.lt_succ_self _
      · rcases hmem j r hr with hr | ⟨-, rfl⟩
        · exact hreq (hro.known j r hr)
        · rw [Session.requested, idsBy_some id rfl]
          exact Set.mem_insert _ _
      · rcases hmem j r hr with h₁ | ⟨rfl, rfl⟩ <;> rcases hmem j' r' hr' with h₂ | ⟨rfl, rfl⟩
        · exact hro.owned j j' r h₁ r' h₂ he
        · exact absurd he (hnew j r h₁)
        · exact absurd he.symm (hnew j' r' h₂)
        · rfl
  | @closed id msg limited ok f b i he =>
      obtain ⟨r, hr, -⟩ := h.mem_posted he
      have hi := hro.lt_registered hr
      refine hro.same hreq le_rfl (fun j hj => ?_) le_rfl (update_accepted rfl)
      have hne : j ≠ i := by
        rintro rfl
        exact absurd hi (not_lt.mpr hj)
      exact Function.update_of_ne hne _ _
  | registers => exact hro.same hreq (Nat.le_succ _) (fun _ _ => rfl) le_rfl fun _ => rfl
  | @serves i h out ok b hi =>
      obtain ⟨-, -, hreg, -, hseen⟩ :=
        (s.client.put i h).afterCall_same (s.client.handlers i).point.calls
      refine hro.same hreq hreg.ge (fun j hj => ?_) hseen.ge (update_accepted rfl)
      have hne : j ≠ i := by
        rintro rfl
        rw [hreg] at hj
        exact absurd hi (not_lt.mpr hj)
      exact Function.update_of_ne hne _ _

/-! ## The handlers -/

/-- What the step `e` is for the handler `i`: a turn of it, of which only `unregister_content` stops
the handler, only `RequestClosed` cancels a request, and only the thread of the handler moves it. -/
structure Session.Takes (k : Constraints) (s : Session) (e : ClientEvent) (s' : Session) (i : ℕ)
    (l : Option HandlingEvent) : Prop where
  turn : Turn k.chunkSize s.closed (s.logs i) (s.client.handlers i) l s'.closed (s'.logs i)
    (s'.client.handlers i)
  exits : l = some .exitGracefully → ∃ path, e = .unregister path ∧ s.client.content path = some i
  cancels : ∀ id ok, l = some (.cancelRequest id ok) →
    ∃ msg limited, e = .message (.requestClosed id msg) limited ok
  serves : ∀ ok, l = some (.serve ok) → e = .serve i ok

/-- A step that leaves the handler and its past as they are. -/
theorem Session.takes_none {i : ℕ}
    (hclosed : ∀ r ∈ (s.logs i).accepted, r.id ∈ s'.closed ↔ r.id ∈ s.closed)
    (hlogs : s'.logs i = s.logs i) (hhandlers : s'.client.handlers i = s.client.handlers i) :
    Session.Takes k s e s' i none := by
  refine ⟨?_, by rintro ⟨⟩, by rintro id ok ⟨⟩, by rintro ok ⟨⟩⟩
  rw [hlogs, hhandlers]
  exact .rests hclosed

/-- The ids that the server has closed stay the same with a message that closes none. -/
theorem Session.mem_closed_congr {c : Client} {logs : ℕ → HandlerLog} {m : ServerMessage}
    (hm : m.closedId = none) (id : UInt64) :
    id ∈ Session.closed ⟨c, s.handled ++ [m], logs⟩ ↔ id ∈ s.closed := by
  rw [Session.closed, idsBy_none hm]
  exact Iff.rfl

/-- Of the other ids the ones that the server has closed stay the same. -/
theorem Session.mem_closed_of_ne {c : Client} {logs : ℕ → HandlerLog} {id id' : UInt64} {msg : String}
    (hne : id' ≠ id) :
    id' ∈ Session.closed ⟨c, s.handled ++ [.requestClosed id msg], logs⟩ ↔ id' ∈ s.closed := by
  rw [Session.closed, idsBy_some id rfl]
  exact Set.mem_insert_iff.trans (or_iff_right hne)

section Takes

variable {C : ℕ} {i j : ℕ} {r : ServeRequest} {id : UInt64} {f : Bool}

/-- A request with a new id becomes the last one of its handler. -/
theorem Session.Inv.turn_accepts (h : s.Inv C) (i : ℕ) (hnew : id ∉ s.requested) (chunkSize : UInt64) :
    Turn chunkSize s.closed (s.logs i) (s.client.handlers i) (some (.serveRequest id)) s.closed
      { s.logs i with accepted := (s.logs i).accepted ++ [⟨s.client.seen, id⟩] }
      ((s.client.handlers i).serveRequest ⟨s.client.seen, id⟩) := by
  refine .accepts (r := ⟨s.client.seen, id⟩) (fun r' hr' => ⟨?_, ?_⟩) fun hcl => ?_
  · exact (h.roster.numbered i r' hr').ne
  · rintro rfl
    exact hnew (h.roster.known i r' hr')
  · exact hnew (h.answered.closed hcl)

/-- A request that no handler knows any more, and that nothing has ended, had none. -/
theorem Session.Inv.ne_of_unknown (h : s.Inv C) (hno : s.client.requests id = none)
    (hsucc : id ∉ s.succeeded) (hcl : id ∉ s.closed) (hr : r ∈ (s.logs i).accepted) : r.id ≠ id := by
  rintro rfl
  -- The request would have an entry, since nothing has ended it.
  have hsome := h.records.isSome_iff.mpr ⟨⟨i, r, hr, rfl⟩, hcl, fun hb => hsucc hb.1⟩
  rw [show s.client.board.entries r.id = none from hno] at hsome
  cases hsome

/-- An entry is for a request of its own handler. -/
theorem Session.Inv.ne_of_posted (h : s.Inv C) (he : s.client.requests id = some (j, f))
    (hi : i ≠ j) (hr : r ∈ (s.logs i).accepted) : r.id ≠ id := by
  intro hid
  obtain ⟨r', hr', he'⟩ := h.mem_posted he
  exact hi (h.roster.owned i j r hr r' hr' (hid.trans he'.symm))

end Takes

/-- **What a step is for the handler `i`**, case by case over the steps of the client. -/
theorem Session.Inv.takes (h : s.Inv k.chunkSize.toNat) (hd : Disciplined s e)
    (hs : Session.Steps k s e s') (i : ℕ) : ∃ l, Session.Takes k s e s' i l := by
  have hsame : ∀ r ∈ (s.logs i).accepted, r.id ∈ s.closed ↔ r.id ∈ s.closed := fun _ _ => Iff.rfl
  cases hs with
  | quiet | unregistered => exact ⟨none, Session.takes_none hsame rfl rfl⟩
  | refused =>
      exact ⟨none, Session.takes_none (fun r _ => Session.mem_closed_congr rfl r.id) rfl rfl⟩
  | @accepted id path limited ok j hpath =>
      have hclosed : idsBy ServerMessage.closedId (s.handled ++ [.request id path]) = s.closed :=
        idsBy_none rfl
      by_cases hi : i = j
      · subst hi
        refine ⟨some (.serveRequest id), ?_, by rintro ⟨⟩, by rintro id ok ⟨⟩, by rintro ok ⟨⟩⟩
        simp only [Session.closed, hclosed, Client.put, Function.update_self]
        exact h.turn_accepts i hd _
      · exact ⟨none, Session.takes_none (fun r _ => Session.mem_closed_congr rfl r.id)
          (Function.update_of_ne hi _ _) (Function.update_of_ne hi _ _)⟩
  | @succeeded id =>
      exact ⟨none, Session.takes_none (fun r _ => Session.mem_closed_congr rfl r.id) rfl
        (congrFun (s.client.callServedCallback_same id).1 i)⟩
  | @unknown id msg limited ok hno =>
      exact ⟨none, Session.takes_none
        (fun r hr => Session.mem_closed_of_ne (h.ne_of_unknown hno hd.2.1 hd.2.2 hr)) rfl rfl⟩
  | @closed id msg limited ok f b j he =>
      have hclosed : idsBy ServerMessage.closedId (s.handled ++ [.requestClosed id msg]) =
          insert id s.closed := idsBy_some id rfl
      by_cases hi : i = j
      · subst hi
        refine ⟨some (.cancelRequest id ok), ?_, by rintro ⟨⟩, ?_, by rintro ok ⟨⟩⟩
        · simp only [Session.closed, hclosed, Client.put, Function.update_self]
          exact .cancels
        · rintro _ _ ⟨⟩
          exact ⟨msg, limited, rfl⟩
      · exact ⟨none, Session.takes_none
          (fun r hr => Session.mem_closed_of_ne (h.ne_of_posted he hi hr))
          (Function.update_of_ne hi _ _) (Function.update_of_ne hi _ _)⟩
  | @registers source info =>
      by_cases hi : i = s.client.registered
      · subst hi
        refine ⟨none, ?_, by rintro ⟨⟩, by rintro id ok ⟨⟩, by rintro ok ⟨⟩⟩
        simp only [Client.put, Function.update_self]
        exact .spawned source info (h.roster.blank _ le_rfl)
      · exact ⟨none, Session.takes_none hsame rfl (Function.update_of_ne hi _ _)⟩
  | @unregisters path j h₁ hfree hpath he =>
      by_cases hi : i = j
      · subst hi
        refine ⟨some .exitGracefully, ?_, fun _ => ⟨path, rfl, hpath⟩, by rintro id ok ⟨⟩,
          by rintro ok ⟨⟩⟩
        simp only [Client.put, Function.update_self]
        exact .exits he
      · exact ⟨none, Session.takes_none hsame rfl (Function.update_of_ne hi _ _)⟩
  | @serves j h₁ out ok b hj hserve =>
      have hhandlers := ((s.client.put j h₁).afterCall_same (s.client.handlers j).point.calls).1
      by_cases hi : i = j
      · subst hi
        refine ⟨some (.serve ok), ?_, by rintro ⟨⟩, by rintro id ok ⟨⟩, by rintro ok ⟨⟩; rfl⟩
        have hself : ((s.client.put i h₁).afterCall (s.client.handlers i).point.calls).handlers i =
            h₁ := by
          rw [hhandlers]
          exact Function.update_self _ _ _
        simp only [hself, Function.update_self]
        exact .serves hserve
      · refine ⟨none, Session.takes_none hsame (Function.update_of_ne hi _ _) ?_⟩
        rw [hhandlers]
        exact Function.update_of_ne hi _ _

/-! ## The table -/

/-- The callback that is about to be run has not been run for its id. -/
theorem Session.Inv.notMem_reported {C : ℕ} (h : s.Inv C) {i : ℕ} {r : ServeRequest}
    (hr : (s.client.handlers i).point.calls = some r) : r.id ∉ s.reported := by
  rintro ⟨j, r', hr', he⟩
  have hacc := (h.working i).mem_accepted
    (RequestHandler.mem_openRequests.mpr (.inl (ServePoint.request_of_calls hr).1))
  have hacc' := ((h.working j).called r' hr').1
  obtain rfl := h.roster.owned j i r' hacc' r hacc he
  obtain rfl := (h.working j).ids r' hacc' r hacc he
  exact (h.working j).notMem_called hr hr'

theorem Session.Inv.records_step {C : ℕ} (h : s.Inv C) (hd : Disciplined s e)
    (hs : Session.Steps k s e s') :
    Board.Records s'.posted s'.succeeded s'.reported s'.closed s'.client.board := by
  have hrec := h.records
  cases hs with
  | quiet | registers | unregisters | unregistered => exact hrec
  | @refused id path =>
      rw [Session.succeeded, Session.closed, idsBy_none rfl, idsBy_none rfl]
      exact hrec
  | @accepted id path limited ok i =>
      rw [Session.posted_insert (s := s) (by rfl), Session.reported_same (s := s) (by rfl),
        Session.succeeded, Session.closed, idsBy_none rfl, idsBy_none rfl]
      refine hrec.post (fun o hp => ?_) (fun hs => hd (h.answered.succeeded hs)) ?_
        fun hc => hd (h.answered.closed hc)
      · obtain ⟨r, hr, rfl⟩ := hp
        exact hd (h.roster.known o r hr)
      · rintro ⟨j, r, hr, rfl⟩
        exact hd (h.roster.known j r ((h.working j).called r hr).1)
  | @succeeded id limited ok =>
      rw [Session.succeeded, Session.closed, idsBy_some id rfl, idsBy_none rfl,
        Client.callServedCallback_eq]
      exact hrec.arrive_fst hd.2.1
  | @unknown id msg limited ok hno =>
      rw [Session.succeeded, Session.closed, idsBy_none rfl, idsBy_some id rfl]
      have hsame : Function.update s.client.requests id none = s.client.requests :=
        Function.update_eq_self_iff.mpr hno.symm
      have hw : Board.Records s.posted s.succeeded s.reported (insert id s.closed)
          ⟨Function.update s.client.requests id none, s.client.served⟩ := hrec.withdraw hd.2.1
      rwa [hsame] at hw
  | @closed id msg limited ok f b i he =>
      rw [Session.posted_same (s := s) (by rfl), Session.reported_same (s := s) (by rfl),
        Session.succeeded, Session.closed, idsBy_none rfl, idsBy_some id rfl]
      exact hrec.withdraw hd.2.1
  | @serves i h₁ out ok b hi hserve =>
      rw [Session.posted_same (s := s) (by rfl)]
      cases hcalls : (s.client.handlers i).point.calls with
      | none =>
          rw [Session.reported_same (s := s) (by simp)]
          exact hrec
      | some r =>
          rw [Session.reported_insert (s := s) (by rfl), Client.afterCall, Client.callServedCallback_eq]
          exact hrec.arrive_snd (h.notMem_reported hcalls)

/-! ## The invariant -/

/-- **Every step of a disciplined server and of the client keeps the invariant.** -/
theorem Session.Inv.step (h : s.Inv k.chunkSize.toNat) (hd : Disciplined s e)
    (hs : Session.Steps k s e s') : s'.Inv k.chunkSize.toNat where
  answered := h.answered.step hd hs.handled_eq
  roster := h.roster_step hd hs
  live := h.live.step hs
  working i := by
    obtain ⟨l, ht⟩ := h.takes hd hs i
    exact (h.working i).turn ht.turn
  records := h.records_step hd hs

theorem Session.inv_init (C : ℕ) : Session.init.Inv C where
  answered := by
    refine ⟨?_, ?_, ?_⟩
    · rintro id ⟨⟩
    · rintro id ⟨⟩
    · rintro id ⟨⟩
  roster := by
    refine ⟨fun _ _ => rfl, ?_, ?_, ?_⟩
    · rintro i r ⟨⟩
    · rintro i r ⟨⟩
    · rintro i j r ⟨⟩
  live := by
    refine ⟨?_, ?_⟩
    · rintro path i ⟨⟩
    · rintro path path' i ⟨⟩
  working _ := .init
  records := by
    have hposted : Session.init.posted = ∅ := by
      ext x
      simp [Session.posted, Session.init, HandlerLog.empty]
    have hreported : Session.init.reported = ∅ := by
      ext id
      simp [Session.reported, Session.init, HandlerLog.empty]
    have hids : ∀ f, idsBy f [] = ∅ := by
      intro f
      ext id
      simp [idsBy]
    rw [hposted, hreported, Session.succeeded, Session.closed]
    simp only [Session.init, hids]
    exact .init

/-- **The table of requests in any run.** -/
theorem Session.inv_of_run {es : List ClientEvent} (hr : (session k).run .init es = some s)
    (hd : (session k).Along Disciplined .init es) : s.Inv k.chunkSize.toNat :=
  hd.inv (P := Session.Inv k.chunkSize.toNat)
    (fun _ _ _ h hd hs => h.step hd (Session.steps_of_step hs)) (Session.inv_init _) hr

end Loon
