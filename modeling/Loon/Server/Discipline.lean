import Loon.Server.Safety

set_option autoImplicit false

/-!
# The messages the server sends

The messages about one request on the send channel: a `Request`, then at most one of `Success` and
`RequestClosed`. `LogShape` ties what has been sent about a request to its flags, `SendInv` says it
of all requests, together with the ids, and **`server_message_discipline`** is what follows for the
websocket peer and for the callers of `Success`.

All of this is for a connection with fewer than 2⁶⁴ requests, where `nextRequest` does not wrap.
-/

namespace Loon

open Chunking

/-! ## Logs -/

/-- The messages about the request `id` on the send channel. -/
def St.logOf (s : St) (id : UInt64) : List ServerMessage := s.send.filter (·.requestId = id)

/-- The ids of the `Request` messages on the send channel. -/
def St.sentIds (s : St) : List UInt64 := s.send.filterMap ServerMessage.newId

/-- What may have been sent about the request `p`. A `Request` that could not be sent means that the
loop is about to return. -/
inductive LogShape (s : St) (p : Ptr) : List ServerMessage → Prop where
  | unsent (h : s.phase ≠ .loop) : LogShape s p []
  | requested (path : String) : LogShape s p [.request (s.objs p).id path]
  | succeeded (path : String) (hd : (s.objs p).isCompleted = true) (hp : ¬ s.Present p) :
      LogShape s p [.request (s.objs p).id path, .success (s.objs p).id]
  | closed (path message : String) (hc : (s.objs p).isClosed = true) :
      LogShape s p [.request (s.objs p).id path, .requestClosed (s.objs p).id message]

/-- **The invariant of the send channel.** -/
structure SendInv (s : St) : Prop where
  next : s.nextRequest.toNat = s.created
  id : ∀ p, p < s.created → (s.objs p).id.toNat = p + 1
  log : ∀ p, p < s.created → LogShape s p (s.logOf (s.objs p).id)
  known : ∀ m ∈ s.send, ∃ p, p < s.created ∧ (s.objs p).id = m.requestId
  order : s.sentIds.Pairwise (· < ·)

/-- Nothing is added to the map from `s` to `s'`. -/
def Shrinks (s s' : St) : Prop :=
  ∀ id p, s'.requests.lookup id = some p → s.requests.lookup id = some p

section Logs

variable {s s' : St}

theorem Shrinks.refl (s : St) : Shrinks s s := fun _ _ h => h

theorem Shrinks.trans {s₁ : St} (h : Shrinks s s₁) (h' : Shrinks s₁ s') : Shrinks s s' :=
  fun id p hl => h id p (h' id p hl)

theorem shrinks_delete (r : Request) : Shrinks s (s.deleteRequest r) := by
  intro id p hl
  simp only [St.deleteRequest] at hl
  by_cases hid : id = r.id
  · rw [hid, Finmap.lookup_erase] at hl; cases hl
  · rwa [Finmap.lookup_erase_ne hid] at hl

theorem St.Grows.present {p : Ptr} (hg : s.Grows s') (hr : Shrinks s s') (hp : p < s.created)
    (h : s'.Present p) : s.Present p := by
  have hid := (hg.objs p hp).sameId
  unfold St.Present at h ⊢
  rw [hid] at h
  exact hr _ _ h

theorem LogShape.mono {p : Ptr} {l : List ServerMessage} (h : LogShape s p l) (hp : p < s.created)
    (hg : s.Grows s') (hr : Shrinks s s') (hph : s'.phase = .loop → s.phase = .loop) :
    LogShape s' p l := by
  have ho := hg.objs p hp
  have hid := ho.sameId
  cases h with
  | unsent h => exact .unsent fun h' => h (hph h')
  | requested path => rw [← hid]; exact .requested path
  | succeeded path hd hn =>
    rw [← hid]
    exact .succeeded path (ho.completed hd) fun h' => hn (hg.present hr hp h')
  | closed path message hc =>
    rw [← hid]
    exact .closed path message (ho.closed hc)

/-- A step that sends nothing. -/
theorem SendInv.quiet (h : SendInv s) (hc : s'.created = s.created)
    (hn : s'.nextRequest = s.nextRequest) (hs : s'.send = s.send) (hg : s.Grows s')
    (hr : Shrinks s s') (hph : s'.phase = .loop → s.phase = .loop) : SendInv s' := by
  have hid : ∀ p, p < s.created → (s'.objs p).id = (s.objs p).id := fun p hp =>
    (hg.objs p hp).sameId
  refine ⟨?_, ?_, ?_, ?_, ?_⟩
  · rw [hn, hc]; exact h.next
  · intro p hp
    rw [hc] at hp
    rw [hid p hp]; exact h.id p hp
  · intro p hp
    rw [hc] at hp
    have : s'.logOf (s'.objs p).id = s.logOf (s.objs p).id := by rw [hid p hp]; simp [St.logOf, hs]
    rw [this]
    exact (h.log p hp).mono hp hg hr hph
  · intro m hm
    obtain ⟨p, hp, e⟩ := h.known m (hs ▸ hm)
    exact ⟨p, hc ▸ hp, (hid p hp).trans e⟩
  · unfold St.sentIds; rw [hs]; exact h.order

/-- Distinct requests have distinct ids. -/
theorem SendInv.ptr_eq (h : SendInv s) {p q : Ptr} (hp : p < s.created) (hq : q < s.created)
    (he : (s.objs p).id = (s.objs q).id) : p = q := by
  have h1 := h.id p hp
  have h2 := h.id q hq
  rw [he] at h1
  exact Nat.succ_injective (h1.symm.trans h2)

/-- A step that concludes the request `q` with the message `m`. -/
theorem SendInv.conclude (h : SendInv s) {q : Ptr} {m : ServerMessage} (hq : q < s.created)
    (hm : m.requestId = (s.objs q).id) (hnew : m.newId = none) (hc : s'.created = s.created)
    (hn : s'.nextRequest = s.nextRequest) (hs : s'.send = s.send ++ [m]) (hg : s.Grows s')
    (hr : Shrinks s s') (hph : s'.phase = .loop → s.phase = .loop) {path : String}
    (hlog : s.logOf (s.objs q).id = [.request (s.objs q).id path])
    (hshape : LogShape s' q [.request (s.objs q).id path, m]) : SendInv s' := by
  have hid : ∀ p, p < s.created → (s'.objs p).id = (s.objs p).id := fun p hp =>
    (hg.objs p hp).sameId
  refine ⟨?_, ?_, ?_, ?_, ?_⟩
  · rw [hn, hc]; exact h.next
  · intro p hp
    rw [hc] at hp
    rw [hid p hp]; exact h.id p hp
  · intro p hp
    rw [hc] at hp
    rw [hid p hp]
    by_cases hpq : p = q
    · subst hpq
      have : s'.logOf (s.objs p).id = [.request (s.objs p).id path, m] := by
        have := congrArg (· ++ [m]) hlog
        simpa [St.logOf, hs, hm] using this
      rw [this]; exact hshape
    · have hne : m.requestId ≠ (s.objs p).id := fun e =>
        hpq (h.ptr_eq hp hq (e.symm.trans hm))
      have : s'.logOf (s.objs p).id = s.logOf (s.objs p).id := by simp [St.logOf, hs, hne]
      rw [this]
      exact (h.log p hp).mono hp hg hr hph
  · intro m' hm'
    rw [hs, List.mem_append, List.mem_singleton] at hm'
    rcases hm' with hm' | rfl
    · obtain ⟨p, hp, e⟩ := h.known m' hm'
      exact ⟨p, hc ▸ hp, (hid p hp).trans e⟩
    · exact ⟨q, hc ▸ hq, (hid q hq).trans hm.symm⟩
  · have : s'.sentIds = s.sentIds := by simp [St.sentIds, hs, hnew]
    rw [this]; exact h.order

/-- In the loop, an open entry of the map has been sent and not concluded. -/
theorem SendInv.requested (h : SendInv s) (hph : s.phase = .loop) {q : Ptr} (hq : q < s.created)
    (hp : s.Present q) (hc : (s.objs q).isClosed = false) :
    ∃ path, s.logOf (s.objs q).id = [.request (s.objs q).id path] := by
  have hl := h.log q hq
  generalize s.logOf (s.objs q).id = l at hl
  cases hl with
  | unsent h' => exact absurd hph h'
  | requested path => exact ⟨path, rfl⟩
  | succeeded path hd hn => exact absurd hp hn
  | closed path message hc' => rw [hc] at hc'; cases hc'

/-! ## Steps -/

theorem Begins.shrinks {C : ℕ} {m : ContentChunk} {now : Time} {x : St ⊕ St × PendingWrite}
    (h : Begins C s m now x) : x.elim (Shrinks s) fun y => Shrinks s y.1 := by
  cases h <;> exact Shrinks.refl s

theorem Finishes.shrinks {w : PendingWrite} (h : Finishes s w s') : Shrinks s s' := by
  cases h with
  | discard | forward | complete => exact Shrinks.refl s
  | drop => exact shrinks_delete _

theorem Handles.shrinks {C bufferSize : ℕ} {now : Time} {d : ClientData}
    (h : Handles C bufferSize s now d s') : Shrinks s s' := by
  cases h with
  | emptyOpen => exact shrinks_delete (s := s.put _ _) _
  | close => exact shrinks_delete (s := s.put _ _) _
  | emptyClosed => exact shrinks_delete _
  | chunkReject hb => exact hb.shrinks
  | chunk hb hf => exact hb.shrinks.trans hf.shrinks
  | _ => exact Shrinks.refl s

theorem Handles.send_eq {C bufferSize : ℕ} {now : Time} {d : ClientData}
    (h : Handles C bufferSize s now d s') : s'.send = s.send := by
  cases h with
  | chunkReject hb => cases hb <;> rfl
  | chunk hb hf => cases hb; cases hf <;> rfl
  | _ => rfl

theorem Closes.shrinks {p : Ptr} {message : String} {now : Time} {err : Option ApiError}
    (h : Closes s p message now s' err) : Shrinks s s' := by
  cases h <;> exact Shrinks.refl s

theorem Closes.sendInv {C : ℕ} {p : Ptr} {message : String} {now : Time} {err : Option ApiError}
    (hcore : Core C none s) (hph : s.phase = .loop) (h : SendInv s)
    (hr : Closes s p message now s' err) : SendInv s' := by
  have hg := hr.grows
  cases hr with
  | deleted | already | completed => exact h
  | failed => exact h.quiet rfl rfl rfl hg (Shrinks.refl s) (fun h => h)
  | @closed q hl hc hd =>
    have hq := (hcore.entry _ _ hl).1
    obtain ⟨path, hlog⟩ := h.requested hph hq (hcore.present hl) hc
    refine h.conclude hq rfl rfl rfl rfl rfl hg (Shrinks.refl s) (fun h => h) hlog ?_
    have hobj : ((s.enqueue (.requestClosed (s.objs q).id message)).put q
        { s.objs q with lastUpdated := now }.markClosed).objs q =
        { s.objs q with lastUpdated := now }.markClosed := St.put_objs_self _ _ _
    have hshape := LogShape.closed (s := (s.enqueue (.requestClosed (s.objs q).id message)).put q
        { s.objs q with lastUpdated := now }.markClosed) (p := q) path message (by rw [hobj]; rfl)
    rw [hobj] at hshape
    exact hshape

theorem Succeeds.sendInv {C : ℕ} {p : Ptr} {err : Option ApiError} (hcore : Core C none s)
    (hph : s.phase = .loop) (h : SendInv s) (hr : Succeeds s p s' err) : SendInv s' := by
  have hg := hr.grows
  cases hr with
  | refused => exact h
  | failed => exact h.quiet rfl rfl rfl hg (Shrinks.refl s) (fun h => h)
  | @sent q hl hc hd =>
    have hq := (hcore.entry _ _ hl).1
    have hp := hcore.present hl
    obtain ⟨path, hlog⟩ := h.requested hph hq hp hc
    refine h.conclude hq rfl rfl rfl rfl rfl hg (shrinks_delete (s := s.enqueue _) _) (fun h => h)
      hlog (.succeeded path hd fun hp' => ?_)
    exact ((St.present_delete (s := s.enqueue _) hp q).mp hp').2 rfl

theorem Sweeps.sendInv {C : ℕ} {timeout now : Time} {visits : List Visit} (hcore : Core C none s)
    (hph : s.phase = .loop) (h : SendInv s) (hr : Sweeps timeout now s visits s') : SendInv s' := by
  induction hr with
  | nil => exact h
  | skip _ _ ih => exact ih hcore hph h
  | fault => exact h.quiet rfl rfl rfl (St.grows_close _ _) (Shrinks.refl _) (fun h => h)
  | delete hl _ _ hd _ ih =>
    exact ih (hcore.delete (hcore.present hl) (.inl hd) fun q => .inl (writeOn_none q)) hph
      (h.quiet rfl rfl rfl (St.grows_delete _) (shrinks_delete _) (fun h => h))
  | close _ _ _ _ hr _ ih =>
    exact ih (hr.core hcore) (hr.frame.phase.trans hph) (hr.sendInv hcore hph h)

theorem Sweeps.shrinks {timeout now : Time} {visits : List Visit}
    (h : Sweeps timeout now s visits s') : Shrinks s s' := by
  induction h with
  | nil | fault => exact Shrinks.refl _
  | skip _ _ ih => exact ih
  | delete _ _ _ _ _ ih => exact (shrinks_delete _).trans ih
  | close _ _ _ _ hr _ ih => exact hr.shrinks.trans ih

theorem SendInv.top (h : SendInv s) : SendInv s.top := by
  refine h.quiet (St.top_created s) ?_ (St.top_send s) St.grows_top ?_ ?_
  · unfold St.top; split_ifs <;> rfl
  · intro id p hl
    rwa [St.top_requests] at hl
  · unfold St.top
    split_ifs
    · intro h'; cases h'
    · exact fun h' => h'

/-- The id loop takes the next id if no id in the map is larger than the last one. -/
theorem freshID_next {requests : Finmap fun _ : UInt64 => Ptr} {next : UInt64} (fuel : ℕ)
    (hle : ∀ id ∈ requests, id.toNat ≤ next.toNat) (hlt : next.toNat + 1 < 2 ^ 64) :
    freshID requests (fuel + 1) next = some (next + 1) := by
  have hnext : (next + 1).toNat = next.toNat + 1 := by
    rw [UInt64.toNat_add]
    exact Nat.mod_eq_of_lt hlt
  unfold freshID
  rw [if_pos]
  intro hm
  have := hle _ hm
  omega

/-- A new request takes the next id. -/
theorem SendInv.freshID_eq {C : ℕ} (h : SendInv s) (hcore : Core C none s)
    (hlt : s.created + 1 < 2 ^ 64) (fuel : ℕ) :
    freshID s.requests (fuel + 1) s.nextRequest = some (s.nextRequest + 1) ∧
      (s.nextRequest + 1).toNat = s.created + 1 := by
  have hnext := h.next
  refine ⟨freshID_next fuel ?_ (by omega), ?_⟩
  · intro id hm
    obtain ⟨p, hp⟩ := Finmap.mem_iff.mp hm
    obtain ⟨hp, hid⟩ := hcore.entry id p hp
    have := h.id p hp
    rw [hid] at this
    have hp' : p + 1 ≤ s.created := hp
    rw [this, hnext]
    exact hp'
  · rw [UInt64.toNat_add, hnext]
    exact Nat.mod_eq_of_lt hlt

/-- Nothing was sent about ids to come. -/
theorem SendInv.requestId_lt (h : SendInv s) {m : ServerMessage} (hm : m ∈ s.send) :
    m.requestId.toNat < s.created + 1 := by
  obtain ⟨p, hp, hm'⟩ := h.known m hm
  have hid := h.id p hp
  rw [hm'] at hid
  rw [hid]
  exact Nat.succ_lt_succ hp

theorem SendInv.logOf_next (h : SendInv s) {id : UInt64} (hid : id.toNat = s.created + 1) :
    s.logOf id = [] := by
  refine List.filter_eq_nil_iff.mpr fun m hm => ?_
  have hlt := h.requestId_lt hm
  simp only [decide_eq_true_eq]
  intro e
  rw [e, hid] at hlt
  exact lt_irrefl _ hlt

theorem St.logOf_append {l : List ServerMessage} (hs : s'.send = s.send ++ l) (id : UInt64) :
    s'.logOf id = s.logOf id ++ l.filter (·.requestId = id) := by
  unfold St.logOf
  rw [hs, List.filter_append]

/-- A step that creates the request `s.created`, and sends `l` about it. -/
theorem SendInv.extend (h : SendInv s) {id : UInt64} {path : String} {l : List ServerMessage}
    (hid : id.toNat = s.created + 1) (hc : s'.created = s.created + 1) (hn : s'.nextRequest = id)
    (hobj : ∀ p, p < s.created → s'.objs p = s.objs p) (hnew : (s'.objs s.created).id = id)
    (hpres : ∀ p, p < s.created → s'.Present p → s.Present p)
    (hph : s'.phase = .loop → s.phase = .loop) (hs : s'.send = s.send ++ l)
    (hl : l = [] ∨ l = [.request id path]) (hshape : LogShape s' s.created l) : SendInv s' := by
  have hrid : ∀ m ∈ l, m.requestId = id := by
    rcases hl with rfl | rfl <;> simp [ServerMessage.requestId]
  refine ⟨?_, ?_, ?_, ?_, ?_⟩
  · rw [hn, hc, hid]
  · intro p hp
    rw [hc] at hp
    rcases Nat.lt_succ_iff_lt_or_eq.mp hp with hp | rfl
    · rw [hobj p hp]; exact h.id p hp
    · rw [hnew]; exact hid
  · intro p hp
    rw [hc] at hp
    rw [St.logOf_append hs]
    rcases Nat.lt_succ_iff_lt_or_eq.mp hp with hp | rfl
    · have hother : l.filter (·.requestId = (s'.objs p).id) = [] := by
        refine List.filter_eq_nil_iff.mpr fun m hm => ?_
        rw [hrid m hm, hobj p hp]
        simp only [decide_eq_true_eq]
        intro e
        have hp' := h.id p hp
        rw [← e, hid] at hp'
        exact absurd (Nat.succ_injective hp') (Nat.ne_of_gt hp)
      rw [hother, List.append_nil]
      have e := hobj p hp
      have hold := h.log p hp
      rw [← e] at hold
      generalize s.logOf (s'.objs p).id = l' at hold
      cases hold with
      | unsent h' => exact .unsent fun h'' => h' (hph h'')
      | requested path => rw [← e]; exact .requested path
      | succeeded path hd hn =>
        rw [← e]
        exact .succeeded path (e ▸ hd) fun h' => hn (hpres p hp h')
      | closed path message hc => rw [← e]; exact .closed path message (e ▸ hc)
    · have hself : l.filter (·.requestId = (s'.objs s.created).id) = l :=
        List.filter_eq_self.mpr fun m hm => by simp [hrid m hm, hnew]
      rw [hself, hnew, h.logOf_next hid, List.nil_append]
      exact hshape
  · intro m hm
    rw [hs, List.mem_append] at hm
    rw [hc]
    rcases hm with hm | hm
    · obtain ⟨p, hp, e⟩ := h.known m hm
      exact ⟨p, Nat.lt_succ_of_lt hp, (congrArg Request.id (hobj p hp)).trans e⟩
    · exact ⟨s.created, Nat.lt_succ_self _, hnew.trans (hrid m hm).symm⟩
  · unfold St.sentIds
    rw [hs, List.filterMap_append, List.pairwise_append]
    refine ⟨h.order, by rcases hl with rfl | rfl <;> simp [ServerMessage.newId], ?_⟩
    intro a ha b hb
    obtain ⟨m, hm, hma⟩ := List.mem_filterMap.mp ha
    obtain ⟨m', hm', hmb⟩ := List.mem_filterMap.mp hb
    have hnewId : ∀ {m : ServerMessage} {a : UInt64}, m.newId = some a → m.requestId = a := by
      intro m a e
      cases m <;> simp_all [ServerMessage.newId, ServerMessage.requestId]
    have hlt := h.requestId_lt hm
    rw [UInt64.lt_iff_toNat_lt, ← hnewId hma, ← hnewId hmb, hrid m' hm', hid]
    exact hlt

/-- A new request, sent or not. -/
theorem SendInv.forward {C : ℕ} (h : SendInv s) (hcore : Core C none s)
    (hlt : s.created + 1 < 2 ^ 64) {id : UInt64} {path : String} {now : Time} {sendOk : Bool}
    (hfresh : freshID s.requests (s.requests.keys.card + 1) s.nextRequest = some id) :
    SendInv ((s.allocate id path now).sendMessage (.request id path) sendOk).1.top := by
  obtain ⟨e, hid⟩ := h.freshID_eq hcore hlt s.requests.keys.card
  rw [e] at hfresh
  obtain rfl := Option.some.inj hfresh
  set id := s.nextRequest + 1 with hidDef
  have hobj : ∀ p, p < s.created → (s.allocate id path now).objs p = s.objs p := fun p hp =>
    St.put_objs_ne _ _ (Nat.ne_of_lt hp)
  have hnew : ((s.allocate id path now).objs s.created).id = id :=
    congrArg Request.id (St.put_objs_self _ _ _)
  have hpres : ∀ p, p < s.created → (s.allocate id path now).Present p → s.Present p := by
    intro p hp hpr
    unfold St.Present at hpr ⊢
    rw [hobj p hp] at hpr
    change (s.requests.insert id s.created).lookup _ = _ at hpr
    have hne : (s.objs p).id ≠ id := by
      intro e
      have h1 := h.id p hp
      rw [e, hid] at h1
      exact absurd (Nat.succ_injective h1) (Nat.ne_of_gt hp)
    rwa [Finmap.lookup_insert_of_ne _ hne] at hpr
  cases sendOk with
  | true =>
    refine SendInv.top (h.extend hid rfl rfl hobj hnew hpres (fun h => h) rfl (.inr rfl) ?_)
    have hshape := LogShape.requested (s := (s.allocate id path now).enqueue (.request id path))
      (p := s.created) path
    change LogShape _ s.created [.request ((s.allocate id path now).objs s.created).id path]
      at hshape
    rw [hnew] at hshape
    exact hshape
  | false =>
    -- the request was not sent, and the loop head sees `done`
    have htop : ({ s.allocate id path now with done := true } : St).top =
        { s.allocate id path now with done := true, phase := .leaving } := rfl
    change SendInv ({ s.allocate id path now with done := true } : St).top
    rw [htop]
    have hs : ({ s.allocate id path now with done := true, phase := .leaving } : St).send =
        s.send ++ [] := (List.append_nil _).symm
    have hl : ([] : List ServerMessage) = [] ∨ [] = [ServerMessage.request id path] := .inl rfl
    exact h.extend hid rfl rfl hobj hnew hpres nofun hs hl (.unsent nofun)

end Logs

/-! ## Runs -/

section Runs

variable {ext : Externals} {cfg : Config ext} {s s' : St}

theorem ClosedAll.send_eq {ids : List UInt64} (h : ClosedAll s ids s') : s'.send = s.send := by
  rw [h.eq]

theorem ClosedAll.created_eq {ids : List UInt64} (h : ClosedAll s ids s') :
    s'.created = s.created := by
  rw [h.eq]

theorem ClosedAll.nextRequest_eq {ids : List UInt64} (h : ClosedAll s ids s') :
    s'.nextRequest = s.nextRequest := by
  rw [h.eq]

theorem Steps.sendInv {e : Event} (hI : Inv cfg s) (h : SendInv s) (hst : Steps cfg s e s')
    (hlt : s'.created < 2 ^ 64) : SendInv s' := by
  have hg := hst.grows hI
  cases hst with
  | recv hp _ _ hh =>
    have hg' := hh.grows cfg.chunkSize_pos hI.core (hI.fault_none hp)
    refine (h.quiet hh.frame.created hh.frame.nextRequest hh.send_eq hg' hh.shrinks ?_).top
    rw [hh.frame.phase]
    exact fun h => h
  | @forward path now sendOk id hp hid =>
    refine h.forward hI.core ?_ hid
    rw [St.top_created] at hlt
    cases sendOk <;> exact hlt
  | success hp _ _ hh => exact (hh.sendInv hI.core hp h).top
  | close hp _ _ hh => exact (hh.sendInv hI.core hp h).top
  | count => exact h.top
  | timeout hp _ hh => exact (hh.sendInv hI.core hp h).top
  | done => exact h.quiet rfl rfl rfl hg (Shrinks.refl s) (fun h => h)
  | @ret _ s₁ _ _ _ hh =>
    have hsh : Shrinks s { s₁ with requests := ∅, phase := .returned } := by
      intro id p hl
      rw [Finmap.lookup_empty] at hl; cases hl
    exact h.quiet hh.created_eq hh.nextRequest_eq hh.send_eq hg hsh nofun
  | takeResponse => exact h.quiet rfl rfl rfl hg (Shrinks.refl s) (fun h => h)
  | takeChunk => exact h.quiet rfl rfl rfl hg (Shrinks.refl s) (fun h => h)

theorem sendInv_init : SendInv St.init where
  next := rfl
  id p hp := absurd hp (Nat.not_lt_zero p)
  log p hp := absurd hp (Nat.not_lt_zero p)
  known m hm := by cases hm
  order := List.Pairwise.nil

theorem sendInv_of_run {es : List Event} (h : (protocol cfg).run (.ok St.init) es = some (.ok s))
    (hlt : s.created < 2 ^ 64) : SendInv s := by
  refine (protocol_induction (P := fun _ s => s.created < 2 ^ 64 → SendInv s) ?_ ?_ h).2 hlt
  · exact fun _ => sendInv_init
  · intro es s e s' _ hI hP hst hlt
    exact hst.sendInv hI (hP ((hst.grows hI).created.trans_lt hlt)) hlt

/-! ## What a step sends -/

/-- `m` is a `RequestClosed` for a request that is open in `s`. -/
def ClosesOpen (s : St) (m : ServerMessage) : Prop :=
  ∃ id message p, m = .requestClosed id message ∧ s.requests.lookup id = some p ∧
    (s.objs p).isCompleted = false ∧ (s.objs p).isClosed = false

/-- `m` is a `Success` for a request that is completed in `s`. -/
def AcknowledgesCompleted (s : St) (m : ServerMessage) : Prop :=
  ∃ id p, m = .success id ∧ s.requests.lookup id = some p ∧
    (s.objs p).isCompleted = true ∧ (s.objs p).isClosed = false

/-- Being open was so before. -/
theorem ClosesOpen.mono {C : ℕ} {s₁ : St} {m : ServerMessage} (h : ClosesOpen s₁ m)
    (hcore : Core C none s) (hg : s.Grows s₁) (hr : Shrinks s s₁) : ClosesOpen s m := by
  obtain ⟨id, message, p, rfl, hl, hd, hc⟩ := h
  have hl' := hr id p hl
  have ho := hg.objs p (hcore.entry id p hl').1
  refine ⟨id, message, p, rfl, hl', ?_, ?_⟩
  · cases hx : (s.objs p).isCompleted with
    | false => rfl
    | true => rw [ho.completed hx] at hd; cases hd
  · cases hx : (s.objs p).isClosed with
    | false => rfl
    | true => rw [ho.closed hx] at hc; cases hc

theorem Closes.sends {C : ℕ} {p : Ptr} {message : String} {now : Time} {err : Option ApiError}
    (hcore : Core C none s) (h : Closes s p message now s' err) :
    ∃ l, s'.send = s.send ++ l ∧ ∀ m ∈ l, ClosesOpen s m := by
  cases h with
  | deleted | already | completed | failed => exact ⟨[], by simp, by simp⟩
  | @closed q hl hc hd =>
    refine ⟨[.requestClosed (s.objs q).id message], rfl, fun m hm => ?_⟩
    rw [List.mem_singleton] at hm
    exact ⟨_, message, q, hm, hcore.present hl, hd, hc⟩

theorem Sweeps.sends {C : ℕ} {timeout now : Time} {visits : List Visit} (hcore : Core C none s)
    (h : Sweeps timeout now s visits s') :
    ∃ l, s'.send = s.send ++ l ∧ ∀ m ∈ l, ClosesOpen s m := by
  induction h with
  | nil | fault => exact ⟨[], by simp [St.close], by simp⟩
  | skip _ _ ih => exact ih hcore
  | delete hl _ _ hd _ ih =>
    obtain ⟨l, h1, h2⟩ :=
      ih (hcore.delete (hcore.present hl) (.inl hd) fun q => .inl (writeOn_none q))
    exact ⟨l, h1, fun m hm => (h2 m hm).mono hcore (St.grows_delete _) (shrinks_delete _)⟩
  | close _ _ _ _ hr _ ih =>
    obtain ⟨l, h1, h2⟩ := hr.sends hcore
    obtain ⟨l', h3, h4⟩ := ih (hr.core hcore)
    refine ⟨l ++ l', by rw [h3, h1, List.append_assoc], fun m hm => ?_⟩
    rcases List.mem_append.mp hm with hm | hm
    · exact h2 m hm
    · exact (h4 m hm).mono hcore hr.grows hr.shrinks

/-- **What a step sends.** -/
theorem Steps.sends {e : Event} (hI : Inv cfg s) (hst : Steps cfg s e s') :
    ∃ l, s'.send = s.send ++ l ∧ ∀ m ∈ l,
      (∃ id path, m = .request id path) ∨ AcknowledgesCompleted s m ∨ ClosesOpen s m := by
  have hcl : ∀ {s₁ : St}, (∃ l, s₁.send = s.send ++ l ∧ ∀ m ∈ l, ClosesOpen s m) →
      ∃ l, s₁.top.send = s.send ++ l ∧ ∀ m ∈ l,
        (∃ id path, m = .request id path) ∨ AcknowledgesCompleted s m ∨ ClosesOpen s m := by
    rintro s₁ ⟨l, h1, h2⟩
    exact ⟨l, by rw [St.top_send, h1], fun m hm => .inr (.inr (h2 m hm))⟩
  have hnone : s'.send = s.send → ∃ l, s'.send = s.send ++ l ∧ ∀ m ∈ l,
      (∃ id path, m = .request id path) ∨ AcknowledgesCompleted s m ∨ ClosesOpen s m := by
    intro h
    exact ⟨[], by simp [h], by simp⟩
  cases hst with
  | recv _ _ _ hh => exact hnone (by rw [St.top_send]; exact hh.send_eq)
  | @forward path now sendOk id =>
    cases sendOk with
    | false => exact hnone (by rw [St.top_send]; rfl)
    | true =>
      refine ⟨[.request id path], by rw [St.top_send]; rfl, fun m hm => ?_⟩
      rw [List.mem_singleton] at hm
      exact .inl ⟨id, path, hm⟩
  | success _ _ _ hh =>
    cases hh with
    | refused => exact hnone (by rw [St.top_send])
    | failed => exact hnone (by rw [St.top_send])
    | @sent q hl hc hd =>
      refine ⟨[.success (s.objs q).id], by rw [St.top_send]; rfl, fun m hm => ?_⟩
      rw [List.mem_singleton] at hm
      exact .inr (.inl ⟨_, q, hm, hI.core.present hl, hd, hc⟩)
  | close _ _ _ hh => exact hcl (hh.sends hI.core)
  | count => exact hnone (St.top_send s)
  | timeout _ _ hh => exact hcl (hh.sends hI.core)
  | done | takeResponse | takeChunk => exact hnone rfl
  | ret _ _ _ hh => exact hnone hh.send_eq

/-! ## Acknowledgements -/

/-- A `Success` call on the request `p` that returns nil. -/
def successNil (p : Ptr) : Except Panic St → Event → List Unit
  | .ok s, .triggerSuccess q sendOk =>
    if q = p ∧ (sendSuccess s q sendOk).2 = none then [()] else []
  | _, _ => []

/-- The `Success` messages about `id` on the send channel. -/
def St.successes (s : St) (id : UInt64) : ℕ := s.send.count (.success id)

theorem LogShape.count_success {p : Ptr} {l : List ServerMessage} (h : LogShape s p l) :
    l.count (.success (s.objs p).id) ≤ 1 := by
  cases h <;> simp

theorem St.successes_eq (s : St) (id : UInt64) :
    s.successes id = (s.logOf id).count (.success id) := by
  unfold St.successes St.logOf
  rw [List.count_filter]
  simp [ServerMessage.requestId]

theorem successes_append {l : List ServerMessage} (hs : s'.send = s.send ++ l) (id : UInt64)
    (hl : ∀ m ∈ l, m ≠ .success id) : s'.successes id = s.successes id := by
  unfold St.successes
  rw [hs, List.count_append, List.count_eq_zero.mpr fun hm => hl _ hm rfl, Nat.add_zero]

theorem ClosesOpen.ne_success {m : ServerMessage} (h : ClosesOpen s m) (id : UInt64) :
    m ≠ .success id := by
  obtain ⟨_, _, _, rfl, -⟩ := h
  exact nofun

theorem Succeeds.successes {p q : Ptr} {sendOk : Bool} {err : Option ApiError} (hI : Inv cfg s)
    (h : SendInv s) (hp : p < s.created) (hq : q < s.created)
    (hr : sendSuccess s q sendOk = (s', err)) (hh : Succeeds s q s' err) :
    s'.successes (s.objs p).id = s.successes (s.objs p).id +
      (successNil p (.ok s) (.triggerSuccess q sendOk)).length := by
  cases hh with
  | refused | failed => simp [successNil, hr, St.successes]
  | @sent q' hl hc hd =>
    obtain ⟨hlt, hid⟩ := hI.core.entry _ _ hl
    obtain rfl : q' = q := h.ptr_eq hlt hq hid
    by_cases hpq : q' = p
    · subst hpq
      simp [successNil, hr, St.successes, St.deleteRequest, St.enqueue]
    · have hne : (s.objs q').id ≠ (s.objs p).id := fun e => hpq (h.ptr_eq hq hp e)
      simp [successNil, hpq, St.successes, St.deleteRequest, St.enqueue, List.count_append, hne]

/-- Every `Success` message answers one call. -/
theorem Steps.successes {e : Event} (hI : Inv cfg s) (h : SendInv s) (hst : Steps cfg s e s')
    {p : Ptr} (hp : p < s.created) : s'.successes (s.objs p).id =
      s.successes (s.objs p).id + (successNil p (.ok s) e).length := by
  cases hst with
  | recv _ _ _ hh =>
    exact successes_append (by rw [St.top_send, hh.send_eq, List.append_nil]) _ (by simp)
  | @forward path now sendOk id =>
    cases sendOk with
    | false =>
      have hs : ((s.allocate id path now).sendMessage (.request id path) false).1.top.send =
          s.send ++ [] := by rw [St.top_send, List.append_nil]; rfl
      exact successes_append hs _ (by simp)
    | true =>
      have hs : ((s.allocate id path now).sendMessage (.request id path) true).1.top.send =
          s.send ++ [.request id path] := by rw [St.top_send]; rfl
      exact successes_append hs _ (by simp)
  | @success q sendOk s' err _ hq hr hh =>
    have := hh.successes hI h hp hq hr
    unfold St.successes at this ⊢
    rw [St.top_send]
    exact this
  | close _ _ _ hh =>
    obtain ⟨l, h1, h2⟩ := hh.sends hI.core
    exact successes_append (by rw [St.top_send, h1]) _ fun m hm => (h2 m hm).ne_success _
  | timeout _ _ hh =>
    obtain ⟨l, h1, h2⟩ := hh.sends hI.core
    exact successes_append (by rw [St.top_send, h1]) _ fun m hm => (h2 m hm).ne_success _
  | count => exact successes_append (by rw [St.top_send, List.append_nil]) _ (by simp)
  | done | takeResponse | takeChunk => rfl
  | ret _ _ _ hh =>
    have hs := hh.send_eq
    unfold St.successes
    change List.count _ _ = _
    rw [hs]
    rfl

/-- Nothing can be acknowledged for a request that does not exist. -/
theorem successNil_eq_nil {e : Event} (hst : Steps cfg s e s') {p : Ptr} (hp : s.created ≤ p) :
    successNil p (.ok s) e = [] := by
  cases hst with
  | @success q sendOk s' err _ hq =>
    have hne : q ≠ p := fun e => absurd (e ▸ hq) (Nat.not_lt.mpr hp)
    simp [successNil, hne]
  | _ => rfl

/-- **The calls of `Success` that return nil are the `Success` messages.** -/
theorem successNil_of_run {es : List Event}
    (h : (protocol cfg).run (.ok St.init) es = some (.ok s)) (hlt : s.created < 2 ^ 64) (p : Ptr) :
    ((protocol cfg).observe (successNil p) (.ok St.init) es).length =
      if p < s.created then s.successes (s.objs p).id else 0 := by
  refine (protocol_induction (P := fun es s => s.created < 2 ^ 64 →
      ((protocol cfg).observe (successNil p) (.ok St.init) es).length =
        if p < s.created then s.successes (s.objs p).id else 0) ?_ ?_ h).2 hlt
  · intro _
    exact (if_neg (Nat.not_lt_zero p)).symm
  · intro es s e s' hrun hI hP hst hlt
    have hg := hst.grows hI
    have hlt' : s.created < 2 ^ 64 := hg.created.trans_lt hlt
    have hS := sendInv_of_run hrun hlt'
    rw [Machine.observe_snoc _ e hrun, List.length_append, hP hlt']
    rcases Nat.lt_or_ge p s.created with hp | hp
    · rw [if_pos hp, if_pos (hp.trans_le hg.created), (hg.objs p hp).sameId,
        hst.successes hI hS hp]
    · rw [if_neg (Nat.not_lt.mpr hp), successNil_eq_nil hst hp]
      split_ifs with hp'
      · -- the request was created in this step, and nothing was sent about it but a `Request`
        have hS' := hst.sendInv hI hS hlt
        obtain ⟨l, h1, h2⟩ := hst.sends hI
        have hid := hS'.id p hp'
        unfold St.successes
        rw [List.length_nil, Nat.add_zero, eq_comm, List.count_eq_zero]
        intro hm
        rw [h1, List.mem_append] at hm
        rcases hm with hm | hm
        · have hlt := hS.requestId_lt hm
          change (s'.objs p).id.toNat < _ at hlt
          rw [hid] at hlt
          exact absurd (Nat.lt_of_succ_lt_succ hlt) (Nat.not_lt.mpr hp)
        · rcases h2 _ hm with ⟨_, _, e⟩ | ⟨id, q, e, hl, -⟩ | ho
          · cases e
          · obtain ⟨hq, hqid⟩ := hI.core.entry id q hl
            cases e
            have hq' := hS.id q hq
            rw [hqid, hid] at hq'
            exact absurd (Nat.succ_injective hq' ▸ hq) (Nat.not_lt.mpr hp)
          · exact absurd rfl (ho.ne_success _)
      · rfl

/-! ## The discipline -/

variable (cfg) in
/-- What the peer and the callers of the API may rely on, after the run of `es` to `s`. -/
structure MessageDiscipline (es : List Event) (s : St) : Prop where
  positive : ∀ p, p < s.created → 0 < (s.objs p).id
  increasing : ∀ p q, p < q → q < s.created → (s.objs p).id < (s.objs q).id
  inOrder : s.sentIds.Pairwise (· < ·)
  grammar : ∀ id, ∃ path message, s.logOf id <+: [.request id path, .success id] ∨
    s.logOf id <+: [.request id path, .requestClosed id message]
  /-- What was received before the next step enqueues a `Success`. -/
  success : ∀ e s' l, (protocol cfg).step (.ok s) e = some (.ok s') → s'.send = s.send ++ l →
    ∀ id, .success id ∈ l → ∃ p rsp, s.requests.lookup id = some p ∧
      (s.objs p).isCompleted = true ∧ (s.objs p).isClosed = false ∧
      (s.objs p).response = some rsp ∧
      (protocol cfg).observe (acceptedHeader cfg p) (.ok St.init) es = [rsp.header] ∧
      none ∉ (protocol cfg).observe (answeredOpen cfg p) (.ok St.init) es ∧
      (protocol cfg).observe (chunkData p) (.ok St.init) es = rsp.chunks.sent ∧
      IsChunking cfg.chunkSize.toNat rsp.header.contentSize.toNat rsp.chunks.sent
  /-- What is missing when the next step enqueues a `RequestClosed`. -/
  requestClosed : ∀ e s' l, (protocol cfg).step (.ok s) e = some (.ok s') →
    s'.send = s.send ++ l → ∀ id message, .requestClosed id message ∈ l →
    ∃ p, s.requests.lookup id = some p ∧ (s.objs p).isCompleted = false ∧
      (s.objs p).isClosed = false ∧ ∀ rsp, (s.objs p).response = some rsp →
      IsChunkPrefix cfg.chunkSize.toNat rsp.header.contentSize.toNat
        ((protocol cfg).observe (chunkData p) (.ok St.init) es)
  completedOpen : ∀ p, p < s.created → (s.objs p).isCompleted = true →
    ∀ message, .requestClosed (s.objs p).id message ∉ s.send
  successOnce : ∀ p, ((protocol cfg).observe (successNil p) (.ok St.init) es).length ≤ 1

theorem LogShape.grammar {p : Ptr} {l : List ServerMessage} (h : LogShape s p l) :
    ∃ path message, l <+: [.request (s.objs p).id path, .success (s.objs p).id] ∨
      l <+: [.request (s.objs p).id path, .requestClosed (s.objs p).id message] := by
  cases h with
  | unsent => exact ⟨"", "", .inl List.nil_prefix⟩
  | requested path => exact ⟨path, "", .inl (List.prefix_append _ [_])⟩
  | succeeded path => exact ⟨path, "", .inl List.prefix_rfl⟩
  | closed path message => exact ⟨path, message, .inr List.prefix_rfl⟩

/-- A step that can send in the loop is taken without a fault. -/
theorem Steps.fault_none_of_sends {e : Event} {l : List ServerMessage} {m : ServerMessage}
    (hI : Inv cfg s) (hst : Steps cfg s e s') (hs : s'.send = s.send ++ l) (hm : m ∈ l) :
    s.fault = none := by
  have hne : s'.send ≠ s.send := by
    intro e
    rw [e] at hs
    rw [List.self_eq_append_right.mp hs] at hm
    cases hm
  cases hst with
  | recv hp | forward hp | success hp | close hp | count hp | timeout hp => exact hI.fault_none hp
  | done | takeResponse | takeChunk => exact absurd rfl hne
  | ret _ _ _ hh => exact absurd hh.send_eq hne

/-- **What a step enqueues**: a request, a `Success` for a completed one or a `RequestClosed` for an
open one. -/
theorem enqueued_of_step {e : Event} {l : List ServerMessage} {m : ServerMessage} (hI : Inv cfg s)
    (hstep : (protocol cfg).step (.ok s) e = some (.ok s')) (hs : s'.send = s.send ++ l)
    (hm : m ∈ l) : s.fault = none ∧
      ((∃ id path, m = .request id path) ∨ AcknowledgesCompleted s m ∨ ClosesOpen s m) := by
  have hst := steps_of_step hI hstep
  obtain ⟨l', h1, h2⟩ := hst.sends hI
  rw [hs] at h1
  rw [List.append_cancel_left h1] at hm
  exact ⟨hst.fault_none_of_sends hI (List.append_cancel_left h1 ▸ hs) hm, h2 m hm⟩

/-- The messages about an id, known or not. -/
theorem SendInv.grammar (hS : SendInv s) (id : UInt64) :
    ∃ path message, s.logOf id <+: [.request id path, .success id] ∨
      s.logOf id <+: [.request id path, .requestClosed id message] := by
  by_cases hid : ∃ p, p < s.created ∧ (s.objs p).id = id
  · obtain ⟨p, hp, rfl⟩ := hid
    exact (hS.log p hp).grammar
  · have hnil : s.logOf id = [] := List.filter_eq_nil_iff.mpr fun m hm => by
      obtain ⟨p, hp, e⟩ := hS.known m hm
      simp only [decide_eq_true_eq]
      exact fun e' => hid ⟨p, hp, e.trans e'⟩
    rw [hnil]
    exact ⟨"", "", .inl List.nil_prefix⟩

/-- A completed request was never closed. -/
theorem SendInv.not_closed (hS : SendInv s) (hI : Inv cfg s) {p : Ptr} (hp : p < s.created)
    (hd : (s.objs p).isCompleted = true) (message : String) :
    .requestClosed (s.objs p).id message ∉ s.send := by
  intro hm
  have hmem : ServerMessage.requestClosed (s.objs p).id message ∈ s.logOf (s.objs p).id :=
    List.mem_filter.mpr ⟨hm, by simp [ServerMessage.requestId]⟩
  have hlog := hS.log p hp
  generalize s.logOf (s.objs p).id = l at hmem hlog
  cases hlog with
  | unsent | requested | succeeded => simp at hmem
  | closed path message' hc =>
    rw [(hI.core.obj p hp).excl hd] at hc; cases hc

/-- **A completed request has received everything**: one header, no empty response, and the chunks
of the whole content. -/
theorem completed_received {es : List Event}
    (h : (protocol cfg).run (.ok St.init) es = some (.ok s)) (hf : s.fault = none) {id : UInt64}
    {p : Ptr} (hl : s.requests.lookup id = some p) (hd : (s.objs p).isCompleted = true)
    (hc : (s.objs p).isClosed = false) :
    ∃ rsp, (s.objs p).response = some rsp ∧
      (protocol cfg).observe (acceptedHeader cfg p) (.ok St.init) es = [rsp.header] ∧
      none ∉ (protocol cfg).observe (answeredOpen cfg p) (.ok St.init) es ∧
      (protocol cfg).observe (chunkData p) (.ok St.init) es = rsp.chunks.sent ∧
      IsChunking cfg.chunkSize.toNat rsp.header.contentSize.toNat rsp.chunks.sent := by
  have hI := inv_of_run h
  have hp := (hI.core.entry _ _ hl).1
  have hobj := hI.core.obj_of_lookup hl
  have hrec := records_of_run h hp
  obtain ⟨rsp, hr⟩ : ∃ rsp, (s.objs p).response = some rsp := by
    cases hr : (s.objs p).response with
    | some rsp => exact ⟨rsp, rfl⟩
    | none => rw [(hobj.fresh (hI.core.present hl) hr).2] at hd; cases hd
  have hhead : (s.objs p).header = some rsp.header := by simp [Request.header, hr]
  refine ⟨rsp, hr, ?_, ?_, ?_, (hobj.response rsp hr).whole hd⟩
  · rw [← hrec.header, hhead]; rfl
  · rw [← hrec.pending]
    intro hn
    have hnone := (hobj.answer none hn).1
    rw [hhead] at hnone; cases hnone
  · rw [← hrec.openLog hc hf]
    simp [Request.chunkLog, hr]

/-- **An open request has received only a part.** -/
theorem open_received {es : List Event}
    (h : (protocol cfg).run (.ok St.init) es = some (.ok s)) (hf : s.fault = none) {id : UInt64}
    {p : Ptr} (hl : s.requests.lookup id = some p) (hd : (s.objs p).isCompleted = false)
    (hc : (s.objs p).isClosed = false) {rsp : Response} (hr : (s.objs p).response = some rsp) :
    IsChunkPrefix cfg.chunkSize.toNat rsp.header.contentSize.toNat
      ((protocol cfg).observe (chunkData p) (.ok St.init) es) := by
  have hI := inv_of_run h
  have hp := (hI.core.entry _ _ hl).1
  have hfront := ((hI.core.obj p hp).response rsp hr).front hd
  have hlog : (s.objs p).chunkLog = rsp.chunks.sent := by simp [Request.chunkLog, hr]
  rw [← (records_of_run h hp).openLog hc hf, hlog]
  exact hfront

/-- **Server message discipline.** -/
theorem server_message_discipline {es : List Event}
    (h : (protocol cfg).run (.ok St.init) es = some (.ok s)) (hlt : s.created < 2 ^ 64) :
    MessageDiscipline cfg es s := by
  have hI := inv_of_run h
  have hS := sendInv_of_run h hlt
  refine ⟨?_, ?_, hS.order, hS.grammar, ?_, ?_, fun p hp hd => hS.not_closed hI hp hd, ?_⟩
  · intro p hp
    rw [UInt64.lt_iff_toNat_lt, hS.id p hp]
    exact Nat.succ_pos p
  · intro p q hpq hq
    rw [UInt64.lt_iff_toNat_lt, hS.id p (hpq.trans hq), hS.id q hq]
    exact Nat.succ_lt_succ hpq
  · intro e s' l hstep hs id hm
    obtain ⟨hf, ⟨_, _, e⟩ | ⟨id', p, e, hl, hd, hc⟩ | ho⟩ := enqueued_of_step hI hstep hs hm
    · cases e
    · cases e
      obtain ⟨rsp, hrsp⟩ := completed_received h hf hl hd hc
      exact ⟨p, rsp, hl, hd, hc, hrsp⟩
    · exact absurd rfl (ho.ne_success id)
  · intro e s' l hstep hs id message hm
    obtain ⟨hf, ⟨_, _, e⟩ | ⟨_, _, e, -⟩ | ⟨id', message', p, e, hl, hd, hc⟩⟩ :=
      enqueued_of_step hI hstep hs hm
    · cases e
    · cases e
    · cases e
      exact ⟨p, hl, hd, hc, fun rsp hr => open_received h hf hl hd hc hr⟩
  · intro p
    rw [successNil_of_run h hlt p]
    split_ifs with hp
    · rw [St.successes_eq]
      exact (hS.log p hp).count_success
    · exact Nat.zero_le 1

theorem server_message_discipline_sampleRun :
    MessageDiscipline sampleConfig sampleRun (stateAfter sampleConfig sampleRun) :=
  server_message_discipline sampleRun_eq (by decide)

end Runs

end Loon
