import Loon.Link.Answers
import Loon.Link.Link

set_option autoImplicit false

/-!
# Messages that cross

A request may be closed by the server, time out, or lose its content on the client while parts of its
response are on the way. The invariant of the connection (`Linked`) follows every response from the
stage at which the server's request object is, through the messages on the way (`Stage.follow`), to
the stage at which the client works on it. It holds as long as the protocol loop runs, across any
steps of the two sides, and it does not depend on request ids being different over the lifetime of
the connection.

* `Moves.follow`: what the client sends continues the responses that are on the way;
* `LinkInv.step`, **`linkInv_of_run`**: the invariant;
* **`begun_response_never_faults`**: no header, no chunk and no close of a response that has begun
  makes the server close the connection over a message that it did not expect.
-/

namespace Loon

open Chunking

/-! ## Following a response -/

/-- The stage after some messages. -/
def Stage.follow (C : ℕ) (σ : Stage) (ms : List ClientData) : Option Stage := ms.foldlM (Stage.next C) σ

@[simp] theorem Stage.follow_nil (C : ℕ) (σ : Stage) : σ.follow C [] = some σ := rfl

theorem Stage.follow_cons {C : ℕ} {σ σ' : Stage} {d : ClientData} {ms : List ClientData}
    (h : σ.follow C (d :: ms) = some σ') : ∃ τ, σ.next C d = some τ ∧ τ.follow C ms = some σ' := by
  unfold Stage.follow at h ⊢
  rw [List.foldlM_cons] at h
  exact Option.bind_eq_some_iff.mp h

theorem Stage.follow_append {C : ℕ} {σ τ : Stage} {ms : List ClientData} (h : σ.follow C ms = some τ)
    (ms' : List ClientData) : σ.follow C (ms ++ ms') = τ.follow C ms' := by
  unfold Stage.follow at h ⊢
  rw [List.foldlM_append, h]
  rfl

/-- **What the client sends for a request continues its response.** -/
theorem Moves.follow {C : ℕ} {l l' : Stages} {out : List Outgoing} (h : Moves C l l' out)
    (hnd : (l.map fun x => x.1.origin).Nodup) {p : ℕ} {σ : Stage}
    (hσ : ∀ x ∈ l, x.1.origin = p → x.2 = σ) :
    ∃ σ', σ.follow C (about p out) = some σ' ∧ (∀ x ∈ l', x.1.origin = p → x.2 = σ') ∧
      ((∀ x ∈ l, x.1.origin ≠ p) → σ' = σ) := by
  cases h with
  | quiet h => exact ⟨σ, rfl, fun x hx => hσ x (h.subset hx), fun _ => rfl⟩
  | @sends a b _ r τ τ' d hl hid hn h =>
    subst hl
    have hmem : ∀ x ∈ l', x = (r, τ') ∨ x ∈ a ∨ x ∈ b := by
      intro x hx
      have := h.subset hx
      simp only [List.mem_append, List.mem_cons] at this
      tauto
    have hother : ∀ x, x ∈ a ∨ x ∈ b → x.1.origin ≠ r.origin := by
      intro x hx he
      rw [List.map_append, List.map_cons, List.nodup_middle, List.nodup_cons] at hnd
      refine hnd.1 ?_
      rw [← List.map_append, ← he]
      exact List.mem_map_of_mem (List.mem_append.mpr hx)
    by_cases hp : r.origin = p
    · subst hp
      have hτ : τ = σ := hσ (r, τ) (by simp) rfl
      subst hτ
      refine ⟨τ', ?_, fun x hx he => ?_, fun hno => ?_⟩
      · rw [about_cons_self (x := ⟨r.origin, d⟩) rfl]
        simp [Stage.follow, hn]
      · rcases hmem x hx with rfl | hx
        · rfl
        · exact absurd he (hother x hx)
      · exact absurd rfl (hno (r, τ) (by simp))
    · refine ⟨σ, ?_, fun x hx he => ?_, fun _ => rfl⟩
      · rw [about_cons_ne hp]
        rfl
      · rcases hmem x hx with rfl | hx
        · exact absurd he hp
        · refine hσ x ?_ he
          simp only [List.mem_append, List.mem_cons]
          tauto

/-- **Every step keeps the numbers of the requests apart.** -/
theorem Client.Changes.numbered {C : ℕ} {c c' : Client} {e : ClientEvent} {out : List Outgoing}
    (h : c.Changes C c' e out) (hN : c.Numbered) : c'.Numbered := by
  cases h with
  | moves he hseen h =>
    cases h with
    | quiet h =>
      refine ⟨hN.nodup.sublist (h.map _), fun x hx => ?_⟩
      rw [hseen]
      exact hN.old x (h.subset hx)
    | @sends a b _ r σ σ' d hl hid hn h =>
      have hmap : c.stages.map (fun x => x.1.origin) =
          (a ++ (r, σ') :: b).map fun x => x.1.origin := by
        rw [hl]
        simp
      refine ⟨(hmap ▸ hN.nodup).sublist (h.map _), fun x hx => ?_⟩
      rw [hseen]
      have hx' : x.1.origin ∈ c.stages.map fun x => x.1.origin := by
        rw [hmap]
        exact List.mem_map_of_mem (h.subset hx)
      obtain ⟨y, hy, he⟩ := List.mem_map.mp hx'
      rw [← he]
      exact hN.old y hy
  | @takes id path limited ok a b hseen hl h =>
    have hold : ∀ x ∈ a ++ b, x.1.origin < c.seen := fun x hx => hN.old x (hl ▸ hx)
    refine ⟨List.Nodup.sublist (h.map _) ?_, fun x hx => ?_⟩
    · rw [List.map_append, List.map_cons, List.nodup_middle, List.nodup_cons, ← List.map_append, ← hl]
      refine ⟨fun hm => ?_, hN.nodup⟩
      obtain ⟨x, hx, he⟩ := List.mem_map.mp hm
      exact Nat.ne_of_lt (hN.old x hx) he
    · rw [hseen]
      have hx' := h.subset hx
      simp only [List.mem_append, List.mem_cons] at hx'
      rcases hx' with hx' | rfl | hx'
      · exact Nat.lt_succ_of_lt (hold x (List.mem_append_left _ hx'))
      · exact Nat.lt_succ_self _
      · exact Nat.lt_succ_of_lt (hold x (List.mem_append_right _ hx'))

/-! ## The server -/

section Server

variable {ext : Externals} {cfg : Config ext} {s s' : St}

/-- The `Request` messages are those of the request objects, in their order. -/
def St.Requested (s : St) : Prop := s.sentIds = (List.range s.created).map fun p => (s.objs p).id

theorem sentIds_congr (hs : s'.send = s.send) : s'.sentIds = s.sentIds := by
  unfold St.sentIds
  rw [hs]

theorem sentIds_append {l : List ServerMessage} (hs : s'.send = s.send ++ l)
    (hl : ∀ m ∈ l, m.newId = none) : s'.sentIds = s.sentIds := by
  unfold St.sentIds
  rw [hs, List.filterMap_append, List.filterMap_eq_nil_iff.mpr hl, List.append_nil]

theorem ClosesOpen.newId {m : ServerMessage} (h : ClosesOpen s m) : m.newId = none := by
  obtain ⟨_, _, _, rfl, -⟩ := h
  rfl

/-- Only a request to the client sends a `Request` message. -/
theorem Steps.sentIds_eq {e : Event} (hI : Inv cfg s) (h : Steps cfg s e s')
    (he : ∀ path now sendOk, e ≠ .forwardRequest path now sendOk) : s'.sentIds = s.sentIds := by
  cases h with
  | recv _ _ _ hh => exact sentIds_congr ((St.top_send _).trans hh.send_eq)
  | forward => exact absurd rfl (he _ _ _)
  | success _ _ _ hh =>
    cases hh with
    | refused | failed => exact sentIds_congr (St.top_send _)
    | @sent q =>
      refine sentIds_append (l := [.success (s.objs q).id]) (St.top_send _) fun m hm => ?_
      rw [List.mem_singleton.mp hm]
      rfl
  | close _ _ _ hh =>
    obtain ⟨l, h1, h2⟩ := hh.sends hI.core
    exact sentIds_append ((St.top_send _).trans h1) fun m hm => (h2 m hm).newId
  | timeout _ _ hh =>
    obtain ⟨l, h1, h2⟩ := hh.sends hI.core
    exact sentIds_append ((St.top_send _).trans h1) fun m hm => (h2 m hm).newId
  | count => exact sentIds_congr (St.top_send s)
  | done | takeResponse | takeChunk => rfl
  | ret _ _ _ hh => exact sentIds_congr hh.send_eq

/-- The objects that exist keep their ids. -/
theorem St.Grows.ids (hg : s.Grows s') :
    (List.range s.created).map (fun p => (s'.objs p).id) =
      (List.range s.created).map fun p => (s.objs p).id := by
  refine List.map_congr_left fun p hp => ?_
  exact (hg.objs p (List.mem_range.mp hp)).sameId

/-- **While the loop runs every request object was announced to the client.** -/
theorem Steps.requested {e : Event} (hI : Inv cfg s) (h : Steps cfg s e s')
    (hph : s'.phase = .loop) (hr : s.Requested) : s'.Requested := by
  have hg := h.grows hI
  unfold St.Requested at *
  by_cases he : ∃ path now sendOk, e = .forwardRequest path now sendOk
  · obtain ⟨path, now, sendOk, rfl⟩ := he
    have hids := hg.ids
    cases h with
    | @forward _ _ _ id hp hid =>
      cases sendOk with
      | false =>
        -- a failed send makes the loop leave
        simp [St.sendMessage, St.top] at hph
      | true =>
        have hcre : (((s.allocate id path now).sendMessage (.request id path) true).1.top).created =
            s.created + 1 := St.top_created _
        have hsend : (((s.allocate id path now).sendMessage (.request id path) true).1.top).send =
            s.send ++ [.request id path] := St.top_send _
        have hnew : (((s.allocate id path now).sendMessage (.request id path) true).1.top).objs
            s.created = newRequest id path now := by
          rw [St.top_objs]
          exact St.put_objs_self _ _ _
        rw [hcre, List.range_succ, List.map_append, hids, ← hr]
        unfold St.sentIds
        rw [hsend, List.filterMap_append, List.map_singleton, hnew]
        rfl
  · have he' : ∀ path now sendOk, e ≠ .forwardRequest path now sendOk :=
      fun path now sendOk h' => he ⟨path, now, sendOk, h'⟩
    rw [h.sentIds_eq hI he', h.created_eq he', hr, hg.ids]

/-- A new request waits for its response. -/
theorem Steps.at_new {e : Event} (h : Steps cfg s e s') {p : ℕ} (hp : p < s'.created)
    (hge : s.created ≤ p) : s'.At p .fresh := by
  by_cases he : ∃ path now sendOk, e = .forwardRequest path now sendOk
  · obtain ⟨path, now, sendOk, rfl⟩ := he
    cases h with
    | @forward _ _ _ id =>
      have hcre : (((s.allocate id path now).sendMessage (.request id path) sendOk).1.top).created =
          s.created + 1 := by
        rw [St.top_created]
        cases sendOk <;> rfl
      rw [hcre] at hp
      obtain rfl : p = s.created := by omega
      have hnew : (s.allocate id path now).objs s.created = newRequest id path now :=
        St.put_objs_self _ _ _
      have ha : (s.allocate id path now).Awaits s.created none := by
        refine ⟨?_, ?_, ?_⟩
        · unfold St.Present
          rw [hnew]
          exact Finmap.lookup_insert _
        · rw [hnew]
          rfl
        · rw [hnew]
          rfl
      apply St.Awaits.top
      cases sendOk <;> exact ha.congr rfl rfl
  · have := h.created_eq fun path now sendOk h' => he ⟨path, now, sendOk, h'⟩
    omega

end Server

/-! ## The invariant -/

section Invariant

variable {ext : Externals} (cfg : Config ext)

/-- The response to the request `p`, from where the server is, through the messages on the way, to
where the client is. -/
def Tracks (s : St) (l : List Outgoing) (c : Client) (p : ℕ) : Prop :=
  ∃ σ σ', s.At p σ ∧ σ.follow cfg.chunkSize.toNat (about p l) = some σ' ∧
    (∀ x ∈ c.stages, x.1.origin = p → x.2 = σ') ∧ (c.seen ≤ p → σ' = .fresh)

/-- **Both sides agree about every response**, while the protocol loop runs. -/
structure Linked (n : Link) (s : St) : Prop where
  requested : s.Requested
  handled : ∃ l, l.length = n.delivered ∧ l <+: s.send ∧
    (l.filterMap ServerMessage.newId).length = n.client.seen
  known : ∀ x ∈ n.client.stages, (s.objs x.1.origin).id = x.1.id
  flying : ∀ x ∈ n.toServer, x.origin < s.created ∧ x.data.requestId = (s.objs x.origin).id
  tracks : ∀ p, p < s.created → Tracks cfg s n.toServer n.client p
  begun : ∀ x ∈ n.received, ∀ m, x.data = .contentHeader m →
    x.origin < s.created ∧ ∃ header, (s.objs x.origin).header = some header

/-- **The invariant of a connection.** -/
structure LinkInv (n : Link) : Prop where
  sound : n.client.Sound cfg.chunkSize.toNat
  numbered : n.client.Numbered
  server : ∃ s, n.server = .ok s ∧ Inv cfg s ∧ (s.phase = .loop → Linked cfg n s)

variable {cfg} {n : Link} {s s' : St}

/-- The client has seen only requests that exist. -/
theorem Linked.seen_le (h : Linked cfg n s) : n.client.seen ≤ s.created := by
  obtain ⟨l, -, hl, hseen⟩ := h.handled
  have hlen : s.sentIds.length = s.created := by
    rw [h.requested, List.length_map, List.length_range]
  rw [← hseen, ← hlen]
  exact (hl.sublist.filterMap _).length_le

/-- What a step of the server leaves as it was. -/
theorem Linked.grows (h : Linked cfg n s) (hN : n.client.Numbered) (hg : s.Grows s') :
    (∃ l, l.length = n.delivered ∧ l <+: s'.send ∧
      (l.filterMap ServerMessage.newId).length = n.client.seen) ∧
    (∀ x ∈ n.client.stages, (s'.objs x.1.origin).id = x.1.id) ∧
    (∀ x ∈ n.toServer, x.origin < s'.created ∧ x.data.requestId = (s'.objs x.origin).id) ∧
    ∀ x ∈ n.received, ∀ m, x.data = .contentHeader m →
      x.origin < s'.created ∧ ∃ header, (s'.objs x.origin).header = some header := by
  refine ⟨?_, fun x hx => ?_, fun x hx => ?_, fun x hx m hm => ?_⟩
  · obtain ⟨l, h1, h2, h3⟩ := h.handled
    exact ⟨l, h1, h2.trans hg.send, h3⟩
  · rw [(hg.objs _ ((hN.old x hx).trans_le h.seen_le)).sameId]
    exact h.known x hx
  · obtain ⟨h1, h2⟩ := h.flying x hx
    rw [(hg.objs _ h1).sameId]
    exact ⟨h1.trans_le hg.created, h2⟩
  · obtain ⟨h1, header, h2⟩ := h.begun x hx m hm
    exact ⟨h1.trans_le hg.created, header, (hg.objs _ h1).header _ h2⟩

/-- A step of the server that is not the receipt of a message. -/
theorem Linked.server {e : Event} (h : Linked cfg n s) (hN : n.client.Numbered) (hI : Inv cfg s)
    (hst : Steps cfg s e s') (he : ∀ m now, e ≠ .recv m now) (hph : s'.phase = .loop) :
    Linked cfg { n with server := .ok s' } s' := by
  obtain ⟨h1, h2, h3, h4⟩ := h.grows hN (hst.grows hI)
  refine ⟨hst.requested hI hph h.requested, h1, h2, h3, fun p hp => ?_, h4⟩
  rcases Nat.lt_or_ge p s.created with hlt | hge
  · obtain ⟨σ, σ', hat, hrest⟩ := h.tracks p hlt
    exact ⟨σ, σ', hst.at hI hph hat fun m now d hm => absurd hm (he m now), hrest⟩
  · -- the request was created in this step, so nothing about it is on the way
    refine ⟨.fresh, .fresh, hst.at_new hp hge, ?_, fun x hx hxp => ?_, fun _ => rfl⟩
    · have hnone : about p n.toServer = [] := by
        unfold about
        rw [List.map_eq_nil_iff, List.filter_eq_nil_iff]
        intro x hx
        have := (h.flying x hx).1
        simp only [decide_eq_true_eq]
        omega
      rw [hnone]
      rfl
    · have := (hN.old x hx).trans_le h.seen_le
      omega

/-- **The receipt of a message.** The message continues the response it belongs to, so the server
either goes on with it or closes the connection for another reason. -/
theorem Linked.recv_spec {x : Outgoing} {rest : List Outgoing} {now : Time} (h : Linked cfg n s)
    (hI : Inv cfg s) (hph : s.phase = .loop) (hq : n.toServer = x :: rest)
    (hh : Handles cfg.chunkSize.toNat cfg.bufferSize s now x.data s') :
    ∃ σ τ σ', s.At x.origin σ ∧ σ.next cfg.chunkSize.toNat x.data = some τ ∧
      τ.follow cfg.chunkSize.toNat (about x.origin rest) = some σ' ∧
      (∀ y ∈ n.client.stages, y.1.origin = x.origin → y.2 = σ') ∧
      (n.client.seen ≤ x.origin → σ' = .fresh) ∧
      (s'.fault = none ∧ s'.At x.origin τ ∨ (σ = .fresh ∧ ∃ m, x.data = .closeResponse m) ∨
        ∃ close, s'.fault = some close ∧ (close.reason = .invalidContentSize ∨
          close.reason = .invalidFilename ∨ close.reason = .forbiddenContentType)) := by
  obtain ⟨hlt, hid⟩ := h.flying x (by rw [hq]; exact List.mem_cons_self)
  obtain ⟨σ, σ', hat, hfol, hstage, hfresh⟩ := h.tracks x.origin hlt
  rw [hq, about_cons_self rfl] at hfol
  obtain ⟨τ, hnext, hfol⟩ := Stage.follow_cons hfol
  exact ⟨σ, τ, σ', hat, hnext, hfol, hstage, hfresh,
    hh.at cfg.chunkSize_pos hI.core (hI.fault_none hph) hid hat hnext⟩

/-- The receipt of a message keeps the invariant. -/
theorem Linked.recv {x : Outgoing} {rest : List Outgoing} {now : Time} (h : Linked cfg n s)
    (hN : n.client.Numbered) (hI : Inv cfg s) (hq : n.toServer = x :: rest)
    (hst : Steps cfg s (.recv ⟨some x.data⟩ now) s') (hph' : s'.phase = .loop) :
    Linked cfg { n with server := .ok s', toServer := rest, received := n.received ++ [x] } s' := by
  obtain ⟨h1, h2, h3, h4⟩ := h.grows hN (hst.grows hI)
  have hfault : s'.fault = none := (hst.inv hI).fault_none hph'
  have hat_other : ∀ {p σ}, p ≠ x.origin → s.Present x.origin → s.At p σ → s'.At p σ := by
    intro p σ hp hpres hat
    refine hst.at hI hph' hat fun m now d hm hd hpres' hid => hp ?_
    cases hm
    cases hd
    rw [(h.flying x (by rw [hq]; exact List.mem_cons_self)).2] at hid
    unfold St.Present at hpres hpres'
    rw [hid, hpres'] at hpres
    exact Option.some.inj hpres
  have hreq := hst.requested hI hph' h.requested
  have hcre := hst.created_eq fun _ _ _ h => by cases h
  cases hst with
  | @recv _ d _ s₁ hph hm hr hh =>
    cases hm
    obtain ⟨σ, τ, σ', hat, hnext, hfol, hstage, hfresh, hout⟩ := h.recv_spec hI hph hq hh
    have hat' : s₁.top.At x.origin τ := by
      rw [St.top_fault] at hfault
      rcases hout with ⟨-, hat'⟩ | ⟨rfl, m, hm⟩ | ⟨close, hclose, -⟩
      · exact hat'.top
      · rw [hm] at hnext
        cases hnext
        trivial
      · rw [hfault] at hclose
        cases hclose
    have hpres : s.Present x.origin := hat.present hnext
    refine ⟨hreq, h1, h2, fun y hy => h3 y (hq ▸ List.mem_cons_of_mem x hy), fun p hp => ?_,
      fun y hy m hm => ?_⟩
    · by_cases hpx : p = x.origin
      · subst hpx
        exact ⟨τ, σ', hat', hfol, hstage, hfresh⟩
      · obtain ⟨σ, σ', hat, hfol, hrest⟩ := h.tracks p (hcre ▸ hp)
        rw [hq, about_cons_ne (Ne.symm hpx)] at hfol
        exact ⟨σ, σ', hat_other hpx hpres hat, hfol, hrest⟩
    · rcases List.mem_append.mp hy with hy | hy
      · exact h4 y hy m hm
      · obtain rfl := List.mem_singleton.mp hy
        refine ⟨(h3 y (by rw [hq]; exact List.mem_cons_self)).1, ?_⟩
        -- a header comes only at the beginning
        rw [hm] at hnext
        cases σ with
        | fresh =>
          cases hnext
          exact St.Awaits.header hat'
        | begun N k => cases hnext
        | ended => cases hnext

/-- A step of the client that moves its requests. -/
theorem Linked.moves {c' : Client} {out : List Outgoing} (h : Linked cfg n s)
    (hN : n.client.Numbered) (hseen : c'.seen = n.client.seen)
    (hm : Moves cfg.chunkSize.toNat n.client.stages c'.stages out) :
    (∀ x ∈ c'.stages, (s.objs x.1.origin).id = x.1.id) ∧
    (∀ x ∈ n.toServer ++ out, x.origin < s.created ∧ x.data.requestId = (s.objs x.origin).id) ∧
    ∀ p, p < s.created → Tracks cfg s (n.toServer ++ out) c' p := by
  refine ⟨?_, ?_, fun p hp => ?_⟩
  · cases hm with
    | quiet hl => exact fun x hx => h.known x (hl.subset hx)
    | @sends a b _ r σ σ' d hl hid hn hsub =>
      intro x hx
      have hx' := hsub.subset hx
      have hr := h.known (r, σ) (by rw [hl]; simp)
      simp only [List.mem_append, List.mem_cons] at hx'
      rcases hx' with hx' | rfl | hx'
      · exact h.known x (by rw [hl]; simp [hx'])
      · exact hr
      · exact h.known x (by rw [hl]; simp [hx'])
  · intro x hx
    rcases List.mem_append.mp hx with hx | hx
    · exact h.flying x hx
    · cases hm with
      | quiet => cases hx
      | @sends a b _ r σ σ' d hl hid hn hsub =>
        obtain rfl := List.mem_singleton.mp hx
        have hr : (r, σ) ∈ n.client.stages := by rw [hl]; simp
        exact ⟨(hN.old _ hr).trans_le h.seen_le, hid.trans (h.known _ hr).symm⟩
  · obtain ⟨σ, σ', hat, hfol, hstage, hfresh⟩ := h.tracks p hp
    obtain ⟨σ'', h1, h2, h3⟩ := hm.follow hN.nodup hstage
    refine ⟨σ, σ'', hat, ?_, h2, fun hle => ?_⟩
    · rw [about_append, Stage.follow_append hfol, h1]
    · rw [hseen] at hle
      rw [h3 fun x hx hxp => absurd (hN.old x hx) (by omega), hfresh hle]

/-- The message of the server that the client handles next. -/
theorem Linked.handled_next {m : ServerMessage} (h : Linked cfg n s)
    (hm : s.send[n.delivered]? = some m) :
    ∃ l, l.length = n.delivered + 1 ∧ l <+: s.send ∧ (l.filterMap ServerMessage.newId).length =
        n.client.seen + m.newId.toList.length ∧
      ∀ id, m.newId = some id → n.client.seen < s.created ∧ (s.objs n.client.seen).id = id := by
  obtain ⟨l, hlen, ⟨t, ht⟩, hseen⟩ := h.handled
  have hnext : ∃ t', t = m :: t' := by
    rw [← ht, List.getElem?_append_right (by omega), hlen, Nat.sub_self] at hm
    cases t with
    | nil => cases hm
    | cons a t' =>
      cases hm
      exact ⟨t', rfl⟩
  obtain ⟨t', rfl⟩ := hnext
  have hfilter : [m].filterMap ServerMessage.newId = m.newId.toList := by
    cases hid : m.newId <;> simp [hid]
  refine ⟨l ++ [m], by simp [hlen], ⟨t', by simpa using ht⟩, ?_, fun id hid => ?_⟩
  · rw [List.filterMap_append, List.length_append, hfilter, hseen]
  · have hget : s.sentIds[n.client.seen]? = some id := by
      unfold St.sentIds
      rw [← ht, List.filterMap_append, List.getElem?_append_right (by omega), hseen, Nat.sub_self]
      simp [hid]
    rw [h.requested, List.getElem?_map] at hget
    obtain ⟨p, hp, he⟩ := Option.map_eq_some_iff.mp hget
    obtain ⟨hlt, hp⟩ := List.getElem?_eq_some_iff.mp hp
    rw [List.getElem_range] at hp
    rw [List.length_range] at hlt
    exact ⟨hlt, hp ▸ he⟩

/-- The handling of a server message. -/
theorem Linked.deliver {m : ServerMessage} {limited ok : Bool} {c' : Client} {out : List Outgoing}
    (h : Linked cfg n s) (hN : n.client.Numbered) (hm : s.send[n.delivered]? = some m)
    (hc : n.client.Changes cfg.chunkSize.toNat c' (.message m limited ok) out) :
    Linked cfg { n with client := c', toServer := n.toServer ++ out, delivered := n.delivered + 1 }
      s := by
  obtain ⟨l, hlen, hl, hcount, hnew⟩ := h.handled_next hm
  generalize he : ClientEvent.message m limited ok = e at hc
  cases hc with
  | moves hne hseen hmoves =>
    have hnone : m.newId = none := by
      cases m with
      | request id path => exact absurd he.symm (hne id path limited ok)
      | success id => rfl
      | requestClosed id message => rfl
    rw [hnone] at hcount
    obtain ⟨h1, h2, h3⟩ := h.moves hN hseen hmoves
    exact ⟨h.requested, ⟨l, hlen, hl, hcount.trans hseen.symm⟩, h1, h2, h3, h.begun⟩
  | @takes id path limited ok a b hseen hab hsub =>
    cases he
    obtain ⟨hlt, hid⟩ := hnew id rfl
    have hmem : ∀ x ∈ c'.stages,
        x = (⟨n.client.seen, id⟩, Stage.fresh) ∨ x ∈ n.client.stages := by
      intro x hx
      have hx' := hsub.subset hx
      rw [hab]
      simp only [List.mem_append, List.mem_cons] at hx' ⊢
      tauto
    rw [List.append_nil]
    refine ⟨h.requested, ⟨l, hlen, hl, hcount.trans hseen.symm⟩, fun x hx => ?_, h.flying,
      fun p hp => ?_, h.begun⟩
    · rcases hmem x hx with rfl | hx
      · exact hid
      · exact h.known x hx
    · obtain ⟨σ, σ', hat, hfol, hstage, hfresh⟩ := h.tracks p hp
      refine ⟨σ, σ', hat, hfol, fun x hx hxp => ?_, fun hle => hfresh ?_⟩
      · rcases hmem x hx with rfl | hx
        · exact (hfresh (le_of_eq hxp)).symm
        · exact hstage x hx hxp
      · change c'.seen ≤ p at hle
        omega

/-- Any other step of the client. -/
theorem Linked.client {e : ClientEvent} {c' : Client} {out : List Outgoing} (h : Linked cfg n s)
    (hN : n.client.Numbered) (he : e.isMessage = false)
    (hc : n.client.Changes cfg.chunkSize.toNat c' e out) :
    Linked cfg { n with client := c', toServer := n.toServer ++ out } s := by
  cases hc with
  | moves _ hseen hmoves =>
    obtain ⟨h1, h2, h3⟩ := h.moves hN hseen hmoves
    obtain ⟨l, hlen, hl, hcount⟩ := h.handled
    exact ⟨h.requested, ⟨l, hlen, hl, hcount.trans hseen.symm⟩, h1, h2, h3, h.begun⟩
  | takes => cases he

/-- A step of the server inside a connection does not panic. -/
theorem LinkInv.server_step (h : LinkInv cfg n) {e : Event} {server : Except Panic St}
    (hs : (protocol cfg).step n.server e = some server)
    (he : ∀ m now, e = .recv m now → m.data.isSome) :
    ∃ s s', n.server = .ok s ∧ server = .ok s' ∧ Inv cfg s ∧ Steps cfg s e s' ∧
      (s.phase = .loop → Linked cfg n s) := by
  obtain ⟨s, hserver, hI, hL⟩ := h.server
  rw [hserver] at hs
  rcases step_spec hI hs with ⟨s', rfl, hst⟩ | ⟨-, m, now, rfl, hm⟩
  · exact ⟨s, s', hserver, rfl, hI, hst, hL⟩
  · have := he m now rfl
    rw [hm] at this
    cases this

/-- **Every step keeps the invariant of the connection.** -/
theorem LinkInv.step {n' : Link} {e : LinkEvent} (h : LinkInv cfg n) (he : e.Exact)
    (hs : (link cfg).step n e = some n') : LinkInv cfg n' := by
  cases e with
  | recv now =>
    change n.recv cfg now = some n' at hs
    unfold Link.recv at hs
    cases hq : n.toServer with
    | nil =>
      rw [hq] at hs
      cases hs
    | cons x rest =>
      rw [hq] at hs
      obtain ⟨server, hserver, rfl⟩ := Option.map_eq_some_iff.mp hs
      obtain ⟨s, s', -, rfl, hI, hst, hL⟩ :=
        h.server_step hserver fun m now hm => by cases hm; rfl
      refine ⟨h.sound, h.numbered, s', rfl, hst.inv hI, fun hph => ?_⟩
      exact (hL (hst.phase_loop hph)).recv h.numbered hI hq hst hph
  | deliver limited ok =>
    change n.deliver cfg limited ok = some n' at hs
    unfold Link.deliver at hs
    obtain ⟨m, hm, hs⟩ := Option.bind_eq_some_iff.mp hs
    obtain ⟨⟨c', out⟩, hc, rfl⟩ := Option.map_eq_some_iff.mp hs
    obtain ⟨s, hserver, hI, hL⟩ := h.server
    have he : (ClientEvent.message m limited ok).Exact := trivial
    obtain ⟨hS, hch⟩ := Client.step_spec (c := n.client) rfl cfg.chunkSize_pos h.sound he hc
    unfold Link.nextMessage at hm
    rw [hserver] at hm
    exact ⟨hS, hch.numbered h.numbered, s, hserver, hI, fun hph => (hL hph).deliver h.numbered hm hch⟩
  | server e =>
    change (if e.isRecv then none else _) = some n' at hs
    split_ifs at hs with hrecv
    obtain ⟨server, hserver, rfl⟩ := Option.map_eq_some_iff.mp hs
    have hne : ∀ m now, e ≠ .recv m now := by
      rintro m now rfl
      exact hrecv rfl
    obtain ⟨s, s', -, rfl, hI, hst, hL⟩ :=
      h.server_step hserver fun m now hm => absurd hm (hne m now)
    refine ⟨h.sound, h.numbered, s', rfl, hst.inv hI, fun hph => ?_⟩
    exact (hL (hst.phase_loop hph)).server h.numbered hI hst hne hph
  | client e =>
    change (if e.isMessage then none else _) = some n' at hs
    split_ifs at hs with hmsg
    obtain ⟨⟨c', out⟩, hc, rfl⟩ := Option.map_eq_some_iff.mp hs
    obtain ⟨s, hserver, hI, hL⟩ := h.server
    obtain ⟨hS, hch⟩ := Client.step_spec (c := n.client) rfl cfg.chunkSize_pos h.sound he hc
    exact ⟨hS, hch.numbered h.numbered, s, hserver, hI,
      fun hph => (hL hph).client h.numbered (by simpa using hmsg) hch⟩

variable (cfg)

theorem linkInv_init : LinkInv cfg Link.init where
  sound :=
    { handler := fun i hi => absurd hi (Nat.not_lt_zero i)
      content := fun path i hi => by cases hi
      requests := fun id i half hi => by cases hi }
  numbered := ⟨List.nodup_nil, fun x hx => by cases hx⟩
  server := by
    refine ⟨St.init, rfl, inv_init cfg, fun _ => ⟨rfl, ⟨[], rfl, List.prefix_rfl, rfl⟩, ?_, ?_, ?_, ?_⟩⟩
    · exact fun x hx => by cases hx
    · exact fun x hx => by cases hx
    · exact fun p hp => absurd hp (Nat.not_lt_zero p)
    · exact fun x hx => by cases hx

variable {cfg}

/-- **The invariant holds along every run** with sources that supply what they announce. -/
theorem linkInv_of_run {es : List LinkEvent} (hes : ∀ e ∈ es, e.Exact)
    (h : (link cfg).run Link.init es = some n) : LinkInv cfg n := by
  refine Machine.run_induction (M := link cfg)
    (P := fun es n => (∀ e ∈ es, e.Exact) → LinkInv cfg n) (fun _ => linkInv_init cfg) ?_ h hes
  intro es n e n' _ hP hs hes
  have hn := hP fun e he => hes e (List.mem_append_left _ he)
  exact hn.step (hes e (List.mem_append_right _ List.mem_cons_self)) hs

end Invariant

/-! ## Crossing cancellations -/

section Crossing

variable {ext : Externals} {cfg : Config ext}

/-- The message `x` is a header, a chunk, or the close of a response whose header was received. -/
def Link.Begun (n : Link) (x : Outgoing) : Prop :=
  match x.data with
  | .contentHeader _ => True
  | .contentChunk _ => True
  | .closeResponse _ => ∃ m, ⟨x.origin, .contentHeader m⟩ ∈ n.received
  | .emptyResponse _ => False

/-- The reasons for which the server closes the connection over a message it did not expect. -/
def CloseReason.unexpectedMessage : CloseReason → Bool
  | .invalidClientMessage => true
  | .invalidRequestId => true
  | .contentChunkOutOfSequence => true
  | .invalidChunkSize => true
  | _ => false

/-- **Crossing cancellations are harmless once a response has begun.** In every run of a connection
whose sources supply what they announce, the receipt of a header, of a chunk, or of a `CloseResponse`
after the header of the same request neither panics nor closes the connection over an unexpected
message. -/
theorem begun_response_never_faults {es : List LinkEvent} {n n' : Link} {x : Outgoing}
    {rest : List Outgoing} {now : Time} (hes : ∀ e ∈ es, e.Exact)
    (hrun : (link cfg).run Link.init es = some n) (hq : n.toServer = x :: rest) (hx : n.Begun x)
    (hs : (link cfg).step n (.recv now) = some n') :
    ∃ s, n'.server = .ok s ∧ ∀ close, s.fault = some close → close.reason.unexpectedMessage = false := by
  have h := linkInv_of_run hes hrun
  change n.recv cfg now = some n' at hs
  unfold Link.recv at hs
  rw [hq] at hs
  obtain ⟨server, hserver, rfl⟩ := Option.map_eq_some_iff.mp hs
  obtain ⟨s, s', -, rfl, hI, hst, hL⟩ := h.server_step hserver fun m now hm => by cases hm; rfl
  refine ⟨s', rfl, fun close hclose => ?_⟩
  cases hst with
  | @recv _ d _ s₁ hph hm _ hh =>
    cases hm
    rw [St.top_fault] at hclose
    obtain ⟨σ, τ, σ', hat, -, -, -, -, hout⟩ := (hL hph).recv_spec hI hph hq hh
    rcases hout with ⟨hnone, -⟩ | ⟨rfl, m, hm⟩ | ⟨close', hclose', hreason⟩
    · rw [hnone] at hclose
      cases hclose
    · -- a `CloseResponse` for a request without a response: the header was not received
      unfold Link.Begun at hx
      rw [hm] at hx
      obtain ⟨m', hm'⟩ := hx
      obtain ⟨-, header, hheader⟩ := (hL hph).begun _ hm' m' rfl
      have hnone := Request.progress_eq_none (St.Awaits.progress hat)
      simp [Request.header, hnone] at hheader
    · rw [hclose'] at hclose
      cases hclose
      rcases hreason with e | e | e <;> rw [e] <;> rfl

/-- A response of two chunks whose request the server closes after the header has arrived. The
first chunk and the `RequestClosed` message cross, and the client ends the response. -/
def crossingRun : List LinkEvent :=
  [.client (.register ⟨"text/html", 4, [1, 2, 3, 4]⟩ ⟨"page", none, none⟩),
   .server (.forwardRequest "page" 0 true), .deliver false true, .client (.serve 0 true),
   .client (.serve 0 true), .client (.serve 0 true), .recv 1,
   .server (.triggerClose 0 "gone" 1 true), .client (.serve 0 true), .recv 2, .deliver false true,
   .client (.serve 0 true)]

/-- The connection after `crossingRun`. -/
def crossed : Link := ((link sampleConfig).run Link.init crossingRun).getD Link.init

theorem begun_response_never_faults_crossed : crossed.toServer = [⟨0, .closeResponse ⟨1⟩⟩] ∧
    ∃ n s, (link sampleConfig).step crossed (.recv 3) = some n ∧ n.server = .ok s ∧
      ∀ close, s.fault = some close → close.reason.unexpectedMessage = false := by
  have hq : crossed.toServer = [⟨0, .closeResponse ⟨1⟩⟩] := rfl
  have hx : crossed.Begun ⟨0, .closeResponse ⟨1⟩⟩ := by
    refine ⟨⟨1, "text/html", 4, none, none⟩, ?_⟩
    have hreceived : crossed.received = [⟨0, .contentHeader ⟨1, "text/html", 4, none, none⟩⟩,
        ⟨0, .contentChunk ⟨1, 0, [1, 2]⟩⟩] := rfl
    rw [hreceived]
    exact List.mem_cons_self
  have hes : ∀ e ∈ crossingRun, e.Exact := by
    simp [crossingRun, LinkEvent.Exact, ClientEvent.Exact]
  obtain ⟨n, hn⟩ : ∃ n, (link sampleConfig).step crossed (.recv 3) = some n := ⟨_, rfl⟩
  obtain ⟨s, hs, hsafe⟩ := begun_response_never_faults hes rfl hq hx hn
  exact ⟨hq, n, s, hn, hs, hsafe⟩

end Crossing

end Loon
