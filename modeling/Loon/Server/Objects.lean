import Loon.Server.Transitions

set_option autoImplicit false

/-!
# Changes of a request object

One lemma for each change the protocol loop makes to a request object: the object keeps its invariant
(`ObjInv.answered`, `ObjInv.advance`, `ObjInv.written`, `ObjInv.finished`, ...), and it only grows
(`Request.Grows`): flags are never taken back, channels are only appended to, and the chunk channel
of a closed or completed request does not change any more. `Request.Receives` is a change that
somebody else makes, by receiving from a channel of the request.
-/

namespace Loon

open Chunking

/-! ## Headers and logs -/

namespace Request

variable {r : Request}

theorem sent_filled (h : Option ContentHeader) :
    (r.filled h).pendingResponse.sent = r.pendingResponse.sent ++ [h] := by
  simp [filled, Chan.sent]

theorem header_advance : r.advance.header = r.header := by
  cases hr : r.response <;> simp [advance, header, hr]

theorem header_written (r : Request) (data : Bytes) : (r.written data).header = r.header := by
  cases hr : r.response <;> simp [written, header, hr]

theorem header_finished (r : Request) : r.markCompleted.drained.header = r.header := by
  cases hr : r.response <;> simp [drained, markCompleted, header, hr]

end Request

/-! ## The invariant -/

section Objects

variable {C : ℕ} {live live' present present' : Prop} {w w' : Option PendingWrite} {r : Request}

/-- What the invariant says of a response depends on the request only by whether it is completed,
except for the count of its chunks. -/
theorem ResponseInv.recount {r' : Request} {rsp : Response} (h : ResponseInv C live present w r rsp)
    (hd : r'.isCompleted = r.isCompleted)
    (hcount : live' → present' → r'.isCompleted = false →
      Counter C rsp.size rsp.chunkSequence.toNat r'.isClosed rsp.chunks.sent w') :
    ResponseInv C live' present' w' r' rsp where
  pos := h.pos
  cap := h.cap
  chunksClosed := h.chunksClosed.trans hd.symm
  front h' := h.front (hd ▸ h')
  whole h' := h.whole (hd ▸ h')
  counter := hcount

/-- The invariant asks less of an object that is not live or has left the map. -/
theorem ObjInv.weaken (h : ObjInv C live present w r) (hl : live' → live)
    (hp : present' → present) (hw : live' → w' = w)
    (hs : present' ∨ r.isCompleted = true ∨ r.isClosed = true) : ObjInv C live' present' w' r where
  excl := h.excl
  pending := h.pending
  answer := h.answer
  fresh hp' := h.fresh (hp hp')
  response rsp hr := (h.response rsp hr).recount rfl fun hl' hp' hd =>
    hw hl' ▸ (h.response rsp hr).counter (hl hl') (hp hp') hd
  settled := hs

/-- An object that leaves the map once it is settled. -/
theorem ObjInv.leave (h : ObjInv C live present w r)
    (hs : r.isCompleted = true ∨ r.isClosed = true) : ObjInv C live False none r where
  excl := h.excl
  pending := h.pending
  answer := h.answer
  fresh hf := hf.elim
  response rsp hr := (h.response rsp hr).recount rfl fun _ hf => hf.elim
  settled := .inr hs

/-- The invariant does not look at the time stamp. -/
theorem ObjInv.touch (h : ObjInv C live present w r) (now : Time) :
    ObjInv C live present w { r with lastUpdated := now } where
  excl := h.excl
  pending := h.pending
  answer := h.answer
  fresh := h.fresh
  response rsp hr := (h.response rsp hr).recount rfl (h.response rsp hr).counter
  settled := h.settled

theorem ObjInv.resetTimeout (h : ObjInv C live present w r) (now : Time) :
    ObjInv C live present w (r.resetTimeout now) := by
  unfold Request.resetTimeout
  split_ifs
  · exact h.touch now
  · exact h

theorem Counter.closed {N seq : ℕ} {c : Bool} {sent : List Bytes} (h : Counter C N seq c sent w) :
    Counter C N seq true sent w := by
  cases w with
  | none => exact ⟨h.1, fun hc => by cases hc⟩
  | some x =>
    obtain ⟨k, h1, h2, h3, h4, -⟩ := h
    exact ⟨k, h1, h2, h3, h4, fun hc => by cases hc⟩

/-- Closing an object that is not completed. -/
theorem ObjInv.markClosed (h : ObjInv C live present w r) (hd : r.isCompleted = false) :
    ObjInv C live present w r.markClosed where
  excl hd' := by
    have hd'' : r.isCompleted = true := hd'
    rw [hd] at hd''; cases hd''
  pending := h.pending
  answer := h.answer
  fresh := h.fresh
  response rsp hr := (h.response rsp hr).recount rfl fun hl hp hd =>
    ((h.response rsp hr).counter hl hp hd).closed
  settled := .inr (.inr rfl)

theorem Request.shut_settled (r : Request) : r.shut.isCompleted = true ∨ r.shut.isClosed = true := by
  unfold Request.shut
  split_ifs with h
  · simpa using h
  · exact .inr rfl

@[simp] theorem Request.answered_id (r : Request) (header : ContentHeader) (bufferSize : ℕ)
    (now : Time) : (r.answered header bufferSize now).id = r.id := by
  unfold Request.answered
  split_ifs <;> rfl

@[simp] theorem Request.resetTimeout_id (r : Request) (now : Time) :
    (r.resetTimeout now).id = r.id := by
  unfold Request.resetTimeout
  split_ifs <;> rfl

@[simp] theorem Request.shut_id (r : Request) : r.shut.id = r.id := by
  unfold Request.shut; split_ifs <;> rfl

theorem ObjInv.shut (h : ObjInv C live present w r) : ObjInv C live present w r.shut := by
  unfold Request.shut
  split_ifs with hs
  · exact h
  · exact h.markClosed (by simp at hs; exact hs.1)

/-- Nothing was sent on a response channel that is open. -/
theorem ObjInv.sent_eq_nil (h : ObjInv C live present w r) (ho : r.pendingResponse.closed = false) :
    r.pendingResponse.sent = [] := by
  rcases h.pending with h1 | ⟨x, -, h2⟩
  · exact h1.1
  · rw [ho] at h2
    cases h2

/-- Accepting a header. -/
theorem ObjInv.answered (h : ObjInv C live present none r) (hp : present) (hr : r.response = none)
    {header : ContentHeader} (hsize : 0 < header.contentSize.toNat) {bufferSize : ℕ}
    (hb : 0 < bufferSize) (now : Time) :
    ObjInv C live present none (r.answered header bufferSize now) := by
  obtain ⟨hpend, hd⟩ := h.fresh hp hr
  have hempty := h.sent_eq_nil hpend
  have hresp : ∀ (r' : Request) rsp, r'.isCompleted = r.isCompleted → r'.isClosed = r.isClosed →
      r'.response = some (newResponse header bufferSize) → r'.response = some rsp →
      ResponseInv C live present none r' rsp := by
    intro r' rsp e1 e2 e3 e4
    rw [e3] at e4
    cases e4
    rw [hd] at e1
    refine ⟨hsize, hb, e1.symm, fun _ => isChunkPrefix_nil hsize, fun h' => ?_, fun _ _ _ => ?_⟩
    · rw [e1] at h'; cases h'
    · refine ⟨?_, fun _ => by simp [newResponse]⟩
      simp only [newResponse, UInt64.toNat_zero, Nat.zero_mul]
      exact hsize
  unfold Request.answered
  split_ifs with hc
  · refine ⟨h.excl, h.pending, fun x hx => ?_, fun _ hr' => by simp at hr',
      fun rsp hrsp => hresp _ rsp rfl rfl rfl hrsp, h.settled⟩
    change x ∈ r.pendingResponse.sent at hx
    rw [hempty] at hx; cases hx
  · have hsent : ({ r with lastUpdated := now, response := some (newResponse header bufferSize) }.filled
        (some header)).pendingResponse.sent = [some header] := by
      rw [Request.sent_filled]
      change r.pendingResponse.sent ++ _ = _
      rw [hempty]; rfl
    refine ⟨h.excl, .inr ⟨some header, hsent, rfl⟩, fun x hx => ?_,
      fun _ hr' => by simp [Request.filled] at hr',
      fun rsp hrsp => hresp _ rsp rfl rfl rfl hrsp, h.settled⟩
    rw [hsent, List.mem_singleton] at hx
    rw [hx]
    exact ⟨rfl, fun h => by cases h⟩

/-- Completing a request with an empty response; the object leaves the map with it. -/
theorem ObjInv.emptied (h : ObjInv C live present none r) (hp : present) (hr : r.response = none)
    (hc : r.isClosed = false) :
    ObjInv C live False none (r.filled none).markCompleted := by
  obtain ⟨hpend, -⟩ := h.fresh hp hr
  have hempty := h.sent_eq_nil hpend
  have hsent : (r.filled none).markCompleted.pendingResponse.sent = [none] := by
    change (r.filled none).pendingResponse.sent = _
    rw [Request.sent_filled, hempty]; rfl
  refine ⟨fun _ => hc, .inr ⟨none, hsent, rfl⟩, fun x hx => ?_, fun hf => hf.elim,
    fun rsp hrsp => ?_, .inr (.inl rfl)⟩
  · rw [hsent, List.mem_singleton] at hx
    subst hx
    exact ⟨by simp [Request.header, Request.markCompleted, Request.filled, hr], fun _ => rfl⟩
  · have : r.response = some rsp := hrsp
    rw [hr] at this; cases this

/-- The counter of an accepted chunk is advanced. -/
theorem ObjInv.advance (h : ObjInv C live present none r) {x : PendingWrite} {rsp : Response}
    (hC : 0 < C) (hr : r.response = some rsp)
    (hlen : x.data.length = due C rsp.size rsp.chunkSequence.toNat)
    (hlast : x.last = decide (rsp.chunkSequence.toNat * C + x.data.length = rsp.size)) :
    ObjInv C live present (some x) r.advance := by
  have hrsp := h.response rsp hr
  refine ⟨h.excl, h.pending, fun x hx => Request.header_advance.symm ▸ h.answer x hx,
    fun _ hr' => by simp [Request.advance, hr] at hr', fun rsp' hr' => ?_, h.settled⟩
  simp only [Request.advance, hr, Option.map_some, Option.some.injEq] at hr'
  subst hr'
  refine ⟨hrsp.pos, hrsp.cap, hrsp.chunksClosed, hrsp.front, hrsp.whole, fun hl hp hd => ?_⟩
  obtain ⟨hlt, hcount⟩ := hrsp.counter hl hp hd
  refine ⟨rsp.chunkSequence.toNat, ?_, hlt, hlen, hlast, hcount⟩
  have hN := rsp.header.contentSize.toNat_lt
  have hle : rsp.chunkSequence.toNat ≤ rsp.chunkSequence.toNat * C := Nat.le_mul_of_pos_right _ hC
  have : rsp.size = rsp.header.contentSize.toNat := rfl
  simp only [UInt64.toNat_add]
  exact Nat.mod_eq_of_lt (by simp; omega)

/-- The counter of a rejected chunk is advanced too; the connection is not live afterwards. -/
theorem ObjInv.advance_dead (h : ObjInv C live present w r) :
    ObjInv C False present w' r.advance := by
  refine ⟨h.excl, h.pending, fun x hx => Request.header_advance.symm ▸ h.answer x hx,
    fun hp hr' => h.fresh hp ?_, fun rsp' hr' => ?_, h.settled⟩
  · cases hr : r.response with
    | none => rfl
    | some rsp => simp [Request.advance, hr] at hr'
  · cases hr : r.response with
    | none => simp [Request.advance, hr] at hr'
    | some rsp =>
      have hrsp := h.response rsp hr
      simp only [Request.advance, hr, Option.map_some, Option.some.injEq] at hr'
      subst hr'
      exact ⟨hrsp.pos, hrsp.cap, hrsp.chunksClosed, hrsp.front, hrsp.whole, fun hf => hf.elim⟩

/-- A chunk of a closed request that is not the last one is counted and dropped. -/
theorem ObjInv.discard {x : PendingWrite} (h : ObjInv C live present (some x) r)
    (hc : r.isClosed = true) (hl : x.last = false) : ObjInv C live present none r where
  excl := h.excl
  pending := h.pending
  answer := h.answer
  fresh := h.fresh
  response rsp hr := by
    refine (h.response rsp hr).recount rfl fun hl' hp' hd => ?_
    obtain ⟨k, h1, h2, h3, h4, -⟩ := (h.response rsp hr).counter hl' hp' hd
    rw [hl] at h4
    have hne := of_decide_eq_false h4.symm
    refine ⟨?_, fun hc' => by rw [hc] at hc'; cases hc'⟩
    unfold due at h3
    rw [h1, Nat.succ_mul]
    omega
  settled := h.settled

/-- A chunk of an open request that is not the last one is put on the channel. -/
theorem ObjInv.written {x : PendingWrite} (h : ObjInv C live present (some x) r) (hlive : live)
    (hpres : present) (hd : r.isCompleted = false) (hc : r.isClosed = false) (hl : x.last = false) :
    ObjInv C live present none (r.written x.data) := by
  refine ⟨h.excl, h.pending, fun y hy => (Request.header_written r _).symm ▸ h.answer y hy,
    fun hp hr' => h.fresh hp ?_, fun rsp' hr' => ?_, h.settled⟩
  · cases hr : r.response with
    | none => rfl
    | some rsp => simp [Request.written, hr] at hr'
  · cases hr : r.response with
    | none => simp [Request.written, hr] at hr'
    | some rsp =>
      have hrsp := h.response rsp hr
      obtain ⟨k, h1, h2, h3, h4, h5⟩ := hrsp.counter hlive hpres hd
      have hk := h5 hc
      have hne : k * C + x.data.length ≠ rsp.size := of_decide_eq_false (h4 ▸ hl)
      simp only [Request.written, hr, Option.map_some, Option.some.injEq] at hr'
      subst hr'
      have hpush := (hrsp.front hd).push (c := x.data) (by rw [hk]; exact h3)
      rw [hk] at hpush
      refine ⟨hrsp.pos, hrsp.cap, hrsp.chunksClosed, fun _ => ?_, fun hd' => ?_,
        fun _ _ _ => ⟨?_, fun _ => ?_⟩⟩
      · rw [Chan.sent_push]; exact hpush.2 hne
      · have hd'' : r.isCompleted = true := hd'
        rw [hd] at hd''; cases hd''
      · change rsp.chunkSequence.toNat * C < rsp.size
        unfold due at h3
        rw [h1, Nat.succ_mul]
        omega
      · rw [Chan.sent_push, List.length_append, hk, h1]; rfl

/-- The last chunk of an open request completes it. -/
theorem ObjInv.finished {x : PendingWrite} (h : ObjInv C live present (some x) r) (hlive : live)
    (hpres : present) (hd : r.isCompleted = false) (hc : r.isClosed = false) (hl : x.last = true)
    (hr : r.response.isSome) :
    ObjInv C live present none (r.written x.data).markCompleted.drained := by
  obtain ⟨rsp, hr⟩ := Option.isSome_iff_exists.mp hr
  refine ⟨fun _ => hc, h.pending, fun y hy => ?_, fun hp hr' => ?_, fun rsp' hr' => ?_,
    .inr (.inl rfl)⟩
  · rw [Request.header_finished, Request.header_written]
    exact ⟨(h.answer y hy).1, fun _ => rfl⟩
  · simp [Request.drained, Request.markCompleted, Request.written, hr] at hr'
  · have hrsp := h.response rsp hr
    obtain ⟨k, h1, h2, h3, h4, h5⟩ := hrsp.counter hlive hpres hd
    have hk := h5 hc
    have he : k * C + x.data.length = rsp.size := of_decide_eq_true (h4 ▸ hl)
    simp only [Request.drained, Request.markCompleted, Request.written, hr, Option.map_some,
      Option.some.injEq] at hr'
    subst hr'
    have hpush := (hrsp.front hd).push (c := x.data) (by rw [hk]; exact h3)
    rw [hk] at hpush
    refine ⟨hrsp.pos, hrsp.cap, rfl, fun hd' => ?_, fun _ => ?_, fun _ _ hd' => ?_⟩
    · simp [Request.drained, Request.markCompleted, Request.isCompleted] at hd'
    · have hs : (⟨rsp.chunks.cap, rsp.chunks.taken, rsp.chunks.buffer ++ [x.data], true⟩ :
          Chan Bytes).sent = rsp.chunks.sent ++ [x.data] := by simp [Chan.sent]
      change IsChunking C rsp.size (Chan.sent _)
      rw [hs]
      exact hpush.1 he
    · simp [Request.drained, Request.markCompleted, Request.isCompleted] at hd'

theorem objInv_newRequest (id : UInt64) (path : String) (now : Time) (hp : present) :
    ObjInv C live present none (newRequest id path now) where
  excl h := by simp [newRequest, Request.isCompleted] at h
  pending := .inl ⟨rfl, rfl⟩
  answer x hx := by simp [newRequest, Chan.make, Chan.sent] at hx
  fresh _ _ := ⟨rfl, rfl⟩
  response rsp hr := by simp [newRequest] at hr
  settled := .inl hp

end Objects

/-! ## Growth -/

namespace Request

/-- `r'` is a later state of the object `r`. -/
structure Grows (r r' : Request) : Prop where
  sameId : r'.id = r.id
  closed : r.isClosed = true → r'.isClosed = true
  completed : r.isCompleted = true → r'.isCompleted = true
  header : ∀ h, r.header = some h → r'.header = some h
  pending : r.pendingResponse.sent <+: r'.pendingResponse.sent
  log : r.chunkLog <+: r'.chunkLog
  frozen : r.isClosed = true ∨ r.isCompleted = true → r'.chunkLog = r.chunkLog

variable {r r' r'' : Request}

theorem Grows.refl (r : Request) : Grows r r :=
  ⟨rfl, fun h => h, fun h => h, fun _ h => h, List.prefix_rfl, List.prefix_rfl, fun _ => rfl⟩

theorem Grows.trans (h : Grows r r') (h' : Grows r' r'') : Grows r r'' where
  sameId := h'.sameId.trans h.sameId
  closed hc := h'.closed (h.closed hc)
  completed hc := h'.completed (h.completed hc)
  header x hx := h'.header x (h.header x hx)
  pending := h.pending.trans h'.pending
  log := h.log.trans h'.log
  frozen hc := (h'.frozen (hc.imp h.closed h.completed)).trans (h.frozen hc)

theorem grows_touch (now : Time) : Grows r { r with lastUpdated := now } :=
  ⟨rfl, fun h => h, fun h => h, fun _ h => h, List.prefix_rfl, List.prefix_rfl, fun _ => rfl⟩

theorem grows_resetTimeout (now : Time) : Grows r (r.resetTimeout now) := by
  unfold resetTimeout
  split_ifs
  · exact grows_touch now
  · exact .refl r

theorem grows_markClosed : Grows r r.markClosed :=
  ⟨rfl, fun _ => rfl, fun h => h, fun _ h => h, List.prefix_rfl, List.prefix_rfl, fun _ => rfl⟩

theorem grows_shut : Grows r r.shut := by
  unfold shut
  split_ifs
  · exact .refl r
  · exact grows_markClosed

theorem grows_emptied : Grows r (r.filled none).markCompleted :=
  ⟨rfl, fun h => h, fun _ => rfl, fun _ h => h, sent_filled none ▸ List.prefix_append _ _,
    List.prefix_rfl, fun _ => rfl⟩

theorem chunkLog_answered (header : ContentHeader) (bufferSize : ℕ) (now : Time) :
    (r.answered header bufferSize now).chunkLog = [] := by
  unfold answered
  split_ifs <;> rfl

theorem grows_answered (hr : r.response = none) (header : ContentHeader) (bufferSize : ℕ)
    (now : Time) : Grows r (r.answered header bufferSize now) := by
  have hlog : r.chunkLog = [] := by simp [chunkLog, hr]
  refine ⟨?_, fun hc => ?_, fun hd => ?_, fun h hh => ?_, ?_, ?_, fun _ => ?_⟩
  · unfold answered; split_ifs <;> rfl
  · unfold answered; rw [if_pos hc]; exact hc
  · unfold answered; split_ifs <;> exact hd
  · simp [Request.header, hr] at hh
  · unfold answered
    split_ifs
    · exact List.prefix_rfl
    · rw [sent_filled]; exact List.prefix_append _ _
  · rw [hlog]; exact List.nil_prefix
  · rw [chunkLog_answered, hlog]

theorem chunkLog_advance : r.advance.chunkLog = r.chunkLog := by
  cases hr : r.response <;> simp [advance, chunkLog, hr]

theorem grows_advance : Grows r r.advance := by
  refine ⟨rfl, fun h => h, fun h => h, fun x hx => ?_, List.prefix_rfl, ?_,
    fun _ => chunkLog_advance⟩
  · rw [header_advance, hx]
  · rw [chunkLog_advance]

theorem chunkLog_written {rsp : Response} (hr : r.response = some rsp) (data : Bytes) :
    (r.written data).chunkLog = r.chunkLog ++ [data] := by
  simp [written, chunkLog, hr]

theorem grows_written (hr : r.response.isSome) (hc : r.isClosed = false)
    (hd : r.isCompleted = false) (data : Bytes) : Grows r (r.written data) := by
  obtain ⟨rsp, hr⟩ := Option.isSome_iff_exists.mp hr
  refine ⟨rfl, fun h => h, fun h => h, fun h hh => ?_, List.prefix_rfl, ?_, fun h => ?_⟩
  · simpa [written, Request.header, hr] using hh
  · rw [chunkLog_written hr]; exact List.prefix_append _ _
  · rw [hc, hd] at h; simp at h

theorem chunkLog_finished : r.markCompleted.drained.chunkLog = r.chunkLog := by
  cases hr : r.response <;> simp [drained, markCompleted, chunkLog, hr]

theorem grows_finished : Grows r r.markCompleted.drained := by
  refine ⟨rfl, fun h => h, fun _ => rfl, fun h hh => ?_, List.prefix_rfl, ?_, fun _ => chunkLog_finished⟩
  · cases hr : r.response with
    | none => simp [Request.header, hr] at hh
    | some rsp => simpa [drained, markCompleted, Request.header, hr] using hh
  · rw [chunkLog_finished]

end Request

/-! ## Receives -/

namespace Request

/-- The request after a receive from its response channel. -/
def popResponse (r : Request) : Request := { r with pendingResponse := r.pendingResponse.pop }

/-- The request after a receive from its chunk channel. -/
def popChunk (r : Request) : Request :=
  { r with response := r.response.map fun rsp => { rsp with chunks := rsp.chunks.pop } }

/-- What has been received from the chunk channel. -/
def taken (r : Request) : List Bytes := r.response.elim [] fun rsp => rsp.chunks.taken

variable {r r' r'' : Request}

/-- A change of a request that neither settles it nor touches the history of its channels: a
receive by somebody else than the loop. -/
structure Receives (r r' : Request) : Prop where
  sameId : r'.id = r.id
  completed : r'.completed = r.completed
  closed : r'.closed = r.closed
  sent : r'.pendingResponse.sent = r.pendingResponse.sent
  pendingClosed : r'.pendingResponse.closed = r.pendingResponse.closed
  response : r.response = none ∧ r'.response = none ∨
    ∃ rsp c, r.response = some rsp ∧ r'.response = some { rsp with chunks := c } ∧
      c.sent = rsp.chunks.sent ∧ c.closed = rsp.chunks.closed ∧ c.cap = rsp.chunks.cap

theorem receives_popResponse (r : Request) : r.Receives r.popResponse := by
  refine ⟨rfl, rfl, rfl, Chan.sent_pop _, rfl, ?_⟩
  cases hr : r.response with
  | none => exact .inl ⟨rfl, hr⟩
  | some rsp => exact .inr ⟨rsp, rsp.chunks, rfl, hr, rfl, rfl, rfl⟩

theorem receives_popChunk (r : Request) : r.Receives r.popChunk := by
  refine ⟨rfl, rfl, rfl, rfl, rfl, ?_⟩
  cases hr : r.response with
  | none => exact .inl ⟨rfl, by simp [popChunk, hr]⟩
  | some rsp =>
    exact .inr ⟨rsp, rsp.chunks.pop, rfl, by simp [popChunk, hr], Chan.sent_pop _, rfl, rfl⟩

theorem Receives.header (h : r.Receives r') : r'.header = r.header := by
  rcases h.response with ⟨e1, e2⟩ | ⟨rsp, c, e1, e2, -, -⟩ <;> simp [Request.header, e1, e2]

theorem Receives.chunkLog (h : r.Receives r') : r'.chunkLog = r.chunkLog := by
  rcases h.response with ⟨e1, e2⟩ | ⟨rsp, c, e1, e2, e3, -⟩ <;> simp [Request.chunkLog, *]

theorem Receives.grows (h : r.Receives r') : r.Grows r' where
  sameId := h.sameId
  closed hc := by unfold isClosed at *; rw [h.closed]; exact hc
  completed hc := by unfold isCompleted at *; rw [h.completed]; exact hc
  header x hx := h.header.trans hx
  pending := by rw [h.sent]
  log := by rw [h.chunkLog]
  frozen _ := h.chunkLog

theorem Receives.objInv {C : ℕ} {live present : Prop} {w : Option PendingWrite}
    (h : r.Receives r') (hI : ObjInv C live present w r) : ObjInv C live present w r' := by
  have hcomp : r'.isCompleted = r.isCompleted := by unfold isCompleted; rw [h.completed]
  have hcl : r'.isClosed = r.isClosed := by unfold isClosed; rw [h.closed]
  refine ⟨?_, ?_, ?_, ?_, ?_, ?_⟩
  · rw [hcomp, hcl]; exact hI.excl
  · rw [h.sent, h.pendingClosed]; exact hI.pending
  · rw [h.sent, h.header, hcomp]; exact hI.answer
  · intro hp hr
    rw [h.pendingClosed, hcomp]
    refine hI.fresh hp ?_
    rcases h.response with ⟨e1, -⟩ | ⟨rsp, c, -, e2, -, -⟩
    · exact e1
    · rw [e2] at hr; cases hr
  · intro rsp' hr'
    rcases h.response with ⟨-, e2⟩ | ⟨rsp, c, e1, e2, e3, e4, e5⟩
    · rw [e2] at hr'; cases hr'
    · rw [e2] at hr'
      cases hr'
      have hrsp := hI.response rsp e1
      refine ⟨hrsp.pos, e5 ▸ hrsp.cap, ?_, ?_, ?_, ?_⟩
      · rw [hcomp]; exact e4.trans hrsp.chunksClosed
      · rw [hcomp]; simp only [e3]; exact hrsp.front
      · rw [hcomp]; simp only [e3]; exact hrsp.whole
      · rw [hcomp, hcl]; simp only [e3]; exact hrsp.counter
  · rw [hcomp, hcl]; exact hI.settled

theorem tookResponse_eq {o : Option (Option ContentHeader)} {c : Chan (Option ContentHeader)}
    (h : r.pendingResponse.recv = some (o, c)) : { r with pendingResponse := c } = r.popResponse := by
  rw [Chan.recv_eq_pop h]
  rfl

theorem tookChunk_eq {rsp : Response} (hr : r.response = some rsp) {o : Option Bytes}
    {c : Chan Bytes} (h : rsp.chunks.recv = some (o, c)) :
    ({ r with response := some { rsp with chunks := c } } : Request) = r.popChunk := by
  rw [Chan.recv_eq_pop h]
  simp [popChunk, hr]

end Request

end Loon
