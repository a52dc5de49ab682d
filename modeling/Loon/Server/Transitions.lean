import Loon.Lib.Chunking
import Loon.Server.Protocol

set_option autoImplicit false

/-!
# What a step of the protocol loop can do

The invariant of the loop (`ObjInv`, `Core`) and, for every handler, an inductive relation that lists
the states it can lead to with the guards under which it does (`Begins`, `Finishes`, `Handles`,
`Closes`, `Succeeds`, `Sweeps`, `Steps`). The specification lemmas show that in a state that
satisfies the invariant a handler does not panic and does what its relation says; everything later
is proved about the relations.

`Core` has a parameter for a chunk that passed its checks and waits for room on its channel: inside
`onContentChunk` the counter of its response is one ahead of the channel.
-/

namespace Loon

open Chunking

/-! ## The invariant -/

/-- The counter of a response against the chunks on its channel, with or without a chunk on the
way. A closed request counts chunks that it no longer forwards. -/
def Counter (C N seq : ℕ) (closed : Bool) (sent : List Bytes) : Option PendingWrite → Prop
  | none => seq * C < N ∧ (closed = false → sent.length = seq)
  | some w => ∃ k, seq = k + 1 ∧ k * C < N ∧ w.data.length = due C N k ∧
      w.last = decide (k * C + w.data.length = N) ∧ (closed = false → sent.length = k)

/-- The size of the content in `rsp`. -/
def Response.size (rsp : Response) : ℕ := rsp.header.contentSize.toNat

/-- Everything put on the chunk channel of the request. -/
def Request.chunkLog (r : Request) : List Bytes := r.response.elim [] fun rsp => rsp.chunks.sent

/-- The header accepted for the request. -/
def Request.header (r : Request) : Option ContentHeader := r.response.map Response.header

/-- The invariant of a response `rsp` of the request `r`. -/
structure ResponseInv (C : ℕ) (live present : Prop) (w : Option PendingWrite) (r : Request)
    (rsp : Response) : Prop where
  pos : 0 < rsp.size
  cap : 0 < rsp.chunks.cap
  chunksClosed : rsp.chunks.closed = r.isCompleted
  front : r.isCompleted = false → IsChunkPrefix C rsp.size rsp.chunks.sent
  whole : r.isCompleted = true → IsChunking C rsp.size rsp.chunks.sent
  counter : live → present → r.isCompleted = false →
    Counter C rsp.size rsp.chunkSequence.toNat r.isClosed rsp.chunks.sent w

/-- The invariant of a request object; `live` while the connection has no fault, `present` while
the object is in the map. -/
structure ObjInv (C : ℕ) (live present : Prop) (w : Option PendingWrite) (r : Request) : Prop where
  excl : r.isCompleted = true → r.isClosed = false
  pending : r.pendingResponse.sent = [] ∧ r.pendingResponse.closed = false ∨
    ∃ h, r.pendingResponse.sent = [h] ∧ r.pendingResponse.closed = true
  answer : ∀ h ∈ r.pendingResponse.sent, r.header = h ∧ (h = none → r.isCompleted = true)
  fresh : present → r.response = none → r.pendingResponse.closed = false ∧ r.isCompleted = false
  response : ∀ rsp, r.response = some rsp → ResponseInv C live present w r rsp
  settled : present ∨ r.isCompleted = true ∨ r.isClosed = true

/-- The request object `p` is in the map. -/
def St.Present (s : St) (p : Ptr) : Prop := s.requests.lookup (s.objs p).id = some p

/-- The pending write, if it is one of `p`. -/
def writeOn (w : Option PendingWrite) (p : Ptr) : Option PendingWrite := w.filter (·.ptr = p)

/-- **The invariant of the protocol loop.** -/
structure Core (C : ℕ) (w : Option PendingWrite) (s : St) : Prop where
  entry : ∀ id p, s.requests.lookup id = some p → p < s.created ∧ (s.objs p).id = id
  obj : ∀ p, p < s.created → ObjInv C (s.fault = none) (s.Present p) (writeOn w p) (s.objs p)
  writing : ∀ x, w = some x → s.fault = none ∧ s.Present x.ptr ∧
    (s.objs x.ptr).isCompleted = false ∧ (s.objs x.ptr).response.isSome

@[simp] theorem writeOn_none (p : Ptr) : writeOn none p = none := rfl

@[simp] theorem writeOn_self (x : PendingWrite) : writeOn (some x) x.ptr = some x := by
  simp [writeOn, Option.filter]

theorem writeOn_ne {x : PendingWrite} {p : Ptr} (h : x.ptr ≠ p) : writeOn (some x) p = none := by
  simp [writeOn, Option.filter, h]

theorem Core.present {C : ℕ} {w : Option PendingWrite} {s : St} (h : Core C w s) {id : UInt64}
    {p : Ptr} (hl : s.requests.lookup id = some p) : s.Present p := by
  unfold St.Present
  rw [(h.entry id p hl).2, hl]

theorem Core.lt_created {C : ℕ} {w : Option PendingWrite} {s : St} (h : Core C w s) {p : Ptr}
    (hp : s.Present p) : p < s.created := (h.entry _ p hp).1

/-! ## Updates of a request -/

namespace Request

/-- The request after a `ContentHeader` was accepted for it. -/
def answered (r : Request) (header : ContentHeader) (bufferSize : ℕ) (now : Time) : Request :=
  if r.isClosed then { r with response := some (newResponse header bufferSize) }
  else { r with lastUpdated := now, response := some (newResponse header bufferSize) }.filled
    (some header)

/-- The request after `nextChunkInfo` advanced its counter. -/
def advance (r : Request) : Request :=
  { r with response := r.response.map fun rsp =>
      { rsp with chunkSequence := rsp.chunkSequence + 1 } }

/-- The request after `close`. -/
def shut (r : Request) : Request := if r.isCompleted || r.isClosed then r else r.markClosed

theorem close_eq_shut (r : Request) : r.close = .ok r.shut := by
  unfold shut
  rcases r.close_eq with ⟨h, h'⟩ | ⟨h, h1, h2⟩
  · rw [h, if_pos (by rcases h' with h' | h' <;> simp [h'])]
  · rw [h, if_neg (by simp [h1, h2])]

end Request

/-! ## Relations -/

section Relations

variable (C : ℕ) (bufferSize : ℕ) (s : St)

/-- What `beginChunk` does. -/
inductive Begins (chunk : ContentChunk) (now : Time) : St ⊕ St × PendingWrite → Prop where
  | unknown (h : s.requests.lookup chunk.requestId = none) (msg : String) :
      Begins chunk now (.inl (s.close .invalidRequestId msg))
  | misplaced {p : Ptr} (h : s.requests.lookup chunk.requestId = some p)
      (hr : (s.objs p).response = none ∨ (s.objs p).isCompleted = true) (msg : String) :
      Begins chunk now (.inl (s.close .invalidClientMessage msg))
  | reject {p : Ptr} {rsp : Response} (h : s.requests.lookup chunk.requestId = some p)
      (hr : (s.objs p).response = some rsp) (hc : (s.objs p).isCompleted = false)
      (reason : CloseReason) (msg : String)
      (hbad : chunk.sequence ≠ rsp.chunkSequence ∨
        chunk.data.length ≠ due C rsp.size rsp.chunkSequence.toNat) :
      Begins chunk now (.inl ((s.put p (s.objs p).advance).close reason msg))
  | accept {p : Ptr} {rsp : Response} (h : s.requests.lookup chunk.requestId = some p)
      (hr : (s.objs p).response = some rsp) (hc : (s.objs p).isCompleted = false)
      (hseq : chunk.sequence = rsp.chunkSequence)
      (hlen : chunk.data.length = due C rsp.size rsp.chunkSequence.toNat) :
      Begins chunk now (.inr (s.put p ((s.objs p).advance.resetTimeout now),
        { ptr := p, data := chunk.data,
          last := decide (rsp.chunkSequence.toNat * C + chunk.data.length = rsp.size) }))

/-- What `finishChunk` does. -/
inductive Finishes (w : PendingWrite) : St → Prop where
  | discard (hc : (s.objs w.ptr).isClosed = true) (hl : w.last = false) : Finishes w s
  | drop (hc : (s.objs w.ptr).isClosed = true) (hl : w.last = true) :
      Finishes w (s.deleteRequest (s.objs w.ptr))
  | forward (hc : (s.objs w.ptr).isClosed = false) (hl : w.last = false) :
      Finishes w (s.put w.ptr ((s.objs w.ptr).written w.data))
  | complete (hc : (s.objs w.ptr).isClosed = false) (hl : w.last = true) :
      Finishes w (s.put w.ptr ((s.objs w.ptr).written w.data).markCompleted.drained)

/-- What the dispatch of a client message does. -/
inductive Handles (now : Time) : ClientData → St → Prop where
  | emptyUnknown {m : EmptyResponse} (h : s.requests.lookup m.requestId = none) (msg : String) :
      Handles now (.emptyResponse m) (s.close .invalidRequestId msg)
  | emptyAgain {m : EmptyResponse} {p : Ptr} (h : s.requests.lookup m.requestId = some p)
      (hr : (s.objs p).response.isSome) (msg : String) :
      Handles now (.emptyResponse m) (s.close .invalidClientMessage msg)
  | emptyOpen {m : EmptyResponse} {p : Ptr} (h : s.requests.lookup m.requestId = some p)
      (hr : (s.objs p).response = none) (hc : (s.objs p).isClosed = false) :
      Handles now (.emptyResponse m)
        ((s.put p ((s.objs p).filled none).markCompleted).deleteRequest (s.objs p))
  | emptyClosed {m : EmptyResponse} {p : Ptr} (h : s.requests.lookup m.requestId = some p)
      (hr : (s.objs p).response = none) (hc : (s.objs p).isClosed = true) :
      Handles now (.emptyResponse m) (s.deleteRequest (s.objs p))
  | headerUnknown {m : ContentHeader} (h : s.requests.lookup m.requestId = none) (msg : String) :
      Handles now (.contentHeader m) (s.close .invalidRequestId msg)
  | headerAgain {m : ContentHeader} {p : Ptr} (h : s.requests.lookup m.requestId = some p)
      (hr : (s.objs p).response.isSome) (msg : String) :
      Handles now (.contentHeader m) (s.close .invalidClientMessage msg)
  | headerReject {m : ContentHeader} {p : Ptr} (h : s.requests.lookup m.requestId = some p)
      (hr : (s.objs p).response = none) (reason : CloseReason) (msg : String)
      (hreason : reason = .invalidContentSize ∨ reason = .invalidFilename ∨
        reason = .forbiddenContentType) :
      Handles now (.contentHeader m) (s.close reason msg)
  | header {m : ContentHeader} {p : Ptr} (h : s.requests.lookup m.requestId = some p)
      (hr : (s.objs p).response = none) (hsize : 0 < m.contentSize.toNat) :
      Handles now (.contentHeader m) (s.put p ((s.objs p).answered m bufferSize now))
  | closeUnknown {m : CloseResponse} (h : s.requests.lookup m.requestId = none) (msg : String) :
      Handles now (.closeResponse m) (s.close .invalidRequestId msg)
  | closeReject {m : CloseResponse} {p : Ptr} (h : s.requests.lookup m.requestId = some p)
      (hr : (s.objs p).response = none ∨ (s.objs p).isCompleted = true) (msg : String) :
      Handles now (.closeResponse m) (s.close .invalidClientMessage msg)
  | close {m : CloseResponse} {p : Ptr} (h : s.requests.lookup m.requestId = some p)
      (hr : (s.objs p).response.isSome) (hc : (s.objs p).isCompleted = false) :
      Handles now (.closeResponse m) ((s.put p (s.objs p).shut).deleteRequest (s.objs p))
  | chunkReject {m : ContentChunk} {s' : St} (hb : Begins C s m now (.inl s')) :
      Handles now (.contentChunk m) s'
  | chunk {m : ContentChunk} {s₁ s' : St} {w : PendingWrite}
      (hb : Begins C s m now (.inr (s₁, w))) (hf : Finishes s₁ w s') :
      Handles now (.contentChunk m) s'

/-- What `closeRequest` does. -/
inductive Closes (p : Ptr) (message : String) (now : Time) : St → Option ApiError → Prop where
  | deleted (h : s.requests.lookup (s.objs p).id = none) :
      Closes p message now s (some .requestDeleted)
  | already {q : Ptr} (h : s.requests.lookup (s.objs p).id = some q)
      (hc : (s.objs q).isClosed = true) : Closes p message now s none
  | completed {q : Ptr} (h : s.requests.lookup (s.objs p).id = some q)
      (hd : (s.objs q).isCompleted = true) : Closes p message now s (some .requestCompleted)
  | failed : Closes p message now { s with done := true } (some .clientClosed)
  | closed {q : Ptr} (h : s.requests.lookup (s.objs p).id = some q)
      (hc : (s.objs q).isClosed = false) (hd : (s.objs q).isCompleted = false) :
      Closes p message now
        ((s.enqueue (.requestClosed (s.objs q).id message)).put q
          { s.objs q with lastUpdated := now }.markClosed) none

/-- What `sendSuccess` does. -/
inductive Succeeds (p : Ptr) : St → Option ApiError → Prop where
  | refused (err : ApiError) : Succeeds p s (some err)
  | failed : Succeeds p { s with done := true } (some .clientClosed)
  | sent {q : Ptr} (h : s.requests.lookup (s.objs p).id = some q)
      (hc : (s.objs q).isClosed = false) (hd : (s.objs q).isCompleted = true) :
      Succeeds p ((s.enqueue (.success (s.objs q).id)).deleteRequest (s.objs q)) none

end Relations

/-- What `checkTimeouts` does. -/
inductive Sweeps (timeout now : Time) : St → List Visit → St → Prop where
  | nil (s : St) : Sweeps timeout now s [] s
  | skip {s s' : St} {v : Visit} {vs : List Visit}
      (h : ∀ p, s.requests.lookup v.id = some p → now - (s.objs p).lastUpdated < timeout)
      (ht : Sweeps timeout now s vs s') : Sweeps timeout now s (v :: vs) s'
  | fault {s : St} {v : Visit} {vs : List Visit} {p : Ptr} (h : s.requests.lookup v.id = some p)
      (hdue : timeout ≤ now - (s.objs p).lastUpdated) (hc : (s.objs p).isClosed = true)
      (msg : String) : Sweeps timeout now s (v :: vs) (s.close .timedOut msg)
  | delete {s s' : St} {v : Visit} {vs : List Visit} {p : Ptr}
      (h : s.requests.lookup v.id = some p) (hdue : timeout ≤ now - (s.objs p).lastUpdated)
      (hc : (s.objs p).isClosed = false) (hd : (s.objs p).isCompleted = true)
      (ht : Sweeps timeout now (s.deleteRequest (s.objs p)) vs s') :
      Sweeps timeout now s (v :: vs) s'
  | close {s s₁ s' : St} {v : Visit} {vs : List Visit} {p : Ptr} {err : Option ApiError}
      (h : s.requests.lookup v.id = some p) (hdue : timeout ≤ now - (s.objs p).lastUpdated)
      (hc : (s.objs p).isClosed = false) (hd : (s.objs p).isCompleted = false)
      (hr : Closes s p "request timed out" v.now s₁ err) (ht : Sweeps timeout now s₁ vs s') :
      Sweeps timeout now s (v :: vs) s'

/-- What `closeAll` does to the heap: every request it visits is closed. -/
structure ClosedAll (s : St) (ids : List UInt64) (s' : St) : Prop where
  eq : s' = { s with objs := s'.objs }
  objs : ∀ p, s'.objs p = s.objs p ∨ s'.objs p = (s.objs p).shut
  visited : ∀ id ∈ ids, ∀ p, s.requests.lookup id = some p → s'.objs p = (s.objs p).shut

/-- The state after `sendRequest` took `id` and before it sends. -/
def St.allocate (s : St) (id : UInt64) (path : String) (now : Time) : St :=
  { s.put s.created (newRequest id path now) with
    requests := s.requests.insert id s.created, created := s.created + 1, nextRequest := id }

section Steps

variable {ext : Externals} (cfg : Config ext) (s : St)

/-- **What a step does.** -/
inductive Steps : Event → St → Prop where
  | recv {m : ClientMessage} {d : ClientData} {now : Time} {s' : St} (hp : s.phase = .loop)
      (hm : m.data = some d) (hr : dispatch cfg s m now = .ok s')
      (h : Handles cfg.chunkSize.toNat cfg.bufferSize s now d s') : Steps (.recv m now) s'.top
  | forward {path : String} {now : Time} {sendOk : Bool} {id : UInt64} (hp : s.phase = .loop)
      (hid : freshID s.requests (s.requests.keys.card + 1) s.nextRequest = some id) :
      Steps (.forwardRequest path now sendOk)
        ((s.allocate id path now).sendMessage (.request id path) sendOk).1.top
  | success {p : Ptr} {sendOk : Bool} {s' : St} {err : Option ApiError} (hp : s.phase = .loop)
      (hlt : p < s.created) (hr : sendSuccess s p sendOk = (s', err)) (h : Succeeds s p s' err) :
      Steps (.triggerSuccess p sendOk) s'.top
  | close {p : Ptr} {message : String} {now : Time} {sendOk : Bool} {s' : St}
      {err : Option ApiError} (hp : s.phase = .loop) (hlt : p < s.created)
      (hr : closeRequest s p message now sendOk = .ok (s', err))
      (h : Closes s p message now s' err) : Steps (.triggerClose p message now sendOk) s'.top
  | count (hp : s.phase = .loop) : Steps .countRequests s.top
  | timeout {now : Time} {visits : List Visit} {s' : St} (hp : s.phase = .loop)
      (he : Enumerates s (visits.map Visit.id))
      (h : Sweeps cfg.options.intervals.clientTimeout now s visits s') :
      Steps (.timeout now visits) s'.top
  | done : Steps .done { s with done := true }
  | ret {order : List UInt64} {s' : St} (hp : s.phase ≠ .returned) (hd : s.done = true)
      (he : Enumerates s order) (h : ClosedAll s order s') :
      Steps (.ret order) { s' with requests := ∅, phase := .returned }
  | takeResponse {p : Ptr} {o : Option (Option ContentHeader)} {c : Chan (Option ContentHeader)}
      (hlt : p < s.created) (h : (s.objs p).pendingResponse.recv = some (o, c)) :
      Steps (.takeResponse p) (s.put p { s.objs p with pendingResponse := c })
  | takeChunk {p : Ptr} {rsp : Response} {o : Option Bytes} {c : Chan Bytes}
      (hlt : p < s.created) (hr : (s.objs p).response = some rsp)
      (h : rsp.chunks.recv = some (o, c)) :
      Steps (.takeChunk p) (s.put p { s.objs p with response := some { rsp with chunks := c } })

end Steps

/-! ## Specification lemmas -/

section Spec

@[simp] theorem St.put_self (s : St) (p : Ptr) : s.put p (s.objs p) = s := by
  simp [St.put]

@[simp] theorem St.put_objs_self (s : St) (p : Ptr) (r : Request) : (s.put p r).objs p = r := by
  simp [St.put]

theorem St.put_objs_ne (s : St) {p q : Ptr} (r : Request) (h : q ≠ p) :
    (s.put p r).objs q = s.objs q := by
  simp [St.put, h]

/-- How a stored object is related to the old one, so is every object. -/
theorem St.put_rel {s : St} {R : Request → Request → Prop} (hR : ∀ r, R r r) {p : Ptr} {r : Request}
    (h : R (s.objs p) r) (q : Ptr) : R (s.objs q) ((s.put p r).objs q) := by
  by_cases hq : q = p
  · subst hq
    rw [St.put_objs_self]
    exact h
  · rw [St.put_objs_ne _ _ hq]
    exact hR _

@[simp] theorem St.put_put (s : St) (p : Ptr) (r r' : Request) : (s.put p r).put p r' = s.put p r' := by
  simp [St.put]

theorem erase_erase_self (m : Finmap fun _ : UInt64 => Ptr) (id : UInt64) :
    (m.erase id).erase id = m.erase id := by
  refine Finmap.ext_lookup fun i => ?_
  by_cases hi : i = id
  · rw [hi, Finmap.lookup_erase, Finmap.lookup_erase]
  · rw [Finmap.lookup_erase_ne hi]

variable {C : ℕ} {s : St}

theorem sendSuccess_spec (s : St) (p : Ptr) (sendOk : Bool) :
    Succeeds s p (sendSuccess s p sendOk).1 (sendSuccess s p sendOk).2 := by
  unfold sendSuccess
  cases hl : s.requests.lookup (s.objs p).id with
  | none => exact .refused _
  | some q =>
    by_cases hc : (s.objs q).isClosed = true
    · simp only [hc, if_true]
      exact .refused _
    by_cases hd : (s.objs q).isCompleted = true
    · cases sendOk with
      | false =>
        simp only [hc, hd, St.sendMessage, Bool.false_eq_true, Bool.not_true, if_false,
          Bool.not_false, if_true]
        exact .failed
      | true =>
        simp only [hc, hd, St.sendMessage, Bool.false_eq_true, Bool.not_true, if_false, if_true]
        exact .sent hl (by simpa using hc) hd
    · simp only [hc, hd, Bool.false_eq_true, if_false, Bool.not_false, if_true]
      exact .refused _

theorem closeRequest_spec (s : St) (p : Ptr) (message : String) (now : Time) (sendOk : Bool) :
    ∃ s' err, closeRequest s p message now sendOk = .ok (s', err) ∧
      Closes s p message now s' err := by
  unfold closeRequest
  cases hl : s.requests.lookup (s.objs p).id with
  | none => exact ⟨_, _, rfl, .deleted hl⟩
  | some q =>
    cases hc : (s.objs q).isClosed with
    | true => exact ⟨_, _, by simp only [hc, if_true], .already hl hc⟩
    | false =>
      cases hd : (s.objs q).isCompleted with
      | true =>
        exact ⟨_, _, by simp only [hc, hd, Bool.false_eq_true, if_false, if_true], .completed hl hd⟩
      | false =>
        cases sendOk with
        | false => exact ⟨_, _, by simp [hc, hd, St.sendMessage], .failed⟩
        | true =>
          have ht : (s.objs q).resetTimeout now = { s.objs q with lastUpdated := now } := by
            simp [Request.resetTimeout, hc]
          refine ⟨_, _, ?_, .closed hl hc hd⟩
          simp only [hc, hd, St.sendMessage, if_true, Bool.not_true, Bool.false_eq_true, if_false, ht]
          rw [Request.close_open (by exact hc) (by exact hd)]
          rfl

theorem checkTimeouts_spec {ext : Externals} (cfg : Config ext) (now : Time) (s : St)
    (visits : List Visit) : ∃ s', checkTimeouts cfg now s visits = .ok s' ∧
      Sweeps cfg.options.intervals.clientTimeout now s visits s' := by
  induction visits generalizing s with
  | nil => exact ⟨s, rfl, .nil s⟩
  | cons v vs ih =>
    unfold checkTimeouts
    cases hl : s.requests.lookup v.id with
    | none =>
      obtain ⟨s', h1, h2⟩ := ih s
      exact ⟨s', h1, .skip (fun p hp => by rw [hl] at hp; cases hp) h2⟩
    | some p =>
      dsimp only
      split_ifs with hdue hc hd
      · obtain ⟨s', h1, h2⟩ := ih s
        exact ⟨s', h1, .skip (fun q hq => by rw [hl] at hq; cases hq; exact hdue) h2⟩
      · exact ⟨_, rfl, .fault hl (not_lt.mp hdue) hc _⟩
      · obtain ⟨s', h1, h2⟩ := ih (s.deleteRequest (s.objs p))
        exact ⟨s', h1, .delete hl (not_lt.mp hdue) (by simpa using hc) hd h2⟩
      · obtain ⟨s₁, err, e1, hcl⟩ := closeRequest_spec s p "request timed out" v.now v.sendOk
        obtain ⟨s', h1, h2⟩ := ih s₁
        refine ⟨s', ?_, .close hl (not_lt.mp hdue) (by simpa using hc) (by simpa using hd) hcl h2⟩
        rw [e1]
        exact h1

theorem closeAll_spec (s : St) (ids : List UInt64) :
    ∃ s', closeAll s ids = .ok s' ∧ ClosedAll s ids s' := by
  induction ids generalizing s with
  | nil => exact ⟨s, rfl, rfl, fun _ => .inl rfl, by simp⟩
  | cons id ids ih =>
    unfold closeAll
    cases hl : s.requests.lookup id with
    | none =>
      obtain ⟨s', h1, h2⟩ := ih s
      refine ⟨s', h1, h2.eq, h2.objs, fun i hi p hp => ?_⟩
      rcases List.mem_cons.mp hi with rfl | hi
      · rw [hl] at hp; cases hp
      · exact h2.visited i hi p hp
    | some p =>
      obtain ⟨s', h1, h2⟩ := ih (s.put p (s.objs p).shut)
      have hshut : (s.objs p).shut.shut = (s.objs p).shut := by
        unfold Request.shut
        split_ifs with h1 h2 <;> simp_all [Request.markClosed, Request.isClosed]
      have hobj : ∀ q, s'.objs q = s.objs q ∨ s'.objs q = (s.objs q).shut := by
        intro q
        by_cases hq : q = p
        · subst hq
          have := h2.objs q
          rw [St.put_objs_self, hshut] at this
          exact .inr (or_self_iff.mp this)
        · have := h2.objs q
          rwa [St.put_objs_ne _ _ hq] at this
      refine ⟨s', ?_, ?_, hobj, fun i hi q hq => ?_⟩
      · simp only [Request.close_eq_shut]
        exact h1
      · rw [h2.eq]; rfl
      · by_cases hqp : q = p
        · subst hqp
          have := h2.objs q
          rw [St.put_objs_self, hshut] at this
          exact or_self_iff.mp this
        · rcases List.mem_cons.mp hi with rfl | hi
          · rw [hl] at hq; cases hq; exact absurd rfl hqp
          · have := h2.visited i hi q hq
            rwa [St.put_objs_ne _ _ hqp] at this

/-- The object an entry of the map points to satisfies the invariant. -/
theorem Core.obj_of_lookup {w : Option PendingWrite} (h : Core C w s) {id : UInt64} {p : Ptr}
    (hl : s.requests.lookup id = some p) :
    ObjInv C (s.fault = none) (s.Present p) (writeOn w p) (s.objs p) :=
  h.obj p (h.entry id p hl).1

theorem onEmptyResponse_spec {now : Time} {bufferSize : ℕ} (h : Core C none s) (m : EmptyResponse) :
    ∃ s', onEmptyResponse s m = .ok s' ∧ Handles C bufferSize s now (.emptyResponse m) s' := by
  unfold onEmptyResponse
  cases hl : s.requests.lookup m.requestId with
  | none => exact ⟨_, rfl, .emptyUnknown hl _⟩
  | some p =>
    have hid := (h.entry _ _ hl).2
    have hobj := h.obj_of_lookup hl
    dsimp only
    rw [if_neg (not_not.mpr hid)]
    cases hr : (s.objs p).response with
    | some rsp =>
      simp only [Request.hasResponse, hr, Option.isSome_some, if_true]
      exact ⟨_, rfl, .emptyAgain hl (by simp [hr]) _⟩
    | none =>
      obtain ⟨hpend, hdone⟩ := hobj.fresh (h.present hl) hr
      simp only [Request.hasResponse, hr, Option.isSome_none, Bool.false_eq_true, if_false]
      have hsame : ({ s.objs p with response := none } : Request) = s.objs p := by
        rw [← hr]
      cases hc : (s.objs p).isClosed with
      | true =>
        rw [Request.provideResponse_closed hr hc, hsame]
        refine ⟨_, ?_, .emptyClosed hl hr hc⟩
        simp only [bind, Except.bind, St.put_self, completeRequest, hdone, hc, if_true,
          Bool.false_eq_true, if_false]
        -- the source deletes the entry twice on this path
        simp only [St.deleteRequest, erase_erase_self]
      | false =>
        rw [Request.provideResponse_open hr hc hpend, hsame]
        have hc' : ((s.objs p).filled none).isClosed = false := hc
        have hd' : ((s.objs p).filled none).isCompleted = false := hdone
        refine ⟨_, ?_, .emptyOpen hl hr hc⟩
        simp only [bind, Except.bind, completeRequest, St.put_objs_self, Option.map_none, hc', hd',
          Bool.false_eq_true, if_false, Request.complete_open hc' hd']
        rw [Request.done_nil (by exact hr)]
        simp only [St.put_put]
        rfl

theorem onCloseResponse_spec {now : Time} {bufferSize : ℕ} (m : CloseResponse) :
    ∃ s', onCloseResponse s m = .ok s' ∧ Handles C bufferSize s now (.closeResponse m) s' := by
  unfold onCloseResponse
  cases hl : s.requests.lookup m.requestId with
  | none => exact ⟨_, rfl, .closeUnknown hl _⟩
  | some p =>
    cases hr : (s.objs p).response with
    | none =>
      simp only [Request.hasResponse, hr, Option.isSome_none, Bool.not_false, if_true]
      exact ⟨_, rfl, .closeReject hl (.inl hr) _⟩
    | some rsp =>
      simp only [Request.hasResponse, hr, Option.isSome_some, Bool.not_true, Bool.false_eq_true,
        if_false]
      cases hd : (s.objs p).isCompleted with
      | true => exact ⟨_, rfl, .closeReject hl (.inr hd) _⟩
      | false =>
        simp only [Bool.false_eq_true, if_false, Request.close_eq_shut, bind, Except.bind]
        have hid : (s.objs p).shut.id = (s.objs p).id := by
          unfold Request.shut; split_ifs <;> rfl
        refine ⟨_, rfl, ?_⟩
        simp only [St.deleteRequest, hid]
        exact .close hl (by simp [hr]) hd

theorem Request.provideResponse_answered {r : Request} (hr : r.response = none)
    (hpend : r.pendingResponse.closed = false) (header : ContentHeader) (bufferSize : ℕ)
    (now : Time) : (r.resetTimeout now).provideResponse (some (newResponse header bufferSize)) =
      .ok (r.answered header bufferSize now) := by
  cases hc : r.isClosed with
  | true =>
    simp only [Request.resetTimeout, hc, Bool.not_true, Bool.false_eq_true, if_false]
    rw [Request.provideResponse_closed hr hc]
    simp [Request.answered, hc]
  | false =>
    simp only [Request.resetTimeout, hc, Bool.not_false, if_true]
    rw [Request.provideResponse_open (by exact hr) (by exact hc) (by exact hpend)]
    simp [Request.answered, hc, newResponse]

theorem onContentHeader_spec {ext : Externals} (cfg : Config ext) (h : Core C none s)
    (m : ContentHeader) (now : Time) : ∃ s', onContentHeader cfg s m now = .ok s' ∧
      Handles C cfg.bufferSize s now (.contentHeader m) s' := by
  unfold onContentHeader
  cases hl : s.requests.lookup m.requestId with
  | none => exact ⟨_, rfl, .headerUnknown hl _⟩
  | some p =>
    have hid := (h.entry _ _ hl).2
    dsimp only
    rw [if_neg (not_not.mpr hid)]
    cases hr : (s.objs p).response with
    | some rsp =>
      simp only [Request.hasResponse, hr, Option.isSome_some, if_true]
      exact ⟨_, rfl, .headerAgain hl (by simp [hr]) _⟩
    | none =>
      simp only [Request.hasResponse, hr, Option.isSome_none, Bool.false_eq_true, if_false]
      split_ifs with hmax hzero hname htype
      · exact ⟨_, rfl, .headerReject hl hr _ _ (.inl rfl)⟩
      · exact ⟨_, rfl, .headerReject hl hr _ _ (.inl rfl)⟩
      · exact ⟨_, rfl, .headerReject hl hr _ _ (.inr (.inl rfl))⟩
      · obtain ⟨hpend, -⟩ := (h.obj_of_lookup hl).fresh (h.present hl) hr
        have hpos : 0 < m.contentSize.toNat := by
          rcases Nat.eq_zero_or_pos m.contentSize.toNat with h0 | h0
          · exact absurd (UInt64.toNat_inj.mp (by simpa using h0)) hzero
          · exact h0
        rw [Request.provideResponse_answered hr hpend]
        exact ⟨_, rfl, .header hl hr hpos⟩
      · exact ⟨_, rfl, .headerReject hl hr _ _ (.inr (.inr rfl))⟩

theorem beginChunk_spec {ext : Externals} (cfg : Config ext) (h : Core cfg.chunkSize.toNat none s)
    (hf : s.fault = none) (m : ContentChunk) (now : Time) :
    ∃ x, beginChunk cfg s m now = .ok x ∧ Begins cfg.chunkSize.toNat s m now x := by
  unfold beginChunk
  cases hl : s.requests.lookup m.requestId with
  | none => exact ⟨_, rfl, .unknown hl _⟩
  | some p =>
    have hid := (h.entry _ _ hl).2
    dsimp only
    rw [if_neg (not_not.mpr hid)]
    cases hr : (s.objs p).response with
    | none =>
      simp only [Request.hasResponse, hr, Option.isSome_none, Bool.not_false, if_true]
      exact ⟨_, rfl, .misplaced hl (.inl hr) _⟩
    | some rsp =>
      simp only [Request.hasResponse, hr, Option.isSome_some, Bool.not_true, Bool.false_eq_true,
        if_false]
      cases hd : (s.objs p).isCompleted with
      | true => exact ⟨_, rfl, .misplaced hl (.inr hd) _⟩
      | false =>
        have hcount := (((h.obj_of_lookup hl).response rsp hr).counter hf (h.present hl) hd).1
        obtain ⟨size, hsize, hinfo⟩ := Response.nextChunkInfo_eq hcount
        have hadv : ({ s.objs p with response := some { rsp with
            chunkSequence := rsp.chunkSequence + 1 } } : Request) = (s.objs p).advance := by
          simp [Request.advance, hr]
        simp only [hinfo, bind, Except.bind, Bool.false_eq_true, if_false, hadv]
        by_cases hseq : m.sequence = rsp.chunkSequence
        · rw [if_neg (not_not.mpr hseq)]
          by_cases hlen : m.data.length = size.toNat
          · rw [if_neg (not_not.mpr hlen), ← hlen]
            exact ⟨_, rfl, .accept hl hr hd hseq (by rw [hlen, hsize]; rfl)⟩
          · rw [if_pos hlen]
            exact ⟨_, rfl, .reject hl hr hd _ _ (.inr (by rw [hsize] at hlen; exact hlen))⟩
        · rw [if_pos hseq]
          exact ⟨_, rfl, .reject hl hr hd _ _ (.inl hseq)⟩

theorem finishChunk_spec {w : PendingWrite} (h : Core C (some w) s) :
    ∃ s', finishChunk s w = .ok s' ∧ Finishes s w s' := by
  obtain ⟨hf, hp, hd, hr⟩ := h.writing w rfl
  obtain ⟨rsp, hr⟩ := Option.isSome_iff_exists.mp hr
  have hch : rsp.chunks.closed = false := by
    rw [((h.obj _ (h.lt_created hp)).response rsp hr).chunksClosed, hd]
  unfold finishChunk
  cases hc : (s.objs w.ptr).isClosed with
  | true =>
    rw [Request.write_closed hc]
    simp only [bind, Except.bind, St.put_self]
    cases hl : w.last with
    | false => exact ⟨_, rfl, .discard hc hl⟩
    | true =>
      refine ⟨_, ?_, .drop hc hl⟩
      simp [completeRequest, hc, hd]
  | false =>
    rw [Request.write_open hr hc hch]
    simp only [bind, Except.bind]
    cases hl : w.last with
    | false => exact ⟨_, rfl, .forward hc hl⟩
    | true =>
      refine ⟨_, ?_, .complete hc hl⟩
      have hc' : ((s.objs w.ptr).written w.data).isClosed = false := hc
      have hd' : ((s.objs w.ptr).written w.data).isCompleted = false := hd
      simp only [if_true, completeRequest, St.put_objs_self, hc', hd', Bool.false_eq_true, if_false,
        bind, Except.bind, Request.complete_open hc' hd']
      have hr' : ((s.objs w.ptr).written w.data).markCompleted.response = some { rsp with chunks :=
          { rsp.chunks with buffer := rsp.chunks.buffer ++ [w.data] } } := by
        simp [Request.markCompleted, Request.written, hr]
      rw [Request.done_open hr' (by exact hc) hch]
      simp only [St.put_put]

end Spec

end Loon
