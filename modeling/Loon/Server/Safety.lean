import Loon.Server.History

set_option autoImplicit false

/-!
# Safety of the protocol loop

What holds in every state that a run of the protocol loop reaches:

* **`request_map_consistent`**: no handler panics on a client message of one of the four kinds, and
  every entry of the request map is consistent with what was received for it;
* **`chunk_stream_integrity`**: the chunk channel of a response carries the client's chunks, and is
  closed exactly when they are complete;
* **`every_request_settled`**: a request that is neither completed nor closed is in the map, and
  after the loop returned every request is exactly one of the two.
-/

namespace Loon

open Chunking

section Safety

variable {ext : Externals} (cfg : Config ext)

/-! ## The request map -/

/-- An entry `id ↦ p` of the request map, after the run of `es` to `s`. -/
structure EntryConsistent (es : List Event) (s : St) (id : UInt64) (p : Ptr) : Prop where
  key : (s.objs p).id = id
  exclusive : ¬ ((s.objs p).isCompleted = true ∧ (s.objs p).isClosed = true)
  completed : (s.objs p).isCompleted = true →
    (protocol cfg).observe (acceptedHeader cfg p) (.ok St.init) es ≠ []
  /-- The counter of an unfinished response, over the natural numbers. -/
  counter : s.fault = none → ∀ rsp, (s.objs p).response = some rsp →
    (s.objs p).isCompleted = false →
    rsp.chunkSequence.toNat * cfg.options.constraints.chunkSize.toNat <
      rsp.header.contentSize.toNat
  filled : (s.objs p).pendingResponse.sent =
    (protocol cfg).observe (answeredOpen cfg p) (.ok St.init) es
  filledClosed : (s.objs p).pendingResponse.closed = true ↔
    (protocol cfg).observe (answeredOpen cfg p) (.ok St.init) es ≠ []

variable {cfg}

theorem ObjInv.pendingResponse_closed_iff {C : ℕ} {live present : Prop} {w : Option PendingWrite}
    {r : Request} (h : ObjInv C live present w r) :
    r.pendingResponse.closed = true ↔ r.pendingResponse.sent ≠ [] := by
  rcases h.pending with ⟨h1, h2⟩ | ⟨x, h1, h2⟩ <;> simp [h1, h2]

theorem entryConsistent_of_run {es : List Event} {s : St}
    (h : (protocol cfg).run (.ok St.init) es = some (.ok s)) {id : UInt64} {p : Ptr}
    (hl : s.requests.lookup id = some p) : EntryConsistent cfg es s id p := by
  have hcore := (inv_of_run h).core
  obtain ⟨hlt, hid⟩ := hcore.entry id p hl
  have hobj := hcore.obj_of_lookup hl
  have hpres := hcore.present hl
  have hrec := records_of_run h hlt
  refine ⟨hid, ?_, ?_, ?_, hrec.pending, ?_⟩
  · rintro ⟨hd, hc⟩
    rw [hobj.excl hd] at hc; cases hc
  · intro hd he
    have hnone : (s.objs p).header = none := by
      simpa using hrec.header.trans he
    -- an entry without a response is not completed
    have hresp : (s.objs p).response = none := by simpa [Request.header] using hnone
    rw [(hobj.fresh hpres hresp).2] at hd; cases hd
  · intro hf rsp hr hd
    exact ((hobj.response rsp hr).counter hf hpres hd).1
  · rw [hobj.pendingResponse_closed_iff, hrec.pending]

/-- A run in which every client message is of one of the four kinds does not panic. -/
theorem no_panic {es : List Event} {c : Except Panic St}
    (hes : ∀ m now, Event.recv m now ∈ es → m.data.isSome)
    (h : (protocol cfg).run (.ok St.init) es = some c) : ∃ s, c = .ok s := by
  induction es using List.reverseRecOn generalizing c with
  | nil => cases h; exact ⟨_, rfl⟩
  | append_singleton es e ih =>
    obtain ⟨c₁, h1, h2⟩ := Machine.run_snoc_eq_some _ |>.mp h
    obtain ⟨s, rfl⟩ := ih (fun m now hm => hes m now (List.mem_append_left _ hm)) h1
    rcases step_spec (inv_of_run h1) h2 with ⟨s', rfl, -⟩ | ⟨-, m, now, rfl, hm⟩
    · exact ⟨s', rfl⟩
    · have := hes m now (by simp)
      rw [hm] at this; cases this

/-- **The request map is consistent on every run**, and no `panic` statement and no run-time panic of
a channel is reached. -/
theorem request_map_consistent {es : List Event} {c : Except Panic St}
    (hes : ∀ m now, Event.recv m now ∈ es → m.data.isSome)
    (h : (protocol cfg).run (.ok St.init) es = some c) :
    ∃ s, c = .ok s ∧
      ∀ id p, s.requests.lookup id = some p → EntryConsistent cfg es s id p := by
  obtain ⟨s, rfl⟩ := no_panic hes h
  exact ⟨s, rfl, fun id p hl => entryConsistent_of_run h hl⟩

end Safety

/-! ## A sample run -/

/-- The state after the events `es`. -/
def stateAfter {ext : Externals} (cfg : Config ext) (es : List Event) : St :=
  match (protocol cfg).run (.ok St.init) es with
  | some (.ok s) => s
  | _ => St.init

def sampleHeader : ContentHeader where
  requestId := 1
  contentType := "text/html"
  contentSize := 3
  maxCacheDuration := none
  filename := none

/-- Two requests; the first one is answered with three bytes in two chunks, of which one is read. -/
def sampleRun : List Event :=
  [.forwardRequest "a" 0 true, .recv ⟨some (.contentHeader sampleHeader)⟩ 1,
    .recv ⟨some (.contentChunk ⟨1, 0, [1, 2]⟩)⟩ 2, .forwardRequest "b" 2 true, .takeChunk 0,
    .recv ⟨some (.contentChunk ⟨1, 1, [3]⟩)⟩ 3]

theorem sampleRun_eq : (protocol sampleConfig).run (.ok St.init) sampleRun =
    some (.ok (stateAfter sampleConfig sampleRun)) := rfl

theorem request_map_consistent_sampleRun :
    EntryConsistent sampleConfig sampleRun (stateAfter sampleConfig sampleRun) 1 0 := by
  have hes : ∀ m now, Event.recv m now ∈ sampleRun → m.data.isSome := by
    intro m now hm
    simp only [sampleRun, List.mem_cons, List.not_mem_nil, or_false, reduceCtorEq, false_or,
      Event.recv.injEq] at hm
    rcases hm with h | h | h <;> rw [h.1] <;> rfl
  obtain ⟨s, hs, h⟩ := request_map_consistent hes sampleRun_eq
  cases hs
  exact h 1 0 (by decide)

section Streams

variable {ext : Externals} (cfg : Config ext)

/-! ## Chunk streams -/

/-- The chunk channel of the response `rsp` of the request `p`, after the run of `es` to `s`. -/
structure ChunkStream (es : List Event) (s : St) (p : Ptr) (rsp : Response) : Prop where
  received : rsp.chunks.sent <+: (protocol cfg).observe (chunkData p) (.ok St.init) es
  closed : rsp.chunks.closed = true ↔ (s.objs p).isCompleted = true
  count : rsp.chunks.closed = true → rsp.chunks.sent.length =
    (rsp.header.contentSize.toNat + cfg.options.constraints.chunkSize.toNat - 1) /
      cfg.options.constraints.chunkSize.toNat
  sizes : rsp.chunks.closed = true → ∀ i (hi : i < rsp.chunks.sent.length),
    (i + 1 < rsp.chunks.sent.length →
      rsp.chunks.sent[i].length = cfg.options.constraints.chunkSize.toNat) ∧
    1 ≤ rsp.chunks.sent[i].length ∧
    rsp.chunks.sent[i].length ≤ cfg.options.constraints.chunkSize.toNat
  total : rsp.chunks.closed = true →
    rsp.chunks.sent.flatten.length = rsp.header.contentSize.toNat

variable {cfg}

theorem chunkStream_of_run {es : List Event} {s : St}
    (h : (protocol cfg).run (.ok St.init) es = some (.ok s)) {p : Ptr} (hp : p < s.created)
    {rsp : Response} (hr : (s.objs p).response = some rsp) : ChunkStream cfg es s p rsp := by
  have hrsp := ((inv_of_run h).core.obj p hp).response rsp hr
  have hlog : (s.objs p).chunkLog = rsp.chunks.sent := by simp [Request.chunkLog, hr]
  have hwhole : rsp.chunks.closed = true →
      IsChunking cfg.chunkSize.toNat rsp.header.contentSize.toNat rsp.chunks.sent := by
    intro hc
    rw [hrsp.chunksClosed] at hc
    exact hrsp.whole hc
  refine ⟨?_, ?_, ?_, ?_, ?_⟩
  · rw [← hlog]
    exact (records_of_run h hp).log
  · rw [hrsp.chunksClosed]
  · intro hc
    exact (hwhole hc).length_eq
  · intro hc i hi
    exact (hwhole hc).length_getElem i hi
  · intro hc
    exact (hwhole hc).length_flatten

/-- **Chunk stream integrity.** At every moment the chunk channel of a response carries a prefix of
the client's chunks; it is closed exactly when the request is completed, and then the chunks are a
cut of the announced content; and after a request was closed its channel does not grow. -/
theorem chunk_stream_integrity {es : List Event} {s : St}
    (h : (protocol cfg).run (.ok St.init) es = some (.ok s)) {p : Ptr} (hp : p < s.created) :
    (∀ rsp, (s.objs p).response = some rsp → ChunkStream cfg es s p rsp) ∧
    ((s.objs p).isClosed = true → ∀ es' s', (protocol cfg).run (.ok s) es' = some (.ok s') →
      (s'.objs p).chunkLog = (s.objs p).chunkLog) := by
  refine ⟨fun rsp hr => chunkStream_of_run h hp hr, ?_⟩
  intro hc es' s' h'
  exact ((grows_of_run (inv_of_run h) h').objs p hp).frozen (.inl hc)

theorem chunk_stream_integrity_sampleRun :
    ∃ rsp, ((stateAfter sampleConfig sampleRun).objs 0).response = some rsp ∧
      ChunkStream sampleConfig sampleRun (stateAfter sampleConfig sampleRun) 0 rsp :=
  ⟨_, rfl, (chunk_stream_integrity sampleRun_eq (by decide)).1 _ rfl⟩

/-! ## Settled requests -/

/-- **No request is forgotten.** A request that is neither completed nor closed is in the map, and
when the loop has returned every request ever created is exactly one of the two. -/
theorem every_request_settled {es : List Event} {s : St}
    (h : (protocol cfg).run (.ok St.init) es = some (.ok s)) {p : Ptr} (hp : p < s.created) :
    ((s.objs p).isCompleted = false → (s.objs p).isClosed = false →
      s.requests.lookup (s.objs p).id = some p) ∧
    (s.phase = .returned →
      Xor ((s.objs p).isCompleted = true) ((s.objs p).isClosed = true)) := by
  have hI := inv_of_run h
  have hobj := hI.core.obj p hp
  have hset : (s.objs p).isCompleted = false → (s.objs p).isClosed = false → s.Present p := by
    intro hd hc
    rcases hobj.settled with hpr | hd' | hc'
    · exact hpr
    · rw [hd] at hd'; cases hd'
    · rw [hc] at hc'; cases hc'
  refine ⟨hset, fun hret => ?_⟩
  cases hd : (s.objs p).isCompleted with
  | true => exact .inl ⟨rfl, by rw [hobj.excl hd]; decide⟩
  | false =>
    cases hc : (s.objs p).isClosed with
    | true => exact .inr ⟨rfl, by decide⟩
    | false =>
      have hpr := hset hd hc
      unfold St.Present at hpr
      rw [(hI.returned hret).1, Finmap.lookup_empty] at hpr
      cases hpr

/-- The sample run, cut off by a disconnect. -/
def sampleEnd : List Event := sampleRun ++ [.done, .ret [2, 1]]

theorem sampleEnd_eq : (protocol sampleConfig).run (.ok St.init) sampleEnd =
    some (.ok (stateAfter sampleConfig sampleEnd)) := rfl

theorem every_request_settled_sampleEnd :
    Xor (((stateAfter sampleConfig sampleEnd).objs 1).isCompleted = true)
      (((stateAfter sampleConfig sampleEnd).objs 1).isClosed = true) :=
  (every_request_settled sampleEnd_eq (by decide)).2 (by decide)

end Streams

end Loon
