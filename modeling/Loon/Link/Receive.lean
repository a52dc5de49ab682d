import Loon.Link.Conversation

set_option autoImplicit false

/-!
# Chunks as the server expects them

The protocol loop on the chunks of one response: `nextChunkInfo` announces the number and the size of
every chunk and which one is the last, from the announced content size and the chunk size alone.

* `expectedChunk`: the chunks of a content, as the two clients should cut it;
* `receiveChunks`: `onContentChunk` on one chunk after the other;
* `Expects.receive`: one chunk;
* **`Expects.receive_all`**: the chunks of a content are accepted one after the other, and exactly the
  one that reaches its end is taken for the last.
-/

namespace Loon

open Chunking

/-- The chunk a message carries. -/
def ClientData.chunk : ClientData → Option ContentChunk
  | .contentChunk m => some m
  | _ => none

/-- The chunks among the messages. -/
def chunksOf (sent : List ClientData) : List ContentChunk := sent.filterMap ClientData.chunk

/-- The chunk with number `i` of the response with `content`. -/
def expectedChunk (C : ℕ) (id : UInt64) (content : Bytes) (i : ℕ) : ContentChunk where
  requestId := id
  sequence := .ofNat i
  data := piece C content i

/-- The chunks of the response with `content`. -/
def expectedChunks (C : ℕ) (id : UInt64) (content : Bytes) : List ContentChunk :=
  (List.range (pieces C content.length)).map (expectedChunk C id content)

/-- Whether the chunk with number `i` is the last one of a content of `N` bytes. -/
def isLast (C N i : ℕ) : Bool := i + 1 = pieces C N

/-- Which of the chunks of a content of `N` bytes is the last. -/
def lastFlags (C N : ℕ) : List Bool := (List.range (pieces C N)).map (isLast C N)

theorem take_expectedChunks {C : ℕ} {id : UInt64} {content : Bytes} {k : ℕ}
    (hk : k ≤ pieces C content.length) : (expectedChunks C id content).take k =
      (List.range k).map (expectedChunk C id content) := by
  rw [expectedChunks, ← List.map_take, List.take_range, min_eq_left hk]

/-- Together the chunks hold the content. -/
theorem flatten_expectedChunks {C : ℕ} (hC : 0 < C) (id : UInt64) (content : Bytes) :
    ((expectedChunks C id content).map ContentChunk.data).flatten = content := by
  rw [expectedChunks, List.map_map]
  exact flatten_all_pieces hC content

/-- The numbers of the chunks do not wrap around. -/
theorem lt_of_lt_pieces {C N : ℕ} (hC : 0 < C) (hN : N < 2 ^ 64) {k : ℕ} (hk : k < pieces C N) :
    k < 2 ^ 64 := by
  have hlt := (lt_pieces_iff hC).mp hk
  have hle : k ≤ k * C := Nat.le_mul_of_pos_right k hC
  omega

variable {ext : Externals} (cfg : Config ext)

/-- `onContentChunk` on one chunk after the other, as long as they pass its checks, with what
`nextChunkInfo` says of each: whether it is the last one. -/
def receiveChunks : St → List (ContentChunk × Time) → Option (St × List Bool)
  | s, [] => some (s, [])
  | s, (chunk, now) :: chunks =>
    match beginChunk cfg s chunk now with
    | .ok (.inr (s, w)) =>
      match finishChunk s w with
      | .ok s => (receiveChunks s chunks).map fun result => (result.1, w.last :: result.2)
      | .error _ => none
    | _ => none

/-- The protocol loop waits for the chunk with number `k` of a content of `N` bytes. -/
structure Expects (s : St) (p : Ptr) (N k : ℕ) : Prop where
  core : Core cfg.chunkSize.toNat none s
  live : s.fault = none
  awaits : s.Awaits p (some (N, k))

variable {cfg} {s : St} {p : Ptr} {N k : ℕ}

/-- After an admissible header the loop waits for the first chunk. -/
theorem expects_of_header {s' : St} (h : Core cfg.chunkSize.toNat none s) (hlive : s.fault = none)
    (ha : s.Awaits p none) {header : ContentHeader} {now : Time}
    (hid : header.requestId = (s.objs p).id) (hs : onContentHeader cfg s header now = .ok s')
    (hlive' : s'.fault = none) : Expects cfg s' p header.contentSize.toNat 0 := by
  obtain ⟨s₁, hs₁, hh⟩ := onContentHeader_spec cfg h header now
  obtain rfl : s' = s₁ := Except.ok.inj (hs.symm.trans hs₁)
  refine ⟨hh.core cfg.chunkSize_pos cfg.bufferSize_pos h hlive, hlive', ?_⟩
  rcases hh.at_fresh hlive hid ha rfl with ⟨-, hat⟩ | ⟨m, ⟨⟩⟩ | ⟨close, hclose, -⟩
  · exact hat
  · rw [hlive'] at hclose
    cases hclose

/-- **One chunk.** The loop accepts the chunk it waits for, and takes it for the last one exactly if
it reaches the announced size. -/
theorem Expects.receive (h : Expects cfg s p N k) (chunk : ContentChunk)
    (hid : chunk.requestId = (s.objs p).id) (hseq : chunk.sequence.toNat = k)
    (hlen : chunk.data.length = due cfg.chunkSize.toNat N k) (now : Time) :
    ∃ s₁ w s', beginChunk cfg s chunk now = .ok (.inr (s₁, w)) ∧ finishChunk s₁ w = .ok s' ∧
      w.last = decide (k * cfg.chunkSize.toNat + chunk.data.length = N) ∧
      (w.last = false → Expects cfg s' p N (k + 1) ∧ (s'.objs p).id = (s.objs p).id) := by
  obtain ⟨rsp, hr, hN, hk⟩ := Request.progress_eq_some h.awaits.progress
  have hlookup := h.awaits.lookup hid
  have hlt : k * cfg.chunkSize.toNat < N := by
    have hcount := ((h.core.obj_of_lookup hlookup).response rsp hr).counter h.live
      (h.core.present hlookup) h.awaits.incomplete
    rw [← hN, ← hk]
    exact hcount.1
  have hNlt : N < 2 ^ 64 := hN ▸ rsp.header.contentSize.toNat_lt
  obtain ⟨x, hx, hb⟩ := beginChunk_spec cfg h.core h.live chunk now
  have hcore := hb.core cfg.chunkSize_pos h.core h.live
  cases hb with
  | unknown hl => exact absurd hl (h.awaits.lookup_ne_none hid)
  | misplaced hl hbad =>
    rw [h.awaits.ptr_eq hid hl, hr, h.awaits.incomplete] at hbad
    rcases hbad with hbad | hbad <;> cases hbad
  | reject hl hr' hd reason msg hbad =>
    rw [h.awaits.ptr_eq hid hl, hr] at hr'
    cases hr'
    rw [hN, hk] at hbad
    rcases hbad with hbad | hbad
    · exact absurd (UInt64.toNat_inj.mp (hseq.trans hk.symm)) hbad
    · exact absurd hlen hbad
  | accept hl hr' hd hseq' hlen' =>
    obtain rfl := h.awaits.ptr_eq hid hl
    rw [hr] at hr'
    cases hr'
    obtain ⟨s', hs', hf⟩ := finishChunk_spec hcore
    refine ⟨_, _, s', hx, hs', ?_, fun hlast => ⟨⟨hf.core hcore, ?_, ?_⟩, ?_⟩⟩
    · rw [hN, hk]
    · rw [hf.fault_eq]
      exact h.live
    · refine hf.awaits hlast (h.awaits.advance (succ_lt_of_due cfg.chunkSize_pos hNlt hlen ?_ hlt))
      rw [hN, hk] at hlast
      simpa using hlast
    · cases hf with
      | discard => simp [Request.advance]
      | forward => simp [Request.advance, Request.written]
      | drop _ hl' | complete _ hl' =>
        rw [hlast] at hl'
        cases hl'

/-- The chunks from number `k` on. -/
theorem Expects.receiveFrom (h : Expects cfg s p N k) {content : Bytes} (hlen : content.length = N)
    {j : ℕ} (hj : k + j ≤ pieces cfg.chunkSize.toNat N) (times : List Time)
    (ht : times.length = j) :
    ∃ s', receiveChunks cfg s (((List.range' k j).map
        (expectedChunk cfg.chunkSize.toNat (s.objs p).id content)).zip times) =
      some (s', (List.range' k j).map (isLast cfg.chunkSize.toNat N)) := by
  have hC := cfg.chunkSize_pos
  induction j generalizing s k times with
  | zero => exact ⟨s, rfl⟩
  | succ j ih =>
      cases times with
      | nil => cases ht
      | cons now times =>
        have hk : k < pieces cfg.chunkSize.toNat N := by omega
        have hNlt : N < 2 ^ 64 := by
          obtain ⟨rsp, -, hN, -⟩ := Request.progress_eq_some h.awaits.progress
          exact hN ▸ rsp.header.contentSize.toNat_lt
        have hpiece : (piece cfg.chunkSize.toNat content k).length =
            due cfg.chunkSize.toNat N k := by
          rw [length_piece, hlen]
        obtain ⟨s₁, w, s', hbegin, hfinish, hlast, hnext⟩ := h.receive
          (expectedChunk cfg.chunkSize.toNat (s.objs p).id content k) rfl
          (Nat.mod_eq_of_lt (lt_of_lt_pieces hC hNlt hk)) hpiece now
        have hflag : w.last = isLast cfg.chunkSize.toNat N k := by
          rw [hlast, isLast, decide_eq_decide, ← end_iff_last hC hk, ← hpiece]
          rfl
        rw [List.range'_succ, List.map_cons, List.zip_cons_cons, receiveChunks, hbegin]
        simp only [hfinish, List.map_cons, ← hflag]
        cases hw : w.last with
        | true =>
            rw [hflag, isLast, decide_eq_true_eq] at hw
            obtain rfl : j = 0 := by omega
            exact ⟨s', rfl⟩
        | false =>
            obtain ⟨h', hid⟩ := hnext hw
            obtain ⟨s₂, hs₂⟩ := ih h' (by omega) times (by simpa using ht)
            rw [hid] at hs₂
            exact ⟨s₂, by rw [hs₂]; rfl⟩

/-- **The chunks of a content are accepted**, as far as they are sent, and the last one is known for
the last. -/
theorem Expects.receive_all (h : Expects cfg s p N 0) {content : Bytes} (hlen : content.length = N)
    {k : ℕ} (hk : k ≤ pieces cfg.chunkSize.toNat N) (times : List Time) (ht : times.length = k) :
    ∃ s', receiveChunks cfg s
        (((expectedChunks cfg.chunkSize.toNat (s.objs p).id content).take k).zip times) =
      some (s', (lastFlags cfg.chunkSize.toNat N).take k) := by
  subst hlen
  have hfrom := h.receiveFrom rfl (j := k) (by omega) times ht
  rw [← List.range_eq_range'] at hfrom
  rw [take_expectedChunks hk, lastFlags, ← List.map_take, List.take_range, min_eq_left hk]
  exact hfrom

end Loon
