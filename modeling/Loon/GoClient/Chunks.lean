import Loon.GoClient.Grammar
import Loon.Link.Receive

set_option autoImplicit false

/-!
# The chunks of the Go client at the server

`respond` cuts what the reader of the source supplies into chunks, `nextChunkInfo` announces the
chunks of the content; both compute offsets, sizes and the end from `sequence` and the chunk size on
their own.

* `Supplies`: what the calls of `Read` return of a reader that supplies enough bytes;
* `readAtLeast_supplied`: `io.ReadAtLeast` on such a reader;
* `Streams`: the chunks sent at each point of `respond`, and where the reader is;
* `Calm`, `RespondPoint.rank`: a response that nothing disturbs, and the steps it still takes;
* **`respond_meets_server`**: the chunks are those that the server expects, for every chunk size the
  runtime makes a buffer for.
-/

namespace Loon.GoClient

open Chunking

/-! ## The reader -/

/-- The number of bytes in what `Read` returned. -/
def bytesRead (results : List ReadResult) : ℕ := (results.map fun r => r.bytes.length).sum

/-- What the calls of `Read` may return, after `i` bytes, of a reader that supplies `text` and does
not fail before `n` bytes were supplied. -/
def Supplies (text : Bytes) (n : ℕ) : ℕ → List ReadResult → Prop
  | _, [] => True
  | i, r :: results => r.bytes <+: text.drop i ∧ (r.err ≠ none → n ≤ i + r.bytes.length) ∧
      Supplies text n (i + r.bytes.length) results

/-- The calls of `Read` in a run. -/
def RespondEvent.reads : RespondEvent → List ReadResult
  | .read results => results
  | _ => []

section Reader

variable {text : Bytes} {n : ℕ}

theorem bytesRead_cons (r : ReadResult) (results : List ReadResult) :
    bytesRead (r :: results) = r.bytes.length + bytesRead results := by
  rw [bytesRead, List.map_cons, List.sum_cons, bytesRead]

theorem bytesRead_append (a b : List ReadResult) :
    bytesRead (a ++ b) = bytesRead a + bytesRead b := by
  rw [bytesRead, List.map_append, List.sum_append, bytesRead, bytesRead]

theorem supplies_append {a b : List ReadResult} {i : ℕ} :
    Supplies text n i (a ++ b) ↔ Supplies text n i a ∧ Supplies text n (i + bytesRead a) b := by
  induction a generalizing i with
  | nil => exact (true_and _).symm.to_iff
  | cons r a ih =>
      rw [List.cons_append, Supplies, Supplies, ih, bytesRead_cons, Nat.add_assoc, and_assoc,
        and_assoc]

/-- **`io.ReadAtLeast` on a reader that supplies enough**: no error, and at least `min` bytes, which
are the next ones of the text. -/
theorem readAtLeast_supplied {cap min i : ℕ} {buf : Bytes} {results : List ReadResult}
    {result : Except ReadError Bytes} (hs : Supplies text n i results)
    (hmin : i + min ≤ n + buf.length) (hcap : buf.length ≤ cap)
    (h : readAtLeast cap min buf results = some result) :
    ∃ data, result = .ok (buf ++ data) ∧ data <+: text.drop i ∧ bytesRead results = data.length ∧
      min ≤ (buf ++ data).length ∧ (buf ++ data).length ≤ cap := by
  induction results generalizing buf i with
  | nil =>
      simp only [readAtLeast] at h
      split at h <;> cases h
      rename_i hle
      refine ⟨[], ?_, List.nil_prefix, rfl, ?_, ?_⟩
      · rw [List.append_nil]
      · rwa [List.append_nil]
      · rwa [List.append_nil]
  | cons r results ih =>
      obtain ⟨hstart, herr, hrest⟩ := hs
      unfold readAtLeast at h
      split at h
      · cases h
      rename_i hroom
      rw [not_or, Nat.not_le, Nat.not_lt] at hroom
      have hlen : (buf ++ r.bytes).length = buf.length + r.bytes.length := List.length_append
      cases he : r.err with
      | none =>
          simp only [he] at h
          obtain ⟨data, rfl, hdata, hread, hle, hle'⟩ := ih hrest (by omega) (by omega) h
          obtain ⟨t, ht⟩ := hstart
          refine ⟨r.bytes ++ data, by rw [List.append_assoc], ?_, ?_, ?_, ?_⟩
          · rw [← List.drop_drop, ← ht, List.drop_left] at hdata
            rw [← ht]
            exact (List.prefix_append_right_inj _).mpr hdata
          · rw [bytesRead_cons, hread, List.length_append]
          · rwa [← List.append_assoc]
          · rwa [← List.append_assoc]
      | some err =>
          have henough : min ≤ buf.length + r.bytes.length := by
            have := herr (by rw [he]; rintro ⟨⟩)
            omega
          simp only [he] at h
          split at h
          · cases h
          rename_i hlast
          cases h
          obtain rfl : results = [] := not_not.mp hlast
          exact ⟨r.bytes, rfl, hstart, by rw [bytesRead_cons]; rfl, by omega, by omega⟩

end Reader

/-! ## Sizes -/

section Sizes

variable {c : Content} {k : UInt64}

/-- `toRead` is the size of the chunk that is due. -/
theorem Content.toNat_toRead (h : k.toNat * c.chunkSize.toNat < c.size.toNat) :
    (c.toRead k).toNat = due c.chunkSize.toNat c.size.toNat k.toNat := by
  rw [Content.toRead, toNat_min, toNat_missing h, due, min_comm]

/-- Of a content below `2 ^ 63` in chunks that there is a buffer for no multiplication overflows. -/
theorem Content.fits (hsize : c.size.toNat < 2 ^ 63) (hbuf : c.Makes) :
    c.chunks * c.chunkSize.toNat < 2 ^ 64 := by
  have hlt : c.chunkSize.toNat < 2 ^ 63 := hbuf.1
  have hle : c.chunks * c.chunkSize.toNat ≤ c.size.toNat + c.chunkSize.toNat - 1 :=
    Nat.div_mul_le_self _ _
  omega

/-- What was read for a chunk, cut to its size, is the piece of the content. -/
theorem take_due {text data : Bytes} {C N j : ℕ} (hdata : data <+: text.drop (j * C))
    (hlen : due C N j ≤ data.length) : data.take (due C N j) = piece C (text.take N) j := by
  obtain ⟨t, ht⟩ := hdata
  have htake : data.take (due C N j) = (text.drop (j * C)).take (due C N j) := by
    rw [← ht, List.take_append_of_le_length hlen]
  rw [htake, piece, List.drop_take, List.take_take, due, min_comm]

end Sizes

/-! ## The chunks that were sent -/

/-- The first `k` chunks of the content were sent. -/
def SentUpTo (c : Content) (request : Request) (text : Bytes) (k : ℕ) (sent : List ClientData) :
    Prop :=
  chunksOf sent = (List.range k).map
    (expectedChunk c.chunkSize.toNat request.id (text.take c.size.toNat))

/-- The chunks sent at each point of `respond`, after `i` bytes of `text` were read. -/
def Streams (c : Content) (request : Request) (text : Bytes) (i : ℕ) (s : Respond) : Prop :=
  match s.point with
  | .data => SentUpTo c request text 0 s.sent ∧ i = 0
  | .header => SentUpTo c request text 0 s.sent ∧ i = 0
  | .loop k => SentUpTo c request text k.toNat s.sent ∧ k.toNat ≤ c.chunks ∧
    (k.toNat < c.chunks → i = k.toNat * c.chunkSize.toNat)
  | .read k => SentUpTo c request text k.toNat s.sent ∧ k.toNat < c.chunks ∧
    i = k.toNat * c.chunkSize.toNat
  | .chunk k data => SentUpTo c request text k.toNat s.sent ∧ k.toNat < c.chunks ∧
    data = piece c.chunkSize.toNat (text.take c.size.toNat) k.toNat ∧
    (k.toNat + 1 < c.chunks → i = (k.toNat + 1) * c.chunkSize.toNat)
  | _ => ∃ k ≤ c.chunks, SentUpTo c request text k s.sent ∧
    (s.failed = false → s.observed = false → k = c.chunks)

section Steps

variable {c : Content} {request : Request} {text : Bytes} {i : ℕ} {s s' : Respond}
  {clientDone : Bool}

theorem SentUpTo.other {k : ℕ} {sent : List ClientData} (h : SentUpTo c request text k sent)
    {m : ClientData} (hm : m.chunk = none) : SentUpTo c request text k (sent ++ [m]) := by
  rw [SentUpTo, chunksOf, List.filterMap_append]
  simp only [List.filterMap_cons, hm, List.filterMap_nil, List.append_nil]
  exact h

theorem SentUpTo.chunk {k : UInt64} {sent : List ClientData}
    (h : SentUpTo c request text k.toNat sent) :
    SentUpTo c request text (k.toNat + 1) (sent ++ [.contentChunk ⟨request.id, k,
      piece c.chunkSize.toNat (text.take c.size.toNat) k.toNat⟩]) := by
  rw [SentUpTo, chunksOf, List.filterMap_append, List.range_succ, List.map_append]
  rw [show sent.filterMap ClientData.chunk = _ from h]
  simp [ClientData.chunk, expectedChunk]

/-- At every point the chunks are the first of the content. -/
theorem Streams.sentUpTo (h : Streams c request text i s) :
    ∃ k ≤ c.chunks, SentUpTo c request text k s.sent := by
  unfold Streams at h
  cases hp : s.point with
  | data | header =>
      simp only [hp] at h
      exact ⟨0, Nat.zero_le _, h.1⟩
  | loop k =>
      simp only [hp] at h
      exact ⟨_, h.2.1, h.1⟩
  | read k | chunk k data =>
      simp only [hp] at h
      exact ⟨_, h.2.1.le, h.1⟩
  | _ =>
      simp only [hp] at h
      obtain ⟨k, hk, hsent, -⟩ := h
      exact ⟨k, hk, hsent⟩

/-- An error branch. -/
theorem Streams.fail (h : Streams c request text i s) : Streams c request text i s.fail := by
  obtain ⟨k, hk, hsent⟩ := h.sentUpTo
  exact ⟨k, hk, hsent, by rintro ⟨⟩⟩

/-- A write, which fails once the client is closed. -/
theorem Streams.write (h : Streams c request text i s) {m : ClientData} {p : RespondPoint}
    (h' : Streams c request text i { s with sent := s.sent ++ [m], point := p }) :
    Streams c request text i (s.write clientDone m p) := by
  unfold Respond.write
  split
  · exact h.fail
  · exact h'

theorem Streams.dataReturns (h : Streams c request text i s) {ok : Bool}
    (hs : s.dataReturns ok = some s') : Streams c request text i s' := by
  unfold Respond.dataReturns at hs
  split at hs
  swap
  · cases hs
  rename_i hp
  cases hs
  cases ok with
  | true =>
      simp only [Streams, hp] at h
      exact h
  | false => exact h.fail

/-- **A read of a reader that supplies enough** succeeds, with the piece of the content. -/
theorem Streams.readAtLeast (h : Streams c request text i s) (hpos : 0 < c.chunkSize)
    {k : UInt64} (hp : s.point = .read k) {results : List ReadResult}
    (hread : Supplies text c.size.toNat i results) {result : Except ReadError Bytes}
    (hr : readAtLeast c.chunkSize.toNat (c.toRead k).toNat [] results = some result) :
    ∃ data, result = .ok data ∧ data.take (c.toRead k).toNat =
        piece c.chunkSize.toNat (text.take c.size.toNat) k.toNat ∧
      (k.toNat + 1 < c.chunks → i + bytesRead results = (k.toNat + 1) * c.chunkSize.toNat) := by
  simp only [Streams, hp] at h
  obtain ⟨-, hlt, rfl⟩ := h
  have hmissing := (Content.lt_chunks_iff hpos).mp hlt
  have hdue := Content.toNat_toRead hmissing
  have hsum : k.toNat * c.chunkSize.toNat + due c.chunkSize.toNat c.size.toNat k.toNat ≤
      c.size.toNat := by
    unfold due
    omega
  obtain ⟨data, rfl, hdata, hcount, hle, hle'⟩ := readAtLeast_supplied hread
    (by rw [hdue, List.length_nil]; exact hsum) (Nat.zero_le _) hr
  rw [List.nil_append] at hle hle'
  refine ⟨data, rfl, ?_, fun hnext => ?_⟩
  · rw [hdue] at hle ⊢
    exact take_due hdata hle
  · have hfull := (Content.lt_chunks_iff hpos).mp hnext
    rw [Nat.succ_mul] at hfull ⊢
    rw [hdue, due] at hle
    omega

/-- The reads of a chunk return. -/
theorem Streams.readReturns (h : Streams c request text i s) (hpos : 0 < c.chunkSize)
    {results : List ReadResult} (hread : Supplies text c.size.toNat i results)
    (hs : s.readReturns c results = some s') :
    Streams c request text (i + bytesRead results) s' := by
  unfold Respond.readReturns at hs
  split at hs
  swap
  · cases hs
  rename_i k hp
  obtain ⟨result, hresult, rfl⟩ := Option.map_eq_some_iff.mp hs
  obtain ⟨data, rfl, htake, hnext⟩ := h.readAtLeast hpos hp hread hresult
  simp only [Streams, hp] at h
  exact ⟨h.1, h.2.1, htake, hnext⟩

/-- **The other steps of `respond`.** -/
theorem Streams.step (h : Streams c request text i s) (hpos : 0 < c.chunkSize)
    (hsize : c.size.toNat < 2 ^ 63) (hbuf : c.Makes)
    (hs : s.step c request clientDone = some s') : Streams c request text i s' := by
  have hfit := c.fits hsize hbuf
  have hstream := h
  unfold Respond.step at hs
  unfold Streams at h
  cases hp : s.point with
  | header =>
      simp only [hp] at h hs
      cases hh : c.header request with
      | none =>
          simp only [hh, Option.some.injEq] at hs
          subst hs
          exact hstream.fail
      | some header =>
          simp only [hh, if_pos hbuf, Option.some.injEq] at hs
          subst hs
          refine hstream.write ⟨h.1.other rfl, Nat.zero_le _, fun _ => ?_⟩
          rw [h.2]
          exact (Nat.zero_mul _).symm
  | loop k =>
      simp only [hp, Option.some.injEq] at h hs
      subst hs
      obtain ⟨hsent, hle, hi⟩ := h
      have hend := c.size_le_iff hpos hfit hle
      split
      · rename_i hover
        exact ⟨_, hle, hsent, fun _ _ => le_antisymm hle (hend.mp hover)⟩
      · rename_i hmore
        split
        · exact ⟨_, hle, hsent, fun _ => by rintro ⟨⟩⟩
        · have hlt : k.toNat < c.chunks := not_le.mp fun hle' => hmore (hend.mpr hle')
          exact ⟨hsent, hlt, hi hlt⟩
  | chunk k data =>
      simp only [hp, Option.some.injEq] at h hs
      subst hs
      obtain ⟨hsent, hlt, rfl, hi⟩ := h
      have hsucc := c.toNat_succ hpos hfit hlt
      refine hstream.write ?_
      simp only [Streams, hsucc]
      exact ⟨hsent.chunk, hlt, hi⟩
  | closeCancel | closeDone =>
      simp only [hp, Option.some.injEq] at h hs
      subst hs
      exact h
  | checkCancel =>
      simp only [hp, Option.some.injEq] at h hs
      subst hs
      split
      · obtain ⟨k, hk, hsent, -⟩ := h
        exact ⟨k, hk, hsent, fun _ => by rintro ⟨⟩⟩
      · exact h
  | closeResponse =>
      simp only [hp, Option.some.injEq] at h hs
      subst hs
      obtain ⟨k, hk, hsent, hall⟩ := h
      refine ⟨k, hk, ?_, hall⟩
      simp only
      split
      · exact hsent
      · exact hsent.other rfl
  | data | read _ | returned | panicked =>
      simp only [hp] at hs
      cases hs

/-- The goroutine of `respond` sends nothing. -/
theorem Streams.token (h : Streams c request text i s) (hs : s.token = some s') :
    Streams c request text i s' := by
  unfold Respond.token at hs
  split at hs <;> cases hs
  exact h

theorem Streams.helperStep (h : Streams c request text i s)
    (hs : s.helperStep clientDone = some s') : Streams c request text i s' := by
  unfold Respond.helperStep at hs
  split at hs
  · split at hs <;> cases hs
    exact h
  · cases hs
    exact h
  · cases hs

/-- **A step keeps the chunks in order**, whatever the event. -/
theorem Streams.next (hpos : 0 < c.chunkSize) (hsize : c.size.toNat < 2 ^ 63)
    (hbuf : c.Makes) {s s' : Responding} {e : RespondEvent}
    (h : Streams c request text i s.respond)
    (hread : Supplies text c.size.toNat i e.reads) (hs : s.next c request e = some s') :
    Streams c request text (i + bytesRead e.reads) s'.respond := by
  unfold Responding.next at hs
  split at hs
  · cases hs
  obtain ⟨r, hr, rfl⟩ := Option.map_eq_some_iff.mp hs
  cases e with
  | data ok => exact h.dataReturns hr
  | read results => exact h.readReturns hpos hread hr
  | step => exact h.step hpos hsize hbuf hr
  | token => exact h.token hr
  | helper => exact h.helperStep hr
  | clientDone =>
      cases hr
      exact h

end Steps

/-! ## A response that nothing disturbs -/

/-- No failure of `Data`, no cancellation and no end of the client. -/
def RespondEvent.Calm (e : RespondEvent) : Prop := e ≠ .data false ∧ e ≠ .token ∧ e ≠ .clientDone

instance : DecidablePred RespondEvent.Calm := fun _ => inferInstanceAs (Decidable (_ ∧ _))

/-- A step of `respond` itself. -/
def RespondEvent.own : RespondEvent → Bool
  | .helper => false
  | _ => true

/-- The number of steps up to the return of an undisturbed response of `n` chunks. -/
def RespondPoint.rank (n : ℕ) : RespondPoint → ℕ
  | .data => 3 * n + 5
  | .header => 3 * n + 4
  | .loop k => 3 * (n - k.toNat) + 3
  | .read k => 3 * (n - k.toNat) + 2
  | .chunk k _ => 3 * (n - k.toNat) + 1
  | .closeDone => 2
  | .checkCancel => 1
  | _ => 0

/-- Nothing has disturbed the response. -/
structure Calm (s : Responding) : Prop where
  clientDone : s.clientDone = false
  cancel : s.respond.cancel = 0
  failed : s.respond.failed = false
  observed : s.respond.observed = false
  helper : s.respond.helper = .waiting ∨ s.respond.helper = .exited
  point : s.respond.point ≠ .closeCancel ∧ s.respond.point ≠ .closeResponse ∧
    s.respond.point ≠ .panicked

section Calm

variable {c : Content} {request : Request} {text : Bytes} {i : ℕ} {s s' : Responding}
  {e : RespondEvent}

theorem Calm.panicked (h : Calm s) : s.respond.panicked = false := by
  rw [Respond.panicked, h.cancel, decide_eq_false h.point.2.2]
  rfl

/-- Where `respond` goes on, the rest stays. -/
theorem Calm.move (h : Calm s) {p : RespondPoint} {sent : List ClientData} {done : Bool}
    (hp : p ≠ .closeCancel ∧ p ≠ .closeResponse ∧ p ≠ .panicked) :
    Calm { s with respond := { s.respond with point := p, sent := sent, done := done } } :=
  ⟨h.clientDone, h.cancel, h.failed, h.observed, h.helper, hp⟩

/-- **A step of `respond`**, which comes closer to its return. -/
theorem Calm.step (h : Calm s) (hstream : Streams c request text i s.respond)
    (hpos : 0 < c.chunkSize) (hsize : c.size.toNat < 2 ^ 63) (hbuf : c.Makes)
    (hheader : (c.header request).isSome) {r : Respond}
    (hr : s.respond.step c request s.clientDone = some r) :
    Calm { s with respond := r } ∧
      r.point.rank c.chunks + 1 = s.respond.point.rank c.chunks := by
  have hfit := c.fits hsize hbuf
  have hcancel : ¬ 0 < s.respond.cancel := by
    rw [h.cancel]
    exact Nat.lt_irrefl 0
  unfold Respond.step at hr
  unfold Streams at hstream
  cases hp : s.respond.point with
  | header =>
      obtain ⟨header, hsome⟩ := Option.isSome_iff_exists.mp hheader
      simp only [hp, hsome, if_pos hbuf, Respond.write, h.clientDone,
        Bool.false_eq_true, if_false, Option.some.injEq] at hr
      subst hr
      refine ⟨h.move ⟨by rintro ⟨⟩, by rintro ⟨⟩, by rintro ⟨⟩⟩, ?_⟩
      show 3 * (c.chunks - 0) + 3 + 1 = 3 * c.chunks + 4
      omega
  | loop k =>
      simp only [hp, hcancel, if_false, Option.some.injEq] at hr hstream
      subst hr
      obtain ⟨-, hle, -⟩ := hstream
      have hend := c.size_le_iff hpos hfit hle
      split
      · rename_i hover
        have := hend.mp hover
        refine ⟨h.move ⟨by rintro ⟨⟩, by rintro ⟨⟩, by rintro ⟨⟩⟩, ?_⟩
        show 2 + 1 = 3 * (c.chunks - k.toNat) + 3
        omega
      · refine ⟨h.move ⟨by rintro ⟨⟩, by rintro ⟨⟩, by rintro ⟨⟩⟩, ?_⟩
        rfl
  | chunk k data =>
      simp only [hp, Respond.write, h.clientDone, Bool.false_eq_true, if_false,
        Option.some.injEq] at hr hstream
      subst hr
      obtain ⟨-, hlt, -⟩ := hstream
      refine ⟨h.move ⟨by rintro ⟨⟩, by rintro ⟨⟩, by rintro ⟨⟩⟩, ?_⟩
      show 3 * (c.chunks - (k + 1).toNat) + 3 + 1 = 3 * (c.chunks - k.toNat) + 1
      rw [c.toNat_succ hpos hfit hlt]
      omega
  | closeDone =>
      simp only [hp, Option.some.injEq] at hr
      subst hr
      exact ⟨h.move ⟨by rintro ⟨⟩, by rintro ⟨⟩, by rintro ⟨⟩⟩, rfl⟩
  | checkCancel =>
      simp only [hp, hcancel, if_false, Option.some.injEq] at hr
      subst hr
      exact ⟨h.move ⟨by rintro ⟨⟩, by rintro ⟨⟩, by rintro ⟨⟩⟩, rfl⟩
  | closeCancel => exact absurd hp h.point.1
  | closeResponse => exact absurd hp h.point.2.1
  | data | read _ | returned | panicked =>
      simp only [hp] at hr
      cases hr

/-- **A step keeps the calm**, and the steps of `respond` are counted. -/
theorem Calm.next (h : Calm s) (hstream : Streams c request text i s.respond)
    (hpos : 0 < c.chunkSize) (hsize : c.size.toNat < 2 ^ 63) (hbuf : c.Makes)
    (hheader : (c.header request).isSome) (he : e.Calm)
    (hread : Supplies text c.size.toNat i e.reads) (hs : s.next c request e = some s') :
    Calm s' ∧ (if e.own then 1 else 0) + s'.respond.point.rank c.chunks =
      s.respond.point.rank c.chunks := by
  unfold Responding.next at hs
  rw [h.panicked, if_neg (by rintro ⟨⟩)] at hs
  obtain ⟨r, hr, rfl⟩ := Option.map_eq_some_iff.mp hs
  cases e with
  | data ok =>
      obtain rfl : ok = true := by simpa using he.1
      simp only [Responding.respondNext, Respond.dataReturns] at hr
      split at hr <;> cases hr
      rename_i hp
      rw [hp]
      refine ⟨?_, ?_⟩
      · simpa using h.move (p := .header) ⟨by rintro ⟨⟩, by rintro ⟨⟩, by rintro ⟨⟩⟩
      · show 1 + (3 * c.chunks + 4) = 3 * c.chunks + 5
        omega
  | read results =>
      simp only [Responding.respondNext, Respond.readReturns] at hr
      split at hr
      swap
      · cases hr
      rename_i k hp
      obtain ⟨result, hresult, rfl⟩ := Option.map_eq_some_iff.mp hr
      obtain ⟨data, rfl, -, -⟩ := hstream.readAtLeast hpos hp hread hresult
      rw [hp]
      refine ⟨?_, ?_⟩
      · simpa [Respond.afterRead] using h.move (p := .chunk k (data.take (c.toRead k).toNat))
          ⟨by rintro ⟨⟩, by rintro ⟨⟩, by rintro ⟨⟩⟩
      · show 1 + (3 * (c.chunks - k.toNat) + 1) = 3 * (c.chunks - k.toNat) + 2
        omega
  | step =>
      obtain ⟨hcalm, hrank⟩ := h.step hstream hpos hsize hbuf hheader hr
      refine ⟨by simpa using hcalm, ?_⟩
      simp only [RespondEvent.own, if_true]
      omega
  | helper =>
      simp only [Responding.respondNext, Respond.helperStep] at hr
      rcases h.helper with hh | hh
      · simp only [hh] at hr
        split at hr <;> cases hr
        refine ⟨⟨by simpa using h.clientDone, h.cancel, h.failed, h.observed, .inr rfl, h.point⟩, ?_⟩
        simp [RespondEvent.own]
      · simp only [hh] at hr
        cases hr
  | token => exact absurd rfl he.2.1
  | clientDone => exact absurd rfl he.2.2

/-- Until it returns, `respond` has a next step. -/
theorem Calm.enabled (h : Calm s) (hstream : Streams c request text i s.respond)
    (hpos : 0 < c.chunkSize) (hlen : c.size.toNat ≤ text.length)
    (hp : s.respond.point ≠ .returned) :
    ∃ e : RespondEvent, e.Calm ∧ e.own = true ∧ Supplies text c.size.toNat i e.reads ∧
      (s.next c request e).isSome := by
  have hnext : ∀ e, s.next c request e = (s.respondNext c request e).map fun r =>
      ⟨r, s.clientDone || e = .clientDone⟩ := by
    intro e
    rw [Responding.next, h.panicked, if_neg (by rintro ⟨⟩)]
  cases hpoint : s.respond.point with
  | data =>
      refine ⟨.data true, by decide, rfl, trivial, ?_⟩
      simp [hnext, Responding.respondNext, Respond.dataReturns, hpoint]
  | read k =>
      simp only [Streams, hpoint] at hstream
      obtain ⟨-, hlt, rfl⟩ := hstream
      have hmissing := (Content.lt_chunks_iff hpos).mp hlt
      have hdue := Content.toNat_toRead hmissing
      have hsum : k.toNat * c.chunkSize.toNat + (c.toRead k).toNat ≤ c.size.toNat := by
        rw [hdue, due]
        omega
      have hcap : (c.toRead k).toNat ≤ c.chunkSize.toNat := by
        rw [hdue, due]
        omega
      have htake : ((text.drop (k.toNat * c.chunkSize.toNat)).take (c.toRead k).toNat).length =
          (c.toRead k).toNat := by
        rw [List.length_take, List.length_drop]
        omega
      have hread0 : 0 < (c.toRead k).toNat := by
        have hC : 0 < c.chunkSize.toNat := UInt64.lt_iff_toNat_lt.mp hpos
        rw [hdue, due]
        omega
      refine ⟨.read [⟨(text.drop (k.toNat * c.chunkSize.toNat)).take (c.toRead k).toNat, none⟩],
        ⟨by rintro ⟨⟩, by rintro ⟨⟩, by rintro ⟨⟩⟩, rfl,
        ⟨List.take_prefix _ _, fun hne => absurd rfl hne, trivial⟩, ?_⟩
      have hmade : readAtLeast c.chunkSize.toNat (c.toRead k).toNat []
          [⟨(text.drop (k.toNat * c.chunkSize.toNat)).take (c.toRead k).toNat, none⟩] =
          some (.ok ((text.drop (k.toNat * c.chunkSize.toNat)).take (c.toRead k).toNat)) := by
        unfold readAtLeast
        rw [if_neg (by rw [htake, List.length_nil]; omega)]
        simp only [List.nil_append, readAtLeast, htake, le_refl, if_true]
      simp [hnext, Responding.respondNext, Respond.readReturns, hpoint, hmade]
  | header | loop k | chunk k data | closeDone | checkCancel =>
      refine ⟨.step, by decide, rfl, trivial, ?_⟩
      simp [hnext, Responding.respondNext, Respond.step, hpoint]
  | returned => exact absurd hpoint hp
  | closeCancel => exact absurd hpoint h.point.1
  | closeResponse => exact absurd hpoint h.point.2.1
  | panicked => exact absurd hpoint h.point.2.2

end Calm

/-! ## Runs -/

section Runs

variable {c : Content} {request : Request} {text : Bytes} {es : List RespondEvent} {s : Responding}

/-- All calls of `Read` in a run. -/
def readsOf (es : List RespondEvent) : List ReadResult := es.flatMap RespondEvent.reads

theorem readsOf_snoc (e : RespondEvent) : readsOf (es ++ [e]) = readsOf es ++ e.reads := by
  rw [readsOf, List.flatMap_append, List.flatMap_singleton, readsOf]

/-- **The chunks of a run**, with the reader where `respond` is. -/
theorem streams_of_run (hpos : 0 < c.chunkSize) (hsize : c.size.toNat < 2 ^ 63)
    (hbuf : c.Makes) (hr : (responding c request).run .init es = some s)
    (hread : Supplies text c.size.toNat 0 (readsOf es)) :
    Streams c request text (bytesRead (readsOf es)) s.respond := by
  revert hread
  refine Machine.run_induction (M := responding c request) (P := fun es s =>
    Supplies text c.size.toNat 0 (readsOf es) →
      Streams c request text (bytesRead (readsOf es)) s.respond) ?_ ?_ hr
  · intro _
    exact ⟨rfl, rfl⟩
  · intro es s e s' _ ih hs hread
    rw [readsOf_snoc, supplies_append, Nat.zero_add] at hread
    rw [readsOf_snoc, bytesRead_append]
    exact (ih hread.1).next hpos hsize hbuf hread.2 hs

/-- **An undisturbed run** stays calm, and its steps are counted. -/
theorem calm_of_run (hpos : 0 < c.chunkSize) (hsize : c.size.toNat < 2 ^ 63)
    (hbuf : c.Makes) (hheader : (c.header request).isSome)
    (hr : (responding c request).run .init es = some s)
    (hread : Supplies text c.size.toNat 0 (readsOf es)) (hcalm : ∀ e ∈ es, e.Calm) :
    Calm s ∧ es.countP RespondEvent.own + s.respond.point.rank c.chunks = 3 * c.chunks + 5 := by
  revert hread hcalm
  refine Machine.run_induction (M := responding c request) (P := fun es s =>
    Supplies text c.size.toNat 0 (readsOf es) → (∀ e ∈ es, e.Calm) →
      Calm s ∧ es.countP RespondEvent.own + s.respond.point.rank c.chunks = 3 * c.chunks + 5)
    ?_ ?_ hr
  · intro _ _
    exact ⟨⟨rfl, rfl, rfl, rfl, .inl rfl, by rintro ⟨⟩, by rintro ⟨⟩, by rintro ⟨⟩⟩, Nat.zero_add _⟩
  · intro es s e s' hr ih hs hread hcalm
    rw [readsOf_snoc, supplies_append, Nat.zero_add] at hread
    obtain ⟨h, hcount⟩ := ih hread.1 fun e' he' => hcalm e' (List.mem_append_left _ he')
    obtain ⟨h', hrank⟩ := h.next (streams_of_run hpos hsize hbuf hr hread.1) hpos hsize hbuf hheader
      (hcalm e (by simp)) hread.2 hs
    refine ⟨h', ?_⟩
    rw [List.countP_append, List.countP_singleton]
    omega

end Runs

/-- **The chunks of `respond` are those the server expects.** For a content of less than `2 ^ 63`
bytes, a chunk size that there is a buffer for and a reader that supplies the content, the chunks
sent in any run are the first chunks of the content; the server accepts them one after the other and
takes exactly the one that ends the content for the last. If nothing disturbs the response it
neither fails nor panics, and after `3 n + 5` steps it has returned with all `n` chunks sent. -/
theorem respond_meets_server {c : Content} {request : Request} {text : Bytes} (hpos : 0 < c.chunkSize)
    (hsize : c.size.toNat < 2 ^ 63) (hbuf : c.Makes)
    (hlen : c.size.toNat ≤ text.length) {es : List RespondEvent} {s : Responding}
    (hr : (responding c request).run .init es = some s)
    (hread : Supplies text c.size.toNat 0 (readsOf es)) :
    (∃ k ≤ c.chunks, chunksOf s.respond.sent =
        (expectedChunks c.chunkSize.toNat request.id (text.take c.size.toNat)).take k ∧
      ∀ {ext : Externals} (cfg : Config ext) (st : St) (p : Ptr) (times : List Time),
        cfg.chunkSize = c.chunkSize → (st.objs p).id = request.id →
        Expects cfg st p c.size.toNat 0 → times.length = k →
        ∃ st', receiveChunks cfg st ((chunksOf s.respond.sent).zip times) =
          some (st', (lastFlags c.chunkSize.toNat c.size.toNat).take k)) ∧
    ((expectedChunks c.chunkSize.toNat request.id (text.take c.size.toNat)).map
      ContentChunk.data).flatten = text.take c.size.toNat ∧
    ((c.header request).isSome → (∀ e ∈ es, e.Calm) →
      s.respond.failed = false ∧ s.respond.panicked = false ∧
      es.countP RespondEvent.own ≤ 3 * c.chunks + 5 ∧
      (s.respond.point = .returned → chunksOf s.respond.sent =
        expectedChunks c.chunkSize.toNat request.id (text.take c.size.toNat)) ∧
      (s.respond.point ≠ .returned → ∃ e : RespondEvent, e.Calm ∧ e.own = true ∧
        Supplies text c.size.toNat 0 (readsOf (es ++ [e])) ∧
        ∃ s', (responding c request).run .init (es ++ [e]) = some s')) := by
  have hC : 0 < c.chunkSize.toNat := UInt64.lt_iff_toNat_lt.mp hpos
  have hstream := streams_of_run hpos hsize hbuf hr hread
  have hcontent : (text.take c.size.toNat).length = c.size.toNat := by
    rw [List.length_take, min_eq_left hlen]
  have hchunks : pieces c.chunkSize.toNat (text.take c.size.toNat).length = c.chunks := by
    rw [hcontent]
    rfl
  refine ⟨?_, flatten_expectedChunks hC _ _, fun hheader hcalm => ?_⟩
  · obtain ⟨k, hk, hsent⟩ := hstream.sentUpTo
    have htake : chunksOf s.respond.sent =
        (expectedChunks c.chunkSize.toNat request.id (text.take c.size.toNat)).take k := by
      rw [take_expectedChunks (by rw [hchunks]; exact hk)]
      exact hsent
    refine ⟨k, hk, htake, fun cfg st p times hsame hid hexpects htimes => ?_⟩
    rw [htake, ← hsame, ← hid]
    refine hexpects.receive_all hcontent ?_ times htimes
    rw [hsame]
    exact hk
  · obtain ⟨h, hcount⟩ := calm_of_run hpos hsize hbuf hheader hr hread hcalm
    refine ⟨h.failed, h.panicked, by omega, fun hp => ?_, fun hp => ?_⟩
    · simp only [Streams, hp] at hstream
      obtain ⟨k, -, hsent, hall⟩ := hstream
      rw [show chunksOf s.respond.sent = _ from hsent, hall h.failed h.observed, expectedChunks,
        hchunks]
    · obtain ⟨e, he, hown, hreads, hsome⟩ := h.enabled hstream hpos hlen hp
      refine ⟨e, he, hown, ?_, ?_⟩
      · rw [readsOf_snoc, supplies_append, Nat.zero_add]
        exact ⟨hread, hreads⟩
      · obtain ⟨s', hs'⟩ := Option.isSome_iff_exists.mp hsome
        exact ⟨s', (Machine.run_snoc_eq_some _).mpr ⟨s, hr, hs'⟩⟩

/-! ## Sample runs -/

/-- The server waits for the three bytes of its first request. -/
def headerReceived : List Event :=
  [.forwardRequest "path" 0 true, .recv ⟨some (.contentHeader sampleHeader)⟩ 1]

theorem expects_headerReceived :
    Expects sampleConfig (stateAfter sampleConfig headerReceived) 0 3 0 := by
  have hrun : (protocol sampleConfig).run (.ok St.init) headerReceived =
      some (.ok (stateAfter sampleConfig headerReceived)) := rfl
  exact ⟨(inv_of_run hrun).core, rfl, by unfold St.Present; decide, rfl, rfl⟩

theorem respond_meets_server_wholeResponse :
    ∃ s, (responding threeBytes ⟨1, "path"⟩).run .init wholeResponse = some s ∧
      s.respond.point = .returned ∧
      chunksOf s.respond.sent = [⟨1, 0, [1, 2]⟩, ⟨1, 1, [3]⟩] ∧
      ∃ st, receiveChunks sampleConfig (stateAfter sampleConfig headerReceived)
        ((chunksOf s.respond.sent).zip [2, 3]) = some (st, [false, true]) := by
  have hrun : (responding threeBytes ⟨1, "path"⟩).run .init wholeResponse =
      some (((responding threeBytes ⟨1, "path"⟩).run .init wholeResponse).getD .init) := by decide
  have hread : Supplies [1, 2, 3] threeBytes.size.toNat 0 (readsOf wholeResponse) := by
    refine ⟨by decide, ?_, by decide, ?_, by decide, fun _ => by decide, trivial⟩
    · rintro h
      exact absurd rfl h
    · rintro h
      exact absurd rfl h
  obtain ⟨⟨k, hk, hsent, hserver⟩, -, hcalm⟩ :=
    respond_meets_server (by decide) (by decide) (by decide) (by decide) hrun hread
  have hall := (hcalm (by decide) (by decide)).2.2.2.1 (by decide)
  refine ⟨_, hrun, by decide, by rw [hall]; decide, ?_⟩
  have hk' : k = 2 := by
    have hlen := congrArg List.length (hsent.symm.trans hall)
    rw [List.length_take, expectedChunks, List.length_map, List.length_range] at hlen
    change min k 2 = 2 at hlen
    change k ≤ 2 at hk
    omega
  subst hk'
  exact hserver sampleConfig _ 0 [2, 3] rfl rfl expects_headerReceived rfl

/-- A file of three bytes, at a server that announces chunks of `2 ^ 50` bytes. -/
def hugeChunks : Content := { threeBytes with chunkSize := 0x4000000000000 }

/-- The runtime makes no buffer of this size: nothing follows the header. -/
theorem respond_panics_hugeChunks :
    ∃ s, (responding hugeChunks ⟨1, "path"⟩).run .init [.data true, .step] = some s ∧
      s.respond.panicked = true ∧ (∀ e, s.next hugeChunks ⟨1, "path"⟩ e = none) ∧
      chunksOf s.respond.sent ≠ expectedChunks (2 ^ 50) 1 [1, 2, 3] := by
  refine ⟨((responding hugeChunks ⟨1, "path"⟩).run .init [.data true, .step]).getD .init,
    by decide +kernel, by decide +kernel, fun e => ?_, by decide +kernel⟩
  rw [Responding.next, if_pos (by decide +kernel)]

end Loon.GoClient
