import Loon.Lib.Chunking
import Loon.GoClient.Respond

set_option autoImplicit false

/-!
# The grammar of a response of the Go client

A response is a header and its chunks in order, or a header, fewer chunks and a `CloseResponse`. The
channel `cancel` is all that `respond` goes by: whoever closes it, and whenever, the deferred function
sends a `CloseResponse`.

* `full`, `closedAt`: the shapes of a response;
* `Undisturbed`: nothing fails that must not, and no cancellation falls into a gap;
* `Progress`, `Sound`: the invariant;
* **`respond_grammar`**: on every run of such steps the messages have one of the two shapes, a
  response is concluded when `respond` returns, and `cancel` is closed at most once.
-/

namespace Loon.GoClient

/-! ## The shapes of a response -/

/-- What the grammar of a response sees of a message. -/
inductive Part where
  | header
  | chunk (sequence : ℕ)
  | close
  | empty
  deriving DecidableEq, Repr

def part : ClientData → Part
  | .contentHeader _ => .header
  | .contentChunk m => .chunk m.sequence.toNat
  | .closeResponse _ => .close
  | .emptyResponse _ => .empty

/-- The header and `k` chunks in order. -/
def full (k : ℕ) : List Part := .header :: (List.range k).map .chunk

/-- The header, `k` chunks in order and the end of the response. -/
def closedAt (k : ℕ) : List Part := full k ++ [.close]

theorem full_succ (k : ℕ) : full (k + 1) = full k ++ [.chunk k] := by
  rw [full, full, List.range_succ, List.map_append, List.cons_append]
  rfl

theorem full_prefix {k n : ℕ} (h : k ≤ n) : full k <+: full n := by
  obtain ⟨d, rfl⟩ := Nat.exists_eq_add_of_le h
  rw [full, full, List.range_add, List.map_append, ← List.cons_append]
  exact List.prefix_append _ _

/-- The messages are the beginning of a whole response or of one that was closed. -/
def Begins (c : Content) (sent : List ClientData) : Prop :=
  sent.map part <+: full c.chunks ∨ ∃ k < c.chunks, sent.map part <+: closedAt k

/-- The messages are a whole response or one that was closed. -/
def Concluded (c : Content) (sent : List ClientData) : Prop :=
  sent.map part = full c.chunks ∨ ∃ k < c.chunks, sent.map part = closedAt k

/-- The response is cut short: chunks are missing, or the client was closed before the header. -/
def Short (c : Content) (clientDone : Bool) (sent : List ClientData) : Prop :=
  (∃ k < c.chunks, sent.map part = full k) ∨ sent = [] ∧ clientDone = true

theorem Concluded.begins {c : Content} {sent : List ClientData} (h : Concluded c sent) :
    Begins c sent := by
  rcases h with h | ⟨k, hk, h⟩
  · exact .inl (h ▸ List.prefix_refl _)
  · exact .inr ⟨k, hk, h ▸ List.prefix_refl _⟩

theorem Short.begins {c : Content} {clientDone : Bool} {sent : List ClientData}
    (h : Short c clientDone sent) : Begins c sent := by
  rcases h with ⟨k, hk, h⟩ | ⟨rfl, -⟩
  · exact .inl (h ▸ full_prefix hk.le)
  · exact .inl List.nil_prefix

/-! ## Nothing falls into a gap -/

/-- `respond` looks at `cancel` again before the last chunk, or has returned. -/
def CheckAhead (c : Content) : RespondPoint → Prop
  | .data => 0 < c.chunks
  | .header => 0 < c.chunks
  | .loop sequence => sequence.toNat < c.chunks
  | .read sequence => sequence.toNat + 1 < c.chunks
  | .chunk sequence _ => sequence.toNat + 1 < c.chunks
  | .returned => True
  | _ => False

/-- `Data` does not fail and no read reports the end of the data; no read or write fails after a
cancellation was received, and none is received after a failure; and when the goroutine closes
`cancel` there is a check ahead. -/
structure Undisturbed (c : Content) (s : Responding) (e : RespondEvent) : Prop where
  data : e ≠ .data false
  read : ∀ results sequence err, e = .read results → s.respond.point = .read sequence →
    readAtLeast c.chunkSize.toNat (c.toRead sequence).toNat [] results = some (.error err) →
    err.isEof = false ∧ ¬ s.respond.TokenTaken
  write : e = .step → (s.respond.point = .header ∨ ∃ k d, s.respond.point = .chunk k d) →
    s.clientDone = true → ¬ s.respond.TokenTaken
  token : e = .token → s.respond.failed = false
  helper : e = .helper → s.respond.helper = .closing → CheckAhead c s.respond.point

/-! ## The invariant -/

/-- What was sent at each point of `respond`. -/
def Progress (c : Content) (clientDone : Bool) (s : Respond) : Prop :=
  match s.point with
  | .data => s.sent = [] ∧ s.failed = false ∧ (0 < s.cancel → 0 < c.chunks)
  | .header => s.sent = [] ∧ s.failed = false ∧ (0 < s.cancel → 0 < c.chunks)
  | .loop sequence => s.sent.map part = full sequence.toNat ∧ s.failed = false ∧
    sequence.toNat ≤ c.chunks ∧ (0 < s.cancel → sequence.toNat < c.chunks)
  | .read sequence => s.sent.map part = full sequence.toNat ∧ s.failed = false ∧
    sequence.toNat < c.chunks ∧ (0 < s.cancel → sequence.toNat + 1 < c.chunks)
  | .chunk sequence _ => s.sent.map part = full sequence.toNat ∧ s.failed = false ∧
    sequence.toNat < c.chunks ∧ (0 < s.cancel → sequence.toNat + 1 < c.chunks)
  | .closeCancel => Short c clientDone s.sent ∧ s.failed = true
  | .closeDone => s.cancel = 0 ∧ s.sent.map part = full c.chunks ∨
    0 < s.cancel ∧ Short c clientDone s.sent
  | .checkCancel => s.cancel = 0 ∧ s.sent.map part = full c.chunks ∨
    0 < s.cancel ∧ Short c clientDone s.sent
  | .closeResponse => Short c clientDone s.sent
  | .returned => Concluded c s.sent ∨ clientDone = true ∧ Short c clientDone s.sent
  | .panicked => s.sent.map part = full 0

/-- How often `cancel` was closed: by the goroutine, and by an error branch. -/
def Respond.closes (s : Respond) : ℕ :=
  (if s.helper = .closed then 1 else 0) + if s.failed && s.point ≠ .closeCancel then 1 else 0

/-- **The invariant of a call of `respond`.** -/
structure Sound (c : Content) (request : Request) (clientDone : Bool) (s : Respond) : Prop where
  ids : ∀ m ∈ s.sent, m.requestId = request.id
  cancel : s.cancel = s.closes
  token : s.TokenTaken → s.failed = false
  progress : Progress c clientDone s

/-! ## Steps -/

section Steps

variable {c : Content} {request : Request} {clientDone : Bool} {s s' : Respond}

theorem Content.lt_chunks_iff (hpos : 0 < c.chunkSize) {k : ℕ} :
    k < c.chunks ↔ k * c.chunkSize.toNat < c.size.toNat :=
  Chunking.lt_pieces_iff (UInt64.lt_iff_toNat_lt.mp hpos)

/-- **The end of the loop**: no multiplication overflows before the last chunk. -/
theorem Content.size_le_iff (hpos : 0 < c.chunkSize)
    (hfit : c.chunks * c.chunkSize.toNat < 2 ^ 64) {sequence : UInt64}
    (hk : sequence.toNat ≤ c.chunks) :
    c.size ≤ sequence * c.chunkSize ↔ c.chunks ≤ sequence.toNat := by
  have hmul : sequence.toNat * c.chunkSize.toNat ≤ c.chunks * c.chunkSize.toNat :=
    Nat.mul_le_mul_right _ hk
  rw [UInt64.le_iff_toNat_le, UInt64.toNat_mul, Nat.mod_eq_of_lt (lt_of_le_of_lt hmul hfit),
    ← not_lt, ← not_lt, Content.lt_chunks_iff hpos]

theorem Content.toNat_succ (hpos : 0 < c.chunkSize)
    (hfit : c.chunks * c.chunkSize.toNat < 2 ^ 64) {sequence : UInt64}
    (hk : sequence.toNat < c.chunks) : (sequence + 1).toNat = sequence.toNat + 1 := by
  have hC : 0 < c.chunkSize.toNat := UInt64.lt_iff_toNat_lt.mp hpos
  have hle : c.chunks ≤ c.chunks * c.chunkSize.toNat := Nat.le_mul_of_pos_right _ hC
  rw [UInt64.toNat_add]
  exact Nat.mod_eq_of_lt (by simp only [UInt64.toNat_one]; omega)

/-- The end of the client only makes more room. -/
theorem Sound.mono (h : Sound c request clientDone s) : Sound c request true s := by
  have hshort : ∀ sent, Short c clientDone sent → Short c true sent := by
    rintro sent (hk | ⟨hs, -⟩)
    · exact .inl hk
    · exact .inr ⟨hs, rfl⟩
  refine ⟨h.ids, h.cancel, h.token, ?_⟩
  have hprogress := h.progress
  unfold Progress at hprogress ⊢
  cases hp : s.point with
  | closeCancel =>
      simp only [hp] at hprogress ⊢
      exact ⟨hshort _ hprogress.1, hprogress.2⟩
  | closeDone | checkCancel =>
      simp only [hp] at hprogress ⊢
      exact hprogress.imp_right fun h => ⟨h.1, hshort _ h.2⟩
  | closeResponse =>
      simp only [hp] at hprogress ⊢
      exact hshort _ hprogress
  | returned =>
      simp only [hp] at hprogress ⊢
      exact hprogress.imp_right fun h => ⟨trivial, hshort _ h.2⟩
  | _ =>
      simp only [hp] at hprogress ⊢
      exact hprogress

/-- A step that closes nothing. -/
theorem Sound.advance (h : Sound c request clientDone s) (hp : s.point ≠ .closeCancel)
    (hp' : s'.point ≠ .closeCancel) (hcancel : s'.cancel = s.cancel)
    (hhelper : s'.helper = s.helper) (hfailed : s'.failed = s.failed)
    (hids : ∀ m ∈ s'.sent, m.requestId = request.id) (hprogress : Progress c clientDone s') :
    Sound c request clientDone s' := by
  refine ⟨hids, ?_, fun ht => ?_, hprogress⟩
  · rw [hcancel, h.cancel, Respond.closes, Respond.closes, hhelper, hfailed]
    simp only [hp, hp', ne_eq, not_false_eq_true, decide_true]
  · rw [hfailed]
    unfold Respond.TokenTaken at ht
    rw [hhelper] at ht
    exact h.token ht

/-- An error branch, before a cancellation was received. -/
theorem Sound.fail (h : Sound c request clientDone s) (hfailed : s.failed = false)
    (ht : ¬ s.TokenTaken) (hshort : Short c clientDone s.sent) :
    Sound c request clientDone s.fail := by
  refine ⟨h.ids, ?_, fun ht' => absurd ht' ht, ⟨hshort, rfl⟩⟩
  have hcancel := h.cancel
  rw [Respond.closes, hfailed] at hcancel
  exact hcancel

/-- A message is written, or the client was closed before a cancellation was received. -/
theorem Sound.write (h : Sound c request clientDone s) (hp : s.point ≠ .closeCancel)
    {m : ClientData} {p : RespondPoint} (hp' : p ≠ .closeCancel) (hm : m.requestId = request.id)
    (hfailed : s.failed = false) (ht : clientDone = true → ¬ s.TokenTaken)
    (hshort : clientDone = true → Short c clientDone s.sent)
    (hprogress : Progress c clientDone { s with sent := s.sent ++ [m], point := p }) :
    Sound c request clientDone (s.write clientDone m p) := by
  unfold Respond.write
  split
  · rename_i hdone
    exact h.fail hfailed (ht hdone) (hshort hdone)
  · refine h.advance hp hp' rfl rfl rfl (fun m' hm' => ?_) hprogress
    rcases List.mem_append.mp hm' with hm' | hm'
    · exact h.ids m' hm'
    · rw [List.mem_singleton.mp hm']
      exact hm

/-- `Data` returns a reader. -/
theorem Sound.dataReturns (h : Sound c request clientDone s)
    (hs : s.dataReturns true = some s') : Sound c request clientDone s' := by
  unfold Respond.dataReturns at hs
  split at hs
  swap
  · cases hs
  rename_i hp
  cases hs
  have hprogress := h.progress
  simp only [Progress, hp] at hprogress
  exact h.advance (by rw [hp]; rintro ⟨⟩) (by rintro ⟨⟩) rfl rfl rfl h.ids hprogress

/-- The reads of a chunk return. -/
theorem Sound.readReturns (h : Sound c request clientDone s) {results : List ReadResult}
    (hread : ∀ sequence err, s.point = .read sequence →
      readAtLeast c.chunkSize.toNat (c.toRead sequence).toNat [] results = some (.error err) →
      err.isEof = false ∧ ¬ s.TokenTaken)
    (hs : s.readReturns c results = some s') : Sound c request clientDone s' := by
  unfold Respond.readReturns at hs
  split at hs
  swap
  · cases hs
  rename_i sequence hp
  obtain ⟨result, hresult, rfl⟩ := Option.map_eq_some_iff.mp hs
  have hprogress := h.progress
  simp only [Progress, hp] at hprogress
  obtain ⟨hsent, hfailed, hlt, hahead⟩ := hprogress
  cases result with
  | ok buf =>
      exact h.advance (by rw [hp]; rintro ⟨⟩) (by rintro ⟨⟩) rfl rfl rfl h.ids
        ⟨hsent, hfailed, hlt, hahead⟩
  | error err =>
      obtain ⟨hne, ht⟩ := hread sequence err hp hresult
      rw [Respond.afterRead, if_neg (by rw [hne]; rintro ⟨⟩)]
      exact h.fail hfailed ht (.inl ⟨_, hlt, hsent⟩)

/-- The goroutine receives a cancellation. -/
theorem Sound.takeToken (h : Sound c request clientDone s) (hfailed : s.failed = false)
    (hs : s.token = some s') : Sound c request clientDone s' := by
  unfold Respond.token at hs
  split at hs
  swap
  · cases hs
  rename_i hw
  cases hs
  refine ⟨h.ids, ?_, fun _ => hfailed, h.progress⟩
  have hcancel := h.cancel
  simp only [Respond.closes, hw] at hcancel
  exact hcancel

/-- The goroutine closes `cancel`, with a check ahead, or leaves. -/
theorem Sound.helperStep (h : Sound c request clientDone s)
    (hahead : s.helper = .closing → CheckAhead c s.point)
    (hs : s.helperStep clientDone = some s') : Sound c request clientDone s' := by
  unfold Respond.helperStep at hs
  cases hh : s.helper with
  | waiting =>
      simp only [hh] at hs
      split at hs <;> cases hs
      refine ⟨h.ids, ?_, ?_, h.progress⟩
      · have hcancel := h.cancel
        simp only [Respond.closes, hh] at hcancel
        exact hcancel
      · rintro (⟨⟨⟩⟩ | ⟨⟨⟩⟩)
  | closing =>
      simp only [hh, Option.some.injEq] at hs
      subst hs
      have hfailed := h.token (.inl hh)
      have hzero : s.cancel = 0 := by
        have hcancel := h.cancel
        simpa [Respond.closes, hh, hfailed] using hcancel
      have hcheck := hahead hh
      refine ⟨h.ids, ?_, fun _ => hfailed, ?_⟩
      · simp [Respond.closes, hzero, hfailed]
      · have hprogress := h.progress
        unfold Progress at hprogress ⊢
        unfold CheckAhead at hcheck
        cases hp : s.point with
        | data | header =>
            simp only [hp] at hprogress hcheck ⊢
            exact ⟨hprogress.1, hprogress.2.1, fun _ => hcheck⟩
        | loop k | read k | chunk k d =>
            simp only [hp] at hprogress hcheck ⊢
            exact ⟨hprogress.1, hprogress.2.1, hprogress.2.2.1, fun _ => hcheck⟩
        | returned =>
            simp only [hp] at hprogress ⊢
            exact hprogress
        | _ =>
            simp only [hp] at hcheck
  | closed | exited =>
      simp only [hh] at hs
      cases hs

theorem Content.requestId_of_header {header : ContentHeader}
    (h : c.header request = some header) : header.requestId = request.id := by
  unfold Content.header at h
  simp only [Option.bind_eq_bind, Option.bind_eq_some_iff] at h
  obtain ⟨contentType, -, filename, -, hheader⟩ := h
  cases hheader
  rfl

/-- The header is sent. -/
theorem Sound.header (h : Sound c request clientDone s) (hp : s.point = .header)
    {header : ContentHeader} (hheader : c.header request = some header)
    (ht : clientDone = true → ¬ s.TokenTaken) :
    Sound c request clientDone (s.write clientDone (.contentHeader header)
      (if c.Makes then .loop 0 else .panicked)) := by
  have hprogress := h.progress
  simp only [Progress, hp] at hprogress
  obtain ⟨hsent, hfailed, hahead⟩ := hprogress
  refine h.write (by rw [hp]; rintro ⟨⟩) ?_ (c.requestId_of_header hheader) hfailed ht
    (fun hdone => .inr ⟨hsent, hdone⟩) ?_
  · split <;> rintro ⟨⟩
  · rw [hsent]
    split
    · exact ⟨rfl, hfailed, Nat.zero_le _, hahead⟩
    · rfl

/-- The top of the loop. -/
theorem Sound.loop (h : Sound c request clientDone s) (hpos : 0 < c.chunkSize)
    (hfit : c.chunks * c.chunkSize.toNat < 2 ^ 64) {sequence : UInt64}
    (hp : s.point = .loop sequence) :
    Sound c request clientDone
      (if c.size ≤ sequence * c.chunkSize then { s with point := .closeDone }
      else if 0 < s.cancel then { s with point := .closeDone, observed := true }
      else { s with point := .read sequence }) := by
  have hprogress := h.progress
  simp only [Progress, hp] at hprogress
  obtain ⟨hsent, hfailed, hle, hahead⟩ := hprogress
  have hend := c.size_le_iff hpos hfit hle
  have hp' : s.point ≠ .closeCancel := by
    rw [hp]
    rintro ⟨⟩
  split
  · rename_i hsize
    have heq : sequence.toNat = c.chunks := le_antisymm hle (hend.mp hsize)
    refine h.advance hp' (by rintro ⟨⟩) rfl rfl rfl h.ids (.inl ⟨?_, heq ▸ hsent⟩)
    by_contra hcancel
    have := hahead (Nat.pos_of_ne_zero hcancel)
    omega
  · rename_i hsize
    have hlt : sequence.toNat < c.chunks := not_le.mp fun hle' => hsize (hend.mpr hle')
    split
    · rename_i hcancel
      exact h.advance hp' (by rintro ⟨⟩) rfl rfl rfl h.ids
        (.inr ⟨hcancel, .inl ⟨_, hlt, hsent⟩⟩)
    · rename_i hcancel
      exact h.advance hp' (by rintro ⟨⟩) rfl rfl rfl h.ids
        ⟨hsent, hfailed, hlt, fun h => absurd h hcancel⟩

/-- A chunk is sent. -/
theorem Sound.chunk (h : Sound c request clientDone s) (hpos : 0 < c.chunkSize)
    (hfit : c.chunks * c.chunkSize.toNat < 2 ^ 64) {sequence : UInt64} {data : Bytes}
    (hp : s.point = .chunk sequence data) (ht : clientDone = true → ¬ s.TokenTaken) :
    Sound c request clientDone
      (s.write clientDone (.contentChunk ⟨request.id, sequence, data⟩) (.loop (sequence + 1))) := by
  have hprogress := h.progress
  simp only [Progress, hp] at hprogress
  obtain ⟨hsent, hfailed, hlt, hahead⟩ := hprogress
  have hsucc := c.toNat_succ hpos hfit hlt
  refine h.write (by rw [hp]; rintro ⟨⟩) (by rintro ⟨⟩) rfl hfailed ht
    (fun _ => .inl ⟨_, hlt, hsent⟩) ⟨?_, hfailed, ?_, ?_⟩
  · rw [hsucc, full_succ, List.map_append, hsent]
    rfl
  · rw [hsucc]
    exact hlt
  · rw [hsucc]
    exact hahead

/-- An error branch closes `cancel`. -/
theorem Sound.closeCancel (h : Sound c request clientDone s) (hp : s.point = .closeCancel) :
    Sound c request clientDone { s with cancel := s.cancel + 1, point := .closeDone } := by
  have hprogress := h.progress
  simp only [Progress, hp] at hprogress
  obtain ⟨hshort, hfailed⟩ := hprogress
  refine ⟨h.ids, ?_, h.token, .inr ⟨Nat.succ_pos _, hshort⟩⟩
  have hcancel := h.cancel
  simp only [Respond.closes, hp, hfailed] at hcancel ⊢
  rw [hcancel]
  rfl

/-- The deferred function looks at `cancel`. -/
theorem Sound.checkCancel (h : Sound c request clientDone s) (hp : s.point = .checkCancel) :
    Sound c request clientDone
      (if 0 < s.cancel then { s with point := .closeResponse, observed := true }
      else { s with point := .returned }) := by
  have hprogress := h.progress
  simp only [Progress, hp] at hprogress
  have hp' : s.point ≠ .closeCancel := by
    rw [hp]
    rintro ⟨⟩
  split
  · rename_i hcancel
    refine h.advance hp' (by rintro ⟨⟩) rfl rfl rfl h.ids ?_
    rcases hprogress with ⟨hzero, -⟩ | ⟨-, hshort⟩
    · omega
    · exact hshort
  · rename_i hcancel
    refine h.advance hp' (by rintro ⟨⟩) rfl rfl rfl h.ids ?_
    rcases hprogress with ⟨-, hfull⟩ | ⟨hcancel', -⟩
    · exact .inl (.inl hfull)
    · exact absurd hcancel' hcancel

/-- The response is closed. -/
theorem Sound.closeResponse (h : Sound c request clientDone s) (hp : s.point = .closeResponse) :
    Sound c request clientDone { s with
      sent := if clientDone then s.sent else s.sent ++ [.closeResponse ⟨request.id⟩]
      point := .returned } := by
  have hprogress := h.progress
  simp only [Progress, hp] at hprogress
  refine h.advance (by rw [hp]; rintro ⟨⟩) (by rintro ⟨⟩) rfl rfl rfl ?_ ?_
  · intro m hm
    simp only at hm
    split at hm
    · exact h.ids m hm
    · rcases List.mem_append.mp hm with hm | hm
      · exact h.ids m hm
      · rw [List.mem_singleton.mp hm]
        rfl
  · cases clientDone with
    | true => exact .inr ⟨rfl, hprogress⟩
    | false =>
        rcases hprogress with ⟨k, hk, hsent⟩ | ⟨-, ⟨⟩⟩
        refine .inl (.inr ⟨k, hk, ?_⟩)
        simp only [Bool.false_eq_true, if_false, List.map_append, hsent]
        rfl

/-- **The other steps of `respond`.** -/
theorem Sound.step (h : Sound c request clientDone s) (hpos : 0 < c.chunkSize)
    (hfit : c.chunks * c.chunkSize.toNat < 2 ^ 64) (hheader : (c.header request).isSome)
    (ht : (s.point = .header ∨ ∃ k d, s.point = .chunk k d) → clientDone = true → ¬ s.TokenTaken)
    (hs : s.step c request clientDone = some s') : Sound c request clientDone s' := by
  unfold Respond.step at hs
  cases hp : s.point with
  | header =>
      obtain ⟨header, hsome⟩ := Option.isSome_iff_exists.mp hheader
      simp only [hp, hsome, Option.some.injEq] at hs
      subst hs
      exact h.header hp hsome (ht (.inl hp))
  | loop sequence =>
      simp only [hp, Option.some.injEq] at hs
      subst hs
      exact h.loop hpos hfit hp
  | chunk sequence data =>
      simp only [hp, Option.some.injEq] at hs
      subst hs
      exact h.chunk hpos hfit hp (ht (.inr ⟨sequence, data, hp⟩))
  | closeCancel =>
      simp only [hp, Option.some.injEq] at hs
      subst hs
      exact h.closeCancel hp
  | closeDone =>
      simp only [hp, Option.some.injEq] at hs
      subst hs
      have hprogress := h.progress
      simp only [Progress, hp] at hprogress
      exact h.advance (by rw [hp]; rintro ⟨⟩) (by rintro ⟨⟩) rfl rfl rfl h.ids hprogress
  | checkCancel =>
      simp only [hp, Option.some.injEq] at hs
      subst hs
      exact h.checkCancel hp
  | closeResponse =>
      simp only [hp, Option.some.injEq] at hs
      subst hs
      exact h.closeResponse hp
  | data | read _ | returned | panicked =>
      simp only [hp] at hs
      cases hs

/-- **A step keeps the invariant**, when nothing falls into a gap. -/
theorem Sound.next (hpos : 0 < c.chunkSize) (hfit : c.chunks * c.chunkSize.toNat < 2 ^ 64)
    (hheader : (c.header request).isSome) {s s' : Responding} {e : RespondEvent}
    (h : Sound c request s.clientDone s.respond) (hu : Undisturbed c s e)
    (hs : s.next c request e = some s') : Sound c request s'.clientDone s'.respond := by
  unfold Responding.next at hs
  split at hs
  · cases hs
  obtain ⟨r, hr, rfl⟩ := Option.map_eq_some_iff.mp hs
  have hr' : Sound c request s.clientDone r := by
    cases e with
    | data ok =>
        cases ok with
        | true => exact h.dataReturns hr
        | false => exact absurd rfl hu.data
    | read results =>
        exact h.readReturns (fun sequence err => hu.read results sequence err rfl) hr
    | step => exact h.step hpos hfit hheader (hu.write rfl) hr
    | token => exact h.takeToken (hu.token rfl) hr
    | helper => exact h.helperStep (hu.helper rfl) hr
    | clientDone =>
        cases hr
        exact h
  cases hdone : s.clientDone || e = .clientDone with
  | true => exact hr'.mono
  | false =>
      rw [Bool.or_eq_false_iff] at hdone
      rw [hdone.1] at hr'
      exact hr'

end Steps

theorem Sound.init (c : Content) (request : Request) : Sound c request false .init := by
  refine ⟨?_, rfl, fun _ => rfl, ⟨rfl, rfl, ?_⟩⟩
  · rintro m ⟨⟩
  · rintro ⟨⟩

/-- **What the invariant says of the messages.** -/
theorem Sound.begins {c : Content} {request : Request} {clientDone : Bool} {s : Respond}
    (h : Sound c request clientDone s) : Begins c s.sent := by
  have hprogress := h.progress
  unfold Progress at hprogress
  cases hp : s.point with
  | data | header =>
      simp only [hp] at hprogress
      rw [hprogress.1]
      exact .inl List.nil_prefix
  | loop sequence =>
      simp only [hp] at hprogress
      exact .inl (hprogress.1 ▸ full_prefix hprogress.2.2.1)
  | read sequence | chunk sequence data =>
      simp only [hp] at hprogress
      exact .inl (hprogress.1 ▸ full_prefix hprogress.2.2.1.le)
  | closeCancel =>
      simp only [hp] at hprogress
      exact hprogress.1.begins
  | closeDone | checkCancel =>
      simp only [hp] at hprogress
      rcases hprogress with ⟨-, hfull⟩ | ⟨-, hshort⟩
      · exact Concluded.begins (.inl hfull)
      · exact hshort.begins
  | closeResponse =>
      simp only [hp] at hprogress
      exact hprogress.begins
  | returned =>
      simp only [hp] at hprogress
      rcases hprogress with hdone | ⟨-, hshort⟩
      · exact hdone.begins
      · exact hshort.begins
  | panicked =>
      simp only [hp] at hprogress
      exact .inl (hprogress ▸ full_prefix (Nat.zero_le _))

/-- `cancel` is closed by the goroutine or by an error branch, not by both. -/
theorem Sound.cancel_le {c : Content} {request : Request} {clientDone : Bool} {s : Respond}
    (h : Sound c request clientDone s) : s.cancel ≤ 1 := by
  rw [h.cancel, Respond.closes]
  by_cases hclosed : s.helper = .closed
  · rw [if_pos hclosed, h.token (.inr hclosed)]
    simp
  · rw [if_neg hclosed]
    split <;> simp

/-- **The grammar of a response**: if the header can be marshalled and no multiplication overflows,
on every run on which `Data` does not fail, no read reports the end of the data and no cancellation
falls into a gap, the messages about the request are the beginning of a header with all chunks in
order, or of a header with fewer chunks and a `CloseResponse`; they are one of the two when
`respond` has returned and the client is not closed; and `cancel` is closed at most once. -/
theorem respond_grammar {c : Content} {request : Request} (hpos : 0 < c.chunkSize)
    (hfit : c.chunks * c.chunkSize.toNat < 2 ^ 64) (hheader : (c.header request).isSome)
    {es : List RespondEvent} {s : Responding} (hr : (responding c request).run .init es = some s)
    (hC : (responding c request).Along (Undisturbed c) .init es) :
    (∀ m ∈ s.respond.sent, m.requestId = request.id) ∧ Begins c s.respond.sent ∧
    (s.respond.point = .returned → s.clientDone = false → Concluded c s.respond.sent) ∧
    s.respond.cancel ≤ 1 := by
  have h : Sound c request s.clientDone s.respond :=
    hC.inv (P := fun s => Sound c request s.clientDone s.respond)
      (fun _ _ _ h hu hs => h.next hpos hfit hheader hu hs) (Sound.init c request) hr
  refine ⟨h.ids, h.begins, fun hp hdone => ?_, h.cancel_le⟩
  have hprogress := h.progress
  simp only [Progress, hp] at hprogress
  rcases hprogress with hconcluded | ⟨hdone', -⟩
  · exact hconcluded
  · rw [hdone] at hdone'
    cases hdone'

/-! ## Sample runs -/

/-- The response is sent, with a short read, and the goroutine leaves. -/
def wholeResponse : List RespondEvent :=
  [.data true, .step, .step, .read [⟨[1], none⟩, ⟨[2], none⟩], .step, .step,
    .read [⟨[3], some .eof⟩], .step, .step, .step, .helper, .step]

/-- The state after the events `es` of a response. -/
def respondingAfter (es : List RespondEvent) : Responding :=
  ((responding threeBytes ⟨7, "path"⟩).run .init es).getD .init

theorem respond_grammar_wholeResponse :
    (respondingAfter wholeResponse).respond.sent.map part = full 2 ∧
    (respondingAfter wholeResponse).respond.point = .returned ∧
    Concluded threeBytes (respondingAfter wholeResponse).respond.sent := by
  have hrun : (responding threeBytes ⟨7, "path"⟩).run .init wholeResponse =
      some (respondingAfter wholeResponse) := by decide
  refine ⟨by decide, by decide, (respond_grammar (by decide) (by decide) (by decide) hrun
    ?_).2.2.1 (by decide) (by decide)⟩
  iterate 12
    refine ⟨⟨by rintro ⟨⟩, ?_, ?_, by rintro ⟨⟩, ?_⟩, ?_⟩
    · rintro _ _ _ ⟨⟩ ⟨⟩ ⟨⟩
    · rintro ⟨⟩ _ ⟨⟩
    · rintro ⟨⟩ ⟨⟩
    rintro _ ⟨⟩
  trivial

/-- `Data` fails. -/
def dataFails : List RespondEvent := [.data false, .step, .step, .step, .step]

/-- The response is closed before the header. -/
theorem close_without_header :
    (responding threeBytes ⟨7, "path"⟩).run .init dataFails = some (respondingAfter dataFails) ∧
    (respondingAfter dataFails).respond.sent = [.closeResponse ⟨7⟩] ∧
    ¬ Begins threeBytes (respondingAfter dataFails).respond.sent := by
  have hsent : (respondingAfter dataFails).respond.sent = [.closeResponse ⟨7⟩] := by decide
  refine ⟨by decide, hsent, ?_⟩
  rw [hsent]
  rintro (h | ⟨k, -, h⟩)
  · cases (List.cons_prefix_cons.mp h).1
  · cases (List.cons_prefix_cons.mp h).1

end Loon.GoClient
