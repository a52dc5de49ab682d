import Mathlib.Algebra.Order.Group.Nat
import Mathlib.Algebra.Order.Ring.Nat
import Mathlib.Tactic.Ring

set_option autoImplicit false

/-!
# Cutting a text into chunks

A text of `N` symbols cut into chunks of size `C`: all chunks have exactly `C` symbols but the last,
which has the rest, at least one symbol. `IsChunking` is a complete cut, `IsChunkPrefix` a cut whose
last chunk is still missing; `push` extends the second by the chunk that is due, and decides whether
the result is complete.

`piece C text i` is the chunk with number `i` of a given text, and `pieces C N` how many there are.
-/

namespace Chunking

variable {α : Type} {C N : ℕ}

/-- A proper prefix of a cut: full chunks that do not cover the text. -/
structure IsChunkPrefix (C N : ℕ) (l : List (List α)) : Prop where
  full : ∀ c ∈ l, c.length = C
  lt : l.length * C < N

/-- A complete cut. -/
structure IsChunking (C N : ℕ) (l : List (List α)) : Prop where
  split : ∃ front last, l = front ++ [last] ∧ IsChunkPrefix C N front ∧
    last.length = N - front.length * C ∧ last.length ≤ C

theorem isChunkPrefix_nil (h : 0 < N) : IsChunkPrefix C N ([] : List (List α)) :=
  ⟨by simp, by simpa using h⟩

/-- The size of the chunk that is due after `k` chunks. -/
def due (C N k : ℕ) : ℕ := min (N - k * C) C

/-- **The chunk that is due completes the cut if it reaches the end**, and extends it otherwise. -/
theorem IsChunkPrefix.push {l : List (List α)} {c : List α} (h : IsChunkPrefix C N l)
    (hc : c.length = due C N l.length) :
    (l.length * C + c.length = N → IsChunking C N (l ++ [c])) ∧
      (l.length * C + c.length ≠ N → IsChunkPrefix C N (l ++ [c])) := by
  have hlt := h.lt
  unfold due at hc
  refine ⟨fun he => ⟨l, c, rfl, h, by omega, by omega⟩, fun hne => ⟨fun d hd => ?_, ?_⟩⟩
  · rcases List.mem_append.mp hd with hd | hd
    · exact h.full d hd
    · rw [List.mem_singleton.mp hd]; omega
  · rw [List.length_append, List.length_singleton, Nat.succ_mul]; omega

theorem IsChunkPrefix.length_flatten {l : List (List α)} (h : IsChunkPrefix C N l) :
    l.flatten.length = l.length * C := by
  have hfull := h.full
  clear h
  induction l with
  | nil => simp
  | cons c l ih =>
      rw [List.flatten_cons, List.length_append, ih fun d hd => hfull d (List.mem_cons_of_mem c hd),
        hfull c List.mem_cons_self, List.length_cons, Nat.succ_mul, Nat.add_comm]

/-- A prefix holds fewer symbols than the text. -/
theorem IsChunkPrefix.length_flatten_lt {l : List (List α)} (h : IsChunkPrefix C N l) :
    l.flatten.length < N := h.length_flatten ▸ h.lt

/-- **A complete cut holds all symbols.** -/
theorem IsChunking.length_flatten {l : List (List α)} (h : IsChunking C N l) :
    l.flatten.length = N := by
  obtain ⟨front, last, rfl, hf, hl, -⟩ := h.split
  have := hf.lt
  rw [List.flatten_append, List.length_append, hf.length_flatten]
  simp only [List.flatten_cons, List.flatten_nil, List.append_nil]
  omega

/-- **A complete cut has `⌈N / C⌉` chunks.** -/
theorem IsChunking.length_eq {l : List (List α)} (h : IsChunking C N l) :
    l.length = (N + C - 1) / C := by
  obtain ⟨front, last, rfl, hf, hl, hle⟩ := h.split
  have hlt := hf.lt
  have hC : 0 < C := by omega
  rw [List.length_append, List.length_singleton]
  refine (Nat.div_eq_of_lt_le ?_ ?_).symm
  · rw [Nat.succ_mul]; omega
  · rw [Nat.succ_mul, Nat.succ_mul]; omega

/-- **The chunks of a complete cut**: every chunk but the last has size `C`, the last has between
one and `C` symbols. -/
theorem IsChunking.length_getElem {l : List (List α)} (h : IsChunking C N l) (i : ℕ)
    (hi : i < l.length) :
    (i + 1 < l.length → l[i].length = C) ∧ 1 ≤ l[i].length ∧ l[i].length ≤ C := by
  obtain ⟨front, last, rfl, hf, hl, hle⟩ := h.split
  have hlt := hf.lt
  have hC : 0 < C := by omega
  rw [List.length_append, List.length_singleton] at hi
  rcases Nat.lt_or_ge i front.length with h1 | h1
  · rw [List.getElem_append_left h1]
    have := hf.full _ (List.getElem_mem h1)
    exact ⟨fun _ => this, by omega, by omega⟩
  · rw [List.getElem_append_right h1]
    simp only [List.length_append, List.length_singleton, List.getElem_singleton]
    exact ⟨fun _ => by omega, by omega, hle⟩

/-- A proper prefix is not a complete cut. -/
theorem IsChunkPrefix.not_isChunking {l : List (List α)} (h : IsChunkPrefix C N l) :
    ¬ IsChunking C N l := fun h' => by
  have := h.length_flatten_lt
  rw [h'.length_flatten] at this
  exact lt_irrefl _ this

/-! ## The chunks of a given text -/

/-- The chunk with number `i` of `text`. -/
def piece (C : ℕ) (text : List α) (i : ℕ) : List α := (text.drop (i * C)).take C

/-- The number of chunks of a text of `N` symbols. -/
def pieces (C N : ℕ) : ℕ := (N + C - 1) / C

theorem lt_pieces_iff (hC : 0 < C) {k : ℕ} : k < pieces C N ↔ k * C < N := by
  rw [pieces, Nat.lt_iff_add_one_le, Nat.le_div_iff_mul_le hC, Nat.succ_mul]
  omega

theorem length_piece (text : List α) (i : ℕ) :
    (piece C text i).length = due C text.length i := by
  rw [piece, List.length_take, List.length_drop, due, min_comm]

/-- There are no chunks of size zero. -/
theorem pos_of_lt_pieces {k : ℕ} (h : k < pieces C N) : 0 < C := by
  refine Nat.pos_of_ne_zero ?_
  rintro rfl
  rw [pieces, Nat.div_zero] at h
  exact Nat.not_lt_zero k h

/-- **The chunks are the pieces that hold something.** -/
theorem lt_pieces_iff_ne_nil {text : List α} {k : ℕ} :
    k < pieces C text.length ↔ piece C text k ≠ [] := by
  rw [← List.length_pos_iff, length_piece, due]
  constructor
  · intro h
    have hC := pos_of_lt_pieces h
    have hlt := (lt_pieces_iff hC).mp h
    omega
  · intro h
    exact (lt_pieces_iff (by omega)).mpr (by omega)

/-- **The first `k` chunks in a row.** -/
theorem flatten_pieces (text : List α) (k : ℕ) :
    ((List.range k).map (piece C text)).flatten = text.take (k * C) := by
  induction k with
  | zero => simp
  | succ k ih =>
      rw [List.range_succ, List.map_append, List.flatten_append, ih, Nat.succ_mul, List.take_add]
      simp [piece]

/-- **All chunks in a row are the text.** -/
theorem flatten_all_pieces (hC : 0 < C) (text : List α) :
    ((List.range (pieces C text.length)).map (piece C text)).flatten = text := by
  rw [flatten_pieces]
  refine List.take_of_length_le (not_lt.mp fun h => ?_)
  exact lt_irrefl _ ((lt_pieces_iff hC).mpr h)

/-- The chunk that reaches the end of the text is the last one. -/
theorem end_iff_last (hC : 0 < C) {i : ℕ} (h : i < pieces C N) :
    i * C + due C N i = N ↔ i + 1 = pieces C N := by
  have hlt := (lt_pieces_iff hC).mp h
  have hnext : i + 1 < pieces C N ↔ (i + 1) * C < N := lt_pieces_iff hC
  rw [Nat.succ_mul] at hnext
  unfold due
  omega

/-! ## Sizes as machine numbers -/

theorem toNat_min (a b : UInt64) : (min a b).toNat = min a.toNat b.toNat := by
  change (if a ≤ b then a else b).toNat = _
  split
  · rename_i hle
    rw [min_eq_left (UInt64.le_iff_toNat_le.mp hle)]
  · rename_i hle
    rw [UInt64.le_iff_toNat_le] at hle
    rw [min_eq_right (Nat.le_of_not_le hle)]

/-- While symbols are missing, what precedes chunk `k` does not wrap around. -/
theorem toNat_offset {C N k : UInt64} (h : k.toNat * C.toNat < N.toNat) :
    (k * C).toNat = k.toNat * C.toNat := by
  have hN := N.toNat_lt
  rw [UInt64.toNat_mul]
  exact Nat.mod_eq_of_lt (by omega)

theorem toNat_missing {C N k : UInt64} (h : k.toNat * C.toNat < N.toNat) :
    (N - k * C).toNat = N.toNat - k.toNat * C.toNat := by
  have hoffset := toNat_offset h
  rw [UInt64.toNat_sub_of_le _ _ (by rw [UInt64.le_iff_toNat_le, hoffset]; omega), hoffset]

end Chunking
