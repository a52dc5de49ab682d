import Mathlib.Data.List.Nodup
import Mathlib.Data.Set.Insert
import Mathlib.Logic.Function.Basic

set_option autoImplicit false

/-!
# Rendezvous

A board on which two parties meet. An entry is posted under a name for its owner. Each of the two
arrives at the name once, in any order: the first one leaves a mark, the second one removes the
entry, and that is the meeting. An entry may also be withdrawn.

* `Board`, `Board.post`, `Board.arrive`, `Board.withdraw`;
* `Board.Record`: what one name of the board says of the past, and how an arrival changes it;
* `Board.Records`: the board against the names that were posted, reached and withdrawn, with one
  rule for each operation;
* `Board.Records.isSome_iff`: an entry is there until the meeting or its withdrawal.
-/

/-- The entries with their owners, and whether somebody has arrived; the meetings so far. -/
structure Board (κ ι : Type) where
  entries : ι → Option (κ × Bool)
  met : List (κ × ι)

namespace Board

variable {κ ι : Type} [DecidableEq ι] (b : Board κ ι)

def post (o : κ) (i : ι) : Board κ ι := ⟨Function.update b.entries i (some (o, false)), b.met⟩

/-- An arrival; nothing happens if there is no entry. -/
def arrive (i : ι) : Board κ ι :=
  match b.entries i with
  | none => b
  | some (o, false) => ⟨Function.update b.entries i (some (o, true)), b.met⟩
  | some (o, true) => ⟨Function.update b.entries i none, b.met ++ [(o, i)]⟩

def withdraw (i : ι) : Board κ ι := ⟨Function.update b.entries i none, b.met⟩

end Board

/-! ## One name -/

section Name

variable {κ : Type}

/-- The entry `e` and the meetings `m` of a name that was posted for the owners `p`: `x` and `y` tell
whether the two parties have arrived, `g` whether the entry was withdrawn. -/
structure Board.Record (p : κ → Prop) (x y g : Prop) (e : Option (κ × Bool)) (m : κ → Prop) : Prop where
  entry : ∀ o f, e = some (o, f) ↔ p o ∧ ¬ g ∧ ¬ (x ∧ y) ∧ (f = true ↔ x ∨ y)
  met : ∀ o, m o ↔ p o ∧ ¬ g ∧ x ∧ y

namespace Board.Record

variable {p m : κ → Prop} {x y g : Prop} {e : Option (κ × Bool)} {o : κ}

theorem congr {p' m' : κ → Prop} {x' y' g' : Prop} (h : Record p x y g e m)
    (hp : ∀ o, p' o ↔ p o) (hx : x' ↔ x) (hy : y' ↔ y) (hg : g' ↔ g) (hm : ∀ o, m' o ↔ m o) :
    Record p' x' y' g' e m' := by
  refine ⟨fun o f => ?_, fun o => ?_⟩
  · rw [hp, hx, hy, hg, h.entry]
  · rw [hp, hx, hy, hg, hm, h.met]

theorem symm (h : Record p x y g e m) : Record p y x g e m := by
  refine ⟨fun o f => ?_, fun o => ?_⟩
  · rw [h.entry, and_comm (a := x), or_comm (a := x)]
  · rw [h.met, and_comm (a := x)]

/-- Without an entry there are no owners, or it was withdrawn, or the two have met. -/
theorem isSome_iff (h : Record p x y g e m) :
    e.isSome ↔ (∃ o, p o) ∧ ¬ g ∧ ¬ (x ∧ y) := by
  classical
  rw [Option.isSome_iff_exists]
  constructor
  · rintro ⟨⟨o, f⟩, he⟩
    obtain ⟨hp, hg, hb, -⟩ := (h.entry o f).mp he
    exact ⟨⟨o, hp⟩, hg, hb⟩
  · rintro ⟨⟨o, hp⟩, hg, hb⟩
    exact ⟨(o, decide (x ∨ y)), (h.entry _ _).mpr ⟨hp, hg, hb, decide_eq_true_iff⟩⟩

/-- The owner of an entry is the only one. -/
theorem owner_eq {f : Bool} (h : Record p x y g (some (o, f)) m) {o' : κ} (hp : p o') : o' = o := by
  obtain ⟨-, hrest⟩ := (h.entry o f).mp rfl
  have hsame := (h.entry o' f).mpr ⟨hp, hrest⟩
  cases hsame
  rfl

/-- An arrival where there is no entry. -/
theorem arrive_none (h : Record p x y g none m) (hx : ¬ x) : Record p True y g none m := by
  have hno : ∀ o, p o → g := by
    intro o hp
    by_contra hg
    have hsome := h.isSome_iff.mpr ⟨⟨o, hp⟩, hg, fun hb => hx hb.1⟩
    cases hsome
  refine ⟨fun o f => ?_, fun o => ?_⟩
  · exact ⟨by rintro ⟨⟩, fun hr => absurd (hno o hr.1) hr.2.1⟩
  · rw [h.met]
    exact ⟨fun hr => absurd hr.2.2.1 hx, fun hr => absurd (hno o hr.1) hr.2.1⟩

/-- The first arrival leaves a mark. -/
theorem arrive_unmarked (h : Record p x y g (some (o, false)) m) (hx : ¬ x) :
    Record p True y g (some (o, true)) m := by
  obtain ⟨hp, hg, -, hflag⟩ := (h.entry o false).mp rfl
  have hy : ¬ y := fun hy => Bool.false_ne_true (hflag.mpr (.inr hy))
  refine ⟨fun o' f => ?_, fun o' => ?_⟩
  · constructor
    · rintro ⟨⟩
      exact ⟨hp, hg, fun hb => hy hb.2, by simp⟩
    · rintro ⟨hp', -, -, hf⟩
      rw [h.owner_eq hp', hf.mpr (.inl trivial)]
  · rw [h.met]
    exact ⟨fun hr => absurd hr.2.2.1 hx, fun hr => absurd hr.2.2.2 hy⟩

/-- The second arrival is the meeting. -/
theorem arrive_marked (h : Record p x y g (some (o, true)) m) (hx : ¬ x) :
    Record p True y g none fun o' => m o' ∨ o' = o := by
  obtain ⟨hp, hg, -, hflag⟩ := (h.entry o true).mp rfl
  have hy : y := (hflag.mp rfl).resolve_left hx
  refine ⟨fun o' f => ⟨by rintro ⟨⟩, fun hr => absurd ⟨trivial, hy⟩ hr.2.2.1⟩, fun o' => ?_⟩
  constructor
  · rintro (hm | rfl)
    · exact absurd ((h.met o').mp hm).2.2.1 hx
    · exact ⟨hp, hg, trivial, hy⟩
  · rintro ⟨hp', -⟩
    exact .inr (h.owner_eq hp')

theorem withdraw (h : Record p x y g e m) (hx : ¬ x) : Record p x y True none m := by
  refine ⟨fun o f => ⟨by rintro ⟨⟩, fun hr => absurd trivial hr.2.1⟩, fun o => ?_⟩
  rw [h.met]
  exact ⟨fun hr => absurd hr.2.2.1 hx, fun hr => absurd hr.2.2.1 hx⟩

end Board.Record

end Name

/-! ## The board -/

section Board

variable {κ ι : Type}

/-- **The records of a board**: what was posted and withdrawn, and where the first party and the
second have arrived. -/
structure Board.Records (posted : Set (κ × ι)) (first second gone : Set ι) (b : Board κ ι) : Prop where
  recorded : ∀ i, Record (fun o => (o, i) ∈ posted) (i ∈ first) (i ∈ second) (i ∈ gone)
    (b.entries i) (fun o => (o, i) ∈ b.met)
  once : (b.met.map Prod.snd).Nodup

namespace Board.Records

variable {posted : Set (κ × ι)} {first second gone : Set ι} {b : Board κ ι} {o : κ} {i : ι}

theorem init : Records (∅ : Set (κ × ι)) ∅ ∅ ∅ ⟨fun _ => none, []⟩ := by
  refine ⟨fun i => ⟨fun o f => ⟨?_, ?_⟩, fun o => ⟨?_, ?_⟩⟩, List.nodup_nil⟩
  · rintro ⟨⟩
  · rintro ⟨⟨⟩, -⟩
  · rintro ⟨⟩
  · rintro ⟨⟨⟩, -⟩

/-- The two parties have the same part. -/
theorem symm (h : Records posted first second gone b) : Records posted second first gone b :=
  ⟨fun i => (h.recorded i).symm, h.once⟩

/-- **An entry is there** from its posting to the meeting or its withdrawal. -/
theorem isSome_iff (h : Records posted first second gone b) : (b.entries i).isSome ↔
    (∃ o, (o, i) ∈ posted) ∧ i ∉ gone ∧ ¬ (i ∈ first ∧ i ∈ second) := (h.recorded i).isSome_iff

theorem mem_met_iff (h : Records posted first second gone b) : (o, i) ∈ b.met ↔
    (o, i) ∈ posted ∧ i ∉ gone ∧ i ∈ first ∧ i ∈ second := (h.recorded i).met o

variable [DecidableEq ι]

theorem post (h : Records posted first second gone b) (hp : ∀ o, (o, i) ∉ posted) (hf : i ∉ first)
    (hs : i ∉ second) (hg : i ∉ gone) :
    Records (insert (o, i) posted) first second gone (b.post o i) := by
  refine ⟨fun j => ?_, h.once⟩
  by_cases hj : j = i
  · subst hj
    simp only [Board.post, Function.update_self]
    refine ⟨fun o' f => ?_, fun o' => ?_⟩
    · cases f <;> simp [hp, hf, hs, hg, eq_comm]
    · rw [h.mem_met_iff]
      exact ⟨fun hr => absurd hr.1 (hp o'), fun hr => absurd hr.2.2.1 hf⟩
  · simp only [Board.post, Function.update_of_ne hj]
    refine (h.recorded j).congr (fun o' => ?_) Iff.rfl Iff.rfl Iff.rfl fun _ => Iff.rfl
    rw [Set.mem_insert_iff, or_iff_right fun he => hj (Prod.mk.inj he).2]

/-- **An arrival of the first party.** -/
theorem arrive_fst (h : Records posted first second gone b) (hi : i ∉ first) :
    Records posted (insert i first) second gone (b.arrive i) := by
  have hrec := h.recorded i
  have hself : i ∈ insert i first ↔ True := iff_true_intro (Set.mem_insert i first)
  have hother : ∀ j ≠ i, Record (fun o => (o, j) ∈ posted) (j ∈ insert i first) (j ∈ second)
      (j ∈ gone) (b.entries j) (fun o => (o, j) ∈ b.met) := by
    intro j hj
    refine (h.recorded j).congr (fun _ => Iff.rfl) ?_ Iff.rfl Iff.rfl fun _ => Iff.rfl
    rw [Set.mem_insert_iff, or_iff_right hj]
  unfold Board.arrive
  split
  · rename_i he
    refine ⟨fun j => ?_, h.once⟩
    by_cases hj : j = i
    · subst hj
      rw [he] at hrec ⊢
      exact (hrec.arrive_none hi).congr (fun _ => Iff.rfl) hself Iff.rfl Iff.rfl fun _ => Iff.rfl
    · exact hother j hj
  · rename_i o he
    refine ⟨fun j => ?_, h.once⟩
    by_cases hj : j = i
    · subst hj
      rw [he] at hrec
      simp only [Function.update_self]
      exact (hrec.arrive_unmarked hi).congr (fun _ => Iff.rfl) hself Iff.rfl Iff.rfl fun _ => Iff.rfl
    · simp only [Function.update_of_ne hj]
      exact hother j hj
  · rename_i o he
    refine ⟨fun j => ?_, ?_⟩
    · by_cases hj : j = i
      · subst hj
        rw [he] at hrec
        simp only [Function.update_self]
        refine (hrec.arrive_marked hi).congr (fun _ => Iff.rfl) hself Iff.rfl Iff.rfl fun o' => ?_
        rw [List.mem_append, List.mem_singleton, Prod.mk.injEq, and_iff_left rfl]
      · simp only [Function.update_of_ne hj]
        refine (hother j hj).congr (fun _ => Iff.rfl) Iff.rfl Iff.rfl Iff.rfl fun o' => ?_
        rw [List.mem_append, List.mem_singleton, or_iff_left fun he => hj (Prod.mk.inj he).2]
    · rw [List.map_append, List.map_singleton, ← List.concat_eq_append, List.nodup_concat]
      refine ⟨fun hm => ?_, h.once⟩
      obtain ⟨⟨o', j⟩, hmem, rfl⟩ := List.mem_map.mp hm
      exact hi (h.mem_met_iff.mp hmem).2.2.1

/-- An arrival of the second party. -/
theorem arrive_snd (h : Records posted first second gone b) (hi : i ∉ second) :
    Records posted first (insert i second) gone (b.arrive i) := (h.symm.arrive_fst hi).symm

theorem withdraw (h : Records posted first second gone b) (hi : i ∉ first) :
    Records posted first second (insert i gone) (b.withdraw i) := by
  refine ⟨fun j => ?_, h.once⟩
  by_cases hj : j = i
  · subst hj
    simp only [Board.withdraw, Function.update_self]
    refine ((h.recorded j).withdraw hi).congr (fun _ => Iff.rfl) Iff.rfl Iff.rfl ?_ fun _ => Iff.rfl
    exact iff_true_intro (Set.mem_insert j gone)
  · simp only [Board.withdraw, Function.update_of_ne hj]
    refine (h.recorded j).congr (fun _ => Iff.rfl) Iff.rfl Iff.rfl ?_ fun _ => Iff.rfl
    rw [Set.mem_insert_iff, or_iff_right hj]

end Board.Records

end Board
