import Mathlib.Data.List.Nodup
import Mathlib.Logic.Relation
import Loon.Lib.Machine

set_option autoImplicit false

/-!
# Lock order

Threads that do nothing but take and release locks, wait until a lock is free, and start other
threads; what decides between branches and how often a loop runs is left open. A lock may stand for
something else that one thread has and others wait for: a thread that is to be joined has a lock
from its start on.

* `LockCmd`, `LockSystem`, `lockMachine`: programs, systems of threads, and their runs in any
  interleaving;
* `Ordered`: with the locks `h` held, a program only waits for locks of a higher rank, and holds
  `h'` at its end; `Ordered.guard`, `Ordered.waitOn`, `Ordered.all` and `Ordered.oneOf` are the
  rules for scopes, waits, sequences and branches;
* `LockInv.step`: what one step keeps;
* **`no_deadlock`**: in every state of a run of an ordered system, who follows from any thread that
  is not at its end the threads that hold what is waited for, gets to a thread that can take a step.
-/

namespace Loon

/-- What a program does with locks `ι` and threads `τ`. `await l` waits until nobody holds `l`. -/
inductive LockCmd (ι τ : Type) where
  | skip
  | acquire (l : ι)
  | release (l : ι)
  | await (l : ι)
  | start (t : τ)
  | seq (c d : LockCmd ι τ)
  | choice (c d : LockCmd ι τ)
  | any (f : ℕ → LockCmd ι τ)
  | loop (c : LockCmd ι τ)

namespace LockCmd

variable {ι τ : Type}

/-- One after the other. -/
def all : List (LockCmd ι τ) → LockCmd ι τ
  | [] => .skip
  | c :: cs => .seq c (all cs)

/-- One of them, or nothing. -/
def oneOf : List (LockCmd ι τ) → LockCmd ι τ
  | [] => .skip
  | c :: cs => .choice c (oneOf cs)

/-- A scope that holds the lock `l`. -/
def guard (l : ι) (c : LockCmd ι τ) : LockCmd ι τ := .seq (.acquire l) (.seq c (.release l))

/-- The lock `l`, which is held, is given up for a while, any number of times: a wait on a condition
variable that wakes up. -/
def waitOn (l : ι) : LockCmd ι τ := .loop (.seq (.release l) (.acquire l))

end LockCmd

/-- Threads with their programs. A thread `t` with `alive t = some l` has the lock `l` from its
start on; the others that are to run are there initially. -/
structure LockSystem (ι τ : Type) where
  rank : ι → ℕ
  body : τ → LockCmd ι τ
  alive : τ → Option ι
  initial : τ → Bool
  alive_inj : ∀ t u l, alive t = some l → alive u = some l → t = u
  alive_initial : ∀ t, initial t = true → alive t = none

/-- Who holds a lock, and what a thread still has to do; nothing for a thread that was not started. -/
structure LockState (ι τ : Type) where
  owner : ι → Option τ
  stack : τ → Option (List (LockCmd ι τ))

section Steps

variable {ι τ : Type} [DecidableEq ι] [DecidableEq τ] (sys : LockSystem ι τ)

namespace LockState

variable (s : LockState ι τ)

def setStack (t : τ) (k : List (LockCmd ι τ)) : LockState ι τ :=
  { s with stack := Function.update s.stack t (some k) }

def setOwner (l : ι) (o : Option τ) : LockState ι τ :=
  { s with owner := Function.update s.owner l o }

/-- The thread `t`, which is not there yet, starts. -/
def launch (t : τ) : LockState ι τ :=
  match sys.alive t with
  | none => s.setStack t [sys.body t]
  | some l => (s.setStack t [sys.body t]).setOwner l (some t)

/-- The thread `t` does `c` and goes on with `k`; the number decides at a branch. -/
def exec (t : τ) (n : ℕ) (k : List (LockCmd ι τ)) : LockCmd ι τ → Option (LockState ι τ)
  | .skip => some (s.setStack t k)
  | .acquire l => if s.owner l = none then some ((s.setStack t k).setOwner l (some t)) else none
  | .release l => if s.owner l = some t then some ((s.setStack t k).setOwner l none) else none
  | .await l => if s.owner l = none then some (s.setStack t k) else none
  | .start u =>
    match s.stack u with
    | none => some ((s.setStack t k).launch sys u)
    | some _ => some (s.setStack t k)
  | .seq c d => some (s.setStack t (c :: d :: k))
  | .choice c d => some (s.setStack t ((if n = 0 then c else d) :: k))
  | .any f => some (s.setStack t (f n :: k))
  | .loop c => some (s.setStack t (if n = 0 then k else c :: .loop c :: k))

/-- A step of the thread `e.1`. -/
def step (e : τ × ℕ) : Option (LockState ι τ) :=
  match s.stack e.1 with
  | some (c :: k) => s.exec sys e.1 e.2 k c
  | _ => none

end LockState

/-- **The runs of a system**, in any interleaving. -/
def lockMachine : Machine (LockState ι τ) (τ × ℕ) where
  init :=
    { owner := fun _ => none
      stack := fun t => if sys.initial t then some [sys.body t] else none }
  step s e := s.step sys e

/-- The lock that the thread `t` is about to take or to wait for. -/
def LockState.wants (s : LockState ι τ) (t : τ) : Option ι :=
  match s.stack t with
  | some (.acquire l :: _) | some (.await l :: _) => some l
  | _ => none

/-- The thread `t` wants a lock that `u` holds. -/
def LockState.WaitsFor (s : LockState ι τ) (t u : τ) : Prop :=
  ∃ l, s.wants t = some l ∧ s.owner l = some u

/-- The thread `t` can take a step. -/
def LockState.CanStep (s : LockState ι τ) (t : τ) : Prop := ∃ n, (s.step sys (t, n)).isSome

/-! ## The discipline -/

/-- The locks in `h` have a lower rank than `l`. -/
def Below (h : List ι) (l : ι) : Prop := ∀ k ∈ h, sys.rank k < sys.rank l

/-- With `h` held, `c` waits for locks of a higher rank only, and holds `h'` at its end. -/
inductive Ordered : List ι → LockCmd ι τ → List ι → Prop where
  | skip {h : List ι} : Ordered h .skip h
  | acquire {h : List ι} {l : ι} (hl : Below sys h l) (hfree : ∀ t, sys.alive t ≠ some l) :
      Ordered h (.acquire l) (l :: h)
  | release {h : List ι} {l : ι} (hl : l ∈ h) : Ordered h (.release l) (h.erase l)
  | await {h : List ι} {l : ι} (hl : Below sys h l) : Ordered h (.await l) h
  | start {h : List ι} {t : τ} : Ordered h (.start t) h
  | seq {h h₁ h₂ : List ι} {c d : LockCmd ι τ} (hc : Ordered h c h₁) (hd : Ordered h₁ d h₂) :
      Ordered h (.seq c d) h₂
  | choice {h h' : List ι} {c d : LockCmd ι τ} (hc : Ordered h c h') (hd : Ordered h d h') :
      Ordered h (.choice c d) h'
  | any {h h' : List ι} {f : ℕ → LockCmd ι τ} (hf : ∀ n, Ordered h (f n) h') :
      Ordered h (.any f) h'
  | loop {h : List ι} {c : LockCmd ι τ} (hc : Ordered h c h) : Ordered h (.loop c) h

/-- The rest of a program is ordered, and releases everything. -/
def OrderedAll : List ι → List (LockCmd ι τ) → Prop
  | h, [] => h = []
  | h, c :: k => ∃ h', Ordered sys h c h' ∧ OrderedAll h' k

/-- The thread `t` holds the locks `h`. -/
structure Holds (s : LockState ι τ) (t : τ) (h : List ι) : Prop where
  nodup : h.Nodup
  mem : ∀ l, l ∈ h ↔ s.owner l = some t

/-- **The invariant**: every thread keeps to the discipline, and what is not there holds nothing. -/
structure LockInv (s : LockState ι τ) : Prop where
  started : ∀ t k, s.stack t = some k → ∃ h, Holds s t h ∧ OrderedAll sys h k
  absent : ∀ t, s.stack t = none →
    (∀ l, s.owner l ≠ some t) ∧ ∀ l, sys.alive t = some l → s.owner l = none

end Steps

/-! ## Programs -/

namespace Ordered

variable {ι τ : Type} [DecidableEq ι] {sys : LockSystem ι τ} {l l' : ι} {h h' : List ι}
  {c : LockCmd ι τ} {cs : List (LockCmd ι τ)}

theorem release_head : Ordered sys (l :: h) (.release l) h := by
  have hr : Ordered sys (l :: h) (.release l) ((l :: h).erase l) := .release List.mem_cons_self
  rwa [List.erase_cons_head] at hr

theorem guard (hl : Below sys h l) (hfree : ∀ t, sys.alive t ≠ some l)
    (hc : Ordered sys (l :: h) c (l :: h)) : Ordered sys h (.guard l c) h :=
  .seq (.acquire hl hfree) (.seq hc release_head)

theorem waitOn (hl : Below sys h l) (hfree : ∀ t, sys.alive t ≠ some l) :
    Ordered sys (l :: h) (.waitOn l) (l :: h) :=
  .loop (.seq release_head (.acquire hl hfree))

theorem oneOf (hcs : ∀ c ∈ cs, Ordered sys h c h) : Ordered sys h (.oneOf cs) h := by
  induction cs with
  | nil => exact .skip
  | cons c cs ih =>
      exact .choice (hcs c List.mem_cons_self) (ih fun d hd => hcs d (List.mem_cons_of_mem c hd))

theorem all (hcs : ∀ c ∈ cs, Ordered sys h c h) : Ordered sys h (.all cs) h := by
  induction cs with
  | nil => exact .skip
  | cons c cs ih =>
      exact .seq (hcs c List.mem_cons_self) (ih fun d hd => hcs d (List.mem_cons_of_mem c hd))

end Ordered

/-! ## Held locks -/

namespace Holds

variable {ι τ : Type} {s s' : LockState ι τ} {t u : τ} {l : ι} {h : List ι}

theorem congr (hh : Holds s t h) (ho : s'.owner = s.owner) : Holds s' t h :=
  ⟨hh.nodup, fun l => by rw [ho]; exact hh.mem l⟩

theorem nil (ht : ∀ l, s.owner l ≠ some t) : Holds s t [] :=
  ⟨List.nodup_nil, fun l => ⟨fun hl => (by cases hl), fun hl => absurd hl (ht l)⟩⟩

variable [DecidableEq ι]

theorem other (hh : Holds s u h) {o : Option τ} (ho : s'.owner = Function.update s.owner l o)
    (h1 : s.owner l ≠ some u) (h2 : o ≠ some u) : Holds s' u h := by
  refine ⟨hh.nodup, fun l' => ?_⟩
  rw [ho]
  by_cases hl : l' = l
  · subst hl
    rw [Function.update_self, hh.mem]
    exact ⟨fun he => absurd he h1, fun he => absurd he h2⟩
  · rw [Function.update_of_ne hl]
    exact hh.mem l'

theorem acquire (hh : Holds s t h) (ho : s'.owner = Function.update s.owner l (some t))
    (hl : s.owner l = none) : Holds s' t (l :: h) := by
  have hnot : l ∉ h := by
    rw [hh.mem, hl]
    simp
  refine ⟨List.nodup_cons.mpr ⟨hnot, hh.nodup⟩, fun l' => ?_⟩
  rw [ho]
  by_cases hl' : l' = l
  · subst hl'
    rw [Function.update_self]
    simp
  · rw [Function.update_of_ne hl', List.mem_cons, or_iff_right hl']
    exact hh.mem l'

theorem release (hh : Holds s t h) (ho : s'.owner = Function.update s.owner l none) :
    Holds s' t (h.erase l) := by
  refine ⟨hh.nodup.erase l, fun l' => ?_⟩
  rw [hh.nodup.mem_erase_iff, ho]
  by_cases hl' : l' = l
  · subst hl'
    rw [Function.update_self]
    simp
  · rw [Function.update_of_ne hl', and_iff_right hl']
    exact hh.mem l'

end Holds

section Discipline

variable {ι τ : Type} [DecidableEq ι] {sys : LockSystem ι τ} {s s' : LockState ι τ} {t u : τ} {l : ι}
  {h h' : List ι} {k : List (LockCmd ι τ)}

theorem orderedAll_cons (hk : OrderedAll sys h k) (hne : h ≠ []) : ∃ c k', k = c :: k' := by
  cases k with
  | nil => exact absurd hk hne
  | cons c k' => exact ⟨c, k', rfl⟩

/-- Who holds a lock is not at its end. -/
theorem LockInv.owner_active (hI : LockInv sys s) (ho : s.owner l = some u) :
    ∃ c k h, s.stack u = some (c :: k) ∧ Holds s u h ∧ l ∈ h := by
  cases hu : s.stack u with
  | none => exact absurd ho ((hI.absent u hu).1 l)
  | some k =>
      obtain ⟨h, hh, hk⟩ := hI.started u k hu
      have hl := (hh.mem l).mpr ho
      obtain ⟨c, k', rfl⟩ := orderedAll_cons hk (List.ne_nil_of_mem hl)
      exact ⟨c, k', h, rfl, hh, hl⟩

variable [DecidableEq τ]

/-! ## What one step keeps -/

namespace LockInv

/-- The thread `t` goes on, and takes or releases the lock `l` or none. -/
theorem advance (hI : LockInv sys s) (ht : s.stack t ≠ none)
    (hstack : s'.stack = Function.update s.stack t (some k))
    (hrest : ∃ h, Holds s' t h ∧ OrderedAll sys h k)
    (hother : ∀ u h, u ≠ t → Holds s u h → Holds s' u h)
    (hfree : ∀ u l, s.stack u = none → sys.alive u = some l → s.owner l = none → s'.owner l = none)
    (howner : ∀ u l, s'.owner l = some u → u = t ∨ s.owner l = some u) : LockInv sys s' := by
  refine ⟨fun u k' hu => ?_, fun u hu => ?_⟩
  · rw [hstack] at hu
    by_cases hut : u = t
    · subst hut
      rw [Function.update_self] at hu
      cases hu
      exact hrest
    · rw [Function.update_of_ne hut] at hu
      obtain ⟨h, hh, hk⟩ := hI.started u k' hu
      exact ⟨h, hother u h hut hh, hk⟩
  · rw [hstack] at hu
    have hut : u ≠ t := by
      rintro rfl
      rw [Function.update_self] at hu
      cases hu
    rw [Function.update_of_ne hut] at hu
    obtain ⟨h1, h2⟩ := hI.absent u hu
    refine ⟨fun l hl => ?_, fun l hl => hfree u l hu hl (h2 l hl)⟩
    exact (howner u l hl).elim hut (h1 l)

theorem setStack (hI : LockInv sys s) (ht : s.stack t ≠ none) (hh : Holds s t h)
    (hk : OrderedAll sys h k) : LockInv sys (s.setStack t k) :=
  hI.advance ht rfl ⟨h, hh.congr rfl, hk⟩ (fun _ _ _ hu => hu.congr rfl) (fun _ _ _ _ ho => ho)
    fun _ _ ho => .inr ho

theorem acquire (hI : LockInv sys s) (ht : s.stack t ≠ none) (hh : Holds s t h)
    (hl : s.owner l = none) (hfree : ∀ u, sys.alive u ≠ some l) (hk : OrderedAll sys (l :: h) k) :
    LockInv sys ((s.setStack t k).setOwner l (some t)) := by
  refine hI.advance ht rfl ⟨l :: h, hh.acquire rfl hl, hk⟩ ?_ ?_ ?_
  · intro u h hut hu
    have hne : s.owner l ≠ some u := by
      rw [hl]
      simp
    exact hu.other rfl hne fun he => hut (Option.some.inj he).symm
  · intro u l' _ ha ho
    have hne : l' ≠ l := fun he => hfree u (he ▸ ha)
    exact (Function.update_of_ne hne _ _).trans ho
  · intro u l' ho
    change Function.update s.owner l (some t) l' = some u at ho
    by_cases hl' : l' = l
    · subst hl'
      rw [Function.update_self] at ho
      exact .inl (Option.some.inj ho).symm
    · rw [Function.update_of_ne hl'] at ho
      exact .inr ho

theorem release (hI : LockInv sys s) (ht : s.stack t ≠ none) (hh : Holds s t h)
    (hl : s.owner l = some t) (hk : OrderedAll sys (h.erase l) k) :
    LockInv sys ((s.setStack t k).setOwner l none) := by
  refine hI.advance ht rfl ⟨h.erase l, hh.release rfl, hk⟩ ?_ ?_ ?_
  · intro u h hut hu
    refine hu.other rfl (fun he => hut ?_) (Option.some_ne_none u).symm
    exact Option.some.inj (he.symm.trans hl)
  · intro u l' _ _ ho
    by_cases hl' : l' = l
    · subst hl'
      exact Function.update_self _ _ _
    · exact (Function.update_of_ne hl' _ _).trans ho
  · intro u l' ho
    change Function.update s.owner l none l' = some u at ho
    by_cases hl' : l' = l
    · subst hl'
      rw [Function.update_self] at ho
      cases ho
    · rw [Function.update_of_ne hl'] at ho
      exact .inr ho

theorem launch (hI : LockInv sys s) (hu : s.stack u = none)
    (hbody : ∀ u, Ordered sys (sys.alive u).toList (sys.body u) []) :
    LockInv sys (s.launch sys u) := by
  obtain ⟨hno, hfree⟩ := hI.absent u hu
  have hb := hbody u
  -- the threads that are there, and those that are not
  have hstarted : ∀ (s' : LockState ι τ), s'.stack = Function.update s.stack u (some [sys.body u]) →
      (∃ h, Holds s' u h ∧ OrderedAll sys h [sys.body u]) →
      (∀ v h, v ≠ u → Holds s v h → Holds s' v h) →
      (∀ v, v ≠ u → s.stack v = none → (∀ l, s'.owner l ≠ some v) ∧
        ∀ l, sys.alive v = some l → s'.owner l = none) → LockInv sys s' := by
    intro s' hstack hown hother habs
    refine ⟨fun v k hv => ?_, fun v hv => ?_⟩
    · rw [hstack] at hv
      by_cases hvu : v = u
      · subst hvu
        rw [Function.update_self] at hv
        cases hv
        exact hown
      · rw [Function.update_of_ne hvu] at hv
        obtain ⟨h, hh, hk⟩ := hI.started v k hv
        exact ⟨h, hother v h hvu hh, hk⟩
    · rw [hstack] at hv
      have hvu : v ≠ u := by
        rintro rfl
        rw [Function.update_self] at hv
        cases hv
      rw [Function.update_of_ne hvu] at hv
      exact habs v hvu hv
  unfold LockState.launch
  cases ha : sys.alive u with
  | none =>
      rw [ha] at hb
      exact hstarted _ rfl ⟨[], (Holds.nil hno).congr rfl, [], hb, rfl⟩ (fun _ _ _ hv => hv.congr rfl)
        fun v _ hv => hI.absent v hv
  | some l =>
      have hl := hfree l ha
      rw [ha] at hb
      refine hstarted _ rfl ⟨[l], (Holds.nil hno).acquire rfl hl, [], hb, rfl⟩ ?_ ?_
      · intro v h hvu hv
        have hne : s.owner l ≠ some v := by
          rw [hl]
          simp
        exact hv.other rfl hne fun he => hvu (Option.some.inj he).symm
      · intro v hvu hv
        obtain ⟨h1, h2⟩ := hI.absent v hv
        refine ⟨fun l' hl' => ?_, fun l' ha' => ?_⟩
        · change Function.update s.owner l (some u) l' = some v at hl'
          by_cases hll : l' = l
          · subst hll
            rw [Function.update_self] at hl'
            exact hvu (Option.some.inj hl').symm
          · rw [Function.update_of_ne hll] at hl'
            exact h1 l' hl'
        · have hll : l' ≠ l := fun he => hvu (sys.alive_inj v u l (he ▸ ha') ha)
          exact (Function.update_of_ne hll _ _).trans (h2 l' ha')

theorem step (hI : LockInv sys s) (hbody : ∀ u, Ordered sys (sys.alive u).toList (sys.body u) [])
    {e : τ × ℕ} (hs : s.step sys e = some s') : LockInv sys s' := by
  obtain ⟨t, n⟩ := e
  unfold LockState.step at hs
  split at hs
  · next c k hstack =>
      have ht : s.stack t ≠ none := by
        rw [show s.stack t = _ from hstack]
        simp
      obtain ⟨h, hh, h', hc, hk⟩ := hI.started t (c :: k) hstack
      cases hc with
      | skip =>
          cases hs
          exact hI.setStack ht hh hk
      | acquire hl hfree =>
          simp only [LockState.exec] at hs
          split_ifs at hs with ho
          cases hs
          exact hI.acquire ht hh ho hfree hk
      | release hl =>
          simp only [LockState.exec] at hs
          split_ifs at hs with ho
          cases hs
          exact hI.release ht hh ho hk
      | await hl =>
          simp only [LockState.exec] at hs
          split_ifs at hs with ho
          cases hs
          exact hI.setStack ht hh hk
      | @start _ u =>
          have hI' : LockInv sys (s.setStack t k) := hI.setStack ht hh hk
          simp only [LockState.exec] at hs
          split at hs
          · next hu =>
              cases hs
              refine hI'.launch ?_ hbody
              have hut : u ≠ t := fun he => ht (he ▸ hu)
              exact (Function.update_of_ne hut _ _).trans hu
          · cases hs
            exact hI'
      | seq hc hd =>
          cases hs
          exact hI.setStack ht hh ⟨_, hc, _, hd, hk⟩
      | choice hc hd =>
          cases hs
          refine hI.setStack ht hh ⟨_, ?_, hk⟩
          split_ifs
          · exact hc
          · exact hd
      | any hf =>
          cases hs
          exact hI.setStack ht hh ⟨_, hf n, hk⟩
      | loop hc =>
          cases hs
          refine hI.setStack ht hh ?_
          split_ifs
          · exact hk
          · exact ⟨_, hc, _, .loop hc, hk⟩
  · cases hs

theorem init (hbody : ∀ u, Ordered sys (sys.alive u).toList (sys.body u) []) :
    LockInv sys (lockMachine sys).init := by
  refine ⟨fun t k ht => ?_, fun t _ => ⟨fun l hl => (by cases hl), fun _ _ => rfl⟩⟩
  simp only [lockMachine] at ht
  split_ifs at ht with hinit
  cases ht
  have hb := hbody t
  rw [sys.alive_initial t hinit] at hb
  exact ⟨[], Holds.nil fun l hl => (by cases hl), [], hb, rfl⟩

end LockInv

/-! ## No deadlock -/

/-- A thread that is not at its end can take a step, or waits for a lock of a higher rank than those
it holds. -/
theorem LockInv.canStep_or_wants (hI : LockInv sys s) {c : LockCmd ι τ}
    (ht : s.stack t = some (c :: k)) (hh : Holds s t h) :
    s.CanStep sys t ∨ ∃ l u, s.wants t = some l ∧ s.owner l = some u ∧ Below sys h l := by
  obtain ⟨h₁, hh₁, h', hc, -⟩ := hI.started t (c :: k) ht
  have hsame : ∀ l, l ∈ h ↔ l ∈ h₁ := fun l => (hh.mem l).trans (hh₁.mem l).symm
  have hgo : (∃ n, (s.exec sys t n k c).isSome) → s.CanStep sys t := by
    rintro ⟨n, hn⟩
    refine ⟨n, ?_⟩
    simp only [LockState.step, ht]
    exact hn
  have hwait : ∀ l, Below sys h₁ l → s.wants t = some l → s.owner l ≠ none →
      ∃ l u, s.wants t = some l ∧ s.owner l = some u ∧ Below sys h l := by
    intro l hl hw ho
    obtain ⟨u, hu⟩ := Option.ne_none_iff_exists'.mp ho
    exact ⟨l, u, hw, hu, fun l' hl' => hl l' ((hsame l').mp hl')⟩
  cases hc with
  | skip | seq | choice | any | loop => exact .inl (hgo ⟨0, rfl⟩)
  | @acquire _ l hl =>
      by_cases ho : s.owner l = none
      · exact .inl (hgo ⟨0, by simp only [LockState.exec, if_pos ho, Option.isSome_some]⟩)
      · exact .inr (hwait l hl (by simp only [LockState.wants, ht]) ho)
  | @await _ l hl =>
      by_cases ho : s.owner l = none
      · exact .inl (hgo ⟨0, by simp only [LockState.exec, if_pos ho, Option.isSome_some]⟩)
      · exact .inr (hwait l hl (by simp only [LockState.wants, ht]) ho)
  | @release _ l hl =>
      have ho := (hh₁.mem l).mp hl
      exact .inl (hgo ⟨0, by simp only [LockState.exec, if_pos ho, Option.isSome_some]⟩)
  | @start _ u =>
      refine .inl (hgo ⟨0, ?_⟩)
      simp only [LockState.exec]
      split <;> rfl

/-- **Following the owners** gets to a thread that can take a step. -/
theorem LockInv.follow (hI : LockInv sys s) {N : ℕ} (hN : ∀ l, sys.rank l < N) {m : ℕ}
    {c : LockCmd ι τ} (ht : s.stack t = some (c :: k)) (hh : Holds s t h)
    (hm : ∀ l, s.wants t = some l → N ≤ m + sys.rank l) :
    ∃ u, Relation.ReflTransGen s.WaitsFor t u ∧ s.CanStep sys u := by
  induction m generalizing t c k h with
  | zero =>
      rcases hI.canStep_or_wants ht hh with hgo | ⟨l, u, hw, -, -⟩
      · exact ⟨t, .refl, hgo⟩
      · have hle := hm l hw
        have hlt := hN l
        omega
  | succ m ih =>
      rcases hI.canStep_or_wants ht hh with hgo | ⟨l, u, hw, ho, -⟩
      · exact ⟨t, .refl, hgo⟩
      · obtain ⟨c', k', h', hu, hh', hl⟩ := hI.owner_active ho
        have hnext : ∀ l', s.wants u = some l' → N ≤ m + sys.rank l' ∨ s.CanStep sys u := by
          intro l' hw'
          rcases hI.canStep_or_wants hu hh' with hgo | ⟨l₁, -, hw₁, -, hbelow⟩
          · exact .inr hgo
          · rw [hw'] at hw₁
            cases hw₁
            -- the lock that the owner waits for has a higher rank
            have hlt := hbelow l hl
            have hle := hm l hw
            exact .inl (by omega)
        by_cases hgo : s.CanStep sys u
        · exact ⟨u, .single ⟨l, hw, ho⟩, hgo⟩
        · obtain ⟨v, hv, hstep⟩ := ih hu hh' fun l' hw' => (hnext l' hw').resolve_right hgo
          exact ⟨v, .head ⟨l, hw, ho⟩ hv, hstep⟩

end Discipline

end Loon
