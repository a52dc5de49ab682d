import Loon.GoClient.Pumps

set_option autoImplicit false

/-!
# Registered content of the Go client

The write pump keeps two tables: the handles that are registered, and the handle for each path. The
second one is written by whoever registers last under a path, and an entry is deleted by whoever
unregisters first.

* `Registered`, `Serves`: a registered handle has the path; a request for it is given to a handle;
* `Tables`: the invariant; entries name registered handles of their path;
* `Consistent`: the tables are in step, and requests are answered accordingly;
* `LastOfPath`: a handle is unregistered while no other one is registered under its path;
* **`registry_consistent_iff`**: the tables are in step throughout a run if and only if handles are
  unregistered only so.
-/

namespace Loon.GoClient

namespace Client

variable (s : Client)

/-- `content.info.Path` of a handle. -/
def pathOf (i : ℕ) : Option String := s.handles[i]?.map Handle.path

/-- A handle that is registered has the path. -/
def Registered (path : String) : Prop := ∃ i, s.content i = true ∧ s.pathOf i = some path

/-- The read pump gives a request for the path to a handle, which answers it with content. -/
def Serves (path : String) : Prop :=
  ∀ id, ∃ i, (s.handleRequest ⟨id, path⟩).readPump = .serving i ⟨id, path⟩

/-- **The tables are in step.** -/
structure Consistent : Prop where
  points : ∀ path i, s.forPath path = some i → s.content i = true
  entries : ∀ path, (s.forPath path).isSome = true ↔ s.Registered path
  served : ∀ path, s.Serves path ↔ s.Registered path

/-- **The invariant of the tables.** -/
structure Tables : Prop where
  made : ∀ i, s.content i = true → i < s.handles.length
  points : ∀ path i, s.forPath path = some i → s.content i = true ∧ s.pathOf i = some path

/-- A registered handle is unregistered only as the last one of its path. -/
def LastOfPath (s : Client) : ClientEvent → Prop
  | .unregister i => s.content i = true → ∀ j, s.content j = true → s.pathOf j = s.pathOf i → j = i
  | _ => True

variable {s} {s' : Client} {e : ClientEvent}

/-! ## Requests -/

theorem serves_iff (path : String) : s.Serves path ↔ (s.forPath path).isSome = true := by
  unfold Serves handleRequest
  cases h : s.forPath path with
  | none =>
      refine ⟨fun hs => ?_, fun hs => by cases hs⟩
      obtain ⟨i, hi⟩ := hs 0
      rw [h] at hi
      cases hi
  | some i => exact ⟨fun _ => rfl, fun _ id => ⟨i, by rw [h]⟩⟩

theorem consistent_iff (h : s.Tables) :
    s.Consistent ↔ ∀ path, s.Registered path → (s.forPath path).isSome = true := by
  constructor
  · intro hc path hp
    exact (hc.entries path).mpr hp
  · intro hc
    have hentries : ∀ path, (s.forPath path).isSome = true ↔ s.Registered path := by
      intro path
      refine ⟨fun hp => ?_, hc path⟩
      obtain ⟨i, hi⟩ := Option.isSome_iff_exists.mp hp
      exact ⟨i, h.points path i hi⟩
    exact ⟨fun path i hi => (h.points path i hi).1, hentries,
      fun path => (serves_iff path).trans (hentries path)⟩

/-! ## Steps -/

theorem pathOf_set {i : ℕ} {h₀ h₁ : Handle} (hi : s.handles[i]? = some h₀) (hp : h₁.path = h₀.path) :
    pathOf { s with handles := s.handles.set i h₁ } = s.pathOf := by
  funext j
  simp only [pathOf, List.getElem?_set]
  by_cases hij : i = j
  · subst hij
    rw [if_pos rfl, if_pos (List.getElem?_eq_some_iff.mp hi).1, hi]
    exact congrArg some hp
  · rw [if_neg hij]

/-- The event changes the tables. -/
def entersTables : ClientEvent → Bool
  | .register _ _ => true
  | .unregister _ => true
  | _ => false

/-- The tables and the paths of the handles are as before. -/
structure SameTables (s s' : Client) : Prop where
  content : s'.content = s.content
  forPath : s'.forPath = s.forPath
  length : s'.handles.length = s.handles.length
  pathOf : s'.pathOf = s.pathOf

theorem SameTables.of_handles (hc : s'.content = s.content) (hf : s'.forPath = s.forPath)
    (hh : s'.handles = s.handles) : s.SameTables s' :=
  ⟨hc, hf, congrArg List.length hh, by unfold Client.pathOf; rw [hh]⟩

/-- One handle changes, but for its path. -/
theorem SameTables.of_set {i : ℕ} {h₀ h₁ : Handle} (hi : s.handles[i]? = some h₀)
    (hh : s'.handles = s.handles.set i h₁) (hp : h₁.path = h₀.path) (hc : s'.content = s.content)
    (hf : s'.forPath = s.forPath) : s.SameTables s' := by
  refine ⟨hc, hf, by rw [hh, List.length_set], ?_⟩
  rw [← pathOf_set hi hp]
  unfold Client.pathOf
  rw [hh]

theorem sameTables_receive (m : ServerMessage) : s.SameTables (s.receive m) := by
  cases m with
  | request id path => exact .of_handles rfl rfl rfl
  | success id => exact .of_handles rfl rfl rfl
  | requestClosed id message =>
      unfold receive
      simp only
      split <;> exact .of_handles rfl rfl rfl

theorem sameTables_readStep (hs : s.readStep = some s') : s.SameTables s' := by
  unfold readStep at hs
  split at hs
  · split at hs <;> cases hs
    exact .of_handles rfl rfl rfl
  · obtain ⟨h, hi, hs⟩ := Option.bind_eq_some_iff.mp hs
    split at hs <;> cases hs
    exact .of_set hi rfl rfl rfl rfl
  · cases hs

theorem sameTables_readDone (hs : s.readDone = some s') : s.SameTables s' := by
  unfold readDone at hs
  split at hs
  · cases hs
  · cases hs
  · split at hs <;> cases hs
    exact .of_handles rfl rfl rfl

/-- **Only the write pump changes the tables.** -/
theorem sameTables_of_step (he : entersTables e = false) (hs : s.next e = some s') :
    s.SameTables s' := by
  unfold next at hs
  split at hs
  · cases hs
  cases e with
  | register path content => cases he
  | unregister i => cases he
  | receive m =>
      simp only [step] at hs
      split at hs <;> cases hs
      exact sameTables_receive m
  | leave =>
      simp only [step] at hs
      split at hs <;> cases hs
      exact .of_handles rfl rfl rfl
  | readStep => exact sameTables_readStep hs
  | readDone => exact sameTables_readDone hs
  | token k =>
      simp only [step, takeToken] at hs
      split at hs
      · obtain ⟨call, -, hs⟩ := Option.bind_eq_some_iff.mp hs
        split at hs
        · obtain ⟨r, -, rfl⟩ := Option.map_eq_some_iff.mp hs
          exact .of_handles rfl rfl rfl
        · cases hs
      · cases hs
  | take i =>
      obtain ⟨h, hi, hs⟩ := Option.bind_eq_some_iff.mp hs
      split at hs
      · cases hs
      split at hs <;> cases hs
      exact .of_set hi rfl rfl rfl rfl
  | finish i =>
      obtain ⟨h, hi, hs⟩ := Option.bind_eq_some_iff.mp hs
      obtain ⟨k, -, hs⟩ := Option.bind_eq_some_iff.mp hs
      obtain ⟨call, -, hs⟩ := Option.bind_eq_some_iff.mp hs
      split at hs <;> cases hs
      exact .of_set hi rfl rfl rfl rfl
  | quit i =>
      obtain ⟨h, hi, hs⟩ := Option.bind_eq_some_iff.mp hs
      split at hs <;> cases hs
      exact .of_set hi rfl rfl rfl rfl
  | respond k e =>
      simp only [step, respondStep] at hs
      split at hs
      · cases hs
      obtain ⟨call, -, hs⟩ := Option.bind_eq_some_iff.mp hs
      obtain ⟨r, -, rfl⟩ := Option.map_eq_some_iff.mp hs
      exact .of_handles rfl rfl rfl
  | done =>
      cases hs
      exact .of_handles rfl rfl rfl

/-! ## The write pump -/

theorem pathOf_register (path : String) (content : Content) :
    (s.register path content).pathOf =
      Function.update s.pathOf s.handles.length (some path) := by
  funext j
  by_cases hj : j = s.handles.length
  · subst hj
    rw [Function.update_self]
    simp [pathOf, register]
  · rw [Function.update_of_ne hj]
    simp only [pathOf, register, List.getElem?_append]
    split
    · rfl
    · rename_i hlt
      have hlt' : s.handles.length ≤ j := by omega
      rw [List.getElem?_eq_none hlt',
        List.getElem?_eq_none (by simp only [List.length_singleton]; omega)]

/-- A handle that is not there yet has no path. -/
theorem Tables.ne_length (h : s.Tables) {i : ℕ} (hi : s.content i = true) : i ≠ s.handles.length :=
  (h.made i hi).ne

theorem Tables.register (h : s.Tables) (path : String) (content : Content) :
    (s.register path content).Tables := by
  refine ⟨fun i hi => ?_, fun path' i hi => ?_⟩
  · have hlen : (s.register path content).handles.length = s.handles.length + 1 := by
      simp [Client.register]
    rw [hlen]
    by_cases hnew : i = s.handles.length
    · omega
    · rw [show (s.register path content).content i = s.content i from
        Function.update_of_ne hnew _ _] at hi
      have hmade := h.made i hi
      omega
  · rw [pathOf_register]
    simp only [Client.register] at hi ⊢
    by_cases hp : path' = path
    · subst hp
      rw [Function.update_self] at hi
      cases hi
      exact ⟨Function.update_self _ _ _, Function.update_self _ _ _⟩
    · rw [Function.update_of_ne hp] at hi
      obtain ⟨hc, hpath⟩ := h.points path' i hi
      rw [Function.update_of_ne (h.ne_length hc), Function.update_of_ne (h.ne_length hc)]
      exact ⟨hc, hpath⟩

/-- Registering keeps the tables in step. -/
theorem entries_register (hc : ∀ path, s.Registered path → (s.forPath path).isSome = true)
    (path : String) (content : Content) (path' : String)
    (hp : (s.register path content).Registered path') :
    ((s.register path content).forPath path').isSome = true := by
  obtain ⟨i, hi, hpath⟩ := hp
  rw [pathOf_register] at hpath
  simp only [register] at hi ⊢
  by_cases hp : path' = path
  · rw [hp, Function.update_self]
    rfl
  · rw [Function.update_of_ne hp]
    by_cases hnew : i = s.handles.length
    · rw [hnew, Function.update_self] at hpath
      exact absurd (Option.some.inj hpath).symm hp
    · rw [Function.update_of_ne hnew] at hi hpath
      exact hc path' ⟨i, hi, hpath⟩

/-- `Unregister` of a handle that is not registered does nothing. -/
theorem unregister_cases {i : ℕ} (hs : s.unregister i = some s') :
    s.content i = false ∧ s' = s ∨
      ∃ path, s.content i = true ∧ s.pathOf i = some path ∧ s' = { s with
        content := Function.update s.content i false
        forPath := Function.update s.forPath path none } := by
  obtain ⟨h, hi, rfl⟩ := Option.map_eq_some_iff.mp hs
  cases hc : s.content i with
  | true => exact .inr ⟨h.path, rfl, by rw [pathOf, hi]; rfl, if_pos rfl⟩
  | false => exact .inl ⟨rfl, if_neg Bool.false_ne_true⟩

theorem Tables.unregister (h : s.Tables) {i : ℕ} (hs : s.unregister i = some s') : s'.Tables := by
  rcases unregister_cases hs with ⟨-, rfl⟩ | ⟨path, -, hpath, rfl⟩
  · exact h
  · refine ⟨fun j hj => ?_, fun path' j hj => ?_⟩
    · by_cases hji : j = i
      · simp only [hji, Function.update_self] at hj
        cases hj
      · simp only [Function.update_of_ne hji] at hj
        exact h.made j hj
    · by_cases hp : path' = path
      · simp only [hp, Function.update_self] at hj
        cases hj
      · simp only [Function.update_of_ne hp] at hj
        obtain ⟨hc, hpj⟩ := h.points path' j hj
        have hji : j ≠ i := by
          rintro rfl
          rw [hpath] at hpj
          exact hp (Option.some.inj hpj).symm
        exact ⟨(Function.update_of_ne hji _ _).trans hc, hpj⟩

/-- **Unregistering keeps the tables in step** exactly if no other handle is left for the path. -/
theorem entries_unregister_iff (hc : ∀ path, s.Registered path → (s.forPath path).isSome = true)
    {i : ℕ} (hs : s.unregister i = some s') :
    (∀ path, s'.Registered path → (s'.forPath path).isSome = true) ↔ s.LastOfPath (.unregister i) := by
  rcases unregister_cases hs with ⟨hno, rfl⟩ | ⟨path, hyes, hpath, rfl⟩
  · refine ⟨fun _ hi => ?_, fun _ => hc⟩
    rw [hno] at hi
    cases hi
  · constructor
    · intro hc' _ j hj hpj
      by_contra hji
      have hreg := hc' path ⟨j, (Function.update_of_ne hji _ _).trans hj, hpj.trans hpath⟩
      simp only [Function.update_self] at hreg
      cases hreg
    · rintro hlast path' ⟨j, hj, hpj⟩
      have hji : j ≠ i := by
        rintro rfl
        simp only [Function.update_self] at hj
        cases hj
      simp only [Function.update_of_ne hji] at hj
      have hp : path' ≠ path := by
        rintro rfl
        exact hji (hlast hyes j hj (Eq.trans hpj hpath.symm))
      simp only [Function.update_of_ne hp]
      exact hc path' ⟨j, hj, hpj⟩

/-! ## Runs -/

theorem Tables.of_same (h : s.Tables) (hs : s.SameTables s') : s'.Tables := by
  refine ⟨?_, ?_⟩
  · rw [hs.content, hs.length]
    exact h.made
  · rw [hs.content, hs.forPath, hs.pathOf]
    exact h.points

theorem SameTables.registered (hs : s.SameTables s') (path : String) :
    s'.Registered path ↔ s.Registered path := by
  unfold Registered
  rw [hs.content, hs.pathOf]

/-- **Every step keeps the invariant of the tables.** -/
theorem Tables.step (h : s.Tables) (hs : s.next e = some s') : s'.Tables := by
  have hstep := hs
  unfold next at hstep
  split at hstep
  · cases hstep
  cases e with
  | register path content =>
      simp only [Client.step] at hstep
      split at hstep <;> cases hstep
      exact h.register path content
  | unregister i =>
      simp only [Client.step] at hstep
      split at hstep
      · cases hstep
      · exact h.unregister hstep
  | _ => exact h.of_same (sameTables_of_step rfl hs)

/-- **Which steps keep the tables in step.** -/
theorem consistent_step_iff (h : s.Tables) (hc : s.Consistent) (hs : s.next e = some s') :
    s'.Consistent ↔ s.LastOfPath e := by
  have hstep := hs
  rw [consistent_iff (h.step hs)]
  rw [consistent_iff h] at hc
  unfold next at hstep
  split at hstep
  · cases hstep
  cases e with
  | register path content =>
      simp only [Client.step] at hstep
      split at hstep <;> cases hstep
      exact iff_of_true (entries_register hc path content) trivial
  | unregister i =>
      simp only [Client.step] at hstep
      split at hstep
      · cases hstep
      · exact entries_unregister_iff hc hstep
  | _ =>
      have hsame := sameTables_of_step rfl hs
      refine iff_of_true (fun path hp => ?_) trivial
      rw [hsame.forPath]
      exact hc path ((hsame.registered path).mp hp)

theorem tables_init : Client.init.Tables := ⟨by rintro _ ⟨⟩, by rintro _ _ ⟨⟩⟩

theorem consistent_init : Client.init.Consistent := by
  rw [consistent_iff tables_init]
  rintro path ⟨i, ⟨⟩, -⟩

end Client

open Loon.GoClient.Client

/-- **Consistency of the registry.** In every run of the Go client: every entry of `forPath` points
to a registered handle of its path; and the tables are in step after every step of the run, so that
a request is answered with content exactly if a registered handle has its path, if and only if no
handle is unregistered while another one is registered under its path. -/
theorem registry_consistent_iff {es : List ClientEvent} {s : Client}
    (hr : goClient.run .init es = some s) :
    (∀ path i, s.forPath path = some i → s.content i = true ∧ s.pathOf i = some path) ∧
    (goClient.Along (fun s e => ∀ s', goClient.step s e = some s' → s'.Consistent) .init es ↔
      goClient.Along LastOfPath .init es) := by
  have hstep : ∀ s e s', s.Tables → goClient.step s e = some s' → s'.Tables :=
    fun _ _ _ h hs => h.step hs
  exact ⟨(Machine.run_inv (M := goClient) hstep tables_init hr).points,
    Machine.along_iff (M := goClient) hstep (fun _ _ _ h hc hs => consistent_step_iff h hc hs)
      tables_init consistent_init hr⟩

/-! ## Sample runs -/

/-- The client after the events `es`. -/
def goClientAfter (es : List ClientEvent) : Client := (goClient.run .init es).getD .init

/-- Content is registered, unregistered and registered again. -/
def registerAnew : List ClientEvent :=
  [.register "a" threeBytes, .unregister 0, .register "a" threeBytes]

theorem registry_consistent_iff_registerAnew :
    goClient.Along (fun s e => ∀ s', goClient.step s e = some s' → s'.Consistent) .init
      registerAnew := by
  have hrun : goClient.run .init registerAnew = some (goClientAfter registerAnew) := rfl
  refine (registry_consistent_iff hrun).2.mpr ⟨trivial, ?_⟩
  rintro _ ⟨⟩
  refine ⟨fun _ j hj _ => ?_, ?_⟩
  · by_contra hne
    have hno : (Client.init.register "a" threeBytes).content j = false := Function.update_of_ne hne _ _
    rw [hno] at hj
    cases hj
  · rintro _ ⟨⟩
    exact ⟨trivial, fun _ _ => trivial⟩

/-- Two handles are registered under one path, and the first one is unregistered. -/
def unregisterFirst : List ClientEvent :=
  [.register "a" threeBytes, .register "a" threeBytes, .unregister 0]

/-- The second handle is registered still, but requests for its path are answered as if it were
not. -/
theorem second_handle_is_lost :
    goClient.run .init unregisterFirst = some (goClientAfter unregisterFirst) ∧
    (goClientAfter unregisterFirst).Registered "a" ∧
    (goClientAfter unregisterFirst).forPath "a" = none ∧
    ¬ (goClientAfter unregisterFirst).Serves "a" ∧ ¬ (goClientAfter unregisterFirst).Consistent := by
  have hnone : (goClientAfter unregisterFirst).forPath "a" = none := by decide
  have hreg : (goClientAfter unregisterFirst).Registered "a" := ⟨1, by decide, by decide⟩
  have hserves : ¬ (goClientAfter unregisterFirst).Serves "a" := by
    rw [serves_iff, hnone]
    rintro ⟨⟩
  exact ⟨rfl, hreg, hnone, hserves, fun hc => hserves ((hc.served "a").mpr hreg)⟩

end Loon.GoClient
