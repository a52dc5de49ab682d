import Loon.Client.Registry
import Loon.Client.SharedClient

set_option autoImplicit false

/-!
# The paths of shared clients

All shared clients of a wrapped client register their content with it, each under its own prefix,
which is made of the index it was given. The wrapped client is used through them alone.

* `pathPrefix_append_inj`: prefixed paths are equal only if the indices and the paths are;
* `SharedPaths`, `sharedPaths`: the shared clients with the content of their wrapped clients and the
  handles that each of them keeps (`m_registered`);
* `PathsInv`: the invariant; whoever is alive owns all content under its prefix;
* **`shared_paths_exclusive`**: a path is taken only by the shared client itself.

A call of `register_content` holds the lock of its shared client while it waits in the wrapped client
(`calls`), where others go on. The content of a wrapped client may be reset at any time.
-/

namespace Loon

/-- `internal_path_prefix`. -/
def pathPrefix (index : ℕ) : String := toString index ++ "/"

/-- The object that a call is on. -/
def SharedEvent.object {κ : Type} : SharedEvent κ → Option ℕ
  | .construct _ => none
  | .start p _ _ => some p
  | .stop p => some p
  | .idle p _ _ => some p
  | .onReady p => some p
  | .onDisconnect p => some p
  | .onFailed p _ => some p
  | .destroy p => some p

/-- The call unregisters the content of its shared client. -/
def SharedEvent.unregisters {κ : Type} : SharedEvent κ → Bool
  | .stop _ => true
  | .destroy _ => true
  | _ => false

/-- The shared clients with their content. -/
structure SharedPaths (κ : Type) where
  shared : SharedState κ
  /-- The content of the wrapped clients. -/
  registries : κ → Registry
  /-- `m_registered` of the objects. -/
  registered : ℕ → List ℕ
  /-- The path of a call of `register_content` that waits in the wrapped client. -/
  calls : ℕ → Option String

/-- What happens: the calls that do not concern content, those that do, the end of a call of
`register_content`, which may fail, and the reset of a wrapped client. -/
inductive PathsEvent (κ : Type) where
  | shared (e : SharedEvent κ)
  | registerContent (object : ℕ) (source : Option ContentSource) (info : ContentInfo)
  | contentRegistered (object : ℕ) (accepted : Bool)
  | unregisterContent (object handle : ℕ)
  | content (object : ℕ)
  | isRegistered (object handle : ℕ)
  | reset (client : κ)
  deriving DecidableEq, Repr

namespace SharedPaths

variable {κ : Type} [DecidableEq κ]

def init : SharedPaths κ where
  shared := .init
  registries _ := .init
  registered _ := []
  calls _ := none

variable (s : SharedPaths κ)

/-- `internal_modified_content_info`. -/
def modifiedPath (o : SharedClient κ) (path : String) : String := pathPrefix o.index ++ path

/-- `register_content` up to where the wrapped client waits to be ready. -/
def registerContent (o : SharedClient κ) (source : Option ContentSource) (info : ContentInfo) :
    Except ClientException Unit :=
  match source with
  | none => .error (.malformedContent "the content handle cannot be null")
  | some source =>
    if source.size = 0 then .error (.malformedContent "the content cannot have a size of zero")
    else if modifiedPath o info.path ∈ (s.registries o.client).content then
      .error (.pathAlreadyRegistered
        "content under this path is already registered with this client")
    else .ok ()

/-- The wrapped client has registered the path and returned a handle for it. -/
def contentRegistered (p : ℕ) (o : SharedClient κ) (path : String) : SharedPaths κ :=
  { s with
    registries := Function.update s.registries o.client
      ((s.registries o.client).register (modifiedPath o path))
    registered := Function.update s.registered p
      (s.registered p ++ [(s.registries o.client).created]) }

/-- `unregister_content` of a handle of the shared client; it throws for any other. -/
def unregisterContent (p : ℕ) (o : SharedClient κ) (h : ℕ) : SharedPaths κ :=
  if h ∈ s.registered p then
    { s with
      registries := Function.update s.registries o.client
        ((s.registries o.client).unregisterContent h)
      registered := Function.update s.registered p ((s.registered p).erase h) }
  else s

/-- `internal_unregister_content`. -/
def unregisterAll (p : ℕ) (o : SharedClient κ) : SharedPaths κ :=
  { s with
    registries := Function.update s.registries o.client
      ((s.registered p).foldl Registry.unregisterContent (s.registries o.client))
    registered := Function.update s.registered p [] }

/-- `content`, which erases the handles that are not registered any more. -/
def content (p : ℕ) (o : SharedClient κ) : SharedPaths κ × List ℕ :=
  let r := s.registries o.client
  let result := r.contents.filter (· ∈ s.registered p)
  if result.length < (s.registered p).length then
    ({ s with registered := Function.update s.registered p ((s.registered p).filter r.isRegistered) },
      result)
  else (s, result)

/-- `is_registered`, which erases the handle if it is not registered any more. -/
def isRegistered (p : ℕ) (o : SharedClient κ) (h : ℕ) : SharedPaths κ × Bool :=
  let registered := (s.registries o.client).isRegistered h
  let owned := decide (h ∈ s.registered p)
  if !registered && owned then
    ({ s with registered := Function.update s.registered p ((s.registered p).erase h) }, false)
  else (s, registered && owned)

/-- A call on the object `p` that has its lock. -/
def locked (p : ℕ) (f : SharedClient κ → SharedPaths κ) : Option (SharedPaths κ) :=
  if s.calls p = none then (s.shared.objects p).map f else none

/-- A call that does not concern content, but for those that unregister all. -/
def sharedStep (e : SharedEvent κ) : Option (SharedPaths κ) :=
  match e.object with
  | none => (s.shared.step e).map fun shared => { s with shared := shared }
  | some p =>
    if s.calls p = none then
      (s.shared.objects p).bind fun o => (s.shared.step e).map fun shared =>
        { (if e.unregisters then s.unregisterAll p o else s) with shared := shared }
    else none

def step (s : SharedPaths κ) : PathsEvent κ → Option (SharedPaths κ)
  | .shared e => s.sharedStep e
  | .registerContent p source info => s.locked p fun o =>
    match s.registerContent o source info with
    | .error _ => s
    | .ok () => { s with calls := Function.update s.calls p (some info.path) }
  | .contentRegistered p accepted =>
    (s.shared.objects p).bind fun o => (s.calls p).map fun path =>
      { (if accepted then s.contentRegistered p o path else s) with
        calls := Function.update s.calls p none }
  | .unregisterContent p h => s.locked p fun o => s.unregisterContent p o h
  | .content p => s.locked p fun o => (s.content p o).1
  | .isRegistered p h => s.locked p fun o => (s.isRegistered p o h).1
  | .reset client =>
    some { s with
      registries := Function.update s.registries client (s.registries client).reset }

end SharedPaths

/-- **The machine of the paths.** -/
def sharedPaths {κ : Type} [DecidableEq κ] : Machine (SharedPaths κ) (PathsEvent κ) where
  init := SharedPaths.init
  step := SharedPaths.step

/-! ## Prefixes -/

theorem append_cons_inj {α : Type} {c : α} {l l' r r' : List α} (hl : c ∉ l) (hl' : c ∉ l')
    (h : l ++ c :: r = l' ++ c :: r') : l = l' ∧ r = r' := by
  induction l generalizing l' with
  | nil =>
    cases l' with
    | nil => exact ⟨rfl, (List.cons.inj h).2⟩
    | cons a l' => exact absurd ((List.cons.inj h).1 ▸ List.mem_cons_self) hl'
  | cons a l ih =>
    cases l' with
    | nil => exact absurd ((List.cons.inj h).1 ▸ List.mem_cons_self) hl
    | cons a' l' =>
      obtain ⟨rfl, htail⟩ := List.cons.inj h
      obtain ⟨rfl, hr⟩ := ih (fun hm => hl (List.mem_cons_of_mem _ hm))
        (fun hm => hl' (List.mem_cons_of_mem _ hm)) htail
      exact ⟨rfl, hr⟩

theorem toList_pathPrefix (i : ℕ) : (pathPrefix i).toList = Nat.toDigits 10 i ++ ['/'] := by
  rw [pathPrefix, String.toList_append, Nat.toString_eq_repr, Nat.toList_repr]
  rfl

theorem slash_notMem_toDigits (i : ℕ) : '/' ∉ Nat.toDigits 10 i := by
  intro h
  exact absurd (Nat.isDigit_of_mem_toDigits (by decide) (by decide) h) (by decide)

theorem toDigits_injective {i j : ℕ} (h : Nat.toDigits 10 i = Nat.toDigits 10 j) : i = j := by
  have hread := congrArg (fun digits => Nat.ofDigitChars 10 digits 0) h
  simpa only [Nat.ofDigitChars_ten_toDigits] using hread

/-- **Prefixed paths are unambiguous**, whatever the paths begin with. -/
theorem pathPrefix_append_inj {i j : ℕ} {p q : String} (h : pathPrefix i ++ p = pathPrefix j ++ q) :
    i = j ∧ p = q := by
  have hlist := congrArg String.toList h
  simp only [String.toList_append, toList_pathPrefix, List.append_assoc, List.singleton_append]
    at hlist
  obtain ⟨hdigits, hpath⟩ :=
    append_cons_inj (slash_notMem_toDigits i) (slash_notMem_toDigits j) hlist
  exact ⟨toDigits_injective hdigits, String.toList_injective hpath⟩

/-! ## Content -/

namespace Registry

variable {r : Registry} {path : String} {g h : ℕ}

theorem isRegistered_of_lookup (hg : r.content.lookup path = some g) : r.isRegistered g = true := by
  unfold isRegistered
  rw [(r.wf path g hg).2.1, hg]
  rfl

/-- What is left after a handle was unregistered, which is not that handle. -/
theorem lookup_unregisterContent (hg : (r.unregisterContent h).content.lookup path = some g) :
    r.content.lookup path = some g ∧ g ≠ h := by
  rw [unregisterContent_content] at hg
  have hne : path ≠ (r.handles h).path := by
    rintro rfl
    rw [AList.lookup_erase] at hg
    cases hg
  rw [AList.lookup_erase_ne hne] at hg
  refine ⟨hg, ?_⟩
  rintro rfl
  exact hne (r.wf path g hg).2.1.symm

/-- What is left after all handles in a list were. -/
theorem lookup_foldl_unregisterContent {hs : List ℕ}
    (hg : (hs.foldl unregisterContent r).content.lookup path = some g) :
    r.content.lookup path = some g ∧ g ∉ hs := by
  induction hs generalizing r with
  | nil => exact ⟨hg, List.not_mem_nil⟩
  | cons h hs ih =>
    obtain ⟨hlook, hnot⟩ := ih hg
    obtain ⟨hlook, hne⟩ := lookup_unregisterContent hlook
    exact ⟨hlook, List.not_mem_cons_of_ne_of_not_mem hne hnot⟩

/-- What is there after a path was registered. -/
theorem lookup_register_cases {path' : String}
    (hg : (r.register path').content.lookup path = some g) :
    r.content.lookup path = some g ∨ path = path' ∧ g = r.created := by
  simp only [register] at hg
  split at hg
  · exact .inl hg
  · by_cases hp : path = path'
    · rw [hp, AList.lookup_insert] at hg
      exact .inr ⟨hp, (Option.some.inj hg).symm⟩
    · rw [AList.lookup_insert_ne hp] at hg
      exact .inl hg

end Registry

/-! ## Who owns the content -/

namespace SharedPaths

open SharedState

variable {κ : Type} [DecidableEq κ] {s s' : SharedPaths κ} {p : ℕ} {o : SharedClient κ}

/-- **The invariant**: all content is under the prefix of a shared client that is alive, which has its
handle. -/
structure PathsInv (s : SharedPaths κ) : Prop where
  shared : SharedInv s.shared
  owned : ∀ c path g, (s.registries c).content.lookup path = some g → ∃ p i rest,
    s.shared.keyOf p = some (c, i) ∧ g ∈ s.registered p ∧ path = pathPrefix i ++ rest

/-- There is no more content than before, and what is left is still owned. -/
theorem PathsInv.of_subset (h : PathsInv s) (hI : SharedInv s'.shared)
    (hsub : ∀ c path g, (s'.registries c).content.lookup path = some g →
      (s.registries c).content.lookup path = some g)
    (hkept : ∀ p c i path g, s.shared.keyOf p = some (c, i) → g ∈ s.registered p →
      (s'.registries c).content.lookup path = some g →
        s'.shared.keyOf p = some (c, i) ∧ g ∈ s'.registered p) : PathsInv s' := by
  refine ⟨hI, fun c path g hg => ?_⟩
  obtain ⟨p, i, rest, hkey, hmem, hpath⟩ := h.owned c path g (hsub c path g hg)
  obtain ⟨hkey', hmem'⟩ := hkept p c i path g hkey hmem hg
  exact ⟨p, i, rest, hkey', hmem', hpath⟩

/-- The content of one wrapped client changes, and the handles of one of its shared clients. -/
theorem lookup_update {c c' : κ} {r : Registry} {path : String} {g : ℕ}
    (h : (Function.update s.registries c r c').content.lookup path = some g) :
    c' = c ∧ r.content.lookup path = some g ∨
      c' ≠ c ∧ (s.registries c').content.lookup path = some g := by
  by_cases hc : c' = c
  · subst hc
    rw [Function.update_self] at h
    exact .inl ⟨rfl, h⟩
  · rw [Function.update_of_ne hc] at h
    exact .inr ⟨hc, h⟩

theorem PathsInv.contentRegistered (h : PathsInv s) (ho : s.shared.objects p = some o)
    (path' : String) : PathsInv (s.contentRegistered p o path') := by
  refine ⟨h.shared, fun c path g hg => ?_⟩
  have hold : (s.registries c).content.lookup path = some g → ∃ q i rest,
      s.shared.keyOf q = some (c, i) ∧ g ∈ (s.contentRegistered p o path').registered q ∧
        path = pathPrefix i ++ rest := by
    intro hg
    obtain ⟨q, i, rest, hkey, hmem, hpath⟩ := h.owned c path g hg
    refine ⟨q, i, rest, hkey, ?_, hpath⟩
    by_cases hq : q = p
    · subst hq
      simp only [SharedPaths.contentRegistered, Function.update_self]
      exact List.mem_append_left _ hmem
    · simp only [SharedPaths.contentRegistered, Function.update_of_ne hq]
      exact hmem
  rcases lookup_update (s := s) (c := o.client) (r := (s.registries o.client).register _) hg with
    ⟨rfl, hnew⟩ | ⟨-, hg⟩
  · rcases Registry.lookup_register_cases hnew with hg | ⟨hpath, rfl⟩
    · exact hold hg
    · refine ⟨p, o.index, path', keyOf_eq_some ho, ?_, hpath⟩
      simp only [SharedPaths.contentRegistered, Function.update_self]
      exact List.mem_append_right _ List.mem_cons_self
  · exact hold hg

theorem PathsInv.unregisterContent (h : PathsInv s) (ho : s.shared.objects p = some o) (g : ℕ) :
    PathsInv (s.unregisterContent p o g) := by
  unfold SharedPaths.unregisterContent
  split
  · refine h.of_subset h.shared (fun c path g' hg => ?_) fun q c i path g' hkey hmem hg => ⟨hkey, ?_⟩
    · rcases lookup_update hg with ⟨rfl, hleft⟩ | ⟨-, hg⟩
      · exact (Registry.lookup_unregisterContent hleft).1
      · exact hg
    · by_cases hq : q = p
      · subst hq
        simp only [Function.update_self]
        rw [keyOf_eq_some ho] at hkey
        cases hkey
        rcases lookup_update hg with ⟨-, hg⟩ | ⟨hne, -⟩
        · exact (List.mem_erase_of_ne (Registry.lookup_unregisterContent hg).2).mpr hmem
        · exact absurd rfl hne
      · simp only [Function.update_of_ne hq]
        exact hmem
  · exact h

/-- A shared client that has unregistered its content has none left. -/
theorem notMem_of_unregisterAll {c : κ} {i : ℕ} {path : String} {g : ℕ}
    (ho : s.shared.objects p = some o) (hkey : s.shared.keyOf p = some (c, i))
    (hg : ((s.unregisterAll p o).registries c).content.lookup path = some g) :
    g ∉ s.registered p := by
  rw [keyOf_eq_some ho] at hkey
  cases hkey
  rcases lookup_update (s := s) (c := o.client) hg with ⟨-, hg⟩ | ⟨hne, -⟩
  · exact (Registry.lookup_foldl_unregisterContent hg).2
  · exact absurd rfl hne

/-- A shared client unregisters its content, and may be gone afterwards. -/
theorem PathsInv.unregisterAll (h : PathsInv s) (ho : s.shared.objects p = some o)
    {shared : SharedState κ} (hI : SharedInv shared)
    (hkeys : ∀ q k, q ≠ p → s.shared.keyOf q = some k → shared.keyOf q = some k) :
    PathsInv { s.unregisterAll p o with shared := shared } := by
  refine h.of_subset hI (fun c path g hg => ?_) fun q c i path g hkey hmem hg => ?_
  · rcases lookup_update (s := s) (c := o.client) hg with ⟨rfl, hleft⟩ | ⟨-, hg⟩
    · exact (Registry.lookup_foldl_unregisterContent hleft).1
    · exact hg
  · have hq : q ≠ p := by
      rintro rfl
      exact notMem_of_unregisterAll ho hkey hg hmem
    refine ⟨hkeys q _ hq hkey, ?_⟩
    simp only [SharedPaths.unregisterAll, Function.update_of_ne hq]
    exact hmem

theorem PathsInv.content (h : PathsInv s) (ho : s.shared.objects p = some o) :
    PathsInv (s.content p o).1 := by
  unfold SharedPaths.content
  simp only
  split
  · refine h.of_subset h.shared (fun _ _ _ hg => hg) fun q c i path g hkey hmem hg => ⟨hkey, ?_⟩
    by_cases hq : q = p
    · subst hq
      rw [keyOf_eq_some ho] at hkey
      cases hkey
      simp only [Function.update_self]
      exact List.mem_filter.mpr ⟨hmem, Registry.isRegistered_of_lookup hg⟩
    · simp only [Function.update_of_ne hq]
      exact hmem
  · exact h

theorem PathsInv.isRegistered (h : PathsInv s) (ho : s.shared.objects p = some o) (g : ℕ) :
    PathsInv (s.isRegistered p o g).1 := by
  unfold SharedPaths.isRegistered
  simp only
  split
  · rename_i hstray
    rw [Bool.and_eq_true, Bool.not_eq_true'] at hstray
    refine h.of_subset h.shared (fun _ _ _ hg => hg) fun q c i path g' hkey hmem hg => ⟨hkey, ?_⟩
    by_cases hq : q = p
    · subst hq
      rw [keyOf_eq_some ho] at hkey
      cases hkey
      have hne : g' ≠ g := by
        rintro rfl
        rw [Registry.isRegistered_of_lookup hg] at hstray
        cases hstray.1
      simp only [Function.update_self]
      exact (List.mem_erase_of_ne hne).mpr hmem
    · simp only [Function.update_of_ne hq]
      exact hmem
  · exact h

theorem PathsInv.reset (h : PathsInv s) (c : κ) :
    PathsInv { s with registries := Function.update s.registries c (s.registries c).reset } := by
  refine h.of_subset h.shared (fun c' path g hg => ?_) fun _ _ _ _ _ hkey hmem _ => ⟨hkey, hmem⟩
  rcases lookup_update hg with ⟨-, hg⟩ | ⟨-, hg⟩
  · have hnone : (s.registries c).reset.content.lookup path = none := AList.lookup_empty path
    rw [hnone] at hg
    cases hg
  · exact hg

/-- The calls of a shared client that leave it alive leave the prefixes alone. -/
theorem keyOf_of_step {t t' : SharedState κ} {e : SharedEvent κ} (hs : t.step e = some t')
    (he : e.object = some p) {q : ℕ} (hq : e = .destroy p → q ≠ p) : t'.keyOf q = t.keyOf q := by
  cases e with
  | construct => cases he
  | start p wasStarted ready =>
      obtain ⟨o, -, rfl⟩ := Option.map_eq_some_iff.mp hs
      rw [(quiet_start (s := t) p o wasStarted ready).key]
  | stop p =>
      obtain ⟨o, -, rfl⟩ := Option.map_eq_some_iff.mp hs
      rw [(quiet_stop (s := t) p o).key]
  | idle p state running =>
      obtain ⟨o, -, rfl⟩ := Option.map_eq_some_iff.mp hs
      rw [(quiet_idle (s := t) p o state running).key]
  | onReady p | onDisconnect p | onFailed p callback =>
      obtain ⟨o, -, rfl⟩ := Option.map_eq_some_iff.mp hs
      rfl
  | destroy p =>
      obtain ⟨o, -, rfl⟩ := Option.map_eq_some_iff.mp hs
      cases he
      rw [(destroy_spec (s := t) p o).key, Function.update_of_ne (hq rfl)]

theorem PathsInv.sharedStep (h : PathsInv s) {e : SharedEvent κ} (hs : s.sharedStep e = some s') :
    PathsInv s' := by
  unfold SharedPaths.sharedStep at hs
  split at hs
  · rename_i he
    obtain ⟨shared, hshared, rfl⟩ := Option.map_eq_some_iff.mp hs
    refine h.of_subset (step_spec h.shared hshared).1 (fun _ _ _ hg => hg)
      fun q c i _ _ hkey hmem _ => ⟨?_, hmem⟩
    cases e with
    | construct c' =>
        cases hshared
        have hlt := h.shared.bound q _ hkey
        show (s.shared.construct c').keyOf q = _
        rw [keyOf_construct, Function.update_of_ne hlt.ne, hkey]
    | _ => cases he
  · rename_i p he
    split at hs
    · obtain ⟨o, ho, hs⟩ := Option.bind_eq_some_iff.mp hs
      obtain ⟨shared, hshared, rfl⟩ := Option.map_eq_some_iff.mp hs
      have hI := (step_spec h.shared hshared).1
      cases hu : e.unregisters with
      | true =>
          refine h.unregisterAll ho hI fun q k hq hkey => ?_
          rw [keyOf_of_step hshared he fun _ => hq, hkey]
      | false =>
          refine h.of_subset hI (fun _ _ _ hg => hg) fun q c i _ _ hkey hmem _ => ⟨?_, hmem⟩
          have hlive : e = .destroy p → q ≠ p := by
            rintro rfl
            cases hu
          exact (keyOf_of_step hshared he hlive).trans hkey
    · cases hs

omit [DecidableEq κ] in
theorem exists_of_locked {f : SharedClient κ → SharedPaths κ} (hs : s.locked p f = some s') :
    ∃ o, s.shared.objects p = some o ∧ s' = f o := by
  unfold locked at hs
  split at hs
  · obtain ⟨o, ho, rfl⟩ := Option.map_eq_some_iff.mp hs
    exact ⟨o, ho, rfl⟩
  · cases hs

/-- **A step keeps the invariant.** -/
theorem PathsInv.step (h : PathsInv s) {e : PathsEvent κ} (hs : s.step e = some s') : PathsInv s' := by
  cases e with
  | shared e => exact h.sharedStep hs
  | registerContent p source info =>
      obtain ⟨o, -, rfl⟩ := exists_of_locked hs
      split
      · exact h
      · exact ⟨h.shared, h.owned⟩
  | contentRegistered p accepted =>
      obtain ⟨o, ho, hs⟩ := Option.bind_eq_some_iff.mp hs
      obtain ⟨path, -, rfl⟩ := Option.map_eq_some_iff.mp hs
      have hdone := h.contentRegistered ho path
      cases accepted with
      | true => exact ⟨hdone.shared, hdone.owned⟩
      | false => exact ⟨h.shared, h.owned⟩
  | unregisterContent p g =>
      obtain ⟨o, ho, rfl⟩ := exists_of_locked hs
      exact h.unregisterContent ho g
  | content p =>
      obtain ⟨o, ho, rfl⟩ := exists_of_locked hs
      exact h.content ho
  | isRegistered p g =>
      obtain ⟨o, ho, rfl⟩ := exists_of_locked hs
      exact h.isRegistered ho g
  | reset client =>
      cases hs
      exact h.reset client

theorem pathsInv_of_run {es : List (PathsEvent κ)} (hr : sharedPaths.run .init es = some s) :
    PathsInv s := by
  refine Machine.run_inv (M := sharedPaths) (fun _ _ _ h hs => h.step hs) ⟨sharedInv_init, ?_⟩ hr
  intro c path g hg
  rw [show ((SharedPaths.init (κ := κ)).registries c).content = ∅ from rfl, AList.lookup_empty] at hg
  cases hg

/-- **Shared clients do not collide.** -/
theorem PathsInv.unique (h : PathsInv s) {q : ℕ} {o' : SharedClient κ}
    (ho : s.shared.objects p = some o) (ho' : s.shared.objects q = some o')
    (hc : o.client = o'.client) (hi : o.index = o'.index) : p = q := by
  refine h.shared.unique p q (o.client, o.index) (keyOf_eq_some ho) ?_
  rw [hc, hi]
  exact keyOf_eq_some ho'

/-- A path is taken only by the shared client itself. -/
theorem PathsInv.registered_of_throws (h : PathsInv s) (ho : s.shared.objects p = some o)
    {source : Option ContentSource} {info : ContentInfo} {message : String}
    (ht : s.registerContent o source info = .error (.pathAlreadyRegistered message)) :
    ∃ g ∈ s.registered p,
      (s.registries o.client).content.lookup (modifiedPath o info.path) = some g := by
  have hmem : modifiedPath o info.path ∈ (s.registries o.client).content := by
    unfold registerContent at ht
    split at ht
    · cases ht
    split at ht
    · cases ht
    split at ht
    · assumption
    · cases ht
  obtain ⟨g, hg⟩ := Option.isSome_iff_exists.mp (AList.lookup_isSome.mpr hmem)
  obtain ⟨q, i, rest, hkey, hq, hpath⟩ := h.owned _ _ _ hg
  obtain ⟨rfl, -⟩ := pathPrefix_append_inj hpath
  rw [h.shared.unique q p _ hkey (keyOf_eq_some ho)] at hq
  exact ⟨g, hq, hg⟩

end SharedPaths

open SharedPaths

/-- **Shared clients never collide on paths.** In every run of the shared clients and their wrapped
clients: shared clients of one wrapped client that are alive at the same time have different
indices; a path of one is a path of the other only if they are one and the paths are the same; and
`register_content` throws that the path is registered already only if the shared client itself has
registered it, with a handle that it keeps. -/
theorem shared_paths_exclusive {κ : Type} [DecidableEq κ] {es : List (PathsEvent κ)}
    {s : SharedPaths κ} (hr : sharedPaths.run .init es = some s) :
    (∀ p q o o', s.shared.objects p = some o → s.shared.objects q = some o' →
      o.client = o'.client → p ≠ q → o.index ≠ o'.index) ∧
    (∀ p q o o' path path', s.shared.objects p = some o → s.shared.objects q = some o' →
      o.client = o'.client → modifiedPath o path = modifiedPath o' path' →
        p = q ∧ o.index = o'.index ∧ path = path') ∧
    ∀ p o source info message, s.shared.objects p = some o →
      s.registerContent o source info = .error (.pathAlreadyRegistered message) →
        ∃ h ∈ s.registered p,
          (s.registries o.client).content.lookup (modifiedPath o info.path) = some h := by
  have hinv := pathsInv_of_run hr
  refine ⟨fun p q o o' ho ho' hc hne hi => hne (hinv.unique ho ho' hc hi), ?_, ?_⟩
  · intro p q o o' path path' ho ho' hc hpath
    obtain ⟨hi, hrest⟩ := pathPrefix_append_inj hpath
    exact ⟨hinv.unique ho ho' hc hi, hi, hrest⟩
  · intro p o source info message ho ht
    exact hinv.registered_of_throws ho ht

/-- The shared clients after the events `es`, of a single wrapped client. -/
def pathsAfter (es : List (PathsEvent Unit)) : SharedPaths Unit :=
  (sharedPaths.run SharedPaths.init es).getD .init

/-- The first of two shared clients registers a path with the prefix of the second one. -/
def registerPrefixed : List (PathsEvent Unit) :=
  [.shared (.construct ()), .shared (.construct ()),
    .registerContent 0 (some ⟨"text/plain", 1, [7]⟩) ⟨"1/a", none, none⟩, .contentRegistered 0 true]

/-- The second one may register it as well, the first one may not do so again. -/
theorem shared_paths_exclusive_registerPrefixed :
    (pathsAfter registerPrefixed).registerContent ⟨(), 1, false, false, false⟩
        (some ⟨"text/plain", 1, [7]⟩) ⟨"1/a", none, none⟩ = .ok () ∧
    ∃ h ∈ (pathsAfter registerPrefixed).registered 0,
      ((pathsAfter registerPrefixed).registries ()).content.lookup "0/1/a" = some h := by
  have hrun : sharedPaths.run SharedPaths.init registerPrefixed = some (pathsAfter registerPrefixed) :=
    rfl
  refine ⟨by decide, ?_⟩
  exact (shared_paths_exclusive hrun).2.2 0 ⟨(), 0, false, false, false⟩
    (some ⟨"text/plain", 1, [7]⟩) ⟨"1/a", none, none⟩ _ rfl rfl

end Loon
