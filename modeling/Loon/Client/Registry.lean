import Mathlib.Data.List.AList
import Loon.Client.Client

set_option autoImplicit false

/-!
# Registered content

`m_content` of the C++ client with the handles that `register_content` made. A handle is looked up by
its path, and several handles may have the same path, one after the other or side by side.

* `Registry`: the map and the handles; a handle in the map is under its own path, its serve thread
  runs, and its `unregistered` was not called;
* `register`, `unregisterContent`, `reset`, `onUnregistered`: what the client does with them;
* `Step`: what it does besides registering;
* **`denotes_iff`**: a handle stands for itself exactly if no other one is registered under its path.
-/

namespace Loon

/-- `InternalContentHandle`; `running` is its request handler's serve thread, and `notified` counts
the calls of the unregistered callback. -/
structure InternalContentHandle where
  path : String
  running : Bool
  registered : Bool
  unregisteredCallback : Bool
  notified : ℕ
  deriving DecidableEq, Repr

namespace InternalContentHandle

variable (c : InternalContentHandle)

def onUnregistered : InternalContentHandle :=
  if !c.registered then { c with notified := c.notified + 1 }
  else { c with unregisteredCallback := true }

def unregistered : InternalContentHandle :=
  { c with
    notified := if c.registered && c.unregisteredCallback then c.notified + 1 else c.notified
    registered := false
    unregisteredCallback := false }

/-- `exit_gracefully` of the request handler, which returns when the serve thread has. -/
def exitGracefully : InternalContentHandle := { c with running := false }

/-- A handle whose request handler has just been spawned. -/
def spawned (path : String) : InternalContentHandle where
  path := path
  running := true
  registered := true
  unregisteredCallback := false
  notified := 0

@[simp] theorem onUnregistered_path : c.onUnregistered.path = c.path := by
  unfold onUnregistered
  split <;> rfl

@[simp] theorem onUnregistered_running : c.onUnregistered.running = c.running := by
  unfold onUnregistered
  split <;> rfl

@[simp] theorem onUnregistered_registered : c.onUnregistered.registered = c.registered := by
  unfold onUnregistered
  split <;> rfl

end InternalContentHandle

/-- `m_content`, with all handles that were made. -/
structure Registry where
  content : AList fun _ : String => ℕ
  handles : ℕ → InternalContentHandle
  created : ℕ
  wf : ∀ path h, content.lookup path = some h → h < created ∧ (handles h).path = path ∧
    (handles h).running = true ∧ (handles h).registered = true

/-- What a caller passes as a `ContentHandle`. -/
inductive ContentHandle where
  | null
  | foreign
  | internal (h : ℕ)
  deriving DecidableEq, Repr

/-- A handle of this client is one of the first `created`. -/
def ContentHandle.made (created : ℕ) : ContentHandle → Bool
  | .internal h => h < created
  | _ => true

namespace Registry

/-- Nothing is registered, and there are no handles. -/
def init : Registry where
  content := ∅
  handles _ := .spawned ""
  created := 0
  wf := by
    intro path h hh
    rw [AList.lookup_empty] at hh
    cases hh

variable (r : Registry)

/-- `content()`. -/
def contents : List ℕ := r.content.entries.map (·.2)

theorem mem_contents {h : ℕ} : h ∈ r.contents ↔ ∃ path, r.content.lookup path = some h := by
  simp only [contents, List.mem_map]
  constructor
  · rintro ⟨⟨path, h⟩, hm, rfl⟩
    exact ⟨path, AList.mem_lookup_iff.mpr hm⟩
  · rintro ⟨path, hh⟩
    exact ⟨⟨path, h⟩, AList.mem_lookup_iff.mp hh, rfl⟩

/-- A registered handle is found under its own path. -/
theorem mem_contents_iff {h : ℕ} :
    h ∈ r.contents ↔ r.content.lookup (r.handles h).path = some h := by
  rw [mem_contents]
  constructor
  · rintro ⟨path, hh⟩
    rw [(r.wf path h hh).2.1]
    exact hh
  · intro hh
    exact ⟨_, hh⟩

/-- The end of `register_content`: a handle is made for the path and emplaced, which keeps an entry
that is there already. -/
def register (path : String) : Registry where
  content := if path ∈ r.content then r.content else r.content.insert path r.created
  handles := Function.update r.handles r.created (.spawned path)
  created := r.created + 1
  wf := by
    have old : ∀ path' h, r.content.lookup path' = some h → h < r.created + 1 ∧
        (Function.update r.handles r.created (.spawned path) h).path = path' ∧
        (Function.update r.handles r.created (.spawned path) h).running = true ∧
        (Function.update r.handles r.created (.spawned path) h).registered = true := by
      intro path' h hh
      obtain ⟨h1, h2⟩ := r.wf path' h hh
      rw [Function.update_of_ne (by omega)]
      exact ⟨by omega, h2⟩
    intro path' h hh
    split at hh
    · exact old path' h hh
    · by_cases hp : path' = path
      · rw [hp, AList.lookup_insert] at hh
        cases hh
        rw [Function.update_self]
        exact ⟨by omega, hp.symm, rfl, rfl⟩
      · rw [AList.lookup_insert_ne hp] at hh
        exact old path' h hh

/-- A handle is not registered under two paths. -/
theorem lookup_inj {path path' : String} {h : ℕ} (hh : r.content.lookup path = some h)
    (hh' : r.content.lookup path' = some h) : path = path' := by
  rw [← (r.wf path h hh).2.1, (r.wf path' h hh').2.1]

/-- `unregister_content` of a handle of this client. -/
def unregisterContent (h : ℕ) : Registry :=
  match hq : r.content.lookup (r.handles h).path with
  | none => r
  | some q =>
    { r with
      content := r.content.erase (r.handles h).path
      handles := Function.update r.handles q (r.handles q).unregistered.exitGracefully
      wf := by
        intro path h' hh
        have hne : path ≠ (r.handles h).path := by
          rintro rfl
          rw [AList.lookup_erase] at hh
          cases hh
        rw [AList.lookup_erase_ne hne] at hh
        have hne' : h' ≠ q := by
          rintro rfl
          exact hne (r.lookup_inj hh hq)
        rw [Function.update_of_ne hne']
        exact r.wf path h' hh }

/-- `reset_connection_state`, as far as the content goes. -/
def reset : Registry where
  content := ∅
  handles h := if h ∈ r.contents then (r.handles h).exitGracefully.unregistered else r.handles h
  created := r.created
  wf := by
    intro path h hh
    rw [AList.lookup_empty] at hh
    cases hh

/-- `on_unregistered` of a handle. -/
def onUnregistered (h : ℕ) : Registry :=
  { r with
    handles := Function.update r.handles h (r.handles h).onUnregistered
    wf := by
      intro path h' hh
      have old := r.wf path h' hh
      by_cases hne : h' = h
      · rw [hne, Function.update_self, InternalContentHandle.onUnregistered_path,
          InternalContentHandle.onUnregistered_running,
          InternalContentHandle.onUnregistered_registered]
        rw [hne] at old
        exact old
      · rw [Function.update_of_ne hne]
        exact old }

/-- `is_registered` of a handle of this client. -/
def isRegistered (h : ℕ) : Bool := (r.content.lookup (r.handles h).path).isSome

/-! ## What a handle stands for -/

/-- `is_registered(h)` tells whether `h` is in `content()`, and `unregister_content(h)` removes `h`
and nothing else. -/
def Denotes (h : ℕ) : Prop :=
  (r.isRegistered h = true ↔ h ∈ r.contents) ∧ h ∉ (r.unregisterContent h).contents ∧
    ∀ g ∈ r.contents, g ≠ h → g ∈ (r.unregisterContent h).contents ∧
      ((r.unregisterContent h).handles g).registered = true ∧
      ((r.unregisterContent h).handles g).running = true ∧
      ((r.unregisterContent h).handles g).notified = (r.handles g).notified

variable {r}

theorem unregisterContent_of_none {h : ℕ} (hq : r.content.lookup (r.handles h).path = none) :
    r.unregisterContent h = r := by
  unfold unregisterContent
  split
  · rfl
  · rename_i q hq'
    rw [hq] at hq'
    cases hq'

theorem unregisterContent_content {h : ℕ} :
    (r.unregisterContent h).content = r.content.erase (r.handles h).path := by
  unfold unregisterContent
  split
  · rename_i hq
    exact AList.ext (List.kerase_of_notMem_keys (AList.lookup_eq_none.mp hq)).symm
  · rfl

theorem unregisterContent_handles {h q : ℕ} (hq : r.content.lookup (r.handles h).path = some q) :
    (r.unregisterContent h).handles =
      Function.update r.handles q (r.handles q).unregistered.exitGracefully := by
  unfold unregisterContent
  split
  · rename_i hq'
    rw [hq] at hq'
    cases hq'
  · rename_i q' hq'
    rw [hq] at hq'
    cases hq'
    rfl

theorem mem_contents_unregisterContent {h g : ℕ} :
    g ∈ (r.unregisterContent h).contents ↔
      g ∈ r.contents ∧ r.content.lookup (r.handles h).path ≠ some g := by
  simp only [mem_contents, unregisterContent_content]
  constructor
  · rintro ⟨path, hp⟩
    have hne : path ≠ (r.handles h).path := by
      rintro rfl
      rw [AList.lookup_erase] at hp
      cases hp
    rw [AList.lookup_erase_ne hne] at hp
    exact ⟨⟨path, hp⟩, fun hh => hne (r.lookup_inj hp hh)⟩
  · rintro ⟨⟨path, hp⟩, hh⟩
    refine ⟨path, ?_⟩
    rw [AList.lookup_erase_ne]
    · exact hp
    · rintro rfl
      exact hh hp

/-- **A handle stands for itself exactly if no other handle is registered under its path.** -/
theorem denotes_iff {h : ℕ} :
    r.Denotes h ↔ ∀ g, r.content.lookup (r.handles h).path = some g → g = h := by
  constructor
  · intro hd g hg
    have hreg : r.isRegistered h = true := by
      rw [isRegistered, hg]
      rfl
    have hmem := (mem_contents_iff r).mp (hd.1.mp hreg)
    rw [hg] at hmem
    exact Option.some.inj hmem
  · intro hown
    refine ⟨?_, ?_, ?_⟩
    · rw [mem_contents_iff, isRegistered, Option.isSome_iff_exists]
      constructor
      · rintro ⟨g, hg⟩
        rw [hg, hown g hg]
      · intro hh
        exact ⟨h, hh⟩
    · intro hm
      obtain ⟨hm, hne⟩ := mem_contents_unregisterContent.mp hm
      exact hne ((mem_contents_iff r).mp hm)
    · intro g hg hne
      have hother : r.content.lookup (r.handles h).path ≠ some g := fun hh => hne (hown g hh)
      obtain ⟨path, hp⟩ := (mem_contents r).mp hg
      obtain ⟨-, -, hrun, hreg⟩ := r.wf path g hp
      refine ⟨mem_contents_unregisterContent.mpr ⟨hg, hother⟩, ?_⟩
      cases hq : r.content.lookup (r.handles h).path with
      | none =>
          rw [unregisterContent_of_none hq]
          exact ⟨hreg, hrun, rfl⟩
      | some q =>
          have hgq : g ≠ q := by
            rintro rfl
            exact hother hq
          rw [unregisterContent_handles hq, Function.update_of_ne hgq]
          exact ⟨hreg, hrun, rfl⟩

/-! ## Registering -/

/-- The new handle is in the map exactly if there was none under its path. -/
theorem lookup_register {path : String} :
    (r.register path).content.lookup path = some r.created ↔ path ∉ r.content := by
  simp only [register]
  split
  · rename_i hp
    constructor
    · intro hh
      obtain ⟨hlt, -⟩ := r.wf path r.created hh
      omega
    · intro hn
      exact absurd hp hn
  · rename_i hp
    rw [AList.lookup_insert]
    exact ⟨fun _ => hp, fun _ => rfl⟩

theorem register_handles {path : String} {h : ℕ} (hh : h < r.created) :
    (r.register path).handles h = r.handles h := Function.update_of_ne (Nat.ne_of_lt hh) _ _

theorem register_handles_created {path : String} :
    (r.register path).handles r.created = .spawned path := Function.update_self _ _ _

theorem mem_contents_register {path : String} {h : ℕ} (hp : path ∉ r.content) :
    h ∈ (r.register path).contents ↔ h ∈ r.contents ∨ h = r.created := by
  simp only [mem_contents, register, if_neg hp]
  constructor
  · rintro ⟨path', hh⟩
    by_cases he : path' = path
    · rw [he, AList.lookup_insert] at hh
      exact .inr (Option.some.inj hh).symm
    · rw [AList.lookup_insert_ne he] at hh
      exact .inl ⟨path', hh⟩
  · rintro (⟨path', hh⟩ | rfl)
    · refine ⟨path', ?_⟩
      rw [AList.lookup_insert_ne]
      · exact hh
      · rintro rfl
        exact hp (AList.lookup_isSome.mp (by rw [hh]; rfl))
    · exact ⟨path, AList.lookup_insert r.content⟩

/-! ## What happens besides -/

/-- What the client does with the registry, besides registering content. -/
inductive Step (r : Registry) : Registry → Prop
  | keep : Step r r
  | reset : Step r r.reset
  | unregister (h : ℕ) : Step r (r.unregisterContent h)
  | onUnregistered (h : ℕ) : Step r (r.onUnregistered h)

variable {r' : Registry}

theorem unregisterContent_created {h : ℕ} : (r.unregisterContent h).created = r.created := by
  unfold unregisterContent
  split <;> rfl

theorem Step.created (h : r.Step r') : r'.created = r.created := by
  cases h with
  | keep => rfl
  | reset => rfl
  | unregister h => exact unregisterContent_created
  | onUnregistered h => rfl

theorem Step.path (h : r.Step r') (g : ℕ) : (r'.handles g).path = (r.handles g).path := by
  cases h with
  | keep => rfl
  | reset =>
      simp only [Registry.reset]
      split <;> rfl
  | unregister h =>
      cases hq : r.content.lookup (r.handles h).path with
      | none => rw [unregisterContent_of_none hq]
      | some q =>
          rw [unregisterContent_handles hq]
          by_cases hg : g = q
          · rw [hg, Function.update_self]
            rfl
          · rw [Function.update_of_ne hg]
  | onUnregistered h =>
      by_cases hg : g = h
      · simp only [Registry.onUnregistered, hg, Function.update_self,
          InternalContentHandle.onUnregistered_path]
      · simp only [Registry.onUnregistered, Function.update_of_ne hg]

/-- Every handle that was not told otherwise is in the map. -/
def Live (r : Registry) : Prop :=
  ∀ h < r.created, (r.handles h).registered = true → h ∈ r.contents

theorem Live.step (hl : r.Live) (h : r.Step r') : r'.Live := by
  intro g hg hr
  rw [h.created] at hg
  cases h with
  | keep => exact hl g hg hr
  | reset =>
      simp only [reset] at hr
      split at hr
      · cases hr
      · rename_i hn
        exact absurd (hl g hg hr) hn
  | unregister h =>
      cases hq : r.content.lookup (r.handles h).path with
      | none =>
          rw [unregisterContent_of_none hq] at hr ⊢
          exact hl g hg hr
      | some q =>
          have hne : g ≠ q := by
            rintro rfl
            rw [unregisterContent_handles hq, Function.update_self] at hr
            cases hr
          rw [unregisterContent_handles hq, Function.update_of_ne hne] at hr
          refine mem_contents_unregisterContent.mpr ⟨hl g hg hr, ?_⟩
          rw [hq]
          exact fun he => hne (Option.some.inj he).symm
  | onUnregistered h =>
      refine hl g hg ?_
      by_cases hne : g = h
      · rw [hne] at hr ⊢
        simpa only [onUnregistered, Function.update_self,
          InternalContentHandle.onUnregistered_registered] using hr
      · simpa only [onUnregistered, Function.update_of_ne hne] using hr

theorem Live.register (hl : r.Live) {path : String} (hp : path ∉ r.content) :
    (r.register path).Live := by
  intro g hg hr
  rw [mem_contents_register hp]
  by_cases hne : g = r.created
  · exact .inr hne
  · have hlt : g < r.created := by
      have hg : g < r.created + 1 := hg
      omega
    rw [register_handles hlt] at hr
    exact .inl (hl g hlt hr)

/-- Of the handles for one path at most one is live. -/
theorem Live.unique (hl : r.Live) {g h : ℕ} (hg : g < r.created) (hh : h < r.created)
    (hp : (r.handles g).path = (r.handles h).path) (hrg : (r.handles g).registered = true)
    (hrh : (r.handles h).registered = true) : g = h := by
  have h1 := (mem_contents_iff r).mp (hl g hg hrg)
  have h2 := (mem_contents_iff r).mp (hl h hh hrh)
  rw [hp, h2] at h1
  exact (Option.some.inj h1).symm

/-- No two handles have the same path. -/
def Distinct (r : Registry) : Prop :=
  ∀ g < r.created, ∀ h < r.created, (r.handles g).path = (r.handles h).path → g = h

theorem Distinct.denotes (hd : r.Distinct) {h : ℕ} (hh : h < r.created) : r.Denotes h := by
  rw [denotes_iff]
  intro g hg
  obtain ⟨hlt, hp, -⟩ := r.wf _ g hg
  exact hd g hlt h hh hp

theorem Distinct.step (hd : r.Distinct) (h : r.Step r') : r'.Distinct := by
  intro g hg g' hg' hp
  rw [h.created] at hg hg'
  rw [h.path, h.path] at hp
  exact hd g hg g' hg' hp

theorem Distinct.register (hd : r.Distinct) {path : String}
    (hp : ∀ h < r.created, (r.handles h).path ≠ path) : (r.register path).Distinct := by
  have new : ∀ h < r.created, ((r.register path).handles h).path ≠
      ((r.register path).handles r.created).path := by
    intro h hh
    rw [register_handles hh, register_handles_created]
    exact hp h hh
  intro g hg h hh he
  have hg : g < r.created + 1 := hg
  have hh : h < r.created + 1 := hh
  rcases Nat.lt_succ_iff_lt_or_eq.mp hg with hg | rfl
  · rcases Nat.lt_succ_iff_lt_or_eq.mp hh with hh | rfl
    · rw [register_handles hg, register_handles hh] at he
      exact hd g hg h hh he
    · exact absurd he (new g hg)
  · rcases Nat.lt_succ_iff_lt_or_eq.mp hh with hh | rfl
    · exact absurd he.symm (new h hh)
    · rfl

/-- If a path is registered that an earlier handle has, one of the two does not stand for itself. -/
theorem not_denotes_register {path : String} {h : ℕ} (hh : h < r.created)
    (hp : (r.handles h).path = path) : ∃ g < (r.register path).created,
      ¬ (r.register path).Denotes g := by
  by_cases hm : path ∈ r.content
  · -- The older entry stays, and the new handle is found nowhere.
    refine ⟨r.created, Nat.lt_succ_self _, ?_⟩
    rw [denotes_iff, register_handles_created]
    intro hown
    obtain ⟨q, hq⟩ := Option.isSome_iff_exists.mp (AList.lookup_isSome.mpr hm)
    have hq' : (r.register path).content.lookup path = some q := by
      simp only [Registry.register, if_pos hm]
      exact hq
    have he : q = r.created := hown q hq'
    obtain ⟨hlt, -⟩ := r.wf path q hq
    omega
  · refine ⟨h, Nat.lt_succ_of_lt hh, ?_⟩
    rw [denotes_iff, register_handles hh, hp]
    intro hown
    have he : r.created = h := hown r.created (lookup_register.mpr hm)
    omega

end Registry

end Loon
