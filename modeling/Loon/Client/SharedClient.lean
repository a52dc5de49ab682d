import Mathlib.Data.Finset.Card
import Mathlib.Data.Finset.Range
import Loon.Lib.Machine

set_option autoImplicit false

/-!
# Shared clients

`SharedClientImpl` and the global `SharedClientState` behind it. A wrapped client is used through any
number of shared clients; the state counts them, and holds their callbacks under the index that each
shared client was given. Wrapped clients are of any type `κ`; what the shared clients ask of them is
in the event. A callback is the object that its function captures.

* `SharedInv`: the counter of a wrapped client is the number of its shared clients, their indices
  are different, and the ready callback of each of them is set;
* **`no_dangling_callback`**: callbacks belong to shared clients that are alive, on every run on
  which a shared client is destroyed only as the last one of its wrapped client; and a run that
  breaks this has a callback of a destroyed object.
-/

namespace Loon

/-- `SharedReferenceCounter::ReferenceCounter`. -/
structure ReferenceCounter where
  references : ℕ
  nextIndex : ℕ
  deriving DecidableEq, Repr

/-- `SharedClientImpl`. -/
structure SharedClient (κ : Type) where
  client : κ
  index : ℕ
  started : Bool
  idling : Bool
  onReadyCalled : Bool

/-- `CallbackMap`: the objects that the callbacks capture. -/
abbrev CallbackMap := ℕ → Option ℕ

section Maps

variable {κ : Type} [DecidableEq κ]

/-- `SharedReferenceCounter`. -/
abbrev SharedReferenceCounter (κ : Type) := κ → Option ReferenceCounter

namespace SharedReferenceCounter

/-- `add`, with the index it returns. -/
def add (m : SharedReferenceCounter κ) (client : κ) : SharedReferenceCounter κ × ℕ :=
  let counter := (m client).getD ⟨0, 0⟩
  (Function.update m client (some ⟨counter.references + 1, counter.nextIndex + 1⟩),
    counter.nextIndex)

/-- `remove`, with the number of references before. -/
def remove (m : SharedReferenceCounter κ) (client : κ) : SharedReferenceCounter κ × ℕ :=
  match m client with
  | none => (m, 0)
  | some counter =>
    if counter.references ≤ 1 then (Function.update m client none, counter.references)
    else (Function.update m client (some { counter with references := counter.references - 1 }),
      counter.references)

def count (m : SharedReferenceCounter κ) (client : κ) : ℕ := (m client).elim 0 (·.references)

end SharedReferenceCounter

/-- `ClientCallbackMap`. -/
abbrev ClientCallbackMap (κ : Type) := κ → Option CallbackMap

namespace ClientCallbackMap

/-- `get`, which inserts an empty map. -/
def get (m : ClientCallbackMap κ) (client : κ) : ClientCallbackMap κ :=
  Function.update m client (some ((m client).getD fun _ => none))

/-- `get(client)->set(key, callback)`; a null callback unsets the key. -/
def set (m : ClientCallbackMap κ) (client : κ) (key : ℕ) (callback : Option ℕ) :
    ClientCallbackMap κ :=
  Function.update m client (some (Function.update ((m client).getD fun _ => none) key callback))

def erase (m : ClientCallbackMap κ) (client : κ) : ClientCallbackMap κ :=
  Function.update m client none

/-- The callback for a client and an index. -/
def callback (m : ClientCallbackMap κ) (client : κ) (index : ℕ) : Option ℕ :=
  (m client).bind fun callbacks => callbacks index

end ClientCallbackMap

end Maps

/-- The global state, with the shared clients that are alive. -/
structure SharedState (κ : Type) where
  objects : ℕ → Option (SharedClient κ)
  created : ℕ
  refs : SharedReferenceCounter κ
  started : SharedReferenceCounter κ
  idling : SharedReferenceCounter κ
  onReady : ClientCallbackMap κ
  onDisconnect : ClientCallbackMap κ
  onFailed : ClientCallbackMap κ

/-- The calls on a shared client: `wasStarted` and `ready` are what `start` finds the wrapped client
to be, `running` whether `idle` finds it started, `callback` whether the function is not null. -/
inductive SharedEvent (κ : Type) where
  | construct (client : κ)
  | start (object : ℕ) (wasStarted ready : Bool)
  | stop (object : ℕ)
  | idle (object : ℕ) (state running : Bool)
  | onReady (object : ℕ)
  | onDisconnect (object : ℕ)
  | onFailed (object : ℕ) (callback : Bool)
  | destroy (object : ℕ)
  deriving DecidableEq, Repr

namespace SharedState

variable {κ : Type} [DecidableEq κ]

def init : SharedState κ where
  objects := fun _ => none
  created := 0
  refs := fun _ => none
  started := fun _ => none
  idling := fun _ => none
  onReady := fun _ => none
  onDisconnect := fun _ => none
  onFailed := fun _ => none

variable (s : SharedState κ)

/-- Change the flags of the object `p`. -/
def modify (p : ℕ) (f : SharedClient κ → SharedClient κ) : SharedState κ :=
  { s with objects := Function.update s.objects p ((s.objects p).map f) }

/-- The constructor, with `SharedClientState::add`. -/
def construct (client : κ) : SharedState κ :=
  let (refs, index) := s.refs.add client
  let p := s.created
  { s with
    objects := Function.update s.objects p
      (some { client, index, started := false, idling := false, onReadyCalled := false })
    created := p + 1
    refs := refs
    onReady := s.onReady.set client index (some p)
    onDisconnect := s.onDisconnect.set client index (some p)
    onFailed := s.onFailed.get client }

/-- The ready callback of an index runs, if there is one: it sets the flag of its object if that
is started. -/
def callReady (client : κ) (index : ℕ) : SharedState κ :=
  match s.onReady.callback client index with
  | some q => s.modify q fun o => if o.started then { o with onReadyCalled := true } else o
  | none => s

/-- The disconnect callback of an index runs, if there is one. -/
def callDisconnect (client : κ) (index : ℕ) : SharedState κ :=
  match s.onDisconnect.callback client index with
  | some q => s.modify q fun o => { o with onReadyCalled := false }
  | none => s

/-- `internal_reset_idling`. -/
def resetIdling (p : ℕ) (o : SharedClient κ) : SharedState κ :=
  if o.idling then
    { s.modify p fun o => { o with idling := false } with
      idling := (s.idling.remove o.client).1 }
  else s

def start (p : ℕ) (o : SharedClient κ) (wasStarted ready : Bool) : SharedState κ :=
  let s := s.resetIdling p o
  if o.started then s
  else
    let s := { s.modify p fun o => { o with started := true, onReadyCalled := false } with
      started := (s.started.add o.client).1 }
    if wasStarted && ready then s.callReady o.client o.index else s

/-- `stop`; the wrapped client is stopped with its last started shared client. -/
def stop (p : ℕ) (o : SharedClient κ) : SharedState κ :=
  let s := s.resetIdling p o
  if !o.started then s
  else
    let (started, previousCount) := s.started.remove o.client
    let s := { s with started := started }
    let s := if previousCount = 1 then s else s.callDisconnect o.client o.index
    s.modify p fun o => { o with started := false }

/-- `internal_idle`. -/
def idle (p : ℕ) (o : SharedClient κ) (state running : Bool) : SharedState κ :=
  if !(o.started && running) then s
  else if o.idling = state then s
  else if state then
    { s.modify p fun o => { o with idling := true } with idling := (s.idling.add o.client).1 }
  else
    { s.modify p fun o => { o with idling := false } with idling := (s.idling.remove o.client).1 }

/-- `SharedClientState::remove`. -/
def remove (client : κ) : SharedState κ :=
  let s := { s with refs := (s.refs.remove client).1 }
  if s.refs.count client = 0 then
    { s with
      onReady := s.onReady.erase client
      onDisconnect := s.onDisconnect.erase client
      onFailed := s.onFailed.erase client
      refs := Function.update s.refs client none
      started := Function.update s.started client none
      idling := Function.update s.idling client none }
  else s

/-- The destructor. -/
def destroy (p : ℕ) (o : SharedClient κ) : SharedState κ :=
  let s := (s.stop p o).remove o.client
  { s with objects := Function.update s.objects p none }

def step : SharedEvent κ → Option (SharedState κ)
  | .construct client => some (s.construct client)
  | .start p wasStarted ready => (s.objects p).map fun o => s.start p o wasStarted ready
  | .stop p => (s.objects p).map fun o => s.stop p o
  | .idle p state running => (s.objects p).map fun o => s.idle p o state running
  | .onReady p =>
    (s.objects p).map fun o => { s with onReady := s.onReady.set o.client o.index (some p) }
  | .onDisconnect p =>
    (s.objects p).map fun o =>
      { s with onDisconnect := s.onDisconnect.set o.client o.index (some p) }
  | .onFailed p callback =>
    (s.objects p).map fun o =>
      { s with onFailed := s.onFailed.set o.client o.index (if callback then some p else none) }
  | .destroy p => (s.objects p).map fun o => s.destroy p o

end SharedState

/-- **The machine of the shared clients.** -/
def sharedClients {κ : Type} [DecidableEq κ] : Machine (SharedState κ) (SharedEvent κ) where
  init := SharedState.init
  step := SharedState.step

/-! ## Callbacks and objects -/

section Callbacks

variable {κ : Type} [DecidableEq κ]

namespace ClientCallbackMap

variable (m : ClientCallbackMap κ) (client c : κ) (key i : ℕ)

@[simp] theorem callback_set (v : Option ℕ) :
    (m.set client key v).callback c i =
      if c = client ∧ i = key then v else m.callback c i := by
  unfold callback set
  by_cases hc : c = client
  · subst hc
    by_cases hi : i = key
    · simp [hi]
    · cases m c <;> simp [hi]
  · simp [hc]

@[simp] theorem callback_get : (m.get client).callback c i = m.callback c i := by
  unfold callback get
  by_cases hc : c = client
  · subst hc
    cases m c <;> simp
  · simp [hc]

@[simp] theorem callback_erase :
    (m.erase client).callback c i = if c = client then none else m.callback c i := by
  unfold callback erase
  by_cases hc : c = client
  · simp [hc]
  · simp [hc]

end ClientCallbackMap

namespace SharedState

variable (s : SharedState κ)

/-- The wrapped client and the index of an object that is alive. -/
def keyOf (p : ℕ) : Option (κ × ℕ) := (s.objects p).map fun o => (o.client, o.index)

/-- The objects of a wrapped client that are alive. -/
def aliveOf (c : κ) : Finset ℕ :=
  (Finset.range s.created).filter fun p => (s.keyOf p).map Prod.fst = some c

/-- A shared client of `c` with the index `i` is alive. -/
def Alive (c : κ) (i : ℕ) : Prop :=
  ∃ p o, s.objects p = some o ∧ o.client = c ∧ o.index = i

/-- **No dangling callback**: a callback is set only for an index of a shared client that is
alive. -/
def NoDangling : Prop :=
  ∀ c i, ((s.onReady.callback c i).isSome ∨ (s.onDisconnect.callback c i).isSome ∨
    (s.onFailed.callback c i).isSome) → s.Alive c i

/-- An object is destroyed as the last one of its wrapped client. -/
def LastOne : SharedEvent κ → Prop
  | .destroy p => ∀ o, s.objects p = some o →
    ∀ q o', s.objects q = some o' → o'.client = o.client → q = p
  | _ => True

/-- `s'` has the objects, counters and callbacks of `s`; flags may differ. -/
structure Quiet (s' : SharedState κ) : Prop where
  key : s'.keyOf = s.keyOf
  created : s'.created = s.created
  refs : s'.refs = s.refs
  ready : s'.onReady = s.onReady
  disconnect : s'.onDisconnect = s.onDisconnect
  failed : s'.onFailed = s.onFailed

variable {s} {s' : SharedState κ}

omit [DecidableEq κ] in
theorem alive_iff {c : κ} {i : ℕ} : s.Alive c i ↔ ∃ p, s.keyOf p = some (c, i) := by
  unfold Alive keyOf
  simp only [Option.map_eq_some_iff, Prod.mk.injEq]

omit [DecidableEq κ] in
theorem keyOf_eq_some {p : ℕ} {o : SharedClient κ} (h : s.objects p = some o) :
    s.keyOf p = some (o.client, o.index) := by
  rw [keyOf, h]
  rfl

omit [DecidableEq κ] in
theorem Quiet.refl (s : SharedState κ) : s.Quiet s := ⟨rfl, rfl, rfl, rfl, rfl, rfl⟩

omit [DecidableEq κ] in
theorem Quiet.trans {s₁ : SharedState κ} (h : s.Quiet s₁) (h' : s₁.Quiet s') : s.Quiet s' :=
  ⟨h'.key.trans h.key, h'.created.trans h.created, h'.refs.trans h.refs, h'.ready.trans h.ready,
    h'.disconnect.trans h.disconnect, h'.failed.trans h.failed⟩

/-! ## Calls that only change flags -/

omit [DecidableEq κ] in
/-- Changes of the flags of an object and of the counters for them. -/
theorem quiet_modify (p : ℕ) {f : SharedClient κ → SharedClient κ}
    (hf : ∀ o, (f o).client = o.client ∧ (f o).index = o.index)
    (started idling : SharedReferenceCounter κ) :
    s.Quiet { s.modify p f with started := started, idling := idling } := by
  refine ⟨?_, rfl, rfl, rfl, rfl, rfl⟩
  funext q
  unfold keyOf modify
  by_cases hq : q = p
  · subst hq
    cases s.objects q with
    | none => simp
    | some o => simp [hf o]
  · simp [hq]

theorem quiet_resetIdling (p : ℕ) (o : SharedClient κ) : s.Quiet (s.resetIdling p o) := by
  unfold resetIdling
  split_ifs
  · exact quiet_modify p (by intro o; exact ⟨rfl, rfl⟩) s.started _
  · exact .refl s

omit [DecidableEq κ] in
theorem quiet_callReady (c : κ) (i : ℕ) : s.Quiet (s.callReady c i) := by
  unfold callReady
  split
  · refine quiet_modify _ (fun o => ?_) s.started s.idling
    split_ifs <;> exact ⟨rfl, rfl⟩
  · exact .refl s

omit [DecidableEq κ] in
theorem quiet_callDisconnect (c : κ) (i : ℕ) : s.Quiet (s.callDisconnect c i) := by
  unfold callDisconnect
  split
  · exact quiet_modify _ (by intro o; exact ⟨rfl, rfl⟩) s.started s.idling
  · exact .refl s

theorem quiet_start (p : ℕ) (o : SharedClient κ) (wasStarted ready : Bool) :
    s.Quiet (s.start p o wasStarted ready) := by
  have hr := quiet_resetIdling (s := s) p o
  unfold start
  split_ifs
  · exact hr
  · refine hr.trans (.trans ?_ (quiet_callReady o.client o.index))
    exact quiet_modify p (by intro o; exact ⟨rfl, rfl⟩) _ (s.resetIdling p o).idling
  · exact hr.trans (quiet_modify p (by intro o; exact ⟨rfl, rfl⟩) _ (s.resetIdling p o).idling)

theorem quiet_stop (p : ℕ) (o : SharedClient κ) : s.Quiet (s.stop p o) := by
  have hr := quiet_resetIdling (s := s) p o
  have hcount : (s.resetIdling p o).Quiet { s.resetIdling p o with
      started := ((s.resetIdling p o).started.remove o.client).1 } := ⟨rfl, rfl, rfl, rfl, rfl, rfl⟩
  unfold stop
  split_ifs
  · exact hr
  · refine hr.trans (.trans ?_ (quiet_modify p (by intro o; exact ⟨rfl, rfl⟩) _ _))
    split_ifs
    · exact hcount
    · exact hcount.trans (quiet_callDisconnect o.client o.index)

theorem quiet_idle (p : ℕ) (o : SharedClient κ) (state running : Bool) :
    s.Quiet (s.idle p o state running) := by
  unfold idle
  split_ifs
  · exact .refl s
  · exact .refl s
  · exact quiet_modify p (by intro o; exact ⟨rfl, rfl⟩) s.started _
  · exact quiet_modify p (by intro o; exact ⟨rfl, rfl⟩) s.started _

/-! ## The invariant -/

variable (s) in
/-- **The invariant of the shared clients.** -/
structure SharedInv : Prop where
  bound : ∀ p k, s.keyOf p = some k → p < s.created
  counted : ∀ c, s.refs.count c = (s.aliveOf c).card
  indexed : ∀ p c i, s.keyOf p = some (c, i) → ∃ counter, s.refs c = some counter ∧
    i < counter.nextIndex
  unique : ∀ p q k, s.keyOf p = some k → s.keyOf q = some k → p = q
  ready : ∀ p c i, s.keyOf p = some (c, i) → (s.onReady.callback c i).isSome

theorem sharedInv_init : SharedInv (SharedState.init (κ := κ)) where
  bound p k h := by cases h
  counted c := rfl
  indexed p c i h := by cases h
  unique p q k h := by cases h
  ready p c i h := by cases h

theorem Quiet.aliveOf (h : s.Quiet s') (c : κ) : s'.aliveOf c = s.aliveOf c := by
  unfold SharedState.aliveOf
  rw [h.key, h.created]

theorem Quiet.inv (h : s.Quiet s') (hI : SharedInv s) : SharedInv s' := by
  refine ⟨?_, ?_, ?_, ?_, ?_⟩
  · rw [h.key, h.created]; exact hI.bound
  · intro c; rw [h.refs, h.aliveOf]; exact hI.counted c
  · rw [h.key, h.refs]; exact hI.indexed
  · rw [h.key]; exact hI.unique
  · rw [h.key, h.ready]; exact hI.ready

omit [DecidableEq κ] in
theorem Quiet.noDangling_iff (h : s.Quiet s') : s'.NoDangling ↔ s.NoDangling := by
  unfold NoDangling
  simp only [alive_iff]
  rw [h.key, h.ready, h.disconnect, h.failed]

theorem mem_aliveOf (hI : SharedInv s) {p : ℕ} {c : κ} :
    p ∈ s.aliveOf c ↔ ∃ i, s.keyOf p = some (c, i) := by
  unfold SharedState.aliveOf
  rw [Finset.mem_filter, Finset.mem_range]
  constructor
  · rintro ⟨-, h⟩
    obtain ⟨⟨c', i⟩, hk, rfl⟩ := Option.map_eq_some_iff.mp h
    exact ⟨i, hk⟩
  · rintro ⟨i, hk⟩
    exact ⟨hI.bound p _ hk, by rw [hk]; rfl⟩

/-! ## Construction -/

theorem keyOf_construct (c : κ) :
    (s.construct c).keyOf =
      Function.update s.keyOf s.created (some (c, (s.refs.add c).2)) := by
  funext q
  unfold keyOf construct
  by_cases hq : q = s.created
  · simp [hq]
  · simp [hq]

theorem aliveOf_construct (c c' : κ) :
    (s.construct c).aliveOf c' =
      if c = c' then insert s.created (s.aliveOf c') else s.aliveOf c' := by
  unfold SharedState.aliveOf
  rw [keyOf_construct, show (s.construct c).created = s.created + 1 from rfl,
    Finset.range_add_one, Finset.filter_insert]
  have hrest : (Finset.range s.created).filter (fun p =>
      (Function.update s.keyOf s.created (some (c, (s.refs.add c).2)) p).map Prod.fst = some c') =
      (Finset.range s.created).filter (fun p => (s.keyOf p).map Prod.fst = some c') := by
    refine Finset.filter_congr fun p hp => ?_
    rw [Function.update_of_ne (Finset.mem_range.mp hp).ne]
  rw [hrest]
  simp

theorem count_add (m : SharedReferenceCounter κ) (c c' : κ) :
    (m.add c).1.count c' = if c = c' then m.count c' + 1 else m.count c' := by
  unfold SharedReferenceCounter.count SharedReferenceCounter.add
  by_cases hc : c = c'
  · subst hc
    cases m c <;> simp
  · simp [hc, Function.update_of_ne (Ne.symm hc)]

theorem SharedInv.construct (hI : SharedInv s) (c : κ) : SharedInv (s.construct c) := by
  have hnew : ∀ k, s.keyOf s.created ≠ some k := fun k hk => (hI.bound _ k hk).false
  refine ⟨?_, ?_, ?_, ?_, ?_⟩
  · intro p k hk
    rw [keyOf_construct] at hk
    by_cases hp : p = s.created
    · rw [hp]
      exact Nat.lt_succ_self _
    · rw [Function.update_of_ne hp] at hk
      exact (hI.bound p k hk).trans (Nat.lt_succ_self _)
  · intro c'
    show (s.refs.add c).1.count c' = _
    rw [count_add, aliveOf_construct, hI.counted]
    split_ifs
    · rw [Finset.card_insert_of_notMem]
      simp [SharedState.aliveOf]
    · rfl
  · intro p c' i hk
    rw [keyOf_construct] at hk
    by_cases hp : p = s.created
    · rw [hp, Function.update_self] at hk
      cases hk
      exact ⟨_, Function.update_self _ _ _, Nat.lt_succ_self _⟩
    · rw [Function.update_of_ne hp] at hk
      obtain ⟨counter, hc, hlt⟩ := hI.indexed p c' i hk
      by_cases hcc : c' = c
      · subst hcc
        refine ⟨_, Function.update_self _ _ _, ?_⟩
        rw [hc]
        exact hlt.trans (Nat.lt_succ_self _)
      · exact ⟨counter, (Function.update_of_ne hcc _ _).trans hc, hlt⟩
  · -- the index of a new object is not the one of an object before
    have hfresh : ∀ q, s.keyOf q ≠ some (c, (s.refs.add c).2) := by
      intro q hq
      obtain ⟨counter, hc, hlt⟩ := hI.indexed q c _ hq
      simp only [SharedReferenceCounter.add, hc, Option.getD_some] at hlt
      exact hlt.false
    intro p q k hp hq
    rw [keyOf_construct] at hp hq
    by_cases hp' : p = s.created
    · by_cases hq' : q = s.created
      · rw [hp', hq']
      · rw [hp', Function.update_self] at hp
        rw [Function.update_of_ne hq', ← hp] at hq
        exact absurd hq (hfresh q)
    · by_cases hq' : q = s.created
      · rw [hq', Function.update_self] at hq
        rw [Function.update_of_ne hp', ← hq] at hp
        exact absurd hp (hfresh p)
      · rw [Function.update_of_ne hp'] at hp
        rw [Function.update_of_ne hq'] at hq
        exact hI.unique p q k hp hq
  · intro p c' i hk
    rw [keyOf_construct] at hk
    show ((s.onReady.set c (s.refs.add c).2 (some s.created)).callback c' i).isSome
    rw [ClientCallbackMap.callback_set]
    split_ifs with hci
    · rfl
    · by_cases hp : p = s.created
      · rw [hp, Function.update_self] at hk
        cases hk
        exact absurd ⟨rfl, rfl⟩ hci
      · rw [Function.update_of_ne hp] at hk
        exact hI.ready p c' i hk

theorem NoDangling.construct (h : s.NoDangling) (hI : SharedInv s) (c : κ) :
    (s.construct c).NoDangling := by
  intro c' i hcb
  rw [alive_iff, keyOf_construct]
  by_cases hci : c' = c ∧ i = (s.refs.add c).2
  · obtain ⟨rfl, rfl⟩ := hci
    exact ⟨s.created, Function.update_self _ _ _⟩
  · have hold : s.Alive c' i := by
      refine h c' i ?_
      simpa [SharedState.construct, hci] using hcb
    obtain ⟨p, hp⟩ := alive_iff.mp hold
    refine ⟨p, ?_⟩
    rw [Function.update_of_ne (hI.bound p _ hp).ne]
    exact hp

/-! ## Setting callbacks -/

theorem SharedInv.callbacks (hI : SharedInv s) {r : ClientCallbackMap κ} (d f : ClientCallbackMap κ)
    (hr : ∀ c i, (s.onReady.callback c i).isSome → (r.callback c i).isSome) :
    SharedInv { s with onReady := r, onDisconnect := d, onFailed := f } where
  bound := hI.bound
  counted := hI.counted
  indexed := hI.indexed
  unique := hI.unique
  ready p c i hk := hr c i (hI.ready p c i hk)

theorem isSome_callback_set {m : ClientCallbackMap κ} {c c' : κ} {i j : ℕ} {v : Option ℕ}
    (h : ((m.set c i v).callback c' j).isSome) : (c' = c ∧ j = i) ∨ (m.callback c' j).isSome := by
  rw [ClientCallbackMap.callback_set] at h
  split_ifs at h with hcj
  · exact .inl hcj
  · exact .inr h

/-! ## Destruction -/

theorem count_remove (m : SharedReferenceCounter κ) (c : κ) :
    (m.remove c).1.count c = m.count c - 1 := by
  unfold SharedReferenceCounter.remove SharedReferenceCounter.count
  cases hm : m c with
  | none => simp [hm]
  | some counter =>
    simp only [Option.elim_some]
    split_ifs with hle
    · simp only [Function.update_self, Option.elim_none]
      omega
    · simp only [Function.update_self, Option.elim_some]

theorem remove_of_ne (m : SharedReferenceCounter κ) {c c' : κ} (h : c' ≠ c) :
    (m.remove c).1 c' = m c' := by
  unfold SharedReferenceCounter.remove
  split
  · rfl
  · split_ifs <;> exact Function.update_of_ne h _ _

theorem nextIndex_remove {m : SharedReferenceCounter κ} {c : κ} {counter : ReferenceCounter}
    (h : m c = some counter) (hlt : 1 < m.count c) :
    ∃ counter', (m.remove c).1 c = some counter' ∧ counter'.nextIndex = counter.nextIndex := by
  have hcount : m.count c = counter.references := by
    rw [SharedReferenceCounter.count, h, Option.elim_some]
  have hgt : ¬ counter.references ≤ 1 := by omega
  unfold SharedReferenceCounter.remove
  simp only [h, hgt, if_false, Function.update_self]
  exact ⟨_, rfl, rfl⟩

/-- What the destructor of the object `p` does to the global state; the callbacks are erased with the
last reference. -/
structure Destroyed (s : SharedState κ) (p : ℕ) (o : SharedClient κ) (s' : SharedState κ) :
    Prop where
  key : s'.keyOf = Function.update s.keyOf p none
  created : s'.created = s.created
  refs : ∀ c, c ≠ o.client → s'.refs c = s.refs c
  count : s'.refs.count o.client = s.refs.count o.client - 1
  next : ∀ counter, s.refs o.client = some counter → 1 < s.refs.count o.client →
    ∃ counter', s'.refs o.client = some counter' ∧ counter'.nextIndex = counter.nextIndex
  ready : ∀ c i, s'.onReady.callback c i =
    if c = o.client ∧ s.refs.count o.client ≤ 1 then none else s.onReady.callback c i
  disconnect : ∀ c i, s'.onDisconnect.callback c i =
    if c = o.client ∧ s.refs.count o.client ≤ 1 then none else s.onDisconnect.callback c i
  failed : ∀ c i, s'.onFailed.callback c i =
    if c = o.client ∧ s.refs.count o.client ≤ 1 then none else s.onFailed.callback c i

omit [DecidableEq κ] in
theorem keyOf_erase (p : ℕ) :
    SharedState.keyOf { s with objects := Function.update s.objects p none } =
      Function.update s.keyOf p none := by
  funext q
  unfold keyOf
  by_cases hq : q = p
  · simp [hq]
  · simp [hq]

theorem destroy_spec (p : ℕ) (o : SharedClient κ) : Destroyed s p o (s.destroy p o) := by
  have hq := quiet_stop (s := s) p o
  have hkey : ∀ s₁ : SharedState κ, s₁.objects = (s.stop p o).objects →
      SharedState.keyOf { s₁ with objects := Function.update s₁.objects p none } =
        Function.update s.keyOf p none := by
    intro s₁ h₁
    rw [keyOf_erase, ← hq.key]
    unfold keyOf
    rw [h₁]
  unfold SharedState.destroy SharedState.remove
  simp only [count_remove, hq.refs]
  split_ifs with hlast
  · -- the last reference
    have hle : s.refs.count o.client ≤ 1 := by omega
    refine ⟨hkey _ rfl, hq.created, ?_, ?_, fun _ _ hlt => absurd hle (by omega), ?_, ?_, ?_⟩
    · intro c hc
      exact (Function.update_of_ne hc _ _).trans (remove_of_ne s.refs hc)
    · show SharedReferenceCounter.count (Function.update _ _ _) _ = _
      rw [SharedReferenceCounter.count, Function.update_self, Option.elim_none, hlast]
    · intro c i
      simp [hle, hq.ready]
    · intro c i
      simp [hle, hq.disconnect]
    · intro c i
      simp [hle, hq.failed]
  · have hlt : ¬ s.refs.count o.client ≤ 1 := by omega
    refine ⟨hkey _ rfl, hq.created, fun c hc => remove_of_ne s.refs hc, count_remove s.refs _,
      fun counter hc h1 => nextIndex_remove hc h1, ?_, ?_, ?_⟩
    · intro c i
      simp [hlt, hq.ready]
    · intro c i
      simp [hlt, hq.disconnect]
    · intro c i
      simp [hlt, hq.failed]

theorem Destroyed.aliveOf {p : ℕ} {o : SharedClient κ} (h : Destroyed s p o s') (c : κ) :
    s'.aliveOf c = (s.aliveOf c).erase p := by
  ext q
  simp only [SharedState.aliveOf, h.key, h.created, Finset.mem_filter, Finset.mem_erase,
    Finset.mem_range]
  by_cases hq : q = p
  · simp [hq]
  · simp [hq]

theorem Destroyed.keyOf_eq_some {p q : ℕ} {o : SharedClient κ} {k : κ × ℕ}
    (h : Destroyed s p o s') : s'.keyOf q = some k ↔ q ≠ p ∧ s.keyOf q = some k := by
  rw [h.key]
  by_cases hq : q = p
  · simp [hq]
  · simp [hq]

/-- Another shared client of the same wrapped client keeps the counter above one. -/
theorem SharedInv.one_lt_count (hI : SharedInv s) {p q : ℕ} {c : κ} {i j : ℕ}
    (hp : s.keyOf p = some (c, i)) (hq : s.keyOf q = some (c, j)) (hne : q ≠ p) :
    1 < s.refs.count c := by
  rw [hI.counted, Finset.one_lt_card]
  exact ⟨q, (mem_aliveOf hI).mpr ⟨j, hq⟩, p, (mem_aliveOf hI).mpr ⟨i, hp⟩, hne⟩

theorem Destroyed.inv {p : ℕ} {o : SharedClient κ} (h : Destroyed s p o s') (hI : SharedInv s)
    (ho : s.keyOf p = some (o.client, o.index)) : SharedInv s' := by
  refine ⟨?_, ?_, ?_, ?_, ?_⟩
  · intro q k hk
    rw [h.created]
    exact hI.bound q k (h.keyOf_eq_some.mp hk).2
  · intro c
    rw [h.aliveOf]
    by_cases hc : c = o.client
    · subst hc
      rw [h.count, hI.counted, Finset.card_erase_of_mem ((mem_aliveOf hI).mpr ⟨o.index, ho⟩)]
    · have hnot : p ∉ s.aliveOf c := by
        rw [mem_aliveOf hI]
        rintro ⟨i, hi⟩
        rw [ho] at hi
        cases hi
        exact hc rfl
      rw [Finset.erase_eq_of_notMem hnot, ← hI.counted]
      simp only [SharedReferenceCounter.count, h.refs c hc]
  · intro q c i hk
    obtain ⟨hne, hq⟩ := h.keyOf_eq_some.mp hk
    obtain ⟨counter, hc, hlt⟩ := hI.indexed q c i hq
    by_cases hcc : c = o.client
    · subst hcc
      obtain ⟨counter', hc', hnext⟩ := h.next counter hc (hI.one_lt_count ho hq hne)
      exact ⟨counter', hc', by rw [hnext]; exact hlt⟩
    · exact ⟨counter, (h.refs c hcc).trans hc, hlt⟩
  · intro q r k hq hr
    exact hI.unique q r k (h.keyOf_eq_some.mp hq).2 (h.keyOf_eq_some.mp hr).2
  · intro q c i hk
    obtain ⟨hne, hq⟩ := h.keyOf_eq_some.mp hk
    have hkeep : ¬ (c = o.client ∧ s.refs.count o.client ≤ 1) := by
      rintro ⟨rfl, hle⟩
      exact absurd (hI.one_lt_count ho hq hne) (by omega)
    rw [h.ready, if_neg hkeep]
    exact hI.ready q c i hq

/-- **The callbacks after a destruction.** They belong to objects that are alive exactly if the object
was the last one of its wrapped client. -/
theorem Destroyed.noDangling_iff {p : ℕ} {o : SharedClient κ} (h : Destroyed s p o s')
    (hI : SharedInv s) (ho : s.objects p = some o) (hN : s.NoDangling) :
    s'.NoDangling ↔ s.LastOne (.destroy p) := by
  have hkey := SharedState.keyOf_eq_some ho
  constructor
  · intro hN' o' ho' q oq hq hclient
    rw [ho] at ho'
    cases ho'
    by_contra hne
    have hkq := SharedState.keyOf_eq_some hq
    rw [hclient] at hkq
    -- the ready callback of `p` is still there
    have hset : (s'.onReady.callback o.client o.index).isSome := by
      rw [h.ready, if_neg]
      · exact hI.ready p _ _ hkey
      · rintro ⟨-, hle⟩
        exact absurd (hI.one_lt_count hkey hkq hne) (by omega)
    obtain ⟨r, hr⟩ := alive_iff.mp (hN' _ _ (.inl hset))
    obtain ⟨hrp, hr'⟩ := h.keyOf_eq_some.mp hr
    exact hrp (hI.unique r p _ hr' hkey)
  · intro hlast c i hcb
    have hle : s.refs.count o.client ≤ 1 := by
      rw [hI.counted, Finset.card_le_one]
      intro a ha b hb
      have hall : ∀ q ∈ s.aliveOf o.client, q = p := by
        intro q hq
        obtain ⟨j, hj⟩ := (mem_aliveOf hI).mp hq
        obtain ⟨oq, hoq, hcq⟩ := Option.map_eq_some_iff.mp hj
        exact hlast o ho q oq hoq (congrArg Prod.fst hcq)
      rw [hall a ha, hall b hb]
    rw [h.ready, h.disconnect, h.failed] at hcb
    by_cases hc : c = o.client
    · simp [hc, hle] at hcb
    · simp only [hc, false_and, if_false] at hcb
      obtain ⟨q, hq⟩ := alive_iff.mp (hN c i hcb)
      refine alive_iff.mpr ⟨q, h.keyOf_eq_some.mpr ⟨?_, hq⟩⟩
      rintro rfl
      rw [hkey] at hq
      cases hq
      exact hc rfl

/-! ## Runs -/

/-- **What one step keeps.** -/
theorem step_spec {e : SharedEvent κ} (hI : SharedInv s) (hs : s.step e = some s') :
    SharedInv s' ∧ (s.NoDangling → s.LastOne e → s'.NoDangling) := by
  cases e with
  | construct c =>
    cases hs
    exact ⟨hI.construct c, fun hN _ => hN.construct hI c⟩
  | start p wasStarted ready =>
    obtain ⟨o, -, rfl⟩ := Option.map_eq_some_iff.mp hs
    have hq := quiet_start (s := s) p o wasStarted ready
    exact ⟨hq.inv hI, fun hN _ => hq.noDangling_iff.mpr hN⟩
  | stop p =>
    obtain ⟨o, -, rfl⟩ := Option.map_eq_some_iff.mp hs
    have hq := quiet_stop (s := s) p o
    exact ⟨hq.inv hI, fun hN _ => hq.noDangling_iff.mpr hN⟩
  | idle p state running =>
    obtain ⟨o, -, rfl⟩ := Option.map_eq_some_iff.mp hs
    have hq := quiet_idle (s := s) p o state running
    exact ⟨hq.inv hI, fun hN _ => hq.noDangling_iff.mpr hN⟩
  | onReady p =>
    obtain ⟨o, ho, rfl⟩ := Option.map_eq_some_iff.mp hs
    refine ⟨hI.callbacks s.onDisconnect s.onFailed fun c i hcb => ?_, fun hN _ c i hcb => ?_⟩
    · rw [ClientCallbackMap.callback_set]
      split_ifs
      · rfl
      · exact hcb
    · rcases hcb with hcb | hcb
      · rcases isSome_callback_set hcb with ⟨rfl, rfl⟩ | hcb
        · exact ⟨p, o, ho, rfl, rfl⟩
        · exact hN c i (.inl hcb)
      · exact hN c i (.inr hcb)
  | onDisconnect p =>
    obtain ⟨o, ho, rfl⟩ := Option.map_eq_some_iff.mp hs
    refine ⟨hI.callbacks _ s.onFailed fun c i hcb => hcb, fun hN _ c i hcb => ?_⟩
    rcases hcb with hcb | hcb | hcb
    · exact hN c i (.inl hcb)
    · rcases isSome_callback_set hcb with ⟨rfl, rfl⟩ | hcb
      · exact ⟨p, o, ho, rfl, rfl⟩
      · exact hN c i (.inr (.inl hcb))
    · exact hN c i (.inr (.inr hcb))
  | onFailed p callback =>
    obtain ⟨o, ho, rfl⟩ := Option.map_eq_some_iff.mp hs
    refine ⟨hI.callbacks s.onDisconnect _ fun c i hcb => hcb, fun hN _ c i hcb => ?_⟩
    rcases hcb with hcb | hcb | hcb
    · exact hN c i (.inl hcb)
    · exact hN c i (.inr (.inl hcb))
    · rcases isSome_callback_set hcb with ⟨rfl, rfl⟩ | hcb
      · exact ⟨p, o, ho, rfl, rfl⟩
      · exact hN c i (.inr (.inr hcb))
  | destroy p =>
    obtain ⟨o, ho, rfl⟩ := Option.map_eq_some_iff.mp hs
    have hd := destroy_spec (s := s) p o
    exact ⟨hd.inv hI (SharedState.keyOf_eq_some ho),
      fun hN hlast => (hd.noDangling_iff hI ho hN).mpr hlast⟩

theorem sharedInv_of_run {es : List (SharedEvent κ)}
    (h : sharedClients.run SharedState.init es = some s) : SharedInv s :=
  Machine.run_inv (M := sharedClients) (P := SharedInv) (fun _ _ _ hI hs => (step_spec hI hs).1)
    sharedInv_init h

end SharedState

open SharedState in
/-- **No dangling callbacks**, on every run on which a shared client is destroyed only as the last one
of its wrapped client; and a destruction in a state without dangling callbacks leaves none exactly if
it is such a one. -/
theorem no_dangling_callback {es : List (SharedEvent κ)} {s : SharedState κ}
    (h : sharedClients.run SharedState.init es = some s) :
    (sharedClients.Along SharedState.LastOne SharedState.init es → s.NoDangling) ∧
    (s.NoDangling → ∀ p s', s.step (.destroy p) = some s' →
      (s'.NoDangling ↔ s.LastOne (.destroy p))) := by
  constructor
  · intro hC
    refine (Machine.Along.inv (M := sharedClients) (P := fun s => SharedInv s ∧ s.NoDangling)
      ?_ ⟨sharedInv_init, ?_⟩ hC h).2
    · rintro s₁ e s₂ ⟨hI, hN⟩ hlast hs
      obtain ⟨hI', hN'⟩ := step_spec hI hs
      exact ⟨hI', hN' hN hlast⟩
    · intro c i hcb
      simp [SharedState.init, ClientCallbackMap.callback] at hcb
  · intro hN p s' hs
    obtain ⟨o, ho, rfl⟩ := Option.map_eq_some_iff.mp hs
    exact (destroy_spec p o).noDangling_iff (sharedInv_of_run h) ho hN

end Callbacks

/-! ## Sample runs -/

/-- The state after the events `es`, with one wrapped client. -/
def sharedAfter (es : List (SharedEvent Unit)) : SharedState Unit :=
  (sharedClients.run SharedState.init es).getD SharedState.init

/-- Two shared clients are made and used, one after the other. -/
def oneAfterAnother : List (SharedEvent Unit) :=
  [.construct (), .start 0 false false, .onFailed 0 true, .destroy 0, .construct (), .onReady 1]

theorem no_dangling_callback_oneAfterAnother : (sharedAfter oneAfterAnother).NoDangling := by
  have hrun : sharedClients.run SharedState.init oneAfterAnother =
      some (sharedAfter oneAfterAnother) := rfl
  refine (no_dangling_callback hrun).1 ?_
  refine ⟨trivial, ?_⟩
  rintro _ ⟨⟩
  refine ⟨trivial, ?_⟩
  rintro _ ⟨⟩
  refine ⟨trivial, ?_⟩
  rintro _ ⟨⟩
  refine ⟨?_, ?_⟩
  · rintro o - q o' hq -
    by_contra hne
    simp [SharedState.construct, SharedState.start, SharedState.resetIdling, SharedState.modify,
      SharedState.init, hne] at hq
  rintro _ ⟨⟩
  exact ⟨trivial, fun _ _ => ⟨trivial, fun _ _ => trivial⟩⟩

/-- The first of two shared clients is destroyed, and its callbacks are still set. -/
theorem destroyed_client_keeps_callbacks :
    sharedClients.run SharedState.init [.construct (), .construct (), .destroy 0] =
      some (sharedAfter [.construct (), .construct (), .destroy 0]) ∧
    (sharedAfter [.construct (), .construct (), .destroy 0]).onReady.callback () 0 = some 0 ∧
    (sharedAfter [.construct (), .construct (), .destroy 0]).onDisconnect.callback () 0 = some 0 ∧
    (sharedAfter [.construct (), .construct (), .destroy 0]).objects 0 = none ∧
    ¬ (sharedAfter [.construct (), .construct (), .destroy 0]).NoDangling := by
  refine ⟨rfl, rfl, rfl, rfl, fun h => ?_⟩
  obtain ⟨p, o, ho, -, hi⟩ := h () 0 (.inl rfl)
  match p with
  | 0 => cases ho
  | 1 => cases ho; cases hi
  | p + 2 => cases ho

end Loon
