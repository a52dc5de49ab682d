import Loon.Lib.Machine
import Loon.Lib.Linearize
import Loon.Server.Encoding

set_option autoImplicit false

/-!
# The client manager

`clientManager` as a machine: the `Run` loop owns the map of clients, and any number of goroutines
call `Register`, `Unregister` and `Get`. All channels are unbuffered, so that a send is one step of
the sender and the receiver; a select that has left a channel does not receive on it any more. What
`Run` does with a message before it sends a reply touches only the map, and is part of the step that
receives the message. Clients are of any type `γ` with an id; `Client.Close` returns.

* **`client_manager_linearizable`**: as long as `Run` does not receive a `Register` for an id that is
  in the map, the history of the calls is one of the map `registry`, and `Run` is never stuck;
* **`duplicate_register_wedges`**: `Register` returns nil for such an id, and `Run` waits for a
  receiver of the error forever.
-/

namespace Loon

/-- The errors of the client manager. -/
inductive ManagerError where
  | managerClosed
  | alreadyRegistered
  | notRegistered
  deriving DecidableEq, Repr

inductive ManagerOp (γ : Type) where
  | register (client : γ)
  | unregister (client : γ)
  | get (clientID : UUID)
  deriving DecidableEq

inductive ManagerResult (γ : Type) where
  | nil
  | client (client : γ)
  | error (error : ManagerError)
  deriving DecidableEq

/-- Where a call is: in the select that offers its message, in the select of `Get` for the reply, or
about to return. -/
inductive CallPc (γ : Type) where
  | idle
  | offering (op : ManagerOp γ)
  | awaiting (op : ManagerOp γ)
  | returning (result : ManagerResult γ)
  | returned
  deriving DecidableEq

/-- Where `Run` is: in its select, sending on `out` or `outErr` of a call's message, in
`client.Close()`, in the deferred function, or at its end. -/
inductive RunPc (γ : Type) where
  | select
  | replyOut (call : ℕ) (client : γ)
  | replyErr (call : ℕ) (error : ManagerError)
  | closing (client : γ)
  | stopping
  | finished
  deriving DecidableEq

structure Manager (γ : Type) where
  clients : UUID → Option γ
  pc : RunPc γ
  calls : ℕ → CallPc γ
  done : Bool

/-- The steps: a call starts, `Run` receives the message of a call, sends a reply, returns from
`client.Close()`, receives from `stop`, returns from the deferred function; a call sees `done`; a
call returns. -/
inductive ManagerEvent (γ : Type) where
  | call (call : ℕ) (op : ManagerOp γ)
  | take (call : ℕ)
  | reply
  | closed
  | stop
  | drained
  | giveUp (call : ℕ)
  | ret (call : ℕ)
  deriving DecidableEq

namespace Manager

variable {γ : Type}

def init : Manager γ where
  clients := fun _ => none
  pc := .select
  calls := fun _ => .idle
  done := false

variable (s : Manager γ)

def setCall (call : ℕ) (pc : CallPc γ) : Manager γ :=
  { s with calls := Function.update s.calls call pc }

/-- The loop's select receives a message of the call `call`. -/
def handle (idOf : γ → UUID) (call : ℕ) : ManagerOp γ → Manager γ
  | .get clientID =>
    match s.clients clientID with
    | none => { s.setCall call (.awaiting (.get clientID)) with pc := .replyErr call .notRegistered }
    | some client => { s.setCall call (.awaiting (.get clientID)) with pc := .replyOut call client }
  | .register client =>
    match s.clients (idOf client) with
    | some _ => { s.setCall call (.returning .nil) with pc := .replyErr call .alreadyRegistered }
    | none =>
      { s.setCall call (.returning .nil) with
        clients := Function.update s.clients (idOf client) (some client) }
  | .unregister client =>
    match s.clients (idOf client) with
    | some registered =>
      { s.setCall call (.returning .nil) with
        clients := Function.update s.clients (idOf client) none, pc := .closing registered }
    | none => s.setCall call (.returning .nil)

/-- The loop sends its reply, if the call is in a select that receives it. -/
def sendReply : Option (Manager γ) :=
  match s.pc with
  | .replyOut call client =>
    match s.calls call with
    | .awaiting _ => some { s.setCall call (.returning (.client client)) with pc := .select }
    | _ => none
  | .replyErr call error =>
    match s.calls call with
    | .awaiting _ => some { s.setCall call (.returning (.error error)) with pc := .select }
    -- The select of `Register` receives on `errChan` until it has sent its message.
    | .offering (.register _) =>
      some { s.setCall call (.returning (.error error)) with pc := .select }
    | _ => none
  | _ => none

def step (idOf : γ → UUID) : ManagerEvent γ → Option (Manager γ)
  | .call i op =>
    match s.calls i with
    | .idle => some (s.setCall i (.offering op))
    | _ => none
  | .take i =>
    match s.pc, s.calls i with
    | .select, .offering op => some (s.handle idOf i op)
    | _, _ => none
  | .reply => s.sendReply
  | .closed =>
    match s.pc with
    | .closing _ => some { s with pc := .select }
    | _ => none
  | .stop =>
    match s.pc with
    | .select => some { s with pc := .stopping, done := true }
    | _ => none
  | .drained =>
    match s.pc with
    | .stopping => some { s with pc := .finished, clients := fun _ => none }
    | _ => none
  | .giveUp i =>
    if s.done then
      match s.calls i with
      | .offering _ | .awaiting _ => some (s.setCall i (.returning (.error .managerClosed)))
      | _ => none
    else none
  | .ret i =>
    match s.calls i with
    | .returning _ => some (s.setCall i .returned)
    | _ => none

/-- The history of the calls. -/
def observed : ManagerEvent γ → List (CallEvent (ManagerOp γ) (ManagerResult γ))
  | .call i op => [.inv i op]
  | .ret i =>
    match s.calls i with
    | .returning result => [.ret i result]
    | _ => []
  | _ => []

end Manager

/-- **The client manager** from the start of `Run` on. -/
def clientManager {γ : Type} (idOf : γ → UUID) : Machine (Manager γ) (ManagerEvent γ) where
  init := Manager.init
  step s e := s.step idOf e

/-- A map from ids to clients: what the manager is for. -/
def registry {γ : Type} (idOf : γ → UUID) :
    SeqObject (UUID → Option γ) (ManagerOp γ) (ManagerResult γ) where
  init := fun _ => none
  apply clients
    | .register client =>
      match clients (idOf client) with
      | some _ => (clients, .error .alreadyRegistered)
      | none => (Function.update clients (idOf client) (some client), .nil)
    | .unregister client => (Function.update clients (idOf client) none, .nil)
    | .get clientID =>
      match clients clientID with
      | some client => (clients, .client client)
      | none => (clients, .error .notRegistered)

/-- The reply that `Run` is sending, with the call it is for. -/
def RunPc.answer {γ : Type} : RunPc γ → Option (ℕ × ManagerResult γ)
  | .replyOut call client => some (call, .client client)
  | .replyErr call error => some (call, .error error)
  | _ => none

/-- The steps that `Run` takes without a message from outside. -/
def ManagerEvent.isRun {γ : Type} : ManagerEvent γ → Bool
  | .reply | .closed | .drained => true
  | _ => false

section Manager

variable {γ : Type} (idOf : γ → UUID)

/-- A message that `Run` receives is not a `Register` for an id that is in the map. -/
def NoDuplicate (s : Manager γ) : ManagerEvent γ → Prop
  | .take i => ∀ client, s.calls i = .offering (.register client) → s.clients (idOf client) = none
  | _ => True

/-- `Run` waits for a message, has returned, or can take a step of its own. -/
def RunLive (s : Manager γ) : Prop :=
  s.pc = .select ∨ s.pc = .finished ∨ ∃ e, e.isRun = true ∧ (s.step idOf e).isSome

/-! ## Steps -/

inductive ManagerSteps (s : Manager γ) : ManagerEvent γ → Manager γ → Prop where
  | call {i : ℕ} {op : ManagerOp γ} (hi : s.calls i = .idle) :
      ManagerSteps s (.call i op) (s.setCall i (.offering op))
  | take {i : ℕ} {op : ManagerOp γ} (hpc : s.pc = .select) (hi : s.calls i = .offering op) :
      ManagerSteps s (.take i) (s.handle idOf i op)
  | reply {i : ℕ} {r : ManagerResult γ} (hpc : s.pc.answer = some (i, r)) :
      ManagerSteps s .reply { s.setCall i (.returning r) with pc := .select }
  | closed {client : γ} (hpc : s.pc = .closing client) :
      ManagerSteps s .closed { s with pc := .select }
  | stop (hpc : s.pc = .select) : ManagerSteps s .stop { s with pc := .stopping, done := true }
  | drained (hpc : s.pc = .stopping) :
      ManagerSteps s .drained { s with pc := .finished, clients := fun _ => none }
  | giveUp {i : ℕ} (hd : s.done = true) :
      ManagerSteps s (.giveUp i) (s.setCall i (.returning (.error .managerClosed)))
  | ret {i : ℕ} {r : ManagerResult γ} (hi : s.calls i = .returning r) :
      ManagerSteps s (.ret i) (s.setCall i .returned)

variable {idOf} {s s' : Manager γ}

theorem sendReply_spec (h : s.sendReply = some s') : ManagerSteps idOf s .reply s' := by
  unfold Manager.sendReply at h
  cases hpc : s.pc with
  | replyOut i client =>
    have ha : s.pc.answer = some (i, .client client) := by rw [hpc]; rfl
    simp only [hpc] at h
    split at h
    · cases h
      exact .reply ha
    · cases h
  | replyErr i error =>
    have ha : s.pc.answer = some (i, .error error) := by rw [hpc]; rfl
    simp only [hpc] at h
    split at h
    · cases h
      exact .reply ha
    · cases h
      exact .reply ha
    · cases h
  | select | closing | stopping | finished => simp [hpc] at h

theorem managerStep_spec {e : ManagerEvent γ} (h : s.step idOf e = some s') :
    ManagerSteps idOf s e s' := by
  cases e with
  | call i op =>
    simp only [Manager.step] at h
    split at h
    · next hi =>
        cases h
        exact .call hi
    · cases h
  | take i =>
    simp only [Manager.step] at h
    split at h
    · next hpc hi =>
        cases h
        exact .take hpc hi
    · cases h
  | reply => exact sendReply_spec h
  | closed =>
    simp only [Manager.step] at h
    split at h
    · next hpc =>
        cases h
        exact .closed hpc
    · cases h
  | stop =>
    simp only [Manager.step] at h
    split at h
    · next hpc =>
        cases h
        exact .stop hpc
    · cases h
  | drained =>
    simp only [Manager.step] at h
    split at h
    · next hpc =>
        cases h
        exact .drained hpc
    · cases h
  | giveUp i =>
    simp only [Manager.step] at h
    split_ifs at h with hd
    split at h
    · cases h
      exact .giveUp hd
    · cases h
      exact .giveUp hd
    · cases h
  | ret i =>
    simp only [Manager.step] at h
    split at h
    · next hi =>
        cases h
        exact .ret hi
    · cases h

/-- What `Run` does with a message is what the map does with the operation: the call is about to
return the result, or `Run` is about to send it. -/
theorem handle_spec {i : ℕ} {op : ManagerOp γ} (hpc : s.pc = .select)
    (hC : ∀ client, op = .register client → s.clients (idOf client) = none) :
    (s.handle idOf i op).clients = ((registry idOf).apply s.clients op).1 ∧
    (s.handle idOf i op).done = s.done ∧
    (s.handle idOf i op).pc ≠ .stopping ∧
    ((s.handle idOf i op).calls =
        Function.update s.calls i (.returning ((registry idOf).apply s.clients op).2) ∧
        (s.handle idOf i op).pc.answer = none ∨
      (s.handle idOf i op).calls = Function.update s.calls i (.awaiting op) ∧
        (s.handle idOf i op).pc.answer = some (i, ((registry idOf).apply s.clients op).2)) := by
  cases op with
  | get clientID =>
    cases hc : s.clients clientID with
    | none => simp [Manager.handle, registry, hc, Manager.setCall, RunPc.answer]
    | some client => simp [Manager.handle, registry, hc, Manager.setCall, RunPc.answer]
  | register client =>
    have hc := hC client rfl
    simp [Manager.handle, registry, hc, Manager.setCall, RunPc.answer, hpc]
  | unregister client =>
    cases hc : s.clients (idOf client) with
    | none =>
      have hsame : Function.update s.clients (idOf client) none = s.clients := by
        rw [← hc]
        exact Function.update_eq_self _ _
      simp [Manager.handle, registry, hc, Manager.setCall, RunPc.answer, hpc, hsame]
    | some registered => simp [Manager.handle, registry, hc, Manager.setCall, RunPc.answer]

/-! ## The invariant -/

section Invariant

variable {h h' : List (CallEvent (ManagerOp γ) (ManagerResult γ))}
  {l l' : List (Effect (ManagerOp γ) (ManagerResult γ))}

/-- What the place of the call `i` says about its effect. -/
def CallOk (h : List (CallEvent (ManagerOp γ) (ManagerResult γ)))
    (l : List (Effect (ManagerOp γ) (ManagerResult γ))) (pc : RunPc γ) (i : ℕ) : CallPc γ → Prop
  | .idle => i ∉ l.map Effect.call
  | .offering op => .inv i op ∈ h ∧ i ∉ l.map Effect.call
  | .awaiting op => ∃ r, pc.answer = some (i, r) ∧ ⟨i, op, r⟩ ∈ l
  | .returning r => ∃ op, ⟨i, op, r⟩ ∈ l
  | .returned => True

variable (idOf) in
/-- The invariant while `Run` is active, with the calls in the order in which `Run` received
them. -/
structure Live (h : List (CallEvent (ManagerOp γ) (ManagerResult γ))) (s : Manager γ)
    (l : List (Effect (ManagerOp γ) (ManagerResult γ))) : Prop where
  linearizes : Linearizes (registry idOf) h l
  after : (registry idOf).after (registry idOf).init l = s.clients
  calls : ∀ i, CallOk h l s.pc i (s.calls i)
  replying : ∀ i r, s.pc.answer = some (i, r) → ∃ op, s.calls i = .awaiting op
  running : s.pc ≠ .stopping

theorem CallOk.mono {pc pc' : RunPc γ} {i : ℕ} {c : CallPc γ} (hok : CallOk h l pc i c)
    (hh : h ⊆ h') (hl : l ⊆ l') (hi : i ∉ l.map Effect.call → i ∉ l'.map Effect.call)
    (hpc : ∀ r, pc.answer = some (i, r) → pc'.answer = some (i, r)) : CallOk h' l' pc' i c := by
  cases c with
  | idle => exact hi hok
  | offering op => exact ⟨hh hok.1, hi hok.2⟩
  | awaiting op =>
    obtain ⟨r, ha, hm⟩ := hok
    exact ⟨r, hpc r ha, hl hm⟩
  | returning r =>
    obtain ⟨op, hm⟩ := hok
    exact ⟨op, hl hm⟩
  | returned => trivial

theorem callOk_setCall {pc : RunPc γ} {i : ℕ} {c : CallPc γ} (hi : CallOk h l pc i c)
    (hother : ∀ j, j ≠ i → CallOk h l pc j (s.calls j)) (j : ℕ) :
    CallOk h l pc j (Function.update s.calls i c j) := by
  by_cases hj : j = i
  · subst hj
    rw [Function.update_self]
    exact hi
  · rw [Function.update_of_ne hj]
    exact hother j hj

theorem Live.call {i : ℕ} (hL : Live idOf h s l) (hi : s.calls i = .idle) (op : ManagerOp γ) :
    Live idOf (h ++ [.inv i op]) (s.setCall i (.offering op)) l := by
  have hout : i ∉ l.map Effect.call := by
    have hok := hL.calls i
    rwa [hi] at hok
  refine ⟨hL.linearizes.invoke op hout, hL.after, ?_, ?_, hL.running⟩
  · refine callOk_setCall ⟨by simp, hout⟩ fun j _ => ?_
    exact (hL.calls j).mono (List.subset_append_left _ _) (List.Subset.refl l) (fun x => x)
      fun _ x => x
  · intro j r ha
    obtain ⟨op', hj⟩ := hL.replying j r ha
    refine ⟨op', ?_⟩
    have hne : j ≠ i := fun he => by rw [he, hi] at hj; cases hj
    exact (Function.update_of_ne hne _ _).trans hj

theorem Live.take {i : ℕ} {op : ManagerOp γ} (hL : Live idOf h s l) (hpc : s.pc = .select)
    (hi : s.calls i = .offering op)
    (hC : ∀ client, op = .register client → s.clients (idOf client) = none) :
    ∃ l', Live idOf h (s.handle idOf i op) l' := by
  obtain ⟨hclients, -, hrun, hcall⟩ := handle_spec (i := i) hpc hC
  have hoff := hL.calls i
  rw [hi] at hoff
  have hcommit := hL.linearizes.commit hoff.1 hoff.2
  have hafter := SeqObject.after_snoc (O := registry idOf) (registry idOf).init l
    ⟨i, op, ((registry idOf).apply ((registry idOf).after (registry idOf).init l) op).2⟩
  rw [hL.after] at hcommit hafter
  -- no call waits for a reply while the loop is in its select
  have hother : ∀ j, j ≠ i → CallOk h
      (l ++ [⟨i, op, ((registry idOf).apply s.clients op).2⟩]) (s.handle idOf i op).pc j
      (s.calls j) := by
    intro j hj
    refine (hL.calls j).mono (List.Subset.refl h) (List.subset_append_left _ _) ?_ ?_
    · intro hm
      rw [List.map_append, List.mem_append, List.map_singleton, List.mem_singleton]
      exact not_or.mpr ⟨hm, hj⟩
    · intro r ha
      rw [hpc] at ha
      cases ha
  refine ⟨_, hcommit, hafter.trans hclients.symm, ?_, ?_, hrun⟩
  · rcases hcall with ⟨hcalls, ha⟩ | ⟨hcalls, ha⟩
    · rw [hcalls]
      exact callOk_setCall ⟨op, by simp⟩ hother
    · rw [hcalls]
      exact callOk_setCall ⟨_, ha, by simp⟩ hother
  · intro j r hj
    rcases hcall with ⟨hcalls, ha⟩ | ⟨hcalls, ha⟩
    · rw [ha] at hj
      cases hj
    · rw [ha] at hj
      cases hj
      exact ⟨op, by rw [hcalls, Function.update_self]⟩

theorem Live.reply {i : ℕ} {r : ManagerResult γ} (hL : Live idOf h s l)
    (ha : s.pc.answer = some (i, r)) :
    Live idOf h { s.setCall i (.returning r) with pc := .select } l := by
  obtain ⟨op, hop⟩ := hL.replying i r ha
  have hok := hL.calls i
  rw [hop] at hok
  obtain ⟨r', ha', hm⟩ := hok
  rw [ha] at ha'
  cases ha'
  refine ⟨hL.linearizes, hL.after, ?_, ?_, by simp⟩
  · refine callOk_setCall ⟨op, hm⟩ fun j hj => ?_
    refine (hL.calls j).mono (List.Subset.refl h) (List.Subset.refl l) (fun x => x) ?_
    intro r'' hj'
    rw [ha] at hj'
    cases hj'
    exact absurd rfl hj
  · intro j r'' hj
    cases hj

theorem Live.closed {client : γ} (hL : Live idOf h s l) (hpc : s.pc = .closing client) :
    Live idOf h { s with pc := .select } l := by
  refine ⟨hL.linearizes, hL.after, fun j => ?_, ?_, by simp⟩
  · refine (hL.calls j).mono (List.Subset.refl h) (List.Subset.refl l) (fun x => x) ?_
    intro r ha
    rw [hpc] at ha
    cases ha
  · intro j r ha
    cases ha

theorem Live.ret {i : ℕ} {r : ManagerResult γ} (hL : Live idOf h s l)
    (hi : s.calls i = .returning r) :
    Live idOf (h ++ [.ret i r]) (s.setCall i .returned) l := by
  have hok := hL.calls i
  rw [hi] at hok
  obtain ⟨op, hm⟩ := hok
  refine ⟨hL.linearizes.ret hm, hL.after, ?_, ?_, hL.running⟩
  · refine callOk_setCall trivial fun j _ => ?_
    exact (hL.calls j).mono (List.subset_append_left _ _) (List.Subset.refl l) (fun x => x)
      fun _ x => x
  · intro j r' ha
    obtain ⟨op', hj⟩ := hL.replying j r' ha
    refine ⟨op', ?_⟩
    have hne : j ≠ i := fun he => by rw [he, hi] at hj; cases hj
    exact (Function.update_of_ne hne _ _).trans hj

/-- A step that is no event of the history. -/
theorem Live.silent (hL : Live idOf h s l) : Live idOf (h ++ []) s l := by
  rwa [List.append_nil]

variable (idOf) in
/-- The invariant: `Run` is active, or it has received from `stop`. -/
def ManagerInv (h : List (CallEvent (ManagerOp γ) (ManagerResult γ))) (s : Manager γ) : Prop :=
  (s.done = false ∧ ∃ l, Live idOf h s l) ∨
    (s.done = true ∧ (s.pc = .stopping ∨ s.pc = .finished))

/-- **What one step keeps.** -/
theorem ManagerSteps.inv {e : ManagerEvent γ} (hI : ManagerInv idOf h s) (hC : NoDuplicate idOf s e)
    (hs : ManagerSteps idOf s e s') : ManagerInv idOf (h ++ s.observed e) s' := by
  rcases hI with ⟨hd, l, hL⟩ | ⟨hd, hpc⟩
  · cases hs with
    | call hi => exact .inl ⟨hd, l, hL.call hi _⟩
    | @take i op hpc hi =>
      have hop : ∀ client, op = .register client → s.clients (idOf client) = none := by
        rintro client rfl
        exact hC client hi
      obtain ⟨l', hL'⟩ := hL.take hpc hi hop
      obtain ⟨-, hdone, -, -⟩ := handle_spec (i := i) hpc hop
      exact .inl ⟨hdone.trans hd, l', hL'.silent⟩
    | reply ha => exact .inl ⟨hd, l, (hL.reply ha).silent⟩
    | closed hpc => exact .inl ⟨hd, l, (hL.closed hpc).silent⟩
    | stop => exact .inr ⟨rfl, .inl rfl⟩
    | drained hpc => exact absurd hpc hL.running
    | giveUp hdone =>
      rw [hd] at hdone
      cases hdone
    | @ret i r hi =>
      refine .inl ⟨hd, l, ?_⟩
      simp only [Manager.observed, hi]
      exact hL.ret hi
  · -- the loop is in its deferred function, and no call changes that
    refine .inr ?_
    cases hs with
    | call | giveUp | ret => exact ⟨hd, hpc⟩
    | take hsel => rcases hpc with hp | hp <;> rw [hp] at hsel <;> cases hsel
    | reply ha => rcases hpc with hp | hp <;> rw [hp] at ha <;> cases ha
    | closed hcl => rcases hpc with hp | hp <;> rw [hp] at hcl <;> cases hcl
    | stop hsel => rcases hpc with hp | hp <;> rw [hp] at hsel <;> cases hsel
    | drained => exact ⟨hd, .inr rfl⟩

end Invariant

/-! ## Runs -/

theorem sendReply_isSome {i : ℕ} {r : ManagerResult γ} {op : ManagerOp γ}
    (ha : s.pc.answer = some (i, r)) (hi : s.calls i = .awaiting op) : s.sendReply.isSome := by
  unfold Manager.sendReply
  cases hpc : s.pc with
  | replyOut j client | replyErr j client =>
    rw [hpc] at ha
    cases ha
    simp [hi]
  | select | closing | stopping | finished =>
    rw [hpc] at ha
    cases ha

theorem ManagerInv.runLive {h : List (CallEvent (ManagerOp γ) (ManagerResult γ))}
    (hI : ManagerInv idOf h s) : RunLive idOf s := by
  cases hpc : s.pc with
  | select => exact .inl hpc
  | finished => exact .inr (.inl hpc)
  | closing client => exact .inr (.inr ⟨.closed, rfl, by simp [Manager.step, hpc]⟩)
  | stopping => exact .inr (.inr ⟨.drained, rfl, by simp [Manager.step, hpc]⟩)
  | replyOut i client | replyErr i client =>
    rcases hI with ⟨-, l, hL⟩ | ⟨-, hp | hp⟩
    · obtain ⟨op, hop⟩ := hL.replying i _ (by rw [hpc]; rfl)
      exact .inr (.inr ⟨.reply, rfl, sendReply_isSome (by rw [hpc]; rfl) hop⟩)
    · rw [hpc] at hp
      cases hp
    · rw [hpc] at hp
      cases hp

/-- **The client manager is a linearizable map**, and `Run` is never stuck, on every run on which
`Run` receives no `Register` for an id that is in the map. -/
theorem client_manager_linearizable {es : List (ManagerEvent γ)}
    (hC : (clientManager idOf).Along (NoDuplicate idOf) Manager.init es)
    (hr : (clientManager idOf).run Manager.init es = some s) :
    (s.done = false → ∃ l,
      Linearizes (registry idOf)
        ((clientManager idOf).observe Manager.observed Manager.init es) l ∧
      (registry idOf).after (registry idOf).init l = s.clients) ∧
    RunLive idOf s := by
  have hI : ManagerInv idOf
      ((clientManager idOf).observe Manager.observed Manager.init es) s := by
    refine Machine.Along.induction (M := clientManager idOf)
      (P := fun es s => ManagerInv idOf
        ((clientManager idOf).observe Manager.observed Manager.init es) s) ?_ ?_ hC hr
    · refine .inl ⟨rfl, [], linearizes_nil, rfl, fun i => ?_, fun i r ha => ?_,
        by simp [clientManager, Manager.init]⟩
      · exact List.not_mem_nil
      · cases ha
    · intro es s e s' hrun hI hC hs
      have hobs := Machine.observe_snoc Manager.observed e hrun
      rw [show (clientManager idOf).init = Manager.init from rfl] at hobs
      rw [hobs]
      exact (managerStep_spec hs).inv hI hC
  refine ⟨fun hd => ?_, hI.runLive⟩
  rcases hI with ⟨-, l, hL⟩ | ⟨hd', -⟩
  · exact ⟨l, hL.linearizes, hL.after⟩
  · rw [hd] at hd'
    cases hd'

end Manager

/-! ## Sample runs -/

/-- Clients that are numbers, all with one id. -/
def sampleManager : Machine (Manager ℕ) (ManagerEvent ℕ) := clientManager fun _ => zeroUUID

/-- The state after the events `es`. -/
def managerAfter (es : List (ManagerEvent ℕ)) : Manager ℕ :=
  (sampleManager.run Manager.init es).getD Manager.init

/-- A client is registered and looked up. -/
def registerAndGet : List (ManagerEvent ℕ) :=
  [.call 0 (.register 5), .call 1 (.get zeroUUID), .take 0, .ret 0, .take 1, .reply, .ret 1]

theorem registerAndGet_noDuplicate :
    sampleManager.Along (NoDuplicate fun _ => zeroUUID) Manager.init registerAndGet := by
  refine ⟨trivial, ?_⟩
  rintro _ ⟨⟩
  refine ⟨trivial, ?_⟩
  rintro _ ⟨⟩
  refine ⟨fun _ _ => rfl, ?_⟩
  rintro _ ⟨⟩
  refine ⟨trivial, ?_⟩
  rintro _ ⟨⟩
  refine ⟨fun _ h => (by cases h), ?_⟩
  rintro _ ⟨⟩
  refine ⟨trivial, ?_⟩
  rintro _ ⟨⟩
  exact ⟨trivial, fun _ _ => trivial⟩

theorem client_manager_linearizable_registerAndGet :
    ∃ l, Linearizes (registry fun _ : ℕ => zeroUUID)
      [.inv 0 (.register 5), .inv 1 (.get zeroUUID), .ret 0 .nil, .ret 1 (.client 5)] l := by
  obtain ⟨l, hl, -⟩ := (client_manager_linearizable (s := managerAfter registerAndGet)
    registerAndGet_noDuplicate rfl).1 rfl
  exact ⟨l, hl⟩

/-- The id of a registered client is registered again. -/
def registerTwice : List (ManagerEvent ℕ) :=
  [.call 0 (.register 5), .take 0, .ret 0, .call 1 (.register 6), .take 1, .ret 1]

/-- The second `Register` returns nil, the first client stays in the map, and `Run` is in the send of
the error that nobody receives. -/
theorem duplicate_register_wedges :
    sampleManager.run Manager.init registerTwice = some (managerAfter registerTwice) ∧
    sampleManager.observe Manager.observed Manager.init registerTwice =
      [.inv 0 (.register 5), .ret 0 .nil, .inv 1 (.register 6), .ret 1 .nil] ∧
    (managerAfter registerTwice).clients zeroUUID = some 5 ∧
    (managerAfter registerTwice).pc = .replyErr 1 .alreadyRegistered ∧
    ¬ RunLive (fun _ => zeroUUID) (managerAfter registerTwice) := by
  refine ⟨rfl, rfl, rfl, rfl, ?_⟩
  rintro (h | h | ⟨e, he, hs⟩)
  · cases h
  · cases h
  · cases e with
    | reply | closed | drained => cases hs
    | call | take | stop | giveUp | ret => cases he

end Loon
