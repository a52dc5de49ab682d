import Loon.Client.Steps

set_option autoImplicit false

/-!
# Content handles

What the calls of the client do with the registered content. `register_content` looks for the path
before it waits for the connection, and registers the content after it; a handle is looked up by its
path.

* `registers`: the path that an event registers;
* `Steps.registry`: what a step does with the registry and with the handles that were returned;
* **`registration_exclusive_iff`**: every handle that is returned is in `m_content` exactly if no call
  finds its path taken when it comes back from its wait;
* **`handles_denote_themselves_iff`**: all handles stand for themselves, in every state of a run,
  exactly if no path is registered that an earlier handle has.
-/

namespace Loon

namespace ClientImpl

variable (s : ClientImpl)

/-- The client is connected, knows the constraints of the server, and the content meets them. -/
def accepts (source : ContentSource) (info : ContentInfo) : Bool :=
  s.connected && s.hello.any fun k =>
    match Client.checkContentConstraints k source info with
    | .ok _ => true
    | .error _ => false

/-- The path that a call registers if it does not have to wait any more. -/
def readyPath : Purpose → Option String
  | .register source info => if s.accepts source info then some info.path else none
  | .ready => none

/-- The path that an event registers: it is a call of `register_content` that need not wait, or such
a call comes back from a wait. -/
def registers : ClientImplEvent → Option String
  | .registerContent _ (some source) info =>
    if source.size ≠ 0 ∧ info.path ∉ s.registry.content ∧ s.started = true then
      s.readyPath (.register source info)
    else none
  | .wake i _ =>
    match s.calls i with
    | .connection purpose => s.readyPath purpose
    | .hello purpose => s.readyPath purpose
    | _ => none
  | _ => none

/-- A path is registered only if there is no entry for it. -/
def PathFree (e : ClientImplEvent) : Prop :=
  ∀ path, s.registers e = some path → path ∉ s.registry.content

/-- A path is registered only if no handle was made for it before. -/
def FreshPath (e : ClientImplEvent) : Prop :=
  ∀ path, s.registers e = some path →
    ∀ h < s.registry.created, (s.registry.handles h).path ≠ path

instance (e : ClientImplEvent) : Decidable (s.FreshPath e) :=
  inferInstanceAs (Decidable (∀ path ∈ s.registers e, ∀ h < _, _))

/-! ## What a step does with the registry -/

/-- What a call does that registers the path, or none. -/
def Registered (s s' : ClientImpl) : Option String → Prop
  | none => s'.registry = s.registry ∧ s'.returns = s.returns
  | some path => s'.registry = s.registry.register path ∧ ∃ call, s'.returns = s.returns ++
      [⟨call, s.registry.created,
        (s.registry.register path).content.lookup path = some s.registry.created⟩]

variable {s} {o : ClientOptions}

theorem registered_setCall (i : ℕ) (p : CallPoint) : Registered s (s.setCall i p) none := ⟨rfl, rfl⟩

theorem registered_throwCall (i : ℕ) (purpose : Purpose) (e : CallException) :
    Registered s (s.throwCall i purpose e) none := by
  cases purpose <;> exact ⟨rfl, rfl⟩

theorem readyPath_of_not_connected {purpose : Purpose} (h : s.connected = false) :
    s.readyPath purpose = none := by
  cases purpose <;> simp [readyPath, accepts, h]

theorem readyPath_of_no_hello {purpose : Purpose} (h : s.hello = none) :
    s.readyPath purpose = none := by
  cases purpose <;> simp [readyPath, accepts, h]

theorem registered_afterHello (i : ℕ) (purpose : Purpose) :
    Registered s (s.afterHello i purpose) (s.readyPath purpose) := by
  unfold afterHello
  split
  · rename_i hc
    rw [readyPath_of_not_connected (by simpa using hc)]
    exact registered_throwCall i purpose _
  · rename_i hc
    have hc : s.connected = true := by simpa using hc
    split
    · rename_i hh
      rw [readyPath_of_no_hello hh]
      exact registered_throwCall i purpose _
    · rename_i k hk
      cases purpose with
      | ready => exact registered_setCall i _
      | register source info =>
          cases hcheck : Client.checkContentConstraints k source info with
          | error e =>
              have hp : s.readyPath (.register source info) = none := by
                simp [readyPath, accepts, hk, hcheck]
              rw [hp]
              simp only [finishCall, hcheck]
              exact registered_throwCall i _ _
          | ok _ =>
              have hp : s.readyPath (.register source info) = some info.path := by
                simp [readyPath, accepts, hc, hk, hcheck]
              rw [hp]
              simp only [finishCall, hcheck]
              exact ⟨rfl, i, rfl⟩

theorem registered_awaitHello (i : ℕ) (purpose : Purpose) :
    Registered s (s.awaitHello i purpose) (s.readyPath purpose) := by
  unfold awaitHello
  split
  · exact registered_afterHello i purpose
  · rename_i hh
    have hn : s.hello = none := by
      cases hs : s.hello with
      | none => rfl
      | some k => simp [hs] at hh
    rw [readyPath_of_no_hello hn]
    exact registered_setCall i _

theorem ensureStarted_frame : s.ensureStarted.registry = s.registry ∧
    s.ensureStarted.returns = s.returns ∧ s.ensureStarted.connected = s.connected ∧
    s.ensureStarted.hello = s.hello := by
  unfold ensureStarted
  split <;> exact ⟨rfl, rfl, rfl, rfl⟩

theorem registered_waitUntilReady (i : ℕ) (purpose : Purpose) :
    Registered s (s.waitUntilReady i purpose)
      (if s.started = true then s.readyPath purpose else none) := by
  unfold waitUntilReady
  split
  · rename_i hr
    simp only [Bool.and_eq_true] at hr
    rw [if_pos hr.1.1]
    exact registered_afterHello i purpose
  · rename_i hr
    split
    · rename_i hs
      have hs : ¬ s.started = true := by simpa using hs
      rw [if_neg hs]
      exact registered_throwCall i purpose _
    · rename_i hs
      have hs : s.started = true := by simpa using hs
      obtain ⟨h1, h2, h3, h4⟩ := ensureStarted_frame (s := s)
      -- A call that had to wait for the connection does not register anything yet.
      have hp : ∀ t : ClientImpl, t.connected = s.connected → t.hello = s.hello →
          t.readyPath purpose = none := by
        intro t hc hh
        cases purpose with
        | ready => rfl
        | register source info =>
            cases hk : s.hello with
            | none => simp [readyPath, accepts, hh, hk]
            | some k => simp_all [readyPath, accepts]
      have hsame : ∀ s', Registered s.ensureStarted s' none → Registered s s' none := by
        intro s' hs'
        exact ⟨hs'.1.trans h1, hs'.2.trans h2⟩
      rw [if_pos hs, hp s rfl rfl]
      simp only
      split
      · refine hsame _ ?_
        rw [← hp s.ensureStarted h3 h4]
        exact registered_awaitHello i purpose
      · exact hsame _ (registered_setCall i _)

theorem registered_registerContent (i : ℕ) (source : Option ContentSource) (info : ContentInfo) :
    Registered s (s.registerContent i source info)
      (s.registers (.registerContent i source info)) := by
  cases source with
  | none => exact registered_setCall i _
  | some source =>
      simp only [registerContent]
      split
      · rename_i h0
        rw [registers, if_neg (fun h => h.1 h0)]
        exact registered_setCall i _
      · rename_i h0
        split
        · rename_i hp
          rw [registers, if_neg (fun h => h.2.1 hp)]
          exact registered_throwCall (s := s.setIdle false) i _ _
        · rename_i hp
          have hp : info.path ∉ s.registry.content := hp
          have he : s.registers (.registerContent i (some source) info) =
              if s.started = true then s.readyPath (.register source info) else none := by
            simp only [registers, ne_eq, h0, not_false_iff, hp, true_and]
          rw [he]
          exact registered_waitUntilReady (s := s.setIdle false) i (.register source info)

theorem registered_restart : Registered s s.restart none := by
  unfold restart
  split <;> exact ⟨rfl, rfl⟩

theorem unregister_registry (g : ℕ) : (s.unregister o g).registry =
    s.registry.unregisterContent g ∧ (s.unregister o g).returns = s.returns := by
  unfold unregister
  simp only
  split <;> exact ⟨rfl, rfl⟩

theorem finishInternalStop_registry : (s.finishInternalStop o).registry = s.registry.reset ∧
    (s.finishInternalStop o).returns = s.returns := by
  unfold finishInternalStop
  cases o.withReconnect <;> exact ⟨rfl, rfl⟩

theorem onWebsocketClose_registry : (s.onWebsocketClose o).registry = s.registry.reset ∧
    (s.onWebsocketClose o).returns = s.returns := by
  unfold onWebsocketClose
  simp only
  split <;> exact ⟨rfl, rfl⟩

theorem registered_managerTracksIdling (now : Int) (doTrack : Bool) :
    Registered s (s.managerTracksIdling o now doTrack).loopHead none := by
  unfold managerTracksIdling
  simp only
  split
  · exact ⟨rfl, rfl⟩
  · split
    · exact ⟨rfl, rfl⟩
    · split <;> exact ⟨rfl, rfl⟩

variable {s' : ClientImpl} {e : ClientImplEvent}

/-- What a step does that registers no path. -/
def Others (s s' : ClientImpl) : Prop :=
  s.registry.Step s'.registry ∧ s'.returns = s.returns

theorem others_of_registered (h : Registered s s' none) : Others s s' := by
  refine ⟨?_, h.2⟩
  rw [h.1]
  exact .keep

theorem others_of_reset (h : s'.registry = s.registry.reset ∧ s'.returns = s.returns) :
    Others s s' := by
  refine ⟨?_, h.2⟩
  rw [h.1]
  exact .reset

/-- A step registers a path and returns the handle, or does one of the other things with the
registry and returns none. -/
theorem Steps.registry (h : Steps o s e s') :
    (∃ path, s.registers e = some path ∧ Registered s s' (some path)) ∨
      (s.registers e = none ∧ Others s s') := by
  have call : Registered s s' (s.registers e) →
      (∃ path, s.registers e = some path ∧ Registered s s' (some path)) ∨
      (s.registers e = none ∧ Others s s') := by
    intro hr
    cases hp : s.registers e with
    | some path =>
        rw [hp] at hr
        exact .inl ⟨path, rfl, hr⟩
    | none =>
        rw [hp] at hr
        exact .inr ⟨rfl, others_of_registered hr⟩
  cases h with
  | registerContent i source info => exact call (registered_registerContent i source info)
  | waitUntilReady i =>
      have hr := registered_waitUntilReady (s := s) i .ready
      simp only [readyPath, ite_self] at hr
      exact call hr
  | connectionSettled i timedOut purpose hi =>
      refine call ?_
      rw [registers, hi]
      exact registered_awaitHello i purpose
  | connectionTimedOut i purpose hi hc =>
      have he : s.registers (.wake i true) = s.readyPath purpose := by rw [registers, hi]
      refine call ?_
      rw [he, readyPath_of_not_connected hc]
      exact registered_throwCall i purpose _
  | helloSettled i timedOut purpose hi =>
      refine call ?_
      rw [registers, hi]
      exact registered_afterHello i purpose
  | startAgain =>
      obtain ⟨h1, h2, -⟩ := ensureStarted_frame (s := s.setIdle false)
      exact call ⟨h1, h2⟩
  | unregister g =>
      obtain ⟨hg, ht⟩ := unregister_registry (s := s) (o := o) g
      refine .inr ⟨rfl, ?_, ht⟩
      rw [hg]
      exact .unregister g
  | onUnregistered g => exact .inr ⟨rfl, .onUnregistered g, rfl⟩
  | websocketOpen =>
      refine call ?_
      unfold onWebsocketOpen
      simp only
      split <;> exact ⟨rfl, rfl⟩
  | websocketClose => exact .inr ⟨rfl, others_of_reset onWebsocketClose_registry⟩
  | stopped | idleStopped | restarted | failed | destroyStopped =>
      exact .inr ⟨rfl, others_of_reset finishInternalStop_registry⟩
  | restart _ ha =>
      refine .inr ⟨?_, others_of_registered registered_restart⟩
      cases e <;> first | rfl | cases ha
  | respondFails => exact .inr ⟨rfl, others_of_registered registered_restart⟩
  | hello k =>
      refine call ?_
      unfold acceptHello
      simp only
      split <;> exact ⟨rfl, rfl⟩
  | managerTracks now doTrack =>
      exact .inr ⟨rfl, others_of_registered (registered_managerTracksIdling now doTrack)⟩
  | managerQueues now doQueue =>
      cases doQueue <;> exact call ⟨rfl, rfl⟩
  | _ => exact call ⟨rfl, rfl⟩

/-! ## One handle for a path -/

theorem registry_live {es : List ClientImplEvent} (hC : (machine o).Along PathFree init es)
    (hr : (machine o).run init es = some s) : s.registry.Live := by
  refine Machine.Along.inv (P := fun s => s.registry.Live) ?_ nofun hC hr
  intro s e s' hl hfree hs
  rcases (steps_of_step hs).registry with ⟨path, hp, hreg, -⟩ | ⟨-, hstep, -⟩
  · rw [hreg]
    exact hl.register (hfree path hp)
  · exact hl.step hstep

theorem returns_step {e : ClientImplEvent} {s' : ClientImpl} (h : step o s e = some s') :
    (∀ r ∈ s'.returns, r.inContent = true) ↔
      (∀ r ∈ s.returns, r.inContent = true) ∧ s.PathFree e := by
  rcases (steps_of_step h).registry with ⟨path, hp, -, call, ht⟩ | ⟨hp, -, ht⟩
  · rw [ht]
    simp only [List.forall_mem_append, List.forall_mem_singleton, decide_eq_true_eq,
      Registry.lookup_register, PathFree, hp, Option.some.injEq, forall_eq']
  · rw [ht]
    simp [PathFree, hp]

/-! ## What a handle stands for -/

variable (o s) in
/-- `is_registered` tells whether the handle is in `content()`, and `unregister_content` removes it
and nothing else. -/
def Denotes (h : ℕ) : Prop :=
  (s.isRegistered (.internal h) = .ok true ↔ h ∈ s.registry.contents) ∧
    ∃ s', s.unregisterContent o (.internal h) = .ok s' ∧ h ∉ s'.registry.contents ∧
      ∀ g ∈ s.registry.contents, g ≠ h → g ∈ s'.registry.contents ∧
        (s'.registry.handles g).registered = true ∧ (s'.registry.handles g).running = true ∧
        (s'.registry.handles g).notified = (s.registry.handles g).notified

theorem denotes_iff_registry {h : ℕ} : s.Denotes o h ↔ s.registry.Denotes h := by
  have hreg : s.isRegistered (.internal h) = .ok true ↔ s.registry.isRegistered h = true := by
    simp [isRegistered]
  unfold Denotes Registry.Denotes
  rw [hreg, ← (unregister_registry (o := o) h).1]
  refine and_congr_right fun _ => ?_
  constructor
  · rintro ⟨s', ⟨⟩, hd⟩
    exact hd
  · intro hd
    exact ⟨s.unregister o h, rfl, hd⟩

/-- A handle stands for itself exactly if no other one is registered under its path. -/
theorem denotes_iff {h : ℕ} : s.Denotes o h ↔ ∀ g ∈ s.registry.contents,
    (s.registry.handles g).path = (s.registry.handles h).path → g = h := by
  rw [denotes_iff_registry, Registry.denotes_iff]
  constructor
  · intro hown g hg hp
    refine hown g ?_
    rw [← hp]
    exact (Registry.mem_contents_iff _).mp hg
  · intro hown g hg
    exact hown g ((Registry.mem_contents _).mpr ⟨_, hg⟩) (s.registry.wf _ g hg).2.1

theorem distinct_step {e : ClientImplEvent} {s' : ClientImpl} (hd : s.registry.Distinct)
    (hs : step o s e = some s') (hfresh : s.FreshPath e) : s'.registry.Distinct := by
  rcases (steps_of_step hs).registry with ⟨path, hp, hreg, -⟩ | ⟨-, hstep, -⟩
  · rw [hreg]
    exact hd.register (hfresh path hp)
  · exact hd.step hstep

theorem freshPath_of_denotes {e : ClientImplEvent} {s' : ClientImpl} (hs : step o s e = some s')
    (hd : ∀ h < s'.registry.created, s'.Denotes o h) : s.FreshPath e := by
  intro path hp h hh he
  rcases (steps_of_step hs).registry with ⟨path', hp', hreg, -⟩ | ⟨hn, -, -⟩
  · rw [hp] at hp'
    cases hp'
    obtain ⟨g, hg, hng⟩ := Registry.not_denotes_register hh he
    rw [← hreg] at hg hng
    exact hng (denotes_iff_registry.mp (hd g hg))
  · rw [hp] at hn
    cases hn

end ClientImpl

open ClientImpl

/-- **Registration is exclusive** exactly on the runs on which no call of `register_content` finds its
path taken when it comes back from waiting: there every handle that is returned is in `m_content`. On
these runs at most one of the handles for a path is live. -/
theorem registration_exclusive_iff (o : ClientOptions) {es : List ClientImplEvent} {s : ClientImpl}
    (hr : (machine o).run init es = some s) :
    ((∀ r ∈ s.returns, r.inContent = true) ↔ (machine o).Along PathFree init es) ∧
    ((machine o).Along PathFree init es →
      ∀ g < s.registry.created, ∀ h < s.registry.created,
        (s.registry.handles g).path = (s.registry.handles h).path →
        (s.registry.handles g).registered = true → (s.registry.handles h).registered = true →
        g = h) := by
  constructor
  · refine Machine.run_induction (M := machine o) (P := fun es s =>
      (∀ r ∈ s.returns, r.inContent = true) ↔ (machine o).Along PathFree init es) ?_ ?_ hr
    · exact ⟨fun _ => trivial, fun _ => nofun⟩
    · intro es s e s' hr ih hs
      have hr : (machine o).run init es = some s := hr
      rw [returns_step hs, Machine.along_snoc_iff hr, ih]
  · intro hC g hg h hh hp hrg hrh
    exact (registry_live hC hr).unique hg hh hp hrg hrh

/-- **Content handles stand for themselves**, in every state of a run, exactly if the run never
registers a path that an earlier handle has. In a single state, a handle stands for itself exactly if
no other handle is registered under its path. -/
theorem handles_denote_themselves_iff (o : ClientOptions) {es : List ClientImplEvent}
    {s : ClientImpl} (hr : (machine o).run init es = some s) :
    ((∀ es₁ s₁, es₁ <+: es → (machine o).run init es₁ = some s₁ →
        ∀ h < s₁.registry.created, s₁.Denotes o h) ↔ (machine o).Along FreshPath init es) ∧
    ∀ h, s.Denotes o h ↔ ∀ g ∈ s.registry.contents,
      (s.registry.handles g).path = (s.registry.handles h).path → g = h := by
  refine ⟨⟨?_, ?_⟩, fun _ => denotes_iff⟩
  · refine Machine.run_induction (M := machine o) (P := fun es s =>
      (∀ es₁ s₁, es₁ <+: es → (machine o).run init es₁ = some s₁ →
        ∀ h < s₁.registry.created, s₁.Denotes o h) → (machine o).Along FreshPath init es) ?_ ?_ hr
    · exact fun _ => trivial
    · intro es s e s' hr ih hs hd
      have hr : (machine o).run init es = some s := hr
      rw [Machine.along_snoc_iff hr]
      refine ⟨ih fun es₁ s₁ hp => hd es₁ s₁ (hp.trans (List.prefix_append _ _)), ?_⟩
      refine freshPath_of_denotes hs (hd (es ++ [e]) s' (List.prefix_refl _) ?_)
      exact (machine o).run_snoc_eq_some.mpr ⟨s, hr, hs⟩
  · rintro hC es₁ s₁ ⟨es₂, rfl⟩ hr₁ h hh
    have hd : s₁.registry.Distinct := by
      refine Machine.Along.inv (M := machine o) (P := fun s => s.registry.Distinct) ?_ ?_
        hC.of_append hr₁
      · intro s e s' hd hfresh hs
        exact distinct_step hd hs hfresh
      · intro g hg
        exact absurd hg (Nat.not_lt_zero g)
    exact denotes_iff_registry.mpr (hd.denotes hh)

/-! ## Sample runs -/

/-- The constraints that the server sends. -/
def sampleConstraints : Constraints where
  chunkSize := 1024
  maxContentSize := 4096
  acceptedContentTypes := ["text/plain"]

def sampleSource : ContentSource where
  contentType := "text/plain"
  size := 3
  data := [97, 98, 99]

/-- The content `path`. -/
def sampleInfo (path : String) : ContentInfo where
  path := path
  maxCacheDuration := none
  attachmentFilename := none

/-- Content is registered while the client connects, and other content after it. -/
def registerTwo : List ClientImplEvent :=
  [.start, .registerContent 0 (some sampleSource) (sampleInfo "a"), .websocketOpen,
    .websocketMessage (.hello (some (sampleConstraints, 0))), .wake 0 false,
    .registerContent 1 (some sampleSource) (sampleInfo "b"), .unregisterContent (.internal 0)]

theorem registration_exclusive_iff_registerTwo :
    (∀ r ∈ (clientAfter registerTwo).returns, r.inContent = true) ∧
      (machine sampleOptions).Along PathFree init registerTwo := by
  have hrun : (machine sampleOptions).run init registerTwo = some (clientAfter registerTwo) := rfl
  have hin : ∀ r ∈ (clientAfter registerTwo).returns, r.inContent = true := by decide
  exact ⟨hin, (registration_exclusive_iff sampleOptions hrun).1.mp hin⟩

/-- Two calls for one path wait for the connection, and both return a handle; the second is not in
`m_content`. -/
theorem racing_calls_both_return :
    let es : List ClientImplEvent :=
      [.start, .registerContent 0 (some sampleSource) (sampleInfo "a"),
        .registerContent 1 (some sampleSource) (sampleInfo "a"), .websocketOpen,
        .websocketMessage (.hello (some (sampleConstraints, 0))), .wake 0 false, .wake 1 false]
    (machine sampleOptions).run init es = some (clientAfter es) ∧
      (clientAfter es).returns = [⟨0, 0, true⟩, ⟨1, 1, false⟩] ∧
      (clientAfter es).calls 1 = .returned (some 1) ∧
      (clientAfter es).registry.contents = [0] ∧
      ¬ ∀ r ∈ (clientAfter es).returns, r.inContent = true := by
  refine ⟨rfl, by decide, by decide, by decide, by decide⟩

theorem handles_denote_themselves_iff_registerTwo :
    (clientAfter registerTwo).registry.contents = [1] ∧
      (clientAfter registerTwo).Denotes sampleOptions 0 ∧
      (clientAfter registerTwo).Denotes sampleOptions 1 := by
  have hrun : (machine sampleOptions).run init registerTwo = some (clientAfter registerTwo) := rfl
  have hfresh : (machine sampleOptions).Along FreshPath init registerTwo := by
    iterate 7
      refine ⟨by decide, ?_⟩
      rintro _ ⟨⟩
    trivial
  have hd := (handles_denote_themselves_iff sampleOptions hrun).1.mpr hfresh registerTwo _
    (List.prefix_refl _) hrun
  exact ⟨by decide, hd 0 (by decide), hd 1 (by decide)⟩

/-- The content `a` is registered, unregistered and registered again. -/
def registerAgain : List ClientImplEvent :=
  [.start, .websocketOpen, .websocketMessage (.hello (some (sampleConstraints, 0))),
    .registerContent 0 (some sampleSource) (sampleInfo "a"), .unregisterContent (.internal 0),
    .registerContent 1 (some sampleSource) (sampleInfo "a"), .onUnregistered 1]

/-- The first handle for `a` counts as registered, though only the second one is, and unregistering
the first removes the second. -/
theorem stale_handle_unregisters_another :
    (machine sampleOptions).run init registerAgain = some (clientAfter registerAgain) ∧
    (clientAfter registerAgain).registry.contents = [1] ∧
    (clientAfter registerAgain).isRegistered (.internal 0) = .ok true ∧
    (clientAfter (registerAgain ++ [.unregisterContent (.internal 0)])).registry.contents = [] ∧
    (clientAfter (registerAgain ++ [.unregisterContent (.internal 0)])).registry.handles 1 =
      ⟨"a", false, false, false, 1⟩ ∧
    ¬ (clientAfter registerAgain).Denotes sampleOptions 0 := by
  refine ⟨rfl, by decide, rfl, by decide, by decide, ?_⟩
  intro hd
  have h0 : 0 ∈ (clientAfter registerAgain).registry.contents := hd.1.mp rfl
  revert h0
  decide

end Loon
