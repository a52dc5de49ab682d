import Loon.GoClient.Lifecycle

set_option autoImplicit false

/-!
# The end of the Go client

Once the write pump has left its loop, what remains is to close `done` and the sources, for the read
pump to see it, and for `Run` to take an error. Before that the client can be stuck: a cancellation
is handed over on an unbuffered channel, to a goroutine that lives as long as its call of `respond`.

* `Life.winds`, `Life.remaining`: the steps that remain, and how many there can be;
* **`shutdown_terminates`**: after the loop of the write pump they are bounded, whatever happens
  between them, and when none is left and nothing has panicked, `Run` has returned;
* `Wedged`: the read pump waits for a goroutine that does not exist;
* **`late_cancellation_wedges`**: a `RequestClosed` for a request that was answered ends the read
  pump's work until `Close` is called or a write fails.
-/

namespace Loon.GoClient

/-! ## Shutdown -/

/-- The steps that remain after the write pump has left its loop. A read fails for certain when the
connection is closed. -/
def Life.winds (s : Life) : LifeEvent → Bool
  | .client .readDone => s.client.done
  | .readFails _ => s.writePump = .returned
  | .readReturns => true
  | .closeDone => true
  | .closeSource _ => true
  | .writeReturns => true
  | .runReturns => true
  | _ => false

def winding (s : Life) (e : LifeEvent) : List Unit := if s.winds e then [()] else []

/-- The steps of the read pump in a client that is closed. -/
def Life.readRemaining (s : Life) : ℕ :=
  match s.readEnd with
  | .looping => if s.client.readPump = .reading then 2 else 3
  | .stopping => 1
  | .returned => 0

def Life.runRemaining (s : Life) : ℕ := if s.result = none then 1 else 0

/-- How many steps there can be. -/
def Life.remaining (s : Life) : ℕ :=
  match s.writePump with
  | .closing rest => rest.length + 1 + s.readRemaining + s.runRemaining
  | .returned => s.readRemaining + s.runRemaining
  | _ => s.client.handles.length + 6

section Shutdown

variable {s s' : Life} {e : LifeEvent}

theorem readRemaining_le (s : Life) : s.readRemaining ≤ 3 := by
  unfold Life.readRemaining
  split
  · split <;> omega
  · omega
  · omega

theorem runRemaining_le (s : Life) : s.runRemaining ≤ 1 := by
  unfold Life.runRemaining
  split <;> omega

theorem readRemaining_looping (h : s.readEnd = .looping) :
    s.readRemaining = if s.client.readPump = .reading then 2 else 3 := by
  rw [Life.readRemaining, h]

/-- In a closed client the read pump begins nothing. -/
theorem readRemaining_client {c : Client} {e : ClientEvent} (hend : s.readEnd = .looping)
    (hd : s.client.done = true) (he : e ≠ .leave) (hc : s.client.next e = some c) :
    (if c.readPump = .reading then 2 else 3) + (winding s (.client e)).length ≤ s.readRemaining := by
  rw [readRemaining_looping hend]
  cases Client.readMove_of_next hc with
  | same h hl hr =>
      have hquiet : winding s (.client e) = [] := by
        cases e with
        | readDone => exact absurd rfl hr
        | _ => rfl
      rw [h, hquiet]
      exact le_rfl
  | receive _ hd' =>
      rw [hd] at hd'
      cases hd'
  | leave => exact absurd rfl he
  | back h _ h' =>
      rw [h', if_pos rfl, if_neg h]
      unfold winding
      split
      · exact le_rfl
      · exact Nat.le_succ 2

/-- Outside its loop the read pump takes no step of the client. -/
theorem winding_ended {l : List RunError} {c : Client} {e : ClientEvent} (hI : LifeInv l s)
    (hend : s.readEnd ≠ .looping) (hc : s.client.next e = some c) : winding s (.client e) = [] := by
  have hr := hI.reading.mpr hend
  cases e with
  | readDone =>
      cases Client.readMove_of_next hc with
      | same _ _ hd => exact absurd rfl hd
      | back _ h₁ => exact absurd hr h₁
  | _ => rfl

theorem remaining_closing {rest : List ℕ} (h : s.writePump = .closing rest) :
    s.remaining = rest.length + 1 + s.readRemaining + s.runRemaining := by
  rw [Life.remaining, h]

theorem remaining_returned (h : s.writePump = .returned) :
    s.remaining = s.readRemaining + s.runRemaining := by
  rw [Life.remaining, h]

theorem remaining_of_not_past (h : ¬ s.writePump.Past) :
    s.remaining = s.client.handles.length + 6 := by
  unfold Life.remaining
  split
  · rename_i hw
    exact absurd (by rw [hw]; trivial) h
  · rename_i hw
    exact absurd (by rw [hw]; trivial) h
  · rfl

/-- A step of the read pump in a closed client. -/
theorem remaining_read {n : ℕ} (hpast : s.writePump.Past) (hw : s'.writePump = s.writePump)
    (hresult : s'.result = s.result) (hread : s'.readRemaining + n ≤ s.readRemaining) :
    s'.remaining + n ≤ s.remaining := by
  have hrun : s'.runRemaining = s.runRemaining := by rw [Life.runRemaining, hresult, Life.runRemaining]
  cases hwrite : s.writePump with
  | select | writing | leaving =>
      rw [hwrite] at hpast
      exact hpast.elim
  | closing rest =>
      rw [remaining_closing (hw.trans hwrite), remaining_closing hwrite]
      omega
  | returned =>
      rw [remaining_returned (hw.trans hwrite), remaining_returned hwrite]
      omega

/-- A step of the client. -/
theorem remaining_client {l : List RunError} {e : ClientEvent} {c : Client} (hI : LifeInv l s)
    (he : e ≠ .leave) (hc : s.client.next e = some c)
    (hlen : c.handles.length = s.client.handles.length) :
    Life.remaining { s with client := c } + (winding s (.client e)).length ≤ s.remaining := by
  by_cases hd : s.client.done = true
  · refine remaining_read (hI.done.mp hd) rfl rfl ?_
    by_cases hend : s.readEnd = .looping
    · rw [readRemaining_looping (s := { s with client := c }) hend]
      exact readRemaining_client hend hd he hc
    · rw [winding_ended hI hend hc]
      unfold Life.readRemaining
      cases hr : s.readEnd with
      | looping => exact absurd hr hend
      | stopping | returned => exact le_rfl
  · have hquiet : winding s (.client e) = [] := by
      cases e with
      | readDone => simp only [winding, Life.winds, hd, Bool.false_eq_true, if_false]
      | _ => rfl
    have hpast : ¬ s.writePump.Past := fun h => hd (hI.done.mpr h)
    rw [hquiet, remaining_of_not_past (s := { s with client := c }) hpast,
      remaining_of_not_past hpast, hlen]
    exact le_rfl

/-- **Every step keeps to the bound**, once the write pump has left its loop. -/
theorem remaining_step {l : List RunError} (hI : LifeInv l s) (hw : s.writePump.Left)
    (hs : s.Steps e s') : s'.writePump.Left ∧ s'.remaining + (winding s e).length ≤ s.remaining := by
  -- the write pump is not in its loop
  have hno : ∀ {P : Prop} {w : WritePoint}, s.writePump = w → ¬ w.Left → P := by
    intro P w hsw hleft
    exact absurd (hsw ▸ hw) hleft
  cases hs with
  | @client e c w hdone hleave hc hw' ht =>
      obtain rfl : w = s.writePump := hw'.resolve_right fun h => hno h.1 id
      refine ⟨hw, remaining_client hI hleave hc ?_⟩
      cases he : Client.entersTables e with
      | false => exact (Client.sameTables_of_step he hc).length
      | true => exact hno (ht he) id
  | wrote h | ping h | writeFails _ h | closeStops _ h | readStops _ h => exact hno h id
  | close | closeReturns => exact ⟨hw, le_rfl⟩
  | @readFails failure c hr hc =>
      obtain ⟨hreading, rfl⟩ := Client.next_leave hc
      have hends : ∀ {t : Life}, t.readEnd = s.readEnd → t.client = s.client →
          t.writePump = s.writePump → t.result = s.result →
          Life.remaining { t with
              client := { s.client with readPump := .returned }
              readEnd := .stopping } +
            (winding s (.readFails failure)).length ≤ s.remaining := by
        intro t h1 h2 h3 h4
        by_cases hpast : s.writePump.Past
        · refine remaining_read hpast h3 h4 ?_
          rw [readRemaining_looping hr, if_pos hreading]
          unfold winding
          split
          · exact Nat.le_refl 2
          · exact Nat.le_succ 1
        · have hquiet : winding s (.readFails failure) = [] := by
            have hne : s.writePump ≠ .returned := fun h => hpast (by rw [h]; trivial)
            simp only [winding, Life.winds, hne, decide_false, Bool.false_eq_true, if_false]
          rw [hquiet, remaining_of_not_past hpast, remaining_of_not_past (by rw [h3]; exact hpast)]
          exact Nat.le_refl _
      by_cases hd : s.client.done = true
      · rw [if_pos hd]
        exact ⟨hw, hends rfl rfl rfl rfl⟩
      · rw [if_neg hd]
        exact ⟨hw, hends rfl rfl rfl rfl⟩
  | readReturns hr hd =>
      refine ⟨hw, remaining_read (hI.done.mp hd) rfl rfl ?_⟩
      unfold Life.readRemaining
      rw [hr]
      exact Nat.le_refl _
  | @closeDone c h hc =>
      have hpast : ¬ s.writePump.Past := by
        rw [h]
        exact id
      have hlen : c.registered.length ≤ s.client.handles.length := by
        refine (List.length_filter_le c.content _).trans ?_
        rw [List.length_range, Client.next_done hc]
      refine ⟨trivial, ?_⟩
      have h1 := readRemaining_le { s with client := c, writePump := .closing c.registered }
      have h2 := runRemaining_le { s with client := c, writePump := .closing c.registered }
      rw [remaining_closing rfl, remaining_of_not_past hpast]
      change _ + 1 ≤ _
      omega
  | @closeSource i rest h hi =>
      refine ⟨trivial, ?_⟩
      rw [remaining_closing rfl, remaining_closing h, List.length_erase_of_mem hi]
      have hpos := List.length_pos_of_mem hi
      change rest.length - 1 + 1 + s.readRemaining + s.runRemaining + 1 ≤ _
      omega
  | writeReturns h =>
      refine ⟨trivial, ?_⟩
      rw [remaining_returned rfl, remaining_closing h]
      change s.readRemaining + s.runRemaining + 1 ≤ 0 + 1 + s.readRemaining + s.runRemaining
      omega
  | @runReturns err h hr hresult herr =>
      refine ⟨hw, ?_⟩
      rw [remaining_returned (s := s) h, remaining_returned
        (s := { s with lastErr := none, result := some err }) h]
      have hrun : s.runRemaining = 1 := by rw [Life.runRemaining, if_pos hresult]
      rw [hrun]
      exact Nat.le_refl _

/-- A client that is neither stuck in a panic nor at its end can go on. -/
theorem exists_winds {l : List RunError} (hI : LifeInv l s) (hw : s.writePump.Left)
    (hp : s.client.panicked = false) (hresult : s.result = none) :
    ∃ e s', s.winds e = true ∧ s.next e = some s' := by
  have hnext : ∀ {e : LifeEvent} {s' : Life}, s.step e = some s' → s.next e = some s' := by
    intro e s' hs
    unfold Life.next
    rw [hp]
    exact hs
  have hclient : ∀ {e : ClientEvent} {c : Client}, s.client.step e = some c →
      s.client.next e = some c := by
    intro e c hc
    unfold Client.next
    rw [hp]
    exact hc
  -- it is enough that one of the steps is enabled
  suffices hstep : ∃ e, s.winds e = true ∧ (s.step e).isSome = true by
    obtain ⟨e, hwinds, he⟩ := hstep
    obtain ⟨s', hs'⟩ := Option.isSome_iff_exists.mp he
    exact ⟨e, s', hwinds, hnext hs'⟩
  cases hwrite : s.writePump with
  | select | writing =>
      rw [hwrite] at hw
      exact hw.elim
  | leaving =>
      refine ⟨.closeDone, rfl, ?_⟩
      simp only [Life.step, Life.closeDone, hwrite, if_true]
      rw [hclient (e := .done) rfl]
      rfl
  | closing rest =>
      cases rest with
      | nil =>
          refine ⟨.writeReturns, rfl, ?_⟩
          simp only [Life.step, hwrite, if_true, Option.isSome_some]
      | cons i rest =>
          refine ⟨.closeSource i, rfl, ?_⟩
          simp only [Life.step, Life.closeSource, hwrite, List.mem_cons_self, if_true,
            Option.isSome_some]
  | returned =>
      have hd : s.client.done = true := hI.done.mpr (by rw [hwrite]; trivial)
      cases hend : s.readEnd with
      | looping =>
          have hne : s.client.readPump ≠ .returned := fun h => hI.reading.mp h hend
          by_cases hreading : s.client.readPump = .reading
          · -- the connection is closed
            refine ⟨.readFails .unexpectedMessage, ?_, ?_⟩
            · simp only [Life.winds, hwrite, decide_true]
            · simp only [Life.step, Life.readFails, hend, if_true]
              have hc : s.client.step .leave = some { s.client with readPump := .returned } := by
                simp only [Client.step, hreading, if_true]
              rw [hclient hc]
              rfl
          · refine ⟨.client .readDone, hd, ?_⟩
            have hc : s.client.step .readDone = some { s.client with readPump := .reading } := by
              simp only [Client.step, Client.readDone, hd, if_true]
            simp only [Life.step, Life.clientStep, reduceCtorEq, or_self, if_false, hclient hc,
              Option.bind_some, Client.entersTables, Bool.false_eq_true]
            have hposted : ¬ s.client.posted < Client.posted { s.client with readPump := .reading } :=
              lt_irrefl _
            rw [if_neg hposted]
            rfl
      | stopping =>
          refine ⟨.readReturns, rfl, ?_⟩
          simp only [Life.step, hend, hd, and_self, if_true, Option.isSome_some]
      | returned =>
          obtain ⟨err, l', hl⟩ := List.exists_cons_of_ne_nil (hI.left hw)
          have hlast := hI.waiting hresult
          rw [hl, List.head?_cons] at hlast
          refine ⟨.runReturns, rfl, ?_⟩
          simp only [Life.step, hwrite, hend, hresult, and_self, if_true, hlast, Option.map_some,
            Option.isSome_some]

theorem remaining_le {l : List ℕ} (hS : SourcesInv l s) : s.remaining ≤ s.client.handles.length + 6 := by
  have hread := readRemaining_le s
  have hrun := runRemaining_le s
  by_cases hpast : s.writePump.Past
  · cases hwrite : s.writePump with
    | select | writing | leaving =>
        rw [hwrite] at hpast
        exact hpast.elim
    | closing rest =>
        have hlen := hS.sources.length_eq
        have hpending : s.pending = rest := by rw [Life.pending, hwrite]
        rw [hpending, List.length_append, List.length_range] at hlen
        rw [remaining_closing hwrite]
        omega
    | returned =>
        rw [remaining_returned hwrite]
        omega
  · rw [remaining_of_not_past hpast]

/-- **The client comes to its end.** Once the write pump has left its loop, however the steps of the
calls of `respond`, of `Close` and of the response pumps fall in between, no more steps remain than
there are handles and six, and when none of them can be taken and the client has not panicked, `Run`
has returned. -/
theorem shutdown_terminates {es es' : List LifeEvent} (h : lifecycle.run .init es = some s)
    (hw : s.writePump.Left) (h' : lifecycle.run s es' = some s') :
    (lifecycle.observe winding s es').length ≤ s.client.handles.length + 6 ∧
    (s'.client.panicked = false → (∀ e, s'.winds e = true → s'.next e = none) →
      ∃ err, s'.result = some err) := by
  have hstep : ∀ s e s', (∃ l, LifeInv l s) ∧ s.writePump.Left → lifecycle.step s e = some s' →
      ((∃ l, LifeInv l s') ∧ s'.writePump.Left) ∧
        s'.remaining + (winding s e).length ≤ s.remaining := by
    rintro s e s' ⟨⟨l, hI⟩, hleft⟩ hs
    have hsteps := (Life.steps_of_next hs).2
    obtain ⟨hleft', hle⟩ := remaining_step hI hleft hsteps
    exact ⟨⟨⟨_, hI.step hsteps⟩, hleft'⟩, hle⟩
  obtain ⟨⟨⟨l, hI⟩, hleft⟩, hle⟩ :=
    Machine.observe_length_le _ Life.remaining hstep ⟨⟨_, lifeInv_of_run h⟩, hw⟩ h'
  have hbound := remaining_le (sourcesInv_of_run h)
  refine ⟨by omega, fun hp hstuck => ?_⟩
  by_contra hno
  have hresult : s'.result = none :=
    Option.eq_none_iff_forall_ne_some.mpr fun err herr => hno ⟨err, herr⟩
  obtain ⟨e, s₁, hwinds, he⟩ := exists_winds hI hleft hp hresult
  rw [hstuck e hwinds] at he
  cases he

theorem shutdown_terminates_failedRead :
    (lifecycle.observe winding (lifeAfter (failedRead.take 3)) (failedRead.drop 3)).length ≤ 7 := by
  have h : lifecycle.run .init (failedRead.take 3) = some (lifeAfter (failedRead.take 3)) := rfl
  have h' : lifecycle.run (lifeAfter (failedRead.take 3)) (failedRead.drop 3) =
      some (lifeAfter failedRead) := rfl
  exact (shutdown_terminates h trivial h').1

end Shutdown

/-! ## A cancellation that nobody receives -/

/-- The connection fails for writing, or `Close` is called. -/
def LifeEvent.ends : LifeEvent → Bool
  | .writeFails _ => true
  | .close _ => true
  | _ => false

/-- No goroutine receives a cancellation for the handle `i`, and no request is left that would start
one. -/
structure Client.Unheard (c : Client) (i : ℕ) : Prop where
  serve : ∀ h, c.handles[i]? = some h → h.serve = []
  exited : ∀ (k : ℕ) (call : Call), c.calls[k]? = some call → call.handle = i →
    call.respond.helper ≠ .waiting

/-- **The read pump is stuck** with the cancellation of `request`, in a client that is up. -/
structure Wedged (i : ℕ) (request : Request) (s : Life) : Prop where
  cancelling : s.client.readPump = .cancelling i request
  unheard : s.client.Unheard i
  running : ¬ s.writePump.Left
  called : ∀ j, s.closes j ≠ .stopping

section Wedge

variable {s s' : Life} {i : ℕ} {request : Request}

theorem write_helper (r : Respond) (clientDone : Bool) (m : ClientData) (p : RespondPoint) :
    (r.write clientDone m p).helper = r.helper := by
  unfold Respond.write
  split <;> rfl

theorem step_helper {c : Content} {request : Request} {r r' : Respond} {clientDone : Bool}
    (hs : r.step c request clientDone = some r') : r'.helper = r.helper := by
  unfold Respond.step at hs
  cases hp : r.point with
  | header =>
      rw [hp] at hs
      cases hs
      cases c.header request with
      | none => rfl
      | some header => exact write_helper _ _ _ _
  | loop sequence =>
      rw [hp] at hs
      cases hs
      split_ifs <;> rfl
  | chunk sequence data =>
      rw [hp] at hs
      cases hs
      exact write_helper _ _ _ _
  | closeCancel | closeDone | closeResponse =>
      rw [hp] at hs
      cases hs
      rfl
  | checkCancel =>
      rw [hp] at hs
      cases hs
      split_ifs <;> rfl
  | _ =>
      rw [hp] at hs
      cases hs

/-- A goroutine that has left its `select` does not come back. -/
theorem helper_of_respondNext {c : Content} {request : Request} {r r' : Respond} {clientDone : Bool}
    {e : RespondEvent} (hs : Responding.respondNext c request ⟨r, clientDone⟩ e = some r')
    (hw : r'.helper = .waiting) : r.helper = .waiting := by
  cases e with
  | data ok =>
      simp only [Responding.respondNext, Respond.dataReturns] at hs
      split at hs <;> cases hs
      cases ok <;> exact hw
  | read results =>
      simp only [Responding.respondNext, Respond.readReturns] at hs
      split at hs
      · obtain ⟨x, -, rfl⟩ := Option.map_eq_some_iff.mp hs
        cases x with
        | ok buf => exact hw
        | error err =>
            cases herr : err.isEof <;> simp only [Respond.afterRead, herr] at hw <;> exact hw
      · cases hs
  | step =>
      simp only [Responding.respondNext] at hs
      rwa [step_helper hs] at hw
  | token =>
      simp only [Responding.respondNext, Respond.token] at hs
      split at hs <;> cases hs
      cases hw
  | helper =>
      simp only [Responding.respondNext, Respond.helperStep] at hs
      split at hs
      · split at hs <;> cases hs
        cases hw
      · cases hs
        cases hw
      · cases hs
  | clientDone =>
      cases hs
      exact hw

/-- The handles as before, but for the calls that they are in. -/
theorem Client.Unheard.congr {c c' : Client} (h : c.Unheard i) (hcalls : c'.calls = c.calls)
    (hserve : ∀ h', c'.handles[i]? = some h' → h'.serve = []) : c'.Unheard i :=
  ⟨hserve, by rw [hcalls]; exact h.exited⟩

theorem Client.Unheard.set {c : Client} (h : c.Unheard i) {j : ℕ} {h₀ h₁ : Handle}
    (hj : c.handles[j]? = some h₀) (hserve : j = i → h₁.serve = h₀.serve) :
    ∀ h', (c.handles.set j h₁)[i]? = some h' → h'.serve = [] := by
  intro h' hh'
  rw [List.getElem?_set] at hh'
  by_cases hji : j = i
  · subst hji
    rw [if_pos rfl, if_pos (List.getElem?_eq_some_iff.mp hj).1] at hh'
    cases hh'
    rw [hserve rfl]
    exact h.serve h₀ hj
  · rw [if_neg hji] at hh'
    exact h.serve h' hh'

/-- **No step of the client hears the cancellation**, unless it is closed. -/
theorem Client.unheard_of_next {c c' : Client} {e : ClientEvent} (h : c.Unheard i)
    (hp : c.readPump = .cancelling i request) (hd : c.done = false) (hs : c.next e = some c') :
    c'.Unheard i ∧ (e ≠ .done → c'.readPump = .cancelling i request ∧ ∀ m, e ≠ .receive m) := by
  have hstep := Client.step_of_next hs
  have hmove := Client.readMove_of_next hs
  -- the steps that leave the read pump where it is
  have hstays : c'.readPump = c.readPump → (∀ m, e ≠ .receive m) →
      c'.readPump = .cancelling i request ∧ ∀ m, e ≠ .receive m := fun h1 h2 => ⟨h1.trans hp, h2⟩
  cases hmove with
  | receive h' =>
      rw [hp] at h'
      cases h'
  | leave h' =>
      rw [hp] at h'
      cases h'
  | back _ _ _ he =>
      rcases he with rfl | ⟨rfl, hd'⟩ | ⟨k, rfl⟩
      · simp only [Client.step, Client.readStep, hp] at hstep
        cases hstep
      · rw [hd] at hd'
        cases hd'
      · -- the token would need a goroutine
        simp only [Client.step, Client.takeToken, hp] at hstep
        obtain ⟨call, hk, hstep⟩ := Option.bind_eq_some_iff.mp hstep
        split at hstep
        · rename_i hi
          obtain ⟨r, hr, -⟩ := Option.map_eq_some_iff.mp hstep
          unfold Respond.token at hr
          split at hr
          · exact absurd (by assumption) (h.exited k call hk hi)
          · cases hr
        · cases hstep
  | same hsame hl hr hm =>
      refine ⟨?_, fun _ => hstays hsame hm⟩
      cases e with
      | receive m => exact absurd rfl (hm m)
      | leave => exact absurd rfl hl
      | readDone => exact absurd rfl hr
      | register path content =>
          simp only [Client.step] at hstep
          split at hstep <;> cases hstep
          refine h.congr rfl fun h' hh' => ?_
          change (c.handles ++ [_])[i]? = some h' at hh'
          rw [List.getElem?_append] at hh'
          split at hh'
          · exact h.serve h' hh'
          · have hnew := List.mem_singleton.mp (List.mem_of_getElem? hh')
            rw [hnew]
      | unregister j =>
          simp only [Client.step] at hstep
          split at hstep
          · cases hstep
          rcases Client.unregister_cases hstep with ⟨-, rfl⟩ | ⟨_, -, -, rfl⟩
          · exact h
          · exact h.congr rfl h.serve
      | readStep =>
          simp only [Client.step, Client.readStep, hp] at hstep
          cases hstep
      | token k =>
          simp only [Client.step, Client.takeToken, hp] at hstep
          obtain ⟨call, hk, hstep⟩ := Option.bind_eq_some_iff.mp hstep
          split at hstep
          · obtain ⟨r, -, rfl⟩ := Option.map_eq_some_iff.mp hstep
            rw [hp] at hsame
            cases hsame
          · cases hstep
      | take j =>
          obtain ⟨h₀, hj, hstep⟩ := Option.bind_eq_some_iff.mp hstep
          split at hstep
          · cases hstep
          rename_i request rest hserve
          split at hstep <;> cases hstep
          -- the queue of the handle `i` is empty
          have hne : j ≠ i := by
            rintro rfl
            rw [h.serve h₀ hj] at hserve
            cases hserve
          refine ⟨h.set hj fun he => absurd he hne, fun k call hk hi => ?_⟩
          change (c.calls ++ [_])[k]? = some call at hk
          rw [List.getElem?_append] at hk
          split at hk
          · exact h.exited k call hk hi
          · have hnew := List.mem_singleton.mp (List.mem_of_getElem? hk)
            rw [hnew] at hi
            exact absurd hi hne
      | finish j =>
          obtain ⟨h₀, hj, hstep⟩ := Option.bind_eq_some_iff.mp hstep
          obtain ⟨k, -, hstep⟩ := Option.bind_eq_some_iff.mp hstep
          obtain ⟨call, -, hstep⟩ := Option.bind_eq_some_iff.mp hstep
          split at hstep <;> cases hstep
          exact h.congr rfl (h.set hj fun _ => rfl)
      | quit j =>
          obtain ⟨h₀, -, hstep⟩ := Option.bind_eq_some_iff.mp hstep
          rw [hd] at hstep
          cases hstep
      | respond k e =>
          simp only [Client.step, Client.respondStep] at hstep
          split at hstep
          · cases hstep
          obtain ⟨call, hk, hstep⟩ := Option.bind_eq_some_iff.mp hstep
          obtain ⟨r, hr, rfl⟩ := Option.map_eq_some_iff.mp hstep
          refine ⟨h.serve, fun j call' hj hi hw => ?_⟩
          rw [List.getElem?_set] at hj
          by_cases hkj : k = j
          · subst hkj
            rw [if_pos rfl, if_pos (List.getElem?_eq_some_iff.mp hk).1] at hj
            cases hj
            exact h.exited k call hk hi (helper_of_respondNext hr hw)
          · rw [if_neg hkj] at hj
            exact h.exited j call' hj hi hw
      | done =>
          cases hstep
          exact h.congr rfl h.serve

/-- **Every step leaves the read pump stuck**, unless a write fails or `Close` is called. -/
theorem Wedged.step {l : List RunError} {e : LifeEvent} (hI : LifeInv l s) (h : Wedged i request s)
    (he : e.ends = false) (hs : s.Steps e s') :
    Wedged i request s' ∧ ∀ m, e ≠ .client (.receive m) := by
  have hd : s.client.done = false := by
    by_contra hd
    exact h.running (LifeInv.past_left (hI.done.mp (by simpa using hd)))
  have hlooping : s.readEnd = .looping := by
    by_contra hend
    have hr := hI.reading.mpr hend
    rw [h.cancelling] at hr
    cases hr
  cases hs with
  | @client e c w hdone hleave hc hw ht =>
      obtain ⟨hunheard, hread⟩ := Client.unheard_of_next h.unheard h.cancelling hd hc
      obtain ⟨hcancelling, hm⟩ := hread hdone
      refine ⟨⟨hcancelling, hunheard, ?_, h.called⟩, ?_⟩
      · rcases hw with rfl | ⟨-, rfl⟩
        · exact h.running
        · exact id
      · rintro m ⟨⟩
        exact hm m rfl
  | wrote | ping => exact ⟨⟨h.cancelling, h.unheard, id, h.called⟩, by rintro m ⟨⟩⟩
  | writeFails | close => cases he
  | closeStops hj | closeReturns hj => exact absurd hj (h.called _)
  | readFails failure hr hc =>
      obtain ⟨hreading, -⟩ := Client.next_leave hc
      rw [h.cancelling] at hreading
      cases hreading
  | readStops hr | readReturns hr =>
      rw [hlooping] at hr
      cases hr
  | closeDone hw | closeSource hw | writeReturns hw | runReturns hw =>
      exact absurd (by rw [hw]; trivial) h.running

/-- A run of such steps. -/
theorem Wedged.run {l : List RunError} {es : List LifeEvent} (hI : LifeInv l s)
    (h : Wedged i request s) (hes : ∀ e ∈ es, e.ends = false) (hrun : lifecycle.run s es = some s') :
    (∃ l, LifeInv l s') ∧ Wedged i request s' ∧ ∀ m, .client (.receive m) ∉ es := by
  induction es generalizing s l with
  | nil =>
      cases hrun
      exact ⟨⟨l, hI⟩, h, fun _ => List.not_mem_nil⟩
  | cons e es ih =>
      rw [Machine.run_cons, Option.bind_eq_some_iff] at hrun
      obtain ⟨s₁, hs, hrun⟩ := hrun
      have hsteps := (Life.steps_of_next hs).2
      obtain ⟨hwedged, hne⟩ := h.step hI (hes e List.mem_cons_self) hsteps
      obtain ⟨hI', hwedged', hrest⟩ :=
        ih (hI.step hsteps) hwedged (fun e' he' => hes e' (List.mem_cons_of_mem e he')) hrun
      refine ⟨hI', hwedged', fun m hm => ?_⟩
      rcases List.mem_cons.mp hm with he | hm
      · exact hne m he.symm
      · exact hrest m hm

/-- **A late `RequestClosed` ends the work of the read pump.** When a request is closed whose handle
has nothing to do any more, in a client that is up and whose `Close` was not called, then the read
pump handles no further message and `Run` does not return, in any run in which no write fails and
`Close` is not called. -/
theorem late_cancellation_wedges {es₀ es : List LifeEvent} {id : UInt64} {path message : String}
    (h₀ : lifecycle.run .init es₀ = some s) (hrunning : ¬ s.writePump.Left)
    (hcalled : ∀ j, s.closes j ≠ .stopping) (hrequest : s.client.requests id = some ⟨id, path⟩)
    (hpath : s.client.forPath path = some i) (hidle : s.client.Unheard i)
    (hes : ∀ e ∈ es, e.ends = false)
    (h : lifecycle.run s (.client (.receive (.requestClosed id message)) :: es) = some s') :
    s'.client.readPump = .cancelling i ⟨id, path⟩ ∧ s'.result = none ∧
      ∀ m, .client (.receive m) ∉ es := by
  rw [Machine.run_cons, Option.bind_eq_some_iff] at h
  obtain ⟨s₁, hs₁, h⟩ := h
  have hsteps := (Life.steps_of_next hs₁).2
  have hI := (lifeInv_of_run h₀).step hsteps
  have hwedged : Wedged i ⟨id, path⟩ s₁ := by
    cases hsteps with
    | @client _ c w _ _ hc hw =>
        obtain ⟨hreading, hd, rfl⟩ : s.client.readPump = .reading ∧ s.client.done = false ∧
            c = s.client.receive (.requestClosed id message) := by
          cases Client.readMove_of_next hc with
          | same _ _ _ hr => exact absurd rfl (hr _)
          | receive h1 h2 h3 => exact ⟨h1, h2, h3⟩
          | back _ _ _ he => rcases he with ⟨⟨⟩⟩ | ⟨⟨⟨⟩⟩, -⟩ | ⟨k, ⟨⟨⟩⟩⟩
        have hclient : s.client.receive (.requestClosed id message) =
            { s.client with
              requests := Function.update s.client.requests id none
              readPump := .cancelling i ⟨id, path⟩ } := by
          simp only [Client.receive, hrequest, Client.cancelResponse, hpath]
        rw [hclient]
        refine ⟨rfl, ⟨hidle.serve, hidle.exited⟩, ?_, hcalled⟩
        rcases hw with rfl | ⟨-, rfl⟩
        · exact hrunning
        · exact fun hleft => hleft
  obtain ⟨⟨l, hI'⟩, hwedged', hes'⟩ := hwedged.run hI hes h
  refine ⟨hwedged'.cancelling, hI'.result_none fun hw => hwedged'.running (by rw [hw]; trivial), hes'⟩

/-- A request is answered, and the goroutine of its `respond` has exited. -/
def answeredRequest : List LifeEvent :=
  [.client (.register "a" threeBytes), .client (.receive (.request 1 "a")), .client .readStep,
    .client (.take 0), .client (.respond 0 (.data true)), .client (.respond 0 .step), .wrote,
    .client (.respond 0 .step), .client (.respond 0 (.read [⟨[1, 2], none⟩])),
    .client (.respond 0 .step), .wrote, .client (.respond 0 .step),
    .client (.respond 0 (.read [⟨[3], none⟩])), .client (.respond 0 .step), .wrote,
    .client (.respond 0 .step), .client (.respond 0 .step), .client (.respond 0 .step),
    .client (.respond 0 .helper), .client (.finish 0)]

/-- The request is closed afterwards. -/
theorem late_cancellation_wedges_answeredRequest : ∃ s',
    lifecycle.run (lifeAfter answeredRequest)
      [.client (.receive (.requestClosed 1 "closed")), .ping, .wrote] = some s' ∧
    s'.client.readPump = .cancelling 0 ⟨1, "a"⟩ := by
  have h₀ : lifecycle.run .init answeredRequest = some (lifeAfter answeredRequest) := rfl
  have hidle : (lifeAfter answeredRequest).client.Unheard 0 := by
    refine ⟨fun h hh => ?_, fun k call hk _ => ?_⟩
    · cases hh
      rfl
    · cases k with
      | zero =>
          cases hk
          rintro ⟨⟩
      | succ k => cases hk
  obtain ⟨s', h⟩ : ∃ s', lifecycle.run (lifeAfter answeredRequest)
      [.client (.receive (.requestClosed 1 "closed")), .ping, .wrote] = some s' := ⟨_, rfl⟩
  refine ⟨s', h, ?_⟩
  have hes : ∀ e ∈ [LifeEvent.ping, .wrote], e.ends = false := by decide
  exact (late_cancellation_wedges h₀ (fun h => h) (fun _ => by rintro ⟨⟩) rfl rfl hidle hes h).1

end Wedge

end Loon.GoClient
