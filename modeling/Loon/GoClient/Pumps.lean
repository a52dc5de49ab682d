import Loon.GoClient.Respond

set_option autoImplicit false

/-!
# The pumps of the Go client

The client of `pkg/client/client.go`: the read pump, which hands requests and cancellations to the
handle that its path table names, one response pump for each handle, and the calls of `respond` that
these make, each with a goroutine that may outlive it. The write pump takes what is sent, keeps the
tables of registered content, and ends the client.

* `Handle`, `Call`, `ReadPoint`, `Client`;
* `register`, `unregister`: the tables of the write pump;
* `receive`, `readStep`, `readDone`, `takeToken`: the read pump;
* `goClient`: the client as a machine;
* `Client.Steps`, `Client.steps_of_next`: what a step does;
* **`calls_run`**: each call of `respond` that the client makes is a run of `responding`.

A cancellation is one token on an unbuffered channel of the handle: it changes hands when a goroutine
that waits on the handle receives it.
-/

namespace Loon.GoClient

/-- `contentHandle`, with the call of `respond` its response pump is in. -/
structure Handle where
  path : String
  content : Content
  serve : List Request
  current : Option ℕ
  pumping : Bool
  deriving DecidableEq, Repr

/-- A call of `respond`, with the number of its handle. -/
structure Call where
  handle : ℕ
  content : Content
  request : Request
  respond : Respond
  deriving DecidableEq, Repr

/-- Where the read pump is. -/
inductive ReadPoint where
  | reading
  | emptyResponse (request : Request)
  | serving (handle : ℕ) (request : Request)
  | cancelling (handle : ℕ) (request : Request)
  | returned
  deriving DecidableEq, Repr

/-- `requestBuffer`. -/
def requestBuffer : ℕ := 16

/-- `clientImpl`. Handles and calls of `respond` are numbered as they come; `content` and `forPath`
are the tables of the write pump, `requests` the table of the read pump, and `sent` what that has
sent. -/
structure Client where
  handles : List Handle
  content : ℕ → Bool
  forPath : String → Option ℕ
  calls : List Call
  readPump : ReadPoint
  requests : UInt64 → Option Request
  sent : List ClientData
  done : Bool
  panicked : Bool

/-- The steps of the pumps, of the calls of `respond` and of their goroutines. -/
inductive ClientEvent where
  | register (path : String) (content : Content)
  | unregister (handle : ℕ)
  | receive (m : ServerMessage)
  | leave
  | readStep
  | readDone
  | token (call : ℕ)
  | take (handle : ℕ)
  | finish (handle : ℕ)
  | quit (handle : ℕ)
  | respond (call : ℕ) (e : RespondEvent)
  | done
  deriving DecidableEq, Repr

namespace Client

def init : Client where
  handles := []
  content _ := false
  forPath _ := none
  calls := []
  readPump := .reading
  requests _ := none
  sent := []
  done := false
  panicked := false

variable (s : Client)

/-! ## The write pump -/

/-- `Register`: the write pump enters the handle, whose response pump is started. -/
def register (path : String) (content : Content) : Client :=
  { s with
    handles := s.handles ++ [⟨path, content, [], none, true⟩]
    content := Function.update s.content s.handles.length true
    forPath := Function.update s.forPath path (some s.handles.length) }

/-- `Unregister`. -/
def unregister (i : ℕ) : Option Client :=
  s.handles[i]?.map fun h =>
    if s.content i then
      { s with
        content := Function.update s.content i false
        forPath := Function.update s.forPath h.path none }
    else s

/-! ## The read pump -/

/-- `handleRequest`, up to its `select`. -/
def handleRequest (request : Request) : Client :=
  { s with
    readPump := match s.forPath request.path with
      | none => .emptyResponse request
      | some i => .serving i request }

/-- `cancelResponse`, up to its `select`. -/
def cancelResponse (request : Request) : Client :=
  { s with
    readPump := match s.forPath request.path with
      | none => .reading
      | some i => .cancelling i request }

/-- The read pump receives a message of the server. -/
def receive : ServerMessage → Client
  | .request id path =>
    { s with requests := Function.update s.requests id (some ⟨id, path⟩) }.handleRequest ⟨id, path⟩
  | .success id => { s with requests := Function.update s.requests id none }
  | .requestClosed id _ =>
    match s.requests id with
    | none => { s with panicked := true }
    | some request => { s with requests := Function.update s.requests id none }.cancelResponse request

/-- The read pump hands over a response or a request. -/
def readStep : Option Client :=
  match s.readPump with
  | .emptyResponse request =>
    if s.done then none
    else some { s with sent := s.sent ++ [.emptyResponse ⟨request.id⟩], readPump := .reading }
  | .serving i request =>
    s.handles[i]?.bind fun h =>
      if h.serve.length < requestBuffer then
        some { s with
          handles := s.handles.set i { h with serve := h.serve ++ [request] }
          readPump := .reading }
      else none
  | _ => none

/-- The read pump leaves a `select` because the client is closed. -/
def readDone : Option Client :=
  match s.readPump with
  | .reading => none
  | .returned => none
  | _ => if s.done then some { s with readPump := .reading } else none

/-- A goroutine that waits on the handle receives the cancellation of the read pump. -/
def takeToken (k : ℕ) : Option Client :=
  match s.readPump with
  | .cancelling i _ =>
    s.calls[k]?.bind fun call =>
      if call.handle = i then
        call.respond.token.map fun r =>
          { s with calls := s.calls.set k { call with respond := r }, readPump := .reading }
      else none
  | _ => none

/-! ## The response pumps -/

/-- A response pump takes a request and calls `respond`. -/
def take (i : ℕ) : Option Client :=
  s.handles[i]?.bind fun h =>
    match h.serve with
    | [] => none
    | request :: rest =>
      if h.pumping && h.current.isNone then
        some { s with
          handles := s.handles.set i { h with serve := rest, current := some s.calls.length }
          calls := s.calls ++ [⟨i, h.content, request, .init⟩] }
      else none

/-- The call of a response pump returns. -/
def finish (i : ℕ) : Option Client :=
  s.handles[i]?.bind fun h => h.current.bind fun k => s.calls[k]?.bind fun call =>
    if call.respond.point = .returned then
      some { s with handles := s.handles.set i { h with current := none } }
    else none

/-- A response pump returns. -/
def quit (i : ℕ) : Option Client :=
  s.handles[i]?.bind fun h =>
    if s.done && h.pumping && h.current.isNone then
      some { s with handles := s.handles.set i { h with pumping := false } }
    else none

/-- A step of a call of `respond` or of its goroutine, other than the receipt of a cancellation. -/
def respondStep (k : ℕ) (e : RespondEvent) : Option Client :=
  if e = .token ∨ e = .clientDone then none
  else s.calls[k]?.bind fun call =>
    (Responding.respondNext call.content call.request ⟨call.respond, s.done⟩ e).map fun r =>
      { s with
        calls := s.calls.set k { call with respond := r }
        panicked := r.panicked }

/-- A step of the client. -/
def step : ClientEvent → Option Client
  | .register path content => if s.done then none else some (s.register path content)
  | .unregister i => if s.done then none else s.unregister i
  | .receive m => if s.readPump = .reading ∧ s.done = false then some (s.receive m) else none
  | .leave => if s.readPump = .reading then some { s with readPump := .returned } else none
  | .readStep => s.readStep
  | .readDone => s.readDone
  | .token k => s.takeToken k
  | .take i => s.take i
  | .finish i => s.finish i
  | .quit i => s.quit i
  | .respond k e => s.respondStep k e
  | .done => some { s with done := true }

/-- Nothing happens after a panic. -/
def next (e : ClientEvent) : Option Client := if s.panicked then none else s.step e

end Client

/-- The Go client. -/
def goClient : Machine Client ClientEvent := ⟨.init, Client.next⟩

/-! ## What a step does -/

namespace Client

/-- The calls, the table of requests and the calls the response pumps are in stay as they are, and the
read pump begins no cancellation. -/
structure Frame (s s' : Client) : Prop where
  calls : s'.calls = s.calls
  done : s'.done = s.done
  panicked : s'.panicked = s.panicked
  requests : s'.requests = s.requests
  handles : ∀ (i : ℕ) (h : Handle), s.handles[i]? = some h →
    ∃ h' : Handle, s'.handles[i]? = some h' ∧ h'.current = h.current
  readPump : ∀ i request, s'.readPump = .cancelling i request → s.readPump = .cancelling i request

/-- **What a step of the client does**, to its calls above all. -/
inductive Steps (s : Client) : ClientEvent → Client → Prop where
  | frame {e : ClientEvent} {s' : Client} (h : s.Frame s') : Steps s e s'
  | receive {m : ServerMessage} : Steps s (.receive m) (s.receive m)
  | token {k i : ℕ} {request : Request} {call : Call} {r : Respond}
      (hp : s.readPump = .cancelling i request) (hk : s.calls[k]? = some call)
      (hi : call.handle = i) (hr : call.respond.token = some r) :
      Steps s (.token k)
        { s with calls := s.calls.set k { call with respond := r }, readPump := .reading }
  | take {i : ℕ} {h : Handle} {request : Request} {rest : List Request}
      (hi : s.handles[i]? = some h) (hcurrent : h.current = none) :
      Steps s (.take i) { s with
        handles := s.handles.set i { h with serve := rest, current := some s.calls.length }
        calls := s.calls ++ [⟨i, h.content, request, .init⟩] }
  | finish {i k : ℕ} {h : Handle} {call : Call} (hi : s.handles[i]? = some h)
      (hcurrent : h.current = some k) (hk : s.calls[k]? = some call)
      (hp : call.respond.point = .returned) :
      Steps s (.finish i) { s with handles := s.handles.set i { h with current := none } }
  | respond {k : ℕ} {e : RespondEvent} {call : Call} {r : Respond} (ht : e ≠ .token)
      (hd : e ≠ .clientDone) (hk : s.calls[k]? = some call)
      (hr : Responding.respondNext call.content call.request ⟨call.respond, s.done⟩ e = some r) :
      Steps s (.respond k e) { s with
        calls := s.calls.set k { call with respond := r }
        panicked := r.panicked }
  | done : Steps s .done { s with done := true }

variable {s s' : Client}

/-- A frame of the handles, for a step that changes one of them. -/
theorem current_set {handles : List Handle} {i : ℕ} {h₀ h₁ : Handle} (hi : handles[i]? = some h₀)
    (hcurrent : h₁.current = h₀.current) (j : ℕ) (h : Handle) (hj : handles[j]? = some h) :
    ∃ h' : Handle, (handles.set i h₁)[j]? = some h' ∧ h'.current = h.current := by
  rw [List.getElem?_set]
  by_cases hij : i = j
  · subst hij
    rw [hi] at hj
    cases hj
    exact ⟨h₁, by rw [if_pos rfl, if_pos (List.getElem?_eq_some_iff.mp hi).1], hcurrent⟩
  · exact ⟨h, by rw [if_neg hij]; exact hj, rfl⟩

/-- A frame for a step that changes none of the handles. -/
theorem Frame.of_handles (hcalls : s'.calls = s.calls) (hdone : s'.done = s.done)
    (hpanicked : s'.panicked = s.panicked) (hrequests : s'.requests = s.requests)
    (hhandles : s'.handles = s.handles)
    (hread : ∀ i request, s'.readPump = .cancelling i request →
      s.readPump = .cancelling i request) : s.Frame s' :=
  ⟨hcalls, hdone, hpanicked, hrequests, fun _ h hi => ⟨h, hhandles ▸ hi, rfl⟩, hread⟩

theorem frame_unregister {i : ℕ} (hs : s.unregister i = some s') : s.Frame s' := by
  obtain ⟨h, -, rfl⟩ := Option.map_eq_some_iff.mp hs
  split
  · exact .of_handles rfl rfl rfl rfl rfl fun _ _ hp => hp
  · exact .of_handles rfl rfl rfl rfl rfl fun _ _ hp => hp

theorem frame_readStep (hs : s.readStep = some s') : s.Frame s' := by
  unfold readStep at hs
  split at hs
  · split at hs <;> cases hs
    exact .of_handles rfl rfl rfl rfl rfl (by rintro _ _ ⟨⟩)
  · obtain ⟨h, hi, hs⟩ := Option.bind_eq_some_iff.mp hs
    split at hs <;> cases hs
    exact ⟨rfl, rfl, rfl, rfl, current_set hi rfl, by rintro _ _ ⟨⟩⟩
  · cases hs

theorem frame_readDone (hs : s.readDone = some s') : s.Frame s' := by
  unfold readDone at hs
  split at hs
  · cases hs
  · cases hs
  · split at hs <;> cases hs
    exact .of_handles rfl rfl rfl rfl rfl (by rintro _ _ ⟨⟩)

theorem steps_takeToken {k : ℕ} (hs : s.takeToken k = some s') : s.Steps (.token k) s' := by
  unfold takeToken at hs
  split at hs
  swap
  · cases hs
  rename_i i request hp
  obtain ⟨call, hk, hs⟩ := Option.bind_eq_some_iff.mp hs
  split at hs
  swap
  · cases hs
  rename_i hi
  obtain ⟨r, hr, rfl⟩ := Option.map_eq_some_iff.mp hs
  exact .token hp hk hi hr

theorem steps_take {i : ℕ} (hs : s.take i = some s') : s.Steps (.take i) s' := by
  obtain ⟨h, hi, hs⟩ := Option.bind_eq_some_iff.mp hs
  split at hs
  · cases hs
  split at hs
  swap
  · cases hs
  rename_i hfree
  cases hs
  rw [Bool.and_eq_true, Option.isNone_iff_eq_none] at hfree
  exact .take hi hfree.2

theorem steps_finish {i : ℕ} (hs : s.finish i = some s') : s.Steps (.finish i) s' := by
  obtain ⟨h, hi, hs⟩ := Option.bind_eq_some_iff.mp hs
  obtain ⟨k, hcurrent, hs⟩ := Option.bind_eq_some_iff.mp hs
  obtain ⟨call, hk, hs⟩ := Option.bind_eq_some_iff.mp hs
  split at hs
  swap
  · cases hs
  rename_i hp
  cases hs
  exact .finish hi hcurrent hk hp

theorem steps_respondStep {k : ℕ} {e : RespondEvent} (hs : s.respondStep k e = some s') :
    s.Steps (.respond k e) s' := by
  unfold respondStep at hs
  split at hs
  · cases hs
  rename_i he
  obtain ⟨call, hk, hs⟩ := Option.bind_eq_some_iff.mp hs
  obtain ⟨r, hr, rfl⟩ := Option.map_eq_some_iff.mp hs
  exact .respond (fun he' => he (.inl he')) (fun he' => he (.inr he')) hk hr

/-- **Inversion of a step.** -/
theorem steps_of_next {e : ClientEvent} (hs : s.next e = some s') :
    s.panicked = false ∧ s.Steps e s' := by
  unfold next at hs
  split at hs
  · cases hs
  rename_i hpanicked
  refine ⟨by simpa only [Bool.not_eq_true] using hpanicked, ?_⟩
  cases e with
  | register path content =>
      simp only [step] at hs
      split at hs <;> cases hs
      refine .frame ⟨rfl, rfl, rfl, rfl, fun i h hi => ⟨h, ?_, rfl⟩, fun _ _ hp => hp⟩
      exact (List.getElem?_append_left (List.getElem?_eq_some_iff.mp hi).1).trans hi
  | unregister i =>
      simp only [step] at hs
      split at hs
      · cases hs
      · exact .frame (frame_unregister hs)
  | receive m =>
      simp only [step] at hs
      split at hs <;> cases hs
      exact .receive
  | leave =>
      simp only [step] at hs
      split at hs <;> cases hs
      exact .frame (.of_handles rfl rfl rfl rfl rfl (by rintro _ _ ⟨⟩))
  | readStep => exact .frame (frame_readStep hs)
  | readDone => exact .frame (frame_readDone hs)
  | token k => exact steps_takeToken hs
  | take i => exact steps_take hs
  | finish i => exact steps_finish hs
  | quit i =>
      obtain ⟨h, hi, hs⟩ := Option.bind_eq_some_iff.mp hs
      split at hs <;> cases hs
      exact .frame ⟨rfl, rfl, rfl, rfl, current_set hi rfl, fun _ _ hp => hp⟩
  | respond k e => exact steps_respondStep hs
  | done =>
      cases hs
      exact .done

end Client

/-! ## The calls of the client -/

/-- Every call of `respond` is where a run of `responding` leads, and nothing has panicked yet. -/
def CallsRun (s : Client) : Prop :=
  ∀ (k : ℕ) (call : Call), s.calls[k]? = some call →
    (∃ es, (responding call.content call.request).run .init es = some ⟨call.respond, s.done⟩) ∧
    (s.panicked = false → call.respond.panicked = false)

section CallsRun

variable {s s' : Client}

theorem CallsRun.of_calls (h : CallsRun s) (hc : s'.calls = s.calls) (hd : s'.done = s.done)
    (hp : s'.panicked = false → s.panicked = false) : CallsRun s' := by
  intro k call hk
  rw [hc] at hk
  rw [hd]
  exact ⟨(h k call hk).1, fun hp' => (h k call hk).2 (hp hp')⟩

/-- A run of `responding` goes on. -/
theorem responding_extend {c : Content} {request : Request} {es : List RespondEvent} {r r' : Respond}
    {done : Bool} {e : RespondEvent} (hr : (responding c request).run .init es = some ⟨r, done⟩)
    (hp : r.panicked = false) (he : Responding.respondNext c request ⟨r, done⟩ e = some r') :
    ∃ es, (responding c request).run .init es = some ⟨r', done || e = .clientDone⟩ := by
  refine ⟨es ++ [e], (Machine.run_snoc_eq_some _).mpr ⟨_, hr, ?_⟩⟩
  change Responding.next c request ⟨r, done⟩ e = _
  rw [Responding.next, hp, he]
  rfl

/-- A step of one call. -/
theorem CallsRun.setCall (h : CallsRun s) (hs : s.panicked = false) {k : ℕ} {call : Call}
    (hk : s.calls[k]? = some call) {e : RespondEvent} (he : e ≠ .clientDone) {r : Respond}
    (hr : Responding.respondNext call.content call.request ⟨call.respond, s.done⟩ e = some r)
    (hc : s'.calls = s.calls.set k { call with respond := r }) (hd : s'.done = s.done)
    (hp : s'.panicked = r.panicked) : CallsRun s' := by
  intro j call' hj
  rw [hc, List.getElem?_set] at hj
  rw [hd, hp]
  by_cases hkj : k = j
  · rw [if_pos hkj, if_pos (List.getElem?_eq_some_iff.mp hk).1] at hj
    cases hj
    obtain ⟨⟨es, hes⟩, hpanic⟩ := h k call hk
    refine ⟨?_, fun hp' => hp'⟩
    have hextend := responding_extend hes (hpanic hs) hr
    simpa only [he, decide_false, Bool.or_false] using hextend
  · rw [if_neg hkj] at hj
    exact ⟨(h j call' hj).1, fun _ => (h j call' hj).2 hs⟩

/-- A call begins. -/
theorem CallsRun.begin (h : CallsRun s) {i : ℕ} {content : Content} {request : Request}
    (hc : s'.calls = s.calls ++ [⟨i, content, request, .init⟩]) (hd : s'.done = s.done)
    (hp : s'.panicked = s.panicked) : CallsRun s' := by
  intro j call hj
  rw [hc, List.getElem?_append] at hj
  rw [hd, hp]
  split at hj
  · exact h j call hj
  · have hcall := List.mem_singleton.mp (List.mem_of_getElem? hj)
    subst hcall
    refine ⟨?_, fun _ => rfl⟩
    cases s.done with
    | false => exact ⟨[], rfl⟩
    | true => exact ⟨[.clientDone], rfl⟩

/-- **A step keeps the calls on runs of `responding`.** -/
theorem CallsRun.step (h : CallsRun s) {e : ClientEvent} (hs : s.next e = some s') :
    CallsRun s' := by
  obtain ⟨hpanicked, hs⟩ := Client.steps_of_next hs
  cases hs with
  | frame hf =>
      refine h.of_calls hf.calls hf.done fun hp => ?_
      rw [← hf.panicked]
      exact hp
  | @receive m =>
      refine h.of_calls ?_ ?_ fun _ => hpanicked
      all_goals
        cases m with
        | request id path => rfl
        | success id => rfl
        | requestClosed id message =>
            simp only [Client.receive]
            split <;> rfl
  | @token k i request call r hp hk hi hr =>
      refine h.setCall hpanicked hk (e := .token) (by rintro ⟨⟩) hr rfl rfl ?_
      have hcall := (h k call hk).2 hpanicked
      unfold Respond.token at hr
      split at hr <;> cases hr
      exact hpanicked.trans hcall.symm
  | take hi hcurrent => exact h.begin rfl rfl rfl
  | finish hi hcurrent hk hp => exact h.of_calls rfl rfl id
  | respond ht hd hk hr => exact h.setCall hpanicked hk hd hr rfl rfl rfl
  | done =>
      intro k call hk
      obtain ⟨⟨es, hes⟩, hp⟩ := h k call hk
      refine ⟨?_, hp⟩
      have hextend := responding_extend (e := .clientDone) hes (hp hpanicked) rfl
      simpa only [decide_true, Bool.or_true] using hextend

end CallsRun

/-- **The client makes its calls of `respond` as `responding` does**: whatever happens in the client,
each of its calls is where a run of `responding` leads. -/
theorem calls_run {es : List ClientEvent} {s : Client} (hr : goClient.run .init es = some s) {k : ℕ}
    {call : Call} (hk : s.calls[k]? = some call) :
    ∃ es, (responding call.content call.request).run .init es = some ⟨call.respond, s.done⟩ := by
  have h : CallsRun s := by
    refine Machine.run_inv (M := goClient) (P := CallsRun) (fun s e s' h hs => h.step hs) ?_ hr
    intro k call hk
    cases hk
  exact (h k call hk).1

end Loon.GoClient
