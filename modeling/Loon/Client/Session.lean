import Loon.Lib.Machine
import Loon.Lib.Rendezvous
import Loon.Client.Callbacks
import Loon.Client.Client

set_option autoImplicit false

/-!
# One connection of the client

The client with its past: the messages it has handled and the logs of its request handlers. The client
does what `Client.step` says, and nothing in it depends on the past.

* `Session`, `session`;
* `Disciplined`: the server requests each id once and then sends at most one `Success` or
  `RequestClosed` for it;
* **`Session.steps_of_step`**: what a step does;
* `idsBy_some`, `Session.posted_insert`, `Session.reported_insert`: what it adds to the past;
* `Client.Live`: registered handlers are not stopped.
-/

namespace Loon

/-- The client, the messages it has handled and the logs of its handlers. -/
structure Session where
  client : Client
  handled : List ServerMessage
  logs : ℕ → HandlerLog

/-- The message that a step handles. -/
def ClientEvent.handled : ClientEvent → List ServerMessage
  | .message m _ _ => [m]
  | _ => []

/-- The logs of the handlers after a step of the client `c` that sent `out`. -/
def Client.record (c : Client) (logs : ℕ → HandlerLog) (out : List Outgoing) :
    ClientEvent → ℕ → HandlerLog
  | .message (.request id path) limited _ =>
    match c.content path with
    | none => logs
    | some i =>
      if (c.requests id).isSome ∨ limited = true then logs
      else Function.update logs i
        { logs i with accepted := (logs i).accepted ++ [⟨c.seen, id⟩] }
  | .message (.requestClosed id _) _ _ =>
    match c.requests id with
    | none => logs
    | some (i, _) => Function.update logs i { logs i with sent := (logs i).sent ++ out }
  | .serve i _ => Function.update logs i
      ⟨(logs i).accepted, (logs i).sent ++ out, (logs i).called ++ (c.handlers i).point.calls.toList⟩
  | _ => logs

/-- The ids that `f` finds in the messages of `l`. -/
def idsBy (f : ServerMessage → Option UInt64) (l : List ServerMessage) : Set UInt64 :=
  {id | id ∈ l.filterMap f}

namespace Session

/-- The connection after the `Hello` message. -/
def init : Session := ⟨Client.init, [], fun _ => .empty⟩

def step (k : Constraints) (s : Session) (e : ClientEvent) : Option Session :=
  (s.client.step k e).map fun result =>
    ⟨result.1, s.handled ++ e.handled, s.client.record s.logs result.2 e⟩

variable (s : Session)

/-- The ids of the `Request` messages. -/
def requested : Set UInt64 := idsBy ServerMessage.newId s.handled

/-- The ids of the `Success` messages. -/
def succeeded : Set UInt64 := idsBy ServerMessage.successId s.handled

/-- The ids of the `RequestClosed` messages. -/
def closed : Set UInt64 := idsBy ServerMessage.closedId s.handled

/-- The requests that were handed to a handler. -/
def posted : Set (ℕ × UInt64) := {x | ∃ r ∈ (s.logs x.1).accepted, r.id = x.2}

/-- The requests whose callback was run. -/
def reported : Set UInt64 := {id | ∃ i, ∃ r ∈ (s.logs i).called, r.id = id}

end Session

/-- A connection of the client. -/
def session (k : Constraints) : Machine Session ClientEvent := ⟨.init, Session.step k⟩

/-- **The discipline of the server**: each id is requested once, and then there is at most one
`Success` or `RequestClosed` for it. -/
def Disciplined (s : Session) : ClientEvent → Prop
  | .message (.request id _) _ _ => id ∉ s.requested
  | .message (.success id) _ _ => id ∈ s.requested ∧ id ∉ s.succeeded ∧ id ∉ s.closed
  | .message (.requestClosed id _) _ _ => id ∈ s.requested ∧ id ∉ s.succeeded ∧ id ∉ s.closed
  | _ => True

section Decide

variable (s : Session) (id : UInt64)

instance (f : ServerMessage → Option UInt64) (l : List ServerMessage) : Decidable (id ∈ idsBy f l) :=
  inferInstanceAs (Decidable (id ∈ l.filterMap f))

instance : Decidable (id ∈ s.requested) := inferInstanceAs (Decidable (id ∈ idsBy _ s.handled))

instance : Decidable (id ∈ s.succeeded) := inferInstanceAs (Decidable (id ∈ idsBy _ s.handled))

instance : Decidable (id ∈ s.closed) := inferInstanceAs (Decidable (id ∈ idsBy _ s.handled))

instance : ∀ e, Decidable (Disciplined s e)
  | .message (.request id _) _ _ => inferInstanceAs (Decidable (id ∉ s.requested))
  | .message (.success id) _ _ =>
    inferInstanceAs (Decidable (id ∈ s.requested ∧ id ∉ s.succeeded ∧ id ∉ s.closed))
  | .message (.requestClosed id _) _ _ =>
    inferInstanceAs (Decidable (id ∈ s.requested ∧ id ∉ s.succeeded ∧ id ∉ s.closed))
  | .emptyResponse _ => inferInstanceAs (Decidable True)
  | .register _ _ => inferInstanceAs (Decidable True)
  | .unregister _ => inferInstanceAs (Decidable True)
  | .unregistered => inferInstanceAs (Decidable True)
  | .serve _ _ => inferInstanceAs (Decidable True)

end Decide

/-! ## Steps -/

/-- The table of requests and the calls of `served`. -/
def Client.board (c : Client) : Board ℕ UInt64 := ⟨c.requests, c.served⟩

theorem Client.callServedCallback_eq (c : Client) (id : UInt64) : c.callServedCallback id =
    { c with requests := (c.board.arrive id).entries, served := (c.board.arrive id).met } := by
  simp only [callServedCallback, Board.arrive, board]
  cases c.requests id with
  | none => rfl
  | some x =>
      obtain ⟨i, f⟩ := x
      cases f <;> rfl

/-- The client after a step of the serve thread of `i`, which runs the callback of `r`. -/
def Client.afterCall (c : Client) : Option ServeRequest → Client
  | none => c
  | some r => c.callServedCallback r.id

/-- **What a step does.** -/
inductive Session.Steps (k : Constraints) (s : Session) : ClientEvent → Session → Prop where
  | quiet {e : ClientEvent} {o : Option ServeRequest} {b : Bool} (he : e.handled = []) :
      Steps k s e ⟨{ s.client with responding := o, restart := b }, s.handled, s.logs⟩
  | refused {id : UInt64} {path : String} {limited ok b : Bool} {o : Option ServeRequest} :
      Steps k s (.message (.request id path) limited ok)
        ⟨{ s.client with seen := s.client.seen + 1, restart := b, responding := o },
          s.handled ++ [.request id path], s.logs⟩
  | accepted {id : UInt64} {path : String} {limited ok : Bool} {i : ℕ}
      (hpath : s.client.content path = some i) :
      Steps k s (.message (.request id path) limited ok)
        ⟨{ s.client.put i ((s.client.handlers i).serveRequest ⟨s.client.seen, id⟩) with
            seen := s.client.seen + 1
            requests := Function.update s.client.requests id (some (i, false)) },
          s.handled ++ [.request id path], Function.update s.logs i
            { s.logs i with accepted := (s.logs i).accepted ++ [⟨s.client.seen, id⟩] }⟩
  | succeeded {id : UInt64} {limited ok : Bool} : Steps k s (.message (.success id) limited ok)
      ⟨s.client.callServedCallback id, s.handled ++ [.success id], s.logs⟩
  | unknown {id : UInt64} {msg : String} {limited ok : Bool} (hno : s.client.requests id = none) :
      Steps k s (.message (.requestClosed id msg) limited ok)
        ⟨s.client, s.handled ++ [.requestClosed id msg], s.logs⟩
  | closed {id : UInt64} {msg : String} {limited ok f b : Bool} {i : ℕ}
      (he : s.client.requests id = some (i, f)) :
      Steps k s (.message (.requestClosed id msg) limited ok)
        ⟨{ s.client.put i ((s.client.handlers i).cancelRequest id).1 with
            requests := Function.update s.client.requests id none, restart := b },
          s.handled ++ [.requestClosed id msg], Function.update s.logs i { s.logs i with
            sent := (s.logs i).sent ++ delivered ok ((s.client.handlers i).cancelRequest id).2 }⟩
  | registers {source : ContentSource} {info : ContentInfo} :
      Steps k s (.register source info)
        ⟨{ s.client.put s.client.registered (newRequestHandler source info) with
            content := Function.update s.client.content info.path (some s.client.registered)
            registered := s.client.registered + 1 }, s.handled, s.logs⟩
  | unregisters {path : String} {i : ℕ} {h : RequestHandler}
      (hfree : s.client.unregistering = none) (hpath : s.client.content path = some i)
      (he : (s.client.handlers i).exitGracefully = .ok h) :
      Steps k s (.unregister path)
        ⟨{ s.client.put i h with unregistering := some path }, s.handled, s.logs⟩
  | unregistered {path : String} (hpath : s.client.unregistering = some path) :
      Steps k s .unregistered
        ⟨{ s.client with content := Function.update s.client.content path none, unregistering := none },
          s.handled, s.logs⟩
  | serves {i : ℕ} {h : RequestHandler} {out : List Outgoing} {ok b : Bool}
      (hi : i < s.client.registered)
      (hs : (s.client.handlers i).serve k.chunkSize ok = some (h, out)) :
      Steps k s (.serve i ok)
        ⟨{ (s.client.put i h).afterCall (s.client.handlers i).point.calls with restart := b }, s.handled,
          Function.update s.logs i ⟨(s.logs i).accepted, (s.logs i).sent ++ delivered ok out,
            (s.logs i).called ++ (s.client.handlers i).point.calls.toList⟩⟩

section Inversion

variable {k : Constraints} {c c' : Client} {s s' : Session} {e : ClientEvent}

theorem Client.registerContent_eq_ok {source : ContentSource} {info : ContentInfo}
    (h : c.registerContent k source info = .ok c') :
    c' = { c.put c.registered (newRequestHandler source info) with
      content := Function.update c.content info.path (some c.registered)
      registered := c.registered + 1 } := by
  unfold registerContent at h
  split at h
  · cases h
  split at h
  · cases h
  · cases hcheck : checkContentConstraints k source info with
    | error =>
        rw [hcheck] at h
        cases h
    | ok =>
        rw [hcheck] at h
        cases h
        rfl

/-- What `send` sends, and that it only asks for a restart. -/
theorem Client.send_eq (c : Client) (out : List Outgoing) (ok : Bool) :
    ∃ b, c.send out ok = ({ c with restart := b }, delivered ok out) := by
  unfold send
  cases ok with
  | true => exact ⟨c.restart, if_pos (.inl rfl)⟩
  | false =>
      by_cases hout : out = []
      · exact ⟨c.restart, by rw [if_pos (.inr hout), hout]; rfl⟩
      · exact ⟨true, by rw [if_neg (by simp [hout])]; rfl⟩

theorem Client.serveStep_eq_some {i : ℕ} {out : List Outgoing} {ok : Bool}
    (hs : c.serveStep k i ok = some (c', out)) : ∃ h out₁ b,
      (c.handlers i).serve k.chunkSize ok = some (h, out₁) ∧ out = delivered ok out₁ ∧
      c' = { (c.put i h).afterCall (c.handlers i).point.calls with restart := b } := by
  obtain ⟨⟨h, out₁⟩, hserve, heq⟩ := Option.bind_eq_some_iff.mp hs
  cases hp : (c.handlers i).point with
  | callback r total =>
      simp only [hp] at heq
      split at heq
      · cases heq
      · -- nothing is sent with the callback
        have hnil : out₁ = [] := by
          simp only [RequestHandler.serve, hp] at hserve
          cases hserve
          rfl
        subst hnil
        cases heq
        exact ⟨h, [], _, hserve, (delivered_nil ok).symm, rfl⟩
  | _ =>
      simp only [hp] at heq
      obtain ⟨b, hsend⟩ := (c.put i h).send_eq out₁ ok
      rw [hsend] at heq
      cases heq
      exact ⟨h, out₁, b, hserve, rfl, rfl⟩

/-- What `on_request` does, and what is recorded of it. -/
theorem Session.steps_of_request {id : UInt64} {path : String} {limited ok : Bool} :
    Session.Steps k s (.message (.request id path) limited ok)
      ⟨s.client.onRequest id path limited, s.handled ++ [.request id path],
        s.client.record s.logs [] (.message (.request id path) limited ok)⟩ := by
  simp only [Client.record, Client.onRequest]
  by_cases hrefused : (s.client.requests id).isSome ∨ limited = true
  · have hlogs : ∀ (o : Option ℕ) (logs : ℕ → ℕ → HandlerLog), (match o with
        | none => s.logs
        | some i => if (s.client.requests id).isSome ∨ limited = true then s.logs else logs i) =
        s.logs := by
      intro o logs
      cases o with
      | none => rfl
      | some i => exact if_pos hrefused
    rw [hlogs]
    split
    · exact .refused
    · rename_i hused
      rw [if_pos (hrefused.resolve_left hused)]
      exact .refused
  · obtain ⟨hused, hlimited⟩ := not_or.mp hrefused
    rw [if_neg hused, if_neg hlimited]
    cases hpath : s.client.content path with
    | none => exact .refused
    | some i =>
        simp only [if_neg hrefused]
        exact .accepted hpath

theorem Session.steps_of_step (hs : s.step k e = some s') : Session.Steps k s e s' := by
  obtain ⟨⟨c, out⟩, hc, rfl⟩ := Option.map_eq_some_iff.mp hs
  cases e with
  | message m limited ok =>
      simp only [Client.step] at hc
      split at hc
      · cases m with
        | request id path =>
            cases hc
            exact steps_of_request
        | success id =>
            cases hc
            exact .succeeded
        | requestClosed id msg =>
            simp only [Client.handleMessage, Client.onRequestClosed] at hc
            cases he : s.client.requests id with
            | none =>
                simp only [he] at hc
                cases hc
                simp only [ClientEvent.handled, Client.record, he]
                exact .unknown he
            | some x =>
                obtain ⟨i, f⟩ := x
                simp only [he] at hc
                obtain ⟨b, hsend⟩ := Client.send_eq _ _ ok
                rw [hsend] at hc
                cases hc
                simp only [ClientEvent.handled, Client.record, he]
                exact .closed he
      · cases hc
  | emptyResponse ok =>
      obtain ⟨r, -, heq⟩ := Option.map_eq_some_iff.mp hc
      obtain ⟨b, hsend⟩ := Client.send_eq _ _ ok
      rw [hsend] at heq
      cases heq
      simp only [ClientEvent.handled, List.append_nil]
      exact .quiet rfl
  | register source info =>
      simp only [ClientEvent.handled, List.append_nil]
      simp only [Client.step] at hc
      split at hc
      · split at hc
        · cases hc
          exact .quiet (o := s.client.responding) (b := s.client.restart) rfl
        · rename_i c' heq
          cases hc
          rw [Client.registerContent_eq_ok heq]
          exact .registers
      · cases hc
  | unregister path =>
      simp only [ClientEvent.handled, List.append_nil]
      simp only [Client.step] at hc
      split at hc
      · rename_i hfree
        cases hc
        unfold Client.unregisterContent
        split
        · exact .quiet (o := s.client.responding) (b := s.client.restart) rfl
        · rename_i i hpath
          split
          · exact .quiet (o := s.client.responding) (b := s.client.restart) rfl
          · rename_i h he
            exact .unregisters (by simpa using hfree) hpath he
      · cases hc
  | unregistered =>
      obtain ⟨c', hc', heq⟩ := Option.map_eq_some_iff.mp hc
      cases heq
      simp only [ClientEvent.handled, List.append_nil]
      obtain ⟨path, hpath, hc'⟩ := Option.bind_eq_some_iff.mp hc'
      obtain ⟨i, -, hc'⟩ := Option.bind_eq_some_iff.mp hc'
      split at hc' <;> cases hc'
      exact .unregistered hpath
  | serve i ok =>
      simp only [ClientEvent.handled, List.append_nil]
      simp only [Client.step] at hc
      split at hc
      · rename_i hi
        obtain ⟨h, out₁, b, hserve, rfl, rfl⟩ := Client.serveStep_eq_some hc
        exact .serves hi hserve
      · cases hc

end Inversion

/-! ## The sets of ids -/

section Ids

variable {l : List ServerMessage} {m : ServerMessage} {f : ServerMessage → Option UInt64}

theorem idsBy_some (id : UInt64) (h : f m = some id) : idsBy f (l ++ [m]) = insert id (idsBy f l) := by
  ext j
  simp only [idsBy, List.filterMap_append, List.filterMap_cons_some h, List.filterMap_nil,
    List.mem_append, List.mem_singleton, Set.mem_insert_iff]
  exact or_comm

theorem idsBy_none (h : f m = none) : idsBy f (l ++ [m]) = idsBy f l := by
  simp only [idsBy, List.filterMap_append, List.filterMap_cons_none h, List.filterMap_nil,
    List.append_nil]

theorem idsBy_subset (l' : List ServerMessage) : idsBy f l ⊆ idsBy f (l ++ l') := by
  intro id hid
  simp only [idsBy, List.filterMap_append, List.mem_append]
  exact .inl hid

variable {s : Session} {c : Client} {hs : List ServerMessage} {i : ℕ} {log : HandlerLog}
  {r : ServeRequest}

theorem Session.posted_same (h : log.accepted = (s.logs i).accepted) :
    posted ⟨c, hs, Function.update s.logs i log⟩ = s.posted := by
  ext ⟨j, id⟩
  by_cases hj : j = i
  · subst hj
    simp [posted, h]
  · simp [posted, hj]

theorem Session.posted_insert (h : log.accepted = (s.logs i).accepted ++ [r]) :
    posted ⟨c, hs, Function.update s.logs i log⟩ = insert (i, r.id) s.posted := by
  ext ⟨j, id⟩
  by_cases hj : j = i
  · subst hj
    simp [posted, h, or_and_right, exists_or, or_comm, eq_comm]
  · simp [posted, hj]

theorem Session.reported_same (h : log.called = (s.logs i).called) :
    reported ⟨c, hs, Function.update s.logs i log⟩ = s.reported := by
  ext id
  simp only [reported]
  constructor
  · rintro ⟨j, r, hr, he⟩
    refine ⟨j, r, ?_, he⟩
    by_cases hj : j = i
    · subst hj
      rwa [Function.update_self, h] at hr
    · rwa [Function.update_of_ne hj] at hr
  · rintro ⟨j, r, hr, he⟩
    refine ⟨j, r, ?_, he⟩
    by_cases hj : j = i
    · subst hj
      rwa [Function.update_self, h]
    · rwa [Function.update_of_ne hj]

theorem Session.reported_insert (h : log.called = (s.logs i).called ++ [r]) :
    reported ⟨c, hs, Function.update s.logs i log⟩ = insert r.id s.reported := by
  ext id
  simp only [reported, Set.mem_insert_iff]
  constructor
  · rintro ⟨j, r', hr, he⟩
    by_cases hj : j = i
    · subst hj
      rw [Function.update_self, h, List.mem_append, List.mem_singleton] at hr
      rcases hr with hr | rfl
      · exact .inr ⟨j, r', hr, he⟩
      · exact .inl he.symm
    · rw [Function.update_of_ne hj] at hr
      exact .inr ⟨j, r', hr, he⟩
  · rintro (rfl | ⟨j, r', hr, he⟩)
    · exact ⟨i, r, by simp [h], rfl⟩
    · refine ⟨j, r', ?_, he⟩
      by_cases hj : j = i
      · subst hj
        rw [Function.update_self, h]
        exact List.mem_append_left _ hr
      · rwa [Function.update_of_ne hj]

end Ids

/-! ## Registered handlers -/

/-- A handler is registered under one path, and stopped only while it is unregistered. -/
structure Client.Live (c : Client) : Prop where
  running : ∀ path i, c.content path = some i → i < c.registered ∧
    (c.unregistering = some path ∨ (c.handlers i).stop = false)
  inj : ∀ path path' i, c.content path = some i → c.content path' = some i → path = path'

section Live

variable {k : Constraints} {s s' : Session} {e : ClientEvent} {h h' : RequestHandler}
  {chunkSize : UInt64} {out : List Outgoing} {ok : Bool}

theorem RequestHandler.serve_stop (hs : h.serve chunkSize ok = some (h', out)) : h'.stop = h.stop := by
  have hserves := RequestHandler.serves_of_serve hs
  generalize delivered ok out = out at hserves
  cases hserves with
  | wakes => exact RequestHandler.await_flags.1
  | moves | leaves | fails => rfl
  | ends => exact RequestHandler.await_flags.1

theorem RequestHandler.cancelRequest_stop (id : UInt64) : (h.cancelRequest id).1.stop = h.stop := by
  rcases h.cancelRequest_cases id with ⟨heq, -⟩ | ⟨-, -, heq⟩ | ⟨-, -, _, _, _, -, -, heq⟩ <;> rw [heq]

theorem RequestHandler.serveRequest_stop (r : ServeRequest) : (h.serveRequest r).stop = h.stop := by
  unfold RequestHandler.serveRequest
  split <;> rfl

/-- A handler that goes on as it was. -/
theorem Client.Live.put {c : Client} (hl : c.Live) {i : ℕ} (hstop : h.stop = (c.handlers i).stop) :
    (c.put i h).Live := by
  refine ⟨fun path j hj => ?_, hl.inj⟩
  obtain ⟨hlt, hrun⟩ := hl.running path j hj
  refine ⟨hlt, hrun.imp_right fun hs => ?_⟩
  by_cases hji : j = i
  · subst hji
    simp only [Client.put, Function.update_self, hstop, hs]
  · simp only [Client.put, Function.update_of_ne hji, hs]

/-- The callback of `served` only touches the table of requests. -/
theorem Client.callServedCallback_same (c : Client) (id : UInt64) :
    (c.callServedCallback id).handlers = c.handlers ∧ (c.callServedCallback id).content = c.content ∧
    (c.callServedCallback id).registered = c.registered ∧
    (c.callServedCallback id).unregistering = c.unregistering ∧
    (c.callServedCallback id).seen = c.seen := by
  rw [Client.callServedCallback_eq]
  exact ⟨rfl, rfl, rfl, rfl, rfl⟩

theorem Client.afterCall_same (c : Client) (o : Option ServeRequest) :
    (c.afterCall o).handlers = c.handlers ∧ (c.afterCall o).content = c.content ∧
    (c.afterCall o).registered = c.registered ∧ (c.afterCall o).unregistering = c.unregistering ∧
    (c.afterCall o).seen = c.seen := by
  cases o with
  | none => exact ⟨rfl, rfl, rfl, rfl, rfl⟩
  | some r => exact c.callServedCallback_same r.id

theorem Client.Live.congr {c c' : Client} (hl : c.Live) (h1 : c'.handlers = c.handlers)
    (h2 : c'.content = c.content) (h3 : c'.registered = c.registered)
    (h4 : c'.unregistering = c.unregistering) : c'.Live := by
  refine ⟨fun path i => ?_, fun path path' i => ?_⟩
  · rw [h1, h2, h3, h4]
    exact hl.running path i
  · rw [h2]
    exact hl.inj path path' i

theorem Client.Live.step (hl : s.client.Live) (hs : Session.Steps k s e s') : s'.client.Live := by
  cases hs with
  | quiet | refused | unknown => exact hl.congr rfl rfl rfl rfl
  | @accepted id path limited ok i =>
      have hput := hl.put (i := i)
        (RequestHandler.serveRequest_stop (h := s.client.handlers i) ⟨s.client.seen, id⟩)
      exact hput.congr rfl rfl rfl rfl
  | @succeeded id =>
      obtain ⟨h1, h2, h3, h4, -⟩ := s.client.callServedCallback_same id
      exact hl.congr h1 h2 h3 h4
  | @closed id msg limited ok f b i =>
      have hput := hl.put (i := i) (RequestHandler.cancelRequest_stop (h := s.client.handlers i) id)
      exact hput.congr rfl rfl rfl rfl
  | @registers source info =>
      have hold : ∀ path i, s.client.content path = some i → i ≠ s.client.registered := by
        intro path i hi
        exact (hl.running path i hi).1.ne
      refine ⟨fun path i hi => ?_, fun path path' i hi hi' => ?_⟩
      · simp only [Function.update_apply] at hi
        split at hi
        · cases hi
          refine ⟨Nat.lt_succ_self _, .inr ?_⟩
          simp [Client.put, newRequestHandler]
        · obtain ⟨hlt, hrun⟩ := hl.running path i hi
          refine ⟨Nat.lt_succ_of_lt hlt, hrun.imp_right fun hstop => ?_⟩
          simp only [Client.put, Function.update_of_ne hlt.ne]
          exact hstop
      · simp only [Function.update_apply] at hi hi'
        split at hi <;> split at hi'
        · rename_i h1 h2
          rw [h1, h2]
        · cases hi
          exact absurd rfl (hold path' _ hi')
        · cases hi'
          exact absurd rfl (hold path _ hi)
        · exact hl.inj path path' i hi hi'
  | @unregisters path i h hfree hpath =>
      refine ⟨fun path' j hj => ?_, hl.inj⟩
      obtain ⟨hlt, hrun⟩ := hl.running path' j hj
      refine ⟨hlt, ?_⟩
      by_cases hp : path' = path
      · exact .inl (congrArg some hp.symm)
      · right
        have hji : j ≠ i := by
          rintro rfl
          exact hp (hl.inj path' path j hj hpath)
        simp only [Client.put, Function.update_of_ne hji]
        refine hrun.resolve_left fun h' => ?_
        rw [hfree] at h'
        cases h'
  | @unregistered path hpath =>
      have hother : ∀ path' i, Function.update s.client.content path none path' = some i →
          path' ≠ path ∧ s.client.content path' = some i := by
        intro path' i hi
        rw [Function.update_apply] at hi
        split at hi
        · cases hi
        · rename_i hne
          exact ⟨hne, hi⟩
      refine ⟨fun path' i hi => ?_, fun path₁ path₂ i h1 h2 => ?_⟩
      · obtain ⟨hne, hi⟩ := hother path' i hi
        obtain ⟨hlt, hrun⟩ := hl.running path' i hi
        refine ⟨hlt, .inr (hrun.resolve_left fun h' => hne ?_)⟩
        rw [hpath] at h'
        exact (Option.some.inj h').symm
      · exact hl.inj path₁ path₂ i (hother path₁ i h1).2 (hother path₂ i h2).2
  | @serves i h out ok b _ hserve =>
      obtain ⟨h1, h2, h3, h4, -⟩ := (s.client.put i h).afterCall_same (s.client.handlers i).point.calls
      exact (hl.put (RequestHandler.serve_stop hserve)).congr h1 h2 h3 h4

end Live

end Loon
