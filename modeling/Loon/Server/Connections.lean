import Loon.Server.FrontDoor

set_option autoImplicit false

/-!
# Connections and requests of a server

`serverImpl` with its client manager, the goroutines that `serveWs` starts for its connections, and
the HTTP requests in `serveRequest`, in any interleaving. Every goroutine has at most one call of the
manager at a time (`Caller`); the manager runs forever, since the server does not close it. The result
of `Register` is dropped, as in the source. `Client.Run` returns at any time.

* `Server.Moves`: what a step does, as long as the calls of the manager are those of the goroutines;
* `ServerInv`: where the calls are, and which clients are in the map;
* **`ServerInv.moves`**: the steps of the server are moves, so that `Register` never meets an id
  that is in the map.
-/

namespace Loon

/-- Who calls the client manager: `serveWs` and the goroutine it starts, for the connection `k`, and
`serveRequest`, for the HTTP request `j`. -/
inductive Caller where
  | register (k : ℕ)
  | unregister (k : ℕ)
  | get (j : ℕ)
  deriving DecidableEq

/-- The number of the call in the manager. -/
def Caller.call : Caller → ℕ
  | .register k => 3 * k
  | .unregister k => 3 * k + 1
  | .get j => 3 * j + 2

/-- Where the connection `k` is: not there yet, rejected by `Upgrade` or `NewClient`, in `Register`,
in `Client.Run`, in `Unregister`, or at its end. -/
inductive ConnPc where
  | new
  | refused
  | registering
  | running
  | unregistering
  | gone
  deriving DecidableEq

/-- Where an HTTP request is: not there yet, in `manager.Get` with its MAC, or at its reply. -/
inductive DoorPc where
  | new
  | looking (r : HttpRequest) (mac : MAC)
  | replied (r : HttpRequest) (reply : Reply)
  deriving DecidableEq

structure Server where
  manager : Manager ℕ
  conns : ℕ → ConnPc
  doors : ℕ → DoorPc
  activeClientCount : ℤ

/-- The steps: `serveWs` calls `Register`, or has returned before; it has returned from it;
`Client.Run` returns; so does `Unregister`; `serveRequest` starts, or goes on behind `manager.Get`
with a client that takes the request or has seen `done`; and the steps of the manager. -/
inductive ServerEvent where
  | accept (k : ℕ)
  | refuse (k : ℕ)
  | count (k : ℕ)
  | runReturns (k : ℕ)
  | discount (k : ℕ)
  | request (j : ℕ) (r : HttpRequest)
  | forward (j : ℕ) (taken : Bool)
  | take (call : ℕ)
  | reply
  | closed
  | giveUp (call : ℕ)
  deriving DecidableEq

namespace Server

def init : Server where
  manager := Manager.init
  conns := fun _ => .new
  doors := fun _ => .new
  activeClientCount := 0

variable (s : Server)

/-- Where the call of `x` is. -/
def callOf (x : Caller) : CallPc ℕ := s.manager.calls x.call

def setConn (k : ℕ) (pc : ConnPc) : Server := { s with conns := Function.update s.conns k pc }

def setDoor (j : ℕ) (pc : DoorPc) : Server := { s with doors := Function.update s.doors j pc }

/-- The step of the manager that a step of the server makes. -/
def toManager (site : Site) : ServerEvent → Option (ManagerEvent ℕ)
  | .accept k => some (.call (Caller.register k).call (.register k))
  | .refuse _ => none
  | .count k => some (.ret (Caller.register k).call)
  | .runReturns k => some (.call (Caller.unregister k).call (.unregister k))
  | .discount k => some (.ret (Caller.unregister k).call)
  | .request j r =>
    match site.check r with
    | .error _ => none
    | .ok (clientID, _) => some (.call (Caller.get j).call (.get clientID))
  | .forward j _ => some (.ret (Caller.get j).call)
  | .take call => some (.take call)
  | .reply => some .reply
  | .closed => some .closed
  | .giveUp call => some (.giveUp call)

/-- What a step does outside of the manager. -/
def act (site : Site) : ServerEvent → Option Server
  | .accept k =>
    match s.conns k with
    | .new => some (s.setConn k .registering)
    | _ => none
  | .refuse k =>
    match s.conns k with
    | .new => some (s.setConn k .refused)
    | _ => none
  | .count k =>
    match s.conns k with
    | .registering =>
      some { s.setConn k .running with activeClientCount := s.activeClientCount + 1 }
    | _ => none
  | .runReturns k =>
    match s.conns k with
    | .running => some (s.setConn k .unregistering)
    | _ => none
  | .discount k =>
    match s.conns k with
    | .unregistering =>
      some { s.setConn k .gone with activeClientCount := s.activeClientCount - 1 }
    | _ => none
  | .request j r =>
    match s.doors j with
    | .new =>
      match site.check r with
      | .error reply => some (s.setDoor j (.replied r reply))
      | .ok (_, mac) => some (s.setDoor j (.looking r mac))
    | _ => none
  | .forward j taken =>
    match s.doors j, s.callOf (.get j) with
    | .looking r mac, .returning result =>
      some (s.setDoor j (.replied r (site.forward r mac result taken)))
    | _, _ => none
  | .take _ | .reply | .closed | .giveUp _ => some s

def step (site : Site) (e : ServerEvent) : Option Server :=
  match toManager site e with
  | none => s.act site e
  | some m =>
    (s.act site e).bind fun s' => (s.manager.step site.idOf m).map fun manager => { s' with manager }

/-- The history of the calls of the manager. -/
def observed (site : Site) (t : Server) (e : ServerEvent) :
    List (CallEvent (ManagerOp ℕ) (ManagerResult ℕ)) :=
  (toManager site e).elim [] t.manager.observed

end Server

/-- **A server** from its start on. -/
def server (site : Site) : Machine Server ServerEvent where
  init := Server.init
  step s e := s.step site e

/-! ## Calls -/

theorem Caller.call_injective : Function.Injective Caller.call := by
  intro x y h
  cases x <;> cases y <;> simp only [Caller.call] at h <;> (congr 1; omega)

theorem Caller.exists_call (i : ℕ) : ∃ x : Caller, x.call = i := by
  obtain h | h | h : i % 3 = 0 ∨ i % 3 = 1 ∨ i % 3 = 2 := by omega
  · exact ⟨.register (i / 3), by simp only [Caller.call]; omega⟩
  · exact ⟨.unregister (i / 3), by simp only [Caller.call]; omega⟩
  · exact ⟨.get (i / 3), by simp only [Caller.call]; omega⟩

/-- The manager has received the message of a call. -/
def CallPc.received {γ : Type} : CallPc γ → Bool
  | .idle | .offering _ => false
  | _ => true

/-- `serveWs` has got past `NewClient`. -/
def ConnPc.connected : ConnPc → Bool
  | .new | .refused => false
  | _ => true

/-- The connection is counted. -/
def ConnPc.counted : ConnPc → Bool
  | .running | .unregistering => true
  | _ => false

/-- `Client.Run` has returned. -/
def ConnPc.ended : ConnPc → Bool
  | .unregistering | .gone => true
  | _ => false

namespace Server

variable {site : Site} {s s' : Server} {e : ServerEvent}

/-! ## Steps -/

variable (site) in
/-- What the server can do while its manager is open and its calls are those of its goroutines. -/
inductive Moves (s : Server) : ServerEvent → Server → Prop where
  | accept {k : ℕ} (hk : s.conns k = .new) : Moves s (.accept k)
      { s.setConn k .registering with
        manager := s.manager.setCall (Caller.register k).call (.offering (.register k)) }
  | refuse {k : ℕ} (hk : s.conns k = .new) : Moves s (.refuse k) (s.setConn k .refused)
  | count {k : ℕ} {r : ManagerResult ℕ} (hk : s.conns k = .registering)
      (hc : s.callOf (.register k) = .returning r) : Moves s (.count k)
      { s.setConn k .running with
        manager := s.manager.setCall (Caller.register k).call .returned
        activeClientCount := s.activeClientCount + 1 }
  | runReturns {k : ℕ} (hk : s.conns k = .running) : Moves s (.runReturns k)
      { s.setConn k .unregistering with
        manager := s.manager.setCall (Caller.unregister k).call (.offering (.unregister k)) }
  | discount {k : ℕ} {r : ManagerResult ℕ} (hk : s.conns k = .unregistering)
      (hc : s.callOf (.unregister k) = .returning r) : Moves s (.discount k)
      { s.setConn k .gone with
        manager := s.manager.setCall (Caller.unregister k).call .returned
        activeClientCount := s.activeClientCount - 1 }
  | reject {j : ℕ} {r : HttpRequest} {reply : Reply} (hj : s.doors j = .new)
      (hr : site.check r = .error reply) : Moves s (.request j r) (s.setDoor j (.replied r reply))
  | request {j : ℕ} {r : HttpRequest} {id : UUID} {mac : MAC} (hj : s.doors j = .new)
      (hr : site.check r = .ok (id, mac)) : Moves s (.request j r)
      { s.setDoor j (.looking r mac) with
        manager := s.manager.setCall (Caller.get j).call (.offering (.get id)) }
  | forward {j : ℕ} {taken : Bool} {r : HttpRequest} {mac : MAC} {result : ManagerResult ℕ}
      (hj : s.doors j = .looking r mac) (hc : s.callOf (.get j) = .returning result) :
      Moves s (.forward j taken)
      { s.setDoor j (.replied r (site.forward r mac result taken)) with
        manager := s.manager.setCall (Caller.get j).call .returned }
  | takeRegister {k : ℕ} (hpc : s.manager.pc = .select)
      (hc : s.callOf (.register k) = .offering (.register k))
      (hnone : s.manager.clients (site.idOf k) = none) : Moves s (.take (Caller.register k).call)
      { s with
        manager := { s.manager.setCall (Caller.register k).call (.returning .nil) with
          clients := Function.update s.manager.clients (site.idOf k) (some k) } }
  | takeUnregister {k : ℕ} (hpc : s.manager.pc = .select)
      (hc : s.callOf (.unregister k) = .offering (.unregister k))
      (hsome : s.manager.clients (site.idOf k) = some k) :
      Moves s (.take (Caller.unregister k).call)
      { s with
        manager := { s.manager.setCall (Caller.unregister k).call (.returning .nil) with
          clients := Function.update s.manager.clients (site.idOf k) none, pc := .closing k } }
  | takeGet {j : ℕ} {id : UUID} {pc : RunPc ℕ} {result : ManagerResult ℕ}
      (hpc : s.manager.pc = .select) (hc : s.callOf (.get j) = .offering (.get id))
      (ha : pc.answer = some ((Caller.get j).call, result))
      (hresult : ∀ k, result = .client k ↔ s.manager.clients id = some k) :
      Moves s (.take (Caller.get j).call)
      { s with
        manager := { s.manager.setCall (Caller.get j).call (.awaiting (.get id)) with pc := pc } }
  | reply {j : ℕ} {id : UUID} {result : ManagerResult ℕ}
      (ha : s.manager.pc.answer = some ((Caller.get j).call, result))
      (hc : s.callOf (.get j) = .awaiting (.get id)) : Moves s .reply
      { s with
        manager := { s.manager.setCall (Caller.get j).call (.returning result) with pc := .select } }
  | closed {k : ℕ} (hpc : s.manager.pc = .closing k) :
      Moves s .closed { s with manager := { s.manager with pc := .select } }

/-! ## The invariant -/

/-- Where the connection `k` is, its call of `Register`, and its call of `Unregister`. -/
inductive ConnOk (k : ℕ) : ConnPc → CallPc ℕ → CallPc ℕ → Prop where
  | new : ConnOk k .new .idle .idle
  | refused : ConnOk k .refused .idle .idle
  | offering : ConnOk k .registering (.offering (.register k)) .idle
  | registered : ConnOk k .registering (.returning .nil) .idle
  | running : ConnOk k .running .returned .idle
  | leaving : ConnOk k .unregistering .returned (.offering (.unregister k))
  | left : ConnOk k .unregistering .returned (.returning .nil)
  | gone : ConnOk k .gone .returned .returned

namespace ConnOk

variable {k : ℕ} {pc : ConnPc} {c c' : CallPc ℕ} {op : ManagerOp ℕ}

theorem registering (h : ConnOk k pc (.offering op) c) :
    op = .register k ∧ pc = .registering ∧ c = .idle := by
  cases h
  exact ⟨rfl, rfl, rfl⟩

theorem unregistering (h : ConnOk k pc c (.offering op)) :
    op = .unregister k ∧ pc = .unregistering ∧ c = .returned := by
  cases h
  exact ⟨rfl, rfl, rfl⟩

theorem not_awaiting (h : ConnOk k pc c c') : c ≠ .awaiting op ∧ c' ≠ .awaiting op := by
  cases h <;> simp

theorem connected (h : ConnOk k pc c c') (hc : c.received = true) : pc.connected = true := by
  cases h <;> first | rfl | cases hc

theorem idle (h : ConnOk k .new c c') : c = .idle ∧ c' = .idle := by
  cases h
  exact ⟨rfl, rfl⟩

theorem received_of_running (h : ConnOk k .running c c') :
    c.received = true ∧ c'.received = false := by
  cases h
  exact ⟨rfl, rfl⟩

theorem not_ended (h : ConnOk k pc c c') (hc : c.received = true) (hc' : c'.received = false) :
    pc = .registering ∨ pc = .running ∨ pc = .unregistering := by
  cases h <;> simp_all [CallPc.received]

theorem accept (h : ConnOk k .new c c') : ConnOk k .registering (.offering (.register k)) c' := by
  cases h
  exact .offering

theorem refuse (h : ConnOk k .new c c') : ConnOk k .refused c c' := by
  cases h
  exact .refused

theorem takeRegister (h : ConnOk k pc (.offering op) c') : ConnOk k pc (.returning .nil) c' := by
  cases h
  exact .registered

theorem count {r : ManagerResult ℕ} (h : ConnOk k .registering (.returning r) c') :
    ConnOk k .running .returned c' := by
  cases h
  exact .running

theorem runReturns (h : ConnOk k .running c c') :
    ConnOk k .unregistering c (.offering (.unregister k)) := by
  cases h
  exact .leaving

theorem takeUnregister (h : ConnOk k pc c (.offering op)) : ConnOk k pc c (.returning .nil) := by
  cases h
  exact .left

theorem discount {r : ManagerResult ℕ} (h : ConnOk k .unregistering c (.returning r)) :
    ConnOk k .gone c .returned := by
  cases h
  exact .gone

end ConnOk

variable (site s) in
/-- A client that `Get` returns for `id` has this id and has connected. -/
def Answers (id : UUID) (result : ManagerResult ℕ) : Prop :=
  ∀ k, result = .client k → site.idOf k = id ∧ (s.conns k).connected = true

variable (site s) in
/-- Where the HTTP request `j` is, and its call of `Get`. -/
inductive DoorOk (j : ℕ) : DoorPc → CallPc ℕ → Prop where
  | new : DoorOk j .new .idle
  | rejected {r : HttpRequest} {reply : Reply} (hr : site.check r = .error reply) :
      DoorOk j (.replied r reply) .idle
  | offering {r : HttpRequest} {id : UUID} {mac : MAC} (hr : site.check r = .ok (id, mac)) :
      DoorOk j (.looking r mac) (.offering (.get id))
  | awaiting {r : HttpRequest} {id : UUID} {mac : MAC} (hr : site.check r = .ok (id, mac))
      (ha : ∀ result, s.manager.pc.answer = some ((Caller.get j).call, result) →
        Answers site s id result) : DoorOk j (.looking r mac) (.awaiting (.get id))
  | answered {r : HttpRequest} {id : UUID} {mac : MAC} {result : ManagerResult ℕ}
      (hr : site.check r = .ok (id, mac)) (ha : Answers site s id result) :
      DoorOk j (.looking r mac) (.returning result)
  | replied {r : HttpRequest} {id : UUID} {mac : MAC} {result : ManagerResult ℕ} {taken : Bool}
      (hr : site.check r = .ok (id, mac)) (ha : Answers site s id result) :
      DoorOk j (.replied r (site.forward r mac result taken)) .returned

theorem DoorOk.idle {j : ℕ} {c : CallPc ℕ} (h : DoorOk site s j .new c) : c = .idle := by
  cases h
  rfl

variable (site s) in
/-- What the client manager knows about the connection `k`. -/
def Registered (id : UUID) (k : ℕ) : Prop :=
  site.idOf k = id ∧ (s.callOf (.register k)).received = true ∧
    (s.callOf (.unregister k)).received = false

variable (site s) in
/-- The connections have different ids. -/
def Distinct : Prop :=
  ∀ k k', (s.conns k).connected = true → (s.conns k').connected = true →
    site.idOf k = site.idOf k' → k = k'

variable (site) in
/-- **The invariant** of a server with the history `h` of the calls of its manager. -/
structure ServerInv (h : List (CallEvent (ManagerOp ℕ) (ManagerResult ℕ))) (s : Server) : Prop where
  manager : ManagerInv site.idOf h s.manager
  opened : s.manager.done = false
  conn : ∀ k, ConnOk k (s.conns k) (s.callOf (.register k)) (s.callOf (.unregister k))
  door : ∀ j, DoorOk site s j (s.doors j) (s.callOf (.get j))
  clients : ∀ id k, s.manager.clients id = some k ↔ Registered site s id k
  closing : ∀ k, s.manager.pc = .closing k → (s.conns k).ended = true
  active : ∃ l : List ℕ, l.Nodup ∧ (∀ k, k ∈ l ↔ (s.conns k).counted = true) ∧
    s.activeClientCount = l.length

variable {h : List (CallEvent (ManagerOp ℕ) (ManagerResult ℕ))}

/-- The answer that the manager is sending is for a call of `Get`. -/
theorem ServerInv.replying (hI : ServerInv site h s) {i : ℕ} {result : ManagerResult ℕ}
    (ha : s.manager.pc.answer = some (i, result)) :
    ∃ j id, (Caller.get j).call = i ∧ s.callOf (.get j) = .awaiting (.get id) := by
  rcases hI.manager with ⟨-, l, hL⟩ | ⟨hd, -⟩
  · obtain ⟨op, hop⟩ := hL.replying i result ha
    obtain ⟨x, rfl⟩ := Caller.exists_call i
    change s.callOf x = _ at hop
    cases x with
    | register k => exact absurd hop (hI.conn k).not_awaiting.1
    | unregister k => exact absurd hop (hI.conn k).not_awaiting.2
    | get j =>
        have hj := hI.door j
        rw [hop] at hj
        generalize s.doors j = d at hj
        cases hj with
        | awaiting => exact ⟨j, _, rfl, hop⟩
  · rw [hI.opened] at hd
    cases hd

theorem handle_get (m : Manager ℕ) (idOf : ℕ → UUID) (i : ℕ) (id : UUID) : ∃ pc result,
    m.handle idOf i (.get id) = { m.setCall i (.awaiting (.get id)) with pc := pc } ∧
      pc.answer = some (i, result) ∧ ∀ k, result = .client k ↔ m.clients id = some k := by
  cases hc : m.clients id with
  | none =>
      refine ⟨.replyErr i .notRegistered, .error .notRegistered, ?_, rfl, by simp⟩
      simp only [Manager.handle, hc]
  | some k =>
      refine ⟨.replyOut i k, .client k, ?_, rfl, by simp⟩
      simp only [Manager.handle, hc]

/-- The client manager knows one connection with an id. -/
theorem ServerInv.eq_of_registered (hI : ServerInv site h s) (hd : Distinct site s) {i k : ℕ}
    (hk : Registered site s (site.idOf i) k) (hi : (s.conns i).connected = true) : k = i :=
  hd k i ((hI.conn k).connected hk.2.1) hi hk.1

/-- A connection registers once. -/
theorem ServerInv.fresh (hI : ServerInv site h s) (hd : Distinct site s) {k : ℕ}
    {op : ManagerOp ℕ} (hc : s.callOf (.register k) = .offering op) :
    op = .register k ∧ s.manager.clients (site.idOf k) = none := by
  have hk := hI.conn k
  rw [hc] at hk
  obtain ⟨hop, hpc, -⟩ := hk.registering
  refine ⟨hop, Option.eq_none_iff_forall_ne_some.mpr fun k' hk' => ?_⟩
  have hreg := (hI.clients _ k').mp hk'
  obtain rfl := hI.eq_of_registered hd hreg (by rw [hpc]; rfl)
  have hoff := hreg.2.1
  rw [hc] at hoff
  cases hoff

/-- The message that the manager receives is one of the three kinds. -/
theorem ServerInv.moves_take (hI : ServerInv site h s) (hd : Distinct site s) {i : ℕ}
    {op : ManagerOp ℕ} (hpc : s.manager.pc = .select) (hi : s.manager.calls i = .offering op) :
    Moves site s (.take i) { s with manager := s.manager.handle site.idOf i op } := by
  obtain ⟨x, rfl⟩ := Caller.exists_call i
  change s.callOf x = _ at hi
  cases x with
  | register k =>
      obtain ⟨rfl, hnone⟩ := hI.fresh hd hi
      simp only [Manager.handle, hnone]
      exact .takeRegister hpc hi hnone
  | unregister k =>
      have hk := hI.conn k
      rw [hi] at hk
      obtain ⟨rfl, -, hreg⟩ := hk.unregistering
      have hsome : s.manager.clients (site.idOf k) = some k :=
        (hI.clients _ k).mpr ⟨rfl, by rw [hreg]; rfl, by rw [hi]; rfl⟩
      simp only [Manager.handle, hsome]
      exact .takeUnregister hpc hi hsome
  | get j =>
      have hj := hI.door j
      rw [hi] at hj
      generalize s.doors j = d at hj
      cases hj
      obtain ⟨pc, result, heq, ha, hresult⟩ := handle_get s.manager site.idOf (Caller.get j).call _
      rw [heq]
      exact .takeGet hpc hi ha hresult

/-- **The server moves** while the invariant holds. -/
theorem ServerInv.moves (hI : ServerInv site h s) (hd : Distinct site s)
    (hs : s.step site e = some s') : Moves site s e s' := by
  unfold step at hs
  cases e with
  | accept k =>
      simp only [toManager, act] at hs
      split at hs
      · next hk =>
          obtain ⟨m, hm, rfl⟩ := Option.map_eq_some_iff.mp hs
          cases managerStep_spec hm
          exact .accept hk
      · cases hs
  | refuse k =>
      simp only [toManager, act] at hs
      split at hs
      · next hk =>
          cases hs
          exact .refuse hk
      · cases hs
  | count k =>
      simp only [toManager, act] at hs
      split at hs
      · next hk =>
          obtain ⟨m, hm, rfl⟩ := Option.map_eq_some_iff.mp hs
          cases managerStep_spec hm with
          | ret hi => exact .count hk hi
      · cases hs
  | runReturns k =>
      simp only [toManager, act] at hs
      split at hs
      · next hk =>
          obtain ⟨m, hm, rfl⟩ := Option.map_eq_some_iff.mp hs
          cases managerStep_spec hm
          exact .runReturns hk
      · cases hs
  | discount k =>
      simp only [toManager, act] at hs
      split at hs
      · next hk =>
          obtain ⟨m, hm, rfl⟩ := Option.map_eq_some_iff.mp hs
          cases managerStep_spec hm with
          | ret hi => exact .discount hk hi
      · cases hs
  | request j r =>
      cases hr : site.check r with
      | error reply =>
          simp only [toManager, act, hr] at hs
          split at hs
          · next hj =>
              cases hs
              exact .reject hj hr
          · cases hs
      | ok checked =>
          obtain ⟨id, mac⟩ := checked
          simp only [toManager, act, hr] at hs
          split at hs
          · next hj =>
              obtain ⟨m, hm, rfl⟩ := Option.map_eq_some_iff.mp hs
              cases managerStep_spec hm
              exact .request hj hr
          · cases hs
  | forward j taken =>
      simp only [toManager, act] at hs
      split at hs
      · next hj hc =>
          obtain ⟨m, hm, rfl⟩ := Option.map_eq_some_iff.mp hs
          cases managerStep_spec hm
          exact .forward hj hc
      · cases hs
  | take i =>
      obtain ⟨m, hm, rfl⟩ := Option.map_eq_some_iff.mp hs
      cases managerStep_spec hm with
      | take hpc hi => exact hI.moves_take hd hpc hi
  | reply =>
      obtain ⟨m, hm, rfl⟩ := Option.map_eq_some_iff.mp hs
      cases managerStep_spec hm with
      | reply ha =>
          obtain ⟨j, id, rfl, hc⟩ := hI.replying ha
          exact .reply ha hc
  | closed =>
      obtain ⟨m, hm, rfl⟩ := Option.map_eq_some_iff.mp hs
      cases managerStep_spec hm with
      | closed hpc => exact .closed hpc
  | giveUp i =>
      obtain ⟨m, hm, rfl⟩ := Option.map_eq_some_iff.mp hs
      cases managerStep_spec hm with
      | giveUp hd =>
          rw [hI.opened] at hd
          cases hd

end Server

end Loon
