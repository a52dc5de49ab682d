import Loon.Server.Connections

set_option autoImplicit false

/-!
# The registry of a server

What the steps of a server keep, and what holds in every run.

* `ServerInv.step`, `serverInv_of_run`: the invariant;
* **`server_registry`**: for connections with different ids, the calls of the client manager are
  those of a map, the manager is never stuck and only closes clients whose `Run` has returned, a
  running client is in the map, and the active clients are counted;
* **`served_requests_authentic`**: only a request with the MAC of a connection is forwarded to it, and
  who has no such MAC gets an answer that depends on the request alone;
* **`running_client_reached`**: while `Run` of a client is running, a request with its MAC is
  forwarded to it.
-/

namespace Loon

namespace Server

variable {site : Site} {s s' : Server} {e : ServerEvent}
  {h : List (CallEvent (ManagerOp ℕ) (ManagerResult ℕ))}

/-! ## What one step keeps -/

theorem callOf_self {x : Caller} {c : CallPc ℕ}
    (hm : s'.manager.calls = Function.update s.manager.calls x.call c) : s'.callOf x = c := by
  rw [callOf, hm, Function.update_self]

theorem callOf_ne {x y : Caller} {c : CallPc ℕ}
    (hm : s'.manager.calls = Function.update s.manager.calls x.call c) (h : y ≠ x) :
    s'.callOf y = s.callOf y := by
  rw [callOf, hm, Function.update_of_ne fun he => h (Caller.call_injective he)]
  rfl

/-- A step of the connection `i`. -/
theorem ServerInv.conn_of (hI : ServerInv site h s) (i : ℕ) {pc : ConnPc} {c c' : CallPc ℕ}
    (hpc : s'.conns = Function.update s.conns i pc)
    (hcalls : ∀ x, x ≠ .register i → x ≠ .unregister i → s'.callOf x = s.callOf x)
    (hc : s'.callOf (.register i) = c) (hc' : s'.callOf (.unregister i) = c')
    (hok : ConnOk i pc c c') (k : ℕ) :
    ConnOk k (s'.conns k) (s'.callOf (.register k)) (s'.callOf (.unregister k)) := by
  by_cases hk : k = i
  · subst hk
    rw [hpc, hc, hc', Function.update_self]
    exact hok
  · rw [hpc, Function.update_of_ne hk, hcalls _ (by simpa using hk) (by simp),
      hcalls _ (by simp) (by simpa using hk)]
    exact hI.conn k

/-- A step of no connection. -/
theorem ServerInv.conn_same (hI : ServerInv site h s) (hconns : s'.conns = s.conns)
    (hcalls : ∀ k, s'.callOf (.register k) = s.callOf (.register k) ∧
      s'.callOf (.unregister k) = s.callOf (.unregister k)) (k : ℕ) :
    ConnOk k (s'.conns k) (s'.callOf (.register k)) (s'.callOf (.unregister k)) := by
  rw [hconns, (hcalls k).1, (hcalls k).2]
  exact hI.conn k

theorem Moves.conn (hs : Moves site s e s') (hI : ServerInv site h s) :
    ∀ k, ConnOk k (s'.conns k) (s'.callOf (.register k)) (s'.callOf (.unregister k)) := by
  -- a call of the connection `i`, or of an HTTP request
  have hreg : ∀ {i : ℕ} {c : CallPc ℕ} (t : Server),
      t.manager.calls = Function.update s.manager.calls (Caller.register i).call c →
      ∀ x, x ≠ .register i → x ≠ .unregister i → t.callOf x = s.callOf x :=
    fun t hm x hx _ => callOf_ne hm hx
  have hunreg : ∀ {i : ℕ} {c : CallPc ℕ} (t : Server),
      t.manager.calls = Function.update s.manager.calls (Caller.unregister i).call c →
      ∀ x, x ≠ .register i → x ≠ .unregister i → t.callOf x = s.callOf x :=
    fun t hm x _ hx => callOf_ne hm hx
  have hget : ∀ {j : ℕ} {c : CallPc ℕ} (t : Server),
      t.manager.calls = Function.update s.manager.calls (Caller.get j).call c →
      ∀ k, t.callOf (.register k) = s.callOf (.register k) ∧
        t.callOf (.unregister k) = s.callOf (.unregister k) :=
    fun t hm k => ⟨callOf_ne hm (by simp), callOf_ne hm (by simp)⟩
  cases hs with
  | @accept i hi =>
      exact hI.conn_of i rfl (hreg _ rfl) (callOf_self rfl) (callOf_ne rfl (by simp))
        (hi ▸ hI.conn i).accept
  | @refuse i hi => exact hI.conn_of i rfl (fun _ _ _ => rfl) rfl rfl (hi ▸ hI.conn i).refuse
  | @count i r hi hc =>
      exact hI.conn_of i rfl (hreg _ rfl) (callOf_self rfl) (callOf_ne rfl (by simp))
        (hi ▸ hc ▸ hI.conn i).count
  | @runReturns i hi =>
      exact hI.conn_of i rfl (hunreg _ rfl) (callOf_ne rfl (by simp)) (callOf_self rfl)
        (hi ▸ hI.conn i).runReturns
  | @discount i r hi hc =>
      exact hI.conn_of i rfl (hunreg _ rfl) (callOf_ne rfl (by simp)) (callOf_self rfl)
        (hi ▸ hc ▸ hI.conn i).discount
  | @takeRegister i hpc hc =>
      exact hI.conn_of i (Function.update_eq_self i _).symm (hreg _ rfl) (callOf_self rfl)
        (callOf_ne rfl (by simp)) (hc ▸ hI.conn i).takeRegister
  | @takeUnregister i hpc hc =>
      exact hI.conn_of i (Function.update_eq_self i _).symm (hunreg _ rfl) (callOf_ne rfl (by simp))
        (callOf_self rfl) (hc ▸ hI.conn i).takeUnregister
  | reject | closed => exact hI.conn_same rfl fun _ => ⟨rfl, rfl⟩
  | request | forward | takeGet | reply => exact hI.conn_same rfl (hget _ rfl)

/-- No step takes a connection back. -/
theorem Moves.connected (hs : Moves site s e s') {k : ℕ} (hk : (s.conns k).connected = true) :
    (s'.conns k).connected = true := by
  have hu : ∀ {i : ℕ} {pc : ConnPc}, (s.conns i = .new → pc.connected = true ∨ s.conns k ≠ .new) →
      (s.conns i ≠ .new → pc.connected = true) →
      (Function.update s.conns i pc k).connected = true := by
    intro i pc h1 h2
    by_cases hki : k = i
    · subst hki
      rw [Function.update_self]
      by_cases hnew : s.conns k = .new
      · exact (h1 hnew).resolve_right (· hnew)
      · exact h2 hnew
    · rw [Function.update_of_ne hki]
      exact hk
  cases hs with
  | accept => exact hu (fun _ => .inl rfl) fun _ => rfl
  | refuse hi =>
      refine hu (fun _ => .inr ?_) fun hne => absurd hi hne
      intro hnew
      rw [hnew] at hk
      cases hk
  | count | runReturns | discount => exact hu (fun _ => .inl rfl) fun _ => rfl
  | _ => exact hk

theorem Answers.mono {id : UUID} {result : ManagerResult ℕ} (ha : Answers site s id result)
    (hconn : ∀ k, (s.conns k).connected = true → (s'.conns k).connected = true) :
    Answers site s' id result := fun k hk => ⟨(ha k hk).1, hconn k (ha k hk).2⟩

theorem DoorOk.mono {j : ℕ} {d : DoorPc} {c : CallPc ℕ} (hd : DoorOk site s j d c)
    (hconn : ∀ k, (s.conns k).connected = true → (s'.conns k).connected = true)
    (hans : ∀ result, s'.manager.pc.answer = some ((Caller.get j).call, result) →
      s.manager.pc.answer = some ((Caller.get j).call, result)) : DoorOk site s' j d c := by
  cases hd with
  | new => exact .new
  | rejected hr => exact .rejected hr
  | offering hr => exact .offering hr
  | awaiting hr ha => exact .awaiting hr fun result h' => (ha result (hans result h')).mono hconn
  | answered hr ha => exact .answered hr (ha.mono hconn)
  | replied hr ha => exact .replied hr (ha.mono hconn)

variable (s s') in
/-- A step leaves the HTTP request `j` where it is. -/
structure DoorSame (j : ℕ) : Prop where
  door : s'.doors j = s.doors j
  call : s'.callOf (.get j) = s.callOf (.get j)
  answer : ∀ result, s'.manager.pc.answer = some ((Caller.get j).call, result) →
    s.manager.pc.answer = some ((Caller.get j).call, result)

variable (site s s') in
/-- The steps of the HTTP request `j`. -/
inductive DoorMoves (j : ℕ) : ServerEvent → Prop where
  | reject {r : HttpRequest} {reply : Reply} (hj : s.doors j = .new)
      (hr : site.check r = .error reply) (hj' : s'.doors j = .replied r reply)
      (hc' : s'.callOf (.get j) = s.callOf (.get j)) : DoorMoves j (.request j r)
  | request {r : HttpRequest} {id : UUID} {mac : MAC} (hj : s.doors j = .new)
      (hr : site.check r = .ok (id, mac)) (hj' : s'.doors j = .looking r mac)
      (hc' : s'.callOf (.get j) = .offering (.get id)) : DoorMoves j (.request j r)
  | take {id : UUID} {result : ManagerResult ℕ} (hc : s.callOf (.get j) = .offering (.get id))
      (hresult : ∀ k, result = .client k ↔ s.manager.clients id = some k)
      (hj' : s'.doors j = s.doors j) (hc' : s'.callOf (.get j) = .awaiting (.get id))
      (ha' : s'.manager.pc.answer = some ((Caller.get j).call, result)) :
      DoorMoves j (.take (Caller.get j).call)
  | reply {id : UUID} {result : ManagerResult ℕ} (hc : s.callOf (.get j) = .awaiting (.get id))
      (ha : s.manager.pc.answer = some ((Caller.get j).call, result))
      (hj' : s'.doors j = s.doors j) (hc' : s'.callOf (.get j) = .returning result) :
      DoorMoves j .reply
  | forward {taken : Bool} {r : HttpRequest} {mac : MAC} {result : ManagerResult ℕ}
      (hj : s.doors j = .looking r mac) (hc : s.callOf (.get j) = .returning result)
      (hj' : s'.doors j = .replied r (site.forward r mac result taken))
      (hc' : s'.callOf (.get j) = .returned) : DoorMoves j (.forward j taken)

theorem doorSame_of {j : ℕ} {x : Caller} {c : CallPc ℕ} (hj : s'.doors j = s.doors j)
    (hm : s'.manager.calls = Function.update s.manager.calls x.call c) (hx : .get j ≠ x)
    (ha : ∀ result, s'.manager.pc.answer = some ((Caller.get j).call, result) →
      s.manager.pc.answer = some ((Caller.get j).call, result)) : DoorSame s s' j :=
  ⟨hj, callOf_ne hm hx, ha⟩

theorem Moves.door_cases (hs : Moves site s e s') (j : ℕ) :
    DoorSame s s' j ∨ DoorMoves site s s' j e := by
  have hget : ∀ {i : ℕ}, j ≠ i → Caller.get j ≠ .get i := fun hne he => hne (Caller.get.inj he)
  cases hs with
  | accept | count => exact .inl (doorSame_of (x := .register _) rfl rfl (by simp) fun _ ha => ha)
  | runReturns | discount =>
      exact .inl (doorSame_of (x := .unregister _) rfl rfl (by simp) fun _ ha => ha)
  | refuse => exact .inl ⟨rfl, rfl, fun _ ha => ha⟩
  | takeRegister => exact .inl (doorSame_of (x := .register _) rfl rfl (by simp) fun _ ha => ha)
  | takeUnregister =>
      exact .inl (doorSame_of (x := .unregister _) rfl rfl (by simp) fun _ ha => (by cases ha))
  | closed => exact .inl ⟨rfl, rfl, fun _ ha => (by cases ha)⟩
  | @reject i r reply hi hr =>
      by_cases hj : j = i
      · subst hj
        exact .inr (.reject hi hr (Function.update_self _ _ _) rfl)
      · exact .inl ⟨Function.update_of_ne hj _ _, rfl, fun _ ha => ha⟩
  | @request i r id mac hi hr =>
      by_cases hj : j = i
      · subst hj
        exact .inr (.request hi hr (Function.update_self _ _ _) (callOf_self rfl))
      · exact .inl (doorSame_of (Function.update_of_ne hj _ _) rfl (hget hj) fun _ ha => ha)
  | @forward i taken r mac result hi hc =>
      by_cases hj : j = i
      · subst hj
        exact .inr (.forward hi hc (Function.update_self _ _ _) (callOf_self rfl))
      · exact .inl (doorSame_of (Function.update_of_ne hj _ _) rfl (hget hj) fun _ ha => ha)
  | @takeGet i id pc result hpc hc ha hresult =>
      by_cases hj : j = i
      · subst hj
        exact .inr (.take hc hresult rfl (callOf_self rfl) ha)
      · refine .inl (doorSame_of rfl rfl (hget hj) fun result' h' => ?_)
        have he := Option.some.inj (ha.symm.trans h')
        exact absurd (Caller.call_injective (congrArg Prod.fst he).symm) (hget hj)
  | @reply i id result ha hc =>
      by_cases hj : j = i
      · subst hj
        exact .inr (.reply hc ha rfl (callOf_self rfl))
      · exact .inl (doorSame_of rfl rfl (hget hj) fun _ h' => (by cases h'))

theorem Moves.door (hs : Moves site s e s') (hI : ServerInv site h s) (j : ℕ) :
    DoorOk site s' j (s'.doors j) (s'.callOf (.get j)) := by
  have hconn : ∀ k, (s.conns k).connected = true → (s'.conns k).connected = true :=
    fun _ => hs.connected
  have hd := hI.door j
  rcases hs.door_cases j with hsame | hmove
  · rw [hsame.door, hsame.call]
    exact hd.mono hconn hsame.answer
  cases hmove with
  | reject hj hr hj' hc' =>
      rw [hj] at hd
      rw [hj', hc', hd.idle]
      exact .rejected hr
  | request hj hr hj' hc' =>
      rw [hj', hc']
      exact .offering hr
  | @take id result hc hresult hj' hc' ha' =>
      rw [hc] at hd
      rw [hj', hc']
      generalize s.doors j = d at hd
      cases hd with
      | offering hr =>
          refine .awaiting hr fun result' h' k hk => ?_
          rw [ha'] at h'
          cases h'
          obtain ⟨hid, hreg, -⟩ := (hI.clients id k).mp ((hresult k).mp hk)
          exact ⟨hid, hconn k ((hI.conn k).connected hreg)⟩
  | @reply id result hc ha hj' hc' =>
      rw [hc] at hd
      rw [hj', hc']
      generalize s.doors j = d at hd
      cases hd with
      | awaiting hr hans => exact .answered hr ((hans result ha).mono hconn)
  | forward hj hc hj' hc' =>
      rw [hj, hc] at hd
      rw [hj', hc']
      cases hd with
      | answered hr ha => exact .replied hr (ha.mono hconn)

theorem received_of {x : Caller} {c : CallPc ℕ} (t : Server)
    (hm : t.manager.calls = Function.update s.manager.calls x.call c)
    (hc : c.received = (s.callOf x).received) (y : Caller) :
    (t.callOf y).received = (s.callOf y).received := by
  by_cases hy : y = x
  · subst hy
    rw [callOf_self hm, hc]
  · rw [callOf_ne hm hy]

/-- The connection `i` is put into the map. -/
theorem ServerInv.clients_register (hI : ServerInv site h s) (hd : Distinct site s)
    {i : ℕ} (t : Server) (hc : s.callOf (.register i) = .offering (.register i))
    (hm : t.manager.calls =
      Function.update s.manager.calls (Caller.register i).call (.returning .nil))
    (hclients : t.manager.clients = Function.update s.manager.clients (site.idOf i) (some i))
    (id : UUID) (k : ℕ) : t.manager.clients id = some k ↔ Registered site t id k := by
  have hok : ConnOk i _ (.offering (.register i)) _ := hc ▸ hI.conn i
  obtain ⟨-, hpc, hun⟩ := hok.registering
  have hi : (s.conns i).connected = true := by rw [hpc]; rfl
  rw [Registered, hclients, callOf_ne (y := .unregister k) hm (by simp)]
  by_cases hk : k = i
  · subst hk
    rw [callOf_self hm, hun]
    by_cases hid : site.idOf k = id
    · subst hid
      rw [Function.update_self]
      exact ⟨fun _ => ⟨rfl, rfl, rfl⟩, fun _ => rfl⟩
    · rw [Function.update_of_ne (Ne.symm hid), hI.clients]
      exact ⟨fun hp => absurd hp.1 hid, fun hp => absurd hp.1 hid⟩
  · rw [callOf_ne (y := .register k) hm (by simpa using hk)]
    by_cases hid : id = site.idOf i
    · subst hid
      rw [Function.update_self]
      exact ⟨fun he => absurd (Option.some.inj he).symm hk,
        fun hp => absurd (hI.eq_of_registered hd hp hi) hk⟩
    · rw [Function.update_of_ne hid]
      exact hI.clients id k

/-- The connection `i` is taken out of the map. -/
theorem ServerInv.clients_unregister (hI : ServerInv site h s) (hd : Distinct site s)
    {i : ℕ} (t : Server) (hc : s.callOf (.unregister i) = .offering (.unregister i))
    (hm : t.manager.calls =
      Function.update s.manager.calls (Caller.unregister i).call (.returning .nil))
    (hclients : t.manager.clients = Function.update s.manager.clients (site.idOf i) none)
    (id : UUID) (k : ℕ) : t.manager.clients id = some k ↔ Registered site t id k := by
  have hok : ConnOk i _ _ (.offering (.unregister i)) := hc ▸ hI.conn i
  have hi : (s.conns i).connected = true := by rw [hok.unregistering.2.1]; rfl
  rw [Registered, hclients, callOf_ne (y := .register k) hm (by simp)]
  by_cases hk : k = i
  · subst hk
    rw [callOf_self hm]
    by_cases hid : id = site.idOf k
    · subst hid
      rw [Function.update_self]
      exact ⟨fun he => (by cases he), fun hp => (by cases hp.2.2)⟩
    · rw [Function.update_of_ne hid, hI.clients]
      exact ⟨fun hp => absurd hp.1.symm hid, fun hp => absurd hp.1.symm hid⟩
  · rw [callOf_ne (y := .unregister k) hm (by simpa using hk)]
    by_cases hid : id = site.idOf i
    · subst hid
      rw [Function.update_self]
      exact ⟨fun he => (by cases he), fun hp => absurd (hI.eq_of_registered hd hp hi) hk⟩
    · rw [Function.update_of_ne hid]
      exact hI.clients id k

theorem Moves.clients (hs : Moves site s e s') (hI : ServerInv site h s)
    (hd : Distinct site s) (id : UUID) (k : ℕ) :
    s'.manager.clients id = some k ↔ Registered site s' id k := by
  -- the calls of the connections that the manager has received stay the same
  have hsame : ∀ (t : Server), t.manager.clients = s.manager.clients →
      (∀ y, (t.callOf y).received = (s.callOf y).received) →
      (t.manager.clients id = some k ↔ Registered site t id k) := by
    intro t hc hr
    rw [Registered, hc, hr, hr]
    exact hI.clients id k
  cases hs with
  | @accept i hi =>
      have hok : ConnOk i .new _ _ := hi ▸ hI.conn i
      exact hsame _ rfl (received_of _ rfl (by rw [hok.idle.1]; rfl))
  | refuse | reject | closed => exact hI.clients id k
  | count hi hc | discount hi hc => exact hsame _ rfl (received_of _ rfl (by rw [hc]; rfl))
  | forward hj hc => exact hsame _ rfl (received_of _ rfl (by rw [hc]; rfl))
  | reply ha hc => exact hsame _ rfl (received_of _ rfl (by rw [hc]; rfl))
  | @runReturns i hi =>
      have hok : ConnOk i .running _ _ := hi ▸ hI.conn i
      exact hsame _ rfl (received_of _ rfl (by rw [hok.received_of_running.2]; rfl))
  | @request i r id mac hi hr =>
      have hok : DoorOk site s i .new _ := hi ▸ hI.door i
      exact hsame _ rfl (received_of _ rfl (by rw [hok.idle]; rfl))
  | @takeGet i =>
      have hnot : ∀ (t : Server) (c : CallPc ℕ),
          t.manager.calls = Function.update s.manager.calls (Caller.get i).call c →
          t.manager.clients = s.manager.clients →
          (t.manager.clients id = some k ↔ Registered site t id k) := by
        intro t c hm hc
        rw [Registered, hc, callOf_ne hm (by simp), callOf_ne hm (by simp)]
        exact hI.clients id k
      exact hnot _ _ rfl rfl
  | takeRegister hpc hc => exact hI.clients_register hd _ hc rfl rfl id k
  | takeUnregister hpc hc => exact hI.clients_unregister hd _ hc rfl rfl id k

/-- A client that has ended stays so. -/
theorem Moves.ended (hs : Moves site s e s') {k : ℕ} (hk : (s.conns k).ended = true) :
    (s'.conns k).ended = true := by
  have hu : ∀ {i : ℕ} {pc : ConnPc}, ((s.conns i).ended = true → pc.ended = true) →
      (Function.update s.conns i pc k).ended = true := by
    intro i pc hpc
    by_cases hki : k = i
    · subst hki
      rw [Function.update_self]
      exact hpc hk
    · rw [Function.update_of_ne hki]
      exact hk
  cases hs with
  | accept hi | refuse hi | count hi =>
      refine hu fun hp => ?_
      rw [hi] at hp
      cases hp
  | runReturns | discount => exact hu fun _ => rfl
  | _ => exact hk

theorem Moves.closing (hs : Moves site s e s') (hI : ServerInv site h s) {k : ℕ}
    (hk : s'.manager.pc = .closing k) : (s'.conns k).ended = true := by
  have hmoves := hs
  cases hs with
  | takeUnregister hpc hc =>
      cases hk
      have hok : ConnOk k _ _ (.offering (.unregister k)) := hc ▸ hI.conn k
      change (s.conns k).ended = true
      rw [hok.unregistering.2.1]
      rfl
  | @takeGet j id pc result hpc hc ha =>
      change pc = .closing k at hk
      rw [hk] at ha
      cases ha
  | reply | closed => cases hk
  | _ => exact hmoves.ended (hI.closing k hk)

theorem Moves.active (hs : Moves site s e s') (hI : ServerInv site h s) :
    ∃ l : List ℕ, l.Nodup ∧ (∀ k, k ∈ l ↔ (s'.conns k).counted = true) ∧
      s'.activeClientCount = l.length := by
  obtain ⟨l, hnodup, hmem, hlen⟩ := hI.active
  have hsame : ∀ {i : ℕ} {pc : ConnPc}, pc.counted = (s.conns i).counted →
      ∀ k, k ∈ l ↔ (Function.update s.conns i pc k).counted = true := by
    intro i pc hpc k
    by_cases hk : k = i
    · subst hk
      rw [Function.update_self, hpc]
      exact hmem k
    · rw [Function.update_of_ne hk]
      exact hmem k
  cases hs with
  | accept hi | refuse hi | runReturns hi => exact ⟨l, hnodup, hsame (by rw [hi]; rfl), hlen⟩
  | @count i r hi =>
      have hnot : i ∉ l := fun hin => by
        have hc := (hmem i).mp hin
        rw [hi] at hc
        cases hc
      refine ⟨i :: l, List.nodup_cons.mpr ⟨hnot, hnodup⟩, fun k => ?_, ?_⟩
      · change _ ↔ (Function.update s.conns i .running k).counted = true
        by_cases hk : k = i
        · subst hk
          rw [Function.update_self]
          exact ⟨fun _ => rfl, fun _ => List.mem_cons_self⟩
        · rw [Function.update_of_ne hk, List.mem_cons, or_iff_right hk]
          exact hmem k
      · change s.activeClientCount + 1 = _
        rw [hlen, List.length_cons]
        omega
  | @discount i r hi =>
      have hin : i ∈ l := (hmem i).mpr (by rw [hi]; rfl)
      refine ⟨l.erase i, hnodup.erase i, fun k => ?_, ?_⟩
      · change _ ↔ (Function.update s.conns i .gone k).counted = true
        rw [hnodup.mem_erase_iff]
        by_cases hk : k = i
        · subst hk
          rw [Function.update_self]
          exact ⟨fun hp => absurd rfl hp.1, fun hp => (by cases hp)⟩
        · rw [Function.update_of_ne hk, and_iff_right hk]
          exact hmem k
      · change s.activeClientCount - 1 = _
        have hpos := List.length_pos_of_mem hin
        rw [hlen, List.length_erase_of_mem hin]
        omega
  | _ => exact ⟨l, hnodup, hmem, hlen⟩

/-- The step of the manager that a step of the server makes. -/
theorem manager_of_step (hs : s.step site e = some s') :
    (toManager site e = none ∧ s'.manager = s.manager) ∨
      ∃ m, toManager site e = some m ∧ s.manager.step site.idOf m = some s'.manager := by
  unfold step at hs
  cases hm : toManager site e with
  | none =>
      rw [hm] at hs
      refine .inl ⟨rfl, ?_⟩
      cases e <;> simp only [act] at hs <;> (try split at hs) <;> (try split at hs) <;> cases hs <;> rfl
  | some m =>
      rw [hm] at hs
      obtain ⟨t, -, ht⟩ := Option.bind_eq_some_iff.mp hs
      obtain ⟨manager, hstep, rfl⟩ := Option.map_eq_some_iff.mp ht
      exact .inr ⟨m, rfl, hstep⟩

/-- **The server keeps to what the manager asks of its callers.** -/
theorem ServerInv.noDuplicate (hI : ServerInv site h s) (hd : Distinct site s)
    (m : ManagerEvent ℕ) : NoDuplicate site.idOf s.manager m := by
  cases m with
  | take i =>
      intro k hi
      obtain ⟨x, rfl⟩ := Caller.exists_call i
      change s.callOf x = _ at hi
      cases x with
      | register k' =>
          obtain ⟨hop, hnone⟩ := hI.fresh hd hi
          cases hop
          exact hnone
      | unregister k' =>
          have hok : ConnOk k' _ _ (.offering (.register k)) := hi ▸ hI.conn k'
          cases hok.unregistering.1
      | get j =>
          have hd := hI.door j
          rw [hi] at hd
          generalize s.doors j = d at hd
          cases hd
  | _ => trivial

theorem ServerInv.step (hI : ServerInv site h s) (hd : Distinct site s)
    (hs : s.step site e = some s') : ServerInv site (h ++ s.observed site e) s' := by
  have hmoves := hI.moves hd hs
  have hmanager : ManagerInv site.idOf (h ++ s.observed site e) s'.manager := by
    rcases manager_of_step hs with ⟨hm, hsame⟩ | ⟨m, hm, hstep⟩
    · rw [observed, hm, Option.elim_none, List.append_nil, hsame]
      exact hI.manager
    · rw [observed, hm, Option.elim_some]
      exact (managerStep_spec hstep).inv hI.manager (hI.noDuplicate hd m)
  refine ⟨hmanager, ?_, hmoves.conn hI, hmoves.door hI, hmoves.clients hI hd,
    fun k hk => hmoves.closing hI hk, hmoves.active hI⟩
  cases hmoves <;> exact hI.opened

theorem ServerInv.start : ServerInv site [] Server.init where
  manager := by
    refine .inl ⟨rfl, [], linearizes_nil, rfl, fun i => List.not_mem_nil, fun i r ha => ?_, ?_⟩
    · cases ha
    · exact fun hp => by cases hp
  opened := rfl
  conn _ := .new
  door _ := .new
  clients id k := by
    refine ⟨fun hk => ?_, fun hk => ?_⟩
    · cases hk
    · cases hk.2.1
  closing k hk := by cases hk
  active := by
    refine ⟨[], List.nodup_nil, fun k => ⟨fun hk => ?_, fun hk => ?_⟩, rfl⟩
    · cases hk
    · cases hk

/-- A connection comes to be by `accept`. -/
theorem Moves.accepted (hs : Moves site s e s') {k : ℕ} (hk : (s'.conns k).connected = true) :
    (s.conns k).connected = true ∨ e = .accept k := by
  have hu : ∀ {i : ℕ} {pc : ConnPc}, (Function.update s.conns i pc k).connected = true →
      (s.conns k).connected = true ∨ k = i := by
    intro i pc hp
    by_cases hki : k = i
    · exact .inr hki
    · rw [Function.update_of_ne hki] at hp
      exact .inl hp
  cases hs with
  | accept hi => exact (hu hk).imp_right fun hki => by rw [hki]
  | @refuse i hi =>
      refine (hu hk).imp_right fun hki => ?_
      subst hki
      change (Function.update s.conns k .refused k).connected = true at hk
      rw [Function.update_self] at hk
      cases hk
  | count hi | runReturns hi | discount hi =>
      refine .inl ((hu hk).elim id fun hki => ?_)
      rw [hki, hi]
      rfl
  | _ => exact .inl hk

end Server

/-- The connections of a run have different ids: `NewUUID` does not repeat itself. -/
def DistinctIds (site : Site) (es : List ServerEvent) : Prop :=
  ∀ k k', .accept k ∈ es → .accept k' ∈ es → site.idOf k = site.idOf k' → k = k'

theorem DistinctIds.of_append {site : Site} {es es' : List ServerEvent}
    (h : DistinctIds site (es ++ es')) : DistinctIds site es :=
  fun k k' hk hk' => h k k' (List.mem_append_left _ hk) (List.mem_append_left _ hk')

section Registry

open Server

variable {site : Site} {s s' : Server} {es : List ServerEvent}

theorem serverInv_of_run (hids : DistinctIds site es) (hr : (server site).run Server.init es = some s) :
    ServerInv site ((server site).observe (Server.observed site) Server.init es) s ∧
      ∀ k, (s.conns k).connected = true → .accept k ∈ es := by
  refine Machine.run_induction (M := server site)
    (P := fun es s => DistinctIds site es →
      ServerInv site ((server site).observe (Server.observed site) Server.init es) s ∧
        ∀ k, (s.conns k).connected = true → .accept k ∈ es)
    (fun _ => ⟨ServerInv.start, fun k hk => (by cases hk)⟩) ?_ hr hids
  intro es s e s' hrun ih hs hids
  have hmono : ∀ {k}, .accept k ∈ es → .accept k ∈ es ++ [e] := fun hk => List.mem_append_left _ hk
  obtain ⟨hI, hacc⟩ := ih hids.of_append
  have hd : Distinct site s := fun k k' hk hk' =>
    hids k k' (hmono (hacc k hk)) (hmono (hacc k' hk'))
  have hobs := Machine.observe_snoc (Server.observed site) e hrun
  rw [show (server site).init = Server.init from rfl] at hobs
  refine ⟨hobs ▸ hI.step hd hs, fun k hk => ?_⟩
  rcases (hI.moves hd hs).accepted hk with hold | rfl
  · exact hmono (hacc k hold)
  · exact List.mem_append_right _ List.mem_cons_self

/-- **The registry of a server.** In every run with different ids the history of the calls of the
client manager is one of a map; the manager is never stuck, and it only closes clients whose `Run`
has returned; every client whose `Run` is running is in the map, only clients that have connected
and have not left are, and the counter of active clients counts them. -/
theorem server_registry (hids : DistinctIds site es)
    (hr : (server site).run Server.init es = some s) :
    (∃ l, Linearizes (registry site.idOf)
        ((server site).observe (Server.observed site) Server.init es) l ∧
      (registry site.idOf).after (registry site.idOf).init l = s.manager.clients) ∧
    RunLive site.idOf s.manager ∧
    (∀ k, s.manager.pc = .closing k → s.conns k = .unregistering ∨ s.conns k = .gone) ∧
    (∀ k, s.conns k = .running → s.manager.clients (site.idOf k) = some k) ∧
    (∀ id k, s.manager.clients id = some k → site.idOf k = id ∧
      (s.conns k = .registering ∨ s.conns k = .running ∨ s.conns k = .unregistering)) ∧
    ∃ l : List ℕ, l.Nodup ∧ (∀ k, k ∈ l ↔ s.conns k = .running ∨ s.conns k = .unregistering) ∧
      s.activeClientCount = l.length := by
  obtain ⟨hI, -⟩ := serverInv_of_run hids hr
  refine ⟨?_, hI.manager.runLive, fun k hk => ?_, fun k hk => ?_, fun id k hk => ?_, ?_⟩
  · rcases hI.manager with ⟨-, l, hL⟩ | ⟨hdone, -⟩
    · exact ⟨l, hL.linearizes, hL.after⟩
    · rw [hI.opened] at hdone
      cases hdone
  · have hended := hI.closing k hk
    cases hc : s.conns k with
    | unregistering => exact .inl rfl
    | gone => exact .inr rfl
    | new | refused | registering | running =>
        rw [hc] at hended
        cases hended
  · have hok : ConnOk k .running _ _ := hk ▸ hI.conn k
    exact (hI.clients _ k).mpr ⟨rfl, hok.received_of_running⟩
  · obtain ⟨hid, hreg, hun⟩ := (hI.clients id k).mp hk
    exact ⟨hid, (hI.conn k).not_ended hreg hun⟩
  · obtain ⟨l, hnodup, hmem, hlen⟩ := hI.active
    refine ⟨l, hnodup, fun k => (hmem k).trans ?_, hlen⟩
    cases s.conns k <;> simp [ConnPc.counted]

/-- **Authentic requests.** A request that is forwarded to a client has its id and its MAC for the
path that is forwarded, and the client has connected. Who has the MAC of no connection with the id
gets an answer that depends on the request alone. -/
theorem served_requests_authentic (hids : DistinctIds site es)
    (hr : (server site).run Server.init es = some s) {j : ℕ} {r : HttpRequest} {reply : Reply}
    (hj : s.doors j = .replied r reply) :
    (∀ k path, reply = .serve k path → (s.conns k).connected = true ∧ path = normalize r.path ∧
      site.check r = .ok (site.idOf k, site.macFor k r.path)) ∧
    ((∀ k, site.check r ≠ .ok (site.idOf k, site.macFor k r.path)) →
      reply = match site.check r with
        | .error reply => reply
        | .ok _ => statusNotFound) := by
  obtain ⟨hI, -⟩ := serverInv_of_run hids hr
  have hdoor := hI.door j
  rw [hj] at hdoor
  generalize s.callOf (.get j) = c at hdoor
  cases hdoor with
  | rejected hcheck =>
      rw [hcheck]
      refine ⟨fun k path hserve => ?_, fun _ => rfl⟩
      subst hserve
      exact absurd hcheck (Site.check_ne_serve k path)
  | @replied r id mac result taken hcheck hans =>
      refine ⟨fun k path hserve => ?_, fun hno => ?_⟩
      · obtain ⟨hresult, hmac, -, hpath⟩ := Site.forward_eq_serve.mp hserve
        obtain ⟨hid, hconn⟩ := hans k hresult
        exact ⟨hconn, hpath.symm, by rw [hcheck, hid, hmac]⟩
      · rw [hcheck]
        refine Site.forward_opaque (fun k hresult hmac => hno k ?_) taken
        rw [hcheck, (hans k hresult).1, hmac]

/-! ## A request to a running client -/

/-- Where a request with the MAC of the client `k` is while the client is running. -/
inductive Reaching (site : Site) (k : ℕ) (r : HttpRequest) (answer : Option (ManagerResult ℕ)) :
    DoorPc → CallPc ℕ → Prop where
  | offering : Reaching site k r answer (.looking r (site.macFor k r.path))
      (.offering (.get (site.idOf k)))
  | awaiting (ha : ∀ result, answer = some result → result = .client k) :
      Reaching site k r answer (.looking r (site.macFor k r.path)) (.awaiting (.get (site.idOf k)))
  | answered : Reaching site k r answer (.looking r (site.macFor k r.path)) (.returning (.client k))
  | replied {c : CallPc ℕ} : Reaching site k r answer (.replied r (.serve k (normalize r.path))) c

/-- What the manager is sending to the HTTP request `j`. -/
def Server.answerTo (s : Server) (j : ℕ) : Option (ManagerResult ℕ) :=
  s.manager.pc.answer.bind fun a => if a.1 = (Caller.get j).call then some a.2 else none

theorem Server.answerTo_eq_some {j : ℕ} {result : ManagerResult ℕ} :
    s.answerTo j = some result ↔ s.manager.pc.answer = some ((Caller.get j).call, result) := by
  unfold Server.answerTo
  cases ha : s.manager.pc.answer with
  | none => simp
  | some a =>
      obtain ⟨i, result'⟩ := a
      by_cases hi : i = (Caller.get j).call <;> simp [hi]

theorem Reaching.mono {k : ℕ} {r : HttpRequest} {a a' : Option (ManagerResult ℕ)} {d : DoorPc}
    {c : CallPc ℕ} (hreach : Reaching site k r a d c)
    (ha : ∀ result, a' = some result → a = some result) : Reaching site k r a' d c := by
  cases hreach with
  | offering => exact .offering
  | awaiting hans => exact .awaiting fun result h' => hans result (ha result h')
  | answered => exact .answered
  | replied => exact .replied

theorem Server.Moves.running {e : ServerEvent} (hs : Moves site s e s') {k : ℕ}
    (hk : s.conns k = .running) : s'.conns k = .running ∨ (s'.conns k).ended = true := by
  have hu : ∀ {i : ℕ} {pc : ConnPc}, s.conns i ≠ .running ∨ pc.ended = true →
      Function.update s.conns i pc k = .running ∨
        (Function.update s.conns i pc k).ended = true := by
    intro i pc hpc
    by_cases hki : k = i
    · subst hki
      rw [Function.update_self]
      exact .inr (hpc.resolve_left (· hk))
    · rw [Function.update_of_ne hki]
      exact .inl hk
  cases hs with
  | accept hi | refuse hi | count hi =>
      refine hu (.inl fun hrun => ?_)
      rw [hi] at hrun
      cases hrun
  | runReturns | discount => exact hu (.inr rfl)
  | _ => exact .inl hk

/-- **What one step keeps**, unless the client has seen `done`. -/
theorem Server.Moves.reaching {e : ServerEvent} {h : List (CallEvent (ManagerOp ℕ) (ManagerResult ℕ))}
    (hs : Moves site s e s') (hI : ServerInv site h s) {k j : ℕ} {r : HttpRequest}
    (hk : s.conns k = .running) (hne : e ≠ .forward j false)
    (hreach : Reaching site k r (s.answerTo j) (s.doors j) (s.callOf (.get j))) :
    Reaching site k r (s'.answerTo j) (s'.doors j) (s'.callOf (.get j)) := by
  rcases hs.door_cases j with hsame | hmove
  · rw [hsame.door, hsame.call]
    exact hreach.mono fun result ha =>
      answerTo_eq_some.mpr (hsame.answer result (answerTo_eq_some.mp ha))
  cases hmove with
  | reject hj | request hj =>
      rw [hj] at hreach
      cases hreach
  | @take id result hc hresult hj' hc' ha' =>
      rw [hc] at hreach
      rw [hj', hc']
      generalize s.doors j = d at hreach
      cases hreach with
      | offering =>
          refine .awaiting fun result' h' => ?_
          rw [answerTo_eq_some, ha'] at h'
          cases h'
          -- the client is in the map as long as it is running
          have hok : ConnOk k .running _ _ := hk ▸ hI.conn k
          exact (hresult k).mpr ((hI.clients _ k).mpr ⟨rfl, hok.received_of_running⟩)
      | replied => exact .replied
  | @reply id result hc ha hj' hc' =>
      rw [hc] at hreach
      rw [hj', hc']
      generalize s.doors j = d at hreach
      cases hreach with
      | awaiting hans =>
          obtain rfl := hans result (answerTo_eq_some.mpr ha)
          exact .answered
      | replied => exact .replied
  | @forward taken r' mac result hj hc hj' hc' =>
      rw [hj, hc] at hreach
      rw [hj', hc']
      cases hreach with
      | answered =>
          cases taken with
          | false => exact absurd rfl hne
          | true =>
              rw [Site.forward_eq_serve.mpr ⟨rfl, rfl, rfl, rfl⟩]
              exact .replied

/-- **A running client is reached.** A request with the id and the MAC of a client whose `Run` is
running, and still is at the end of the run, is in the client manager or has been forwarded to this
client, unless the client has seen `done` when it is asked. -/
theorem running_client_reached {j k : ℕ} {r : HttpRequest} {es' : List ServerEvent}
    (hids : DistinctIds site (es ++ .request j r :: es'))
    (hr : (server site).run Server.init es = some s) (hk : s.conns k = .running)
    (hcheck : site.check r = .ok (site.idOf k, site.macFor k r.path))
    (hr' : (server site).run s (.request j r :: es') = some s') (hk' : s'.conns k = .running)
    (hdone : .forward j false ∉ es') :
    s'.doors j = .looking r (site.macFor k r.path) ∨
      s'.doors j = .replied r (.serve k (normalize r.path)) := by
  -- the client is running until it ends
  have hstep : ∀ es' s', .forward j false ∉ es' → DistinctIds site (es ++ .request j r :: es') →
      (server site).run s (.request j r :: es') = some s' →
      (s'.conns k).ended = true ∨ s'.conns k = .running ∧
        Reaching site k r (s'.answerTo j) (s'.doors j) (s'.callOf (.get j)) := by
    intro es' s' hdone hids hr'
    induction es' using List.reverseRecOn generalizing s' with
    | nil =>
        rw [Machine.run_cons] at hr'
        obtain ⟨s₁, hs, heq⟩ := Option.bind_eq_some_iff.mp hr'
        cases heq
        obtain ⟨hI, hd⟩ := serverInv_of_run hids.of_append hr
        have hdist : Distinct site s := fun i i' hi hi' =>
          hids i i' (List.mem_append_left _ (hd i hi)) (List.mem_append_left _ (hd i' hi'))
        have hmoves := hI.moves hdist hs
        refine .inr ?_
        cases hmoves with
        | reject hj hr =>
            rw [hcheck] at hr
            cases hr
        | request hj hr =>
            rw [hcheck] at hr
            cases hr
            refine ⟨hk, ?_⟩
            rw [callOf_self (s := s) rfl]
            change Reaching site k r _ (Function.update s.doors j _ j) _
            rw [Function.update_self]
            exact .offering
    | append_singleton es' e ih =>
        have hmono : ∀ {x}, x ∈ es ++ .request j r :: es' → x ∈ es ++ .request j r :: (es' ++ [e]) := by
          intro x hx
          rw [← List.cons_append, ← List.append_assoc]
          exact List.mem_append_left _ hx
        rw [← List.cons_append] at hr'
        obtain ⟨s₁, h1, h2⟩ := (server site).run_snoc_eq_some.mp hr'
        have hrun : (server site).run Server.init (es ++ .request j r :: es') = some s₁ := by
          rw [Machine.run_append, hr]
          exact h1
        obtain ⟨hI, hd⟩ := serverInv_of_run (fun i i' hi hi' => hids i i' (hmono hi) (hmono hi')) hrun
        have hdist : Distinct site s₁ := fun i i' hi hi' =>
          hids i i' (hmono (hd i hi)) (hmono (hd i' hi'))
        have hmoves := hI.moves hdist h2
        rcases ih s₁ (fun hin => hdone (List.mem_append_left _ hin))
          (fun i i' hi hi' => hids i i' (hmono hi) (hmono hi')) h1 with hended | ⟨hrunning, hreach⟩
        · exact .inl (hmoves.ended hended)
        · have hne : e ≠ .forward j false := by
            rintro rfl
            exact hdone (List.mem_append_right _ List.mem_cons_self)
          exact (hmoves.running hrunning).symm.imp_right fun hrun' =>
            ⟨hrun', hmoves.reaching hI hrunning hne hreach⟩
  rcases hstep es' s' hdone hids hr' with hended | ⟨-, hreach⟩
  · rw [hk'] at hended
    cases hended
  · generalize s'.callOf (.get j) = c at hreach
    generalize s'.doors j = d at hreach
    cases hreach with
    | offering | awaiting | answered => exact .inl rfl
    | replied => exact .inr rfl

end Registry

/-! ## Sample runs -/

def otherIdentity : Identity := ⟨⟨List.replicate 16 1, rfl⟩, [4, 5, 6]⟩

/-- A server for "text/html" whose first connection has the sample identity. -/
def sampleSite : Site where
  contentTypes := multiRegistry [sampleType]
  hmac := sampleHmac
  client k := if k = 0 then sampleIdentity else otherIdentity

/-- The MAC of the path "x" for the second connection. -/
def otherMac : MAC := computeMac sampleHmac otherIdentity.idStr [120] otherIdentity.secret

/-- The request for this path. -/
def otherRequest : HttpRequest where
  accept := []
  clientID := otherIdentity.idStr
  mac := MAC.urlEncode otherMac
  path := [120]

/-- The state after the events `es`. -/
def serverAfter (es : List ServerEvent) : Server :=
  ((server sampleSite).run Server.init es).getD Server.init

/-- Two clients connect. -/
def connectRun : List ServerEvent :=
  [.accept 0, .accept 1, .take (Caller.register 1).call, .take (Caller.register 0).call, .count 0,
    .count 1]

/-- The content of the second one is asked for. -/
def askRun : List ServerEvent :=
  [.request 0 otherRequest, .take (Caller.get 0).call, .reply, .forward 0 true]

/-- The first one leaves. -/
def leaveRun : List ServerEvent :=
  [.runReturns 0, .take (Caller.unregister 0).call, .closed, .discount 0]

theorem check_otherRequest :
    sampleSite.check otherRequest = .ok (sampleSite.idOf 1, sampleSite.macFor 1 [120]) := by
  refine Site.check_eq_ok.mpr ⟨by decide +kernel, urlDecodeUUID_urlEncode _, ?_⟩
  have hmac : sampleSite.macFor 1 [120] = otherMac := by decide +kernel
  rw [hmac]
  exact urlDecodeBytes_urlEncodeBytes otherMac

theorem distinctIds_sample : DistinctIds sampleSite (connectRun ++ askRun ++ leaveRun) := by
  intro k k' hk hk' hid
  have hcases : ∀ k, .accept k ∈ connectRun ++ askRun ++ leaveRun → k = 0 ∨ k = 1 := by
    intro k hk
    simpa [connectRun, askRun, leaveRun] using hk
  have hne : sampleSite.idOf 0 ≠ sampleSite.idOf 1 := by decide +kernel
  rcases hcases k hk with rfl | rfl <;> rcases hcases k' hk' with rfl | rfl
  · rfl
  · exact absurd hid hne
  · exact absurd hid.symm hne
  · rfl

theorem run_serverAfter (es : List ServerEvent)
    (h : ((server sampleSite).run Server.init es).isSome = true) :
    (server sampleSite).run Server.init es = some (serverAfter es) := by
  obtain ⟨s, hs⟩ := Option.isSome_iff_exists.mp h
  rw [serverAfter, hs]
  rfl

theorem server_registry_sample :
    (serverAfter (connectRun ++ askRun ++ leaveRun)).manager.clients (sampleSite.idOf 1) = some 1 ∧
    (serverAfter (connectRun ++ askRun ++ leaveRun)).manager.clients (sampleSite.idOf 0) ≠ some 0 := by
  have hrun := run_serverAfter (connectRun ++ askRun ++ leaveRun) (by decide +kernel)
  obtain ⟨-, -, -, hrunning, honly, -⟩ := server_registry distinctIds_sample hrun
  refine ⟨hrunning 1 (by decide +kernel), fun hclient => ?_⟩
  have hgone : (serverAfter (connectRun ++ askRun ++ leaveRun)).conns 0 = .gone := by decide +kernel
  rcases (honly _ 0 hclient).2 with h | h | h <;> rw [hgone] at h <;> cases h

theorem served_requests_authentic_sample :
    ((serverAfter (connectRun ++ askRun)).conns 1).connected = true := by
  have hrun := run_serverAfter (connectRun ++ askRun) (by decide +kernel)
  have hdoor : (serverAfter (connectRun ++ askRun)).doors 0 =
      .replied otherRequest (.serve 1 [120]) := by decide +kernel
  exact ((served_requests_authentic distinctIds_sample.of_append hrun hdoor).1 1 [120] rfl).1

theorem running_client_reached_sample :
    (serverAfter (connectRun ++ askRun)).doors 0 =
        .looking otherRequest (sampleSite.macFor 1 [120]) ∨
      (serverAfter (connectRun ++ askRun)).doors 0 =
        .replied otherRequest (.serve 1 (normalize [120])) := by
  have hrun := run_serverAfter connectRun (by decide +kernel)
  have hall := run_serverAfter (connectRun ++ askRun) (by decide +kernel)
  rw [Machine.run_append, hrun] at hall
  exact running_client_reached distinctIds_sample.of_append hrun (by decide +kernel) check_otherRequest
    hall (by decide +kernel) (by decide)

end Loon
