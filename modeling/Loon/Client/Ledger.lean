import Loon.Client.Session

set_option autoImplicit false

/-!
# The messages of the client, request by request

What the client has sent on a connection, against the logs of its handlers. A request that was
handed to a handler is answered by this handler alone, another one with an `EmptyResponse` if at
all. Nothing here depends on the ids of the requests.

* `HandlerLog.Answers`: a handler with its log;
* `Session.Ledger`: the messages that were sent;
* `Session.Ledger.acts`: a step of one of the handlers;
* **`Session.Ledger.step`**;
* `Session.Ledger.messages`: all messages about a request.
-/

namespace Loon

open Chunking

/-- The id and the path of a `Request` message. -/
def ServerMessage.asked : ServerMessage → Option (UInt64 × String)
  | .request id path => some (id, path)
  | _ => none

/-- The handler `h` has answered what it was given, up to sends that failed. -/
def HandlerLog.Answers (C : ℕ) (log : HandlerLog) (h : RequestHandler) : Prop :=
  Answering C h.source h.info (fun _ => True) (fun _ => True) log.accepted log.sent h

/-- **What the client has sent.** -/
structure Session.Ledger (C : ℕ) (s : Session) (sent : List Outgoing) : Prop where
  answers : ∀ i, (s.logs i).Answers C (s.client.handlers i)
  blank : ∀ i, s.client.registered ≤ i → s.logs i = .empty
  numbered : ∀ i, ∀ r ∈ (s.logs i).accepted, r.origin < s.client.seen
  owned : ∀ i j, ∀ r ∈ (s.logs i).accepted, ∀ r' ∈ (s.logs j).accepted, r.origin = r'.origin → i = j
  accepted : ∀ i, ∀ r ∈ (s.logs i).accepted, about r.origin sent = about r.origin (s.logs i).sent
  empty : ∀ p, (∀ i, ∀ r ∈ (s.logs i).accepted, r.origin ≠ p) →
    ∀ d ∈ about p sent, ∃ m, d = .emptyResponse m
  old : ∀ m ∈ sent, m.origin < s.client.seen
  responding : ∀ r, s.client.responding = some r → r.origin < s.client.seen ∧
    ∀ i, ∀ r' ∈ (s.logs i).accepted, r'.origin ≠ r.origin
  count : (s.handled.filterMap ServerMessage.asked).length = s.client.seen
  asked : ∀ i, ∀ r ∈ (s.logs i).accepted, (s.handled.filterMap ServerMessage.asked)[r.origin]? =
    some (r.id, (s.client.handlers i).info.path)
  content : ∀ path i, s.client.content path = some i →
    i < s.client.registered ∧ (s.client.handlers i).info.path = path

/-! ## Handlers -/

section Handlers

variable {chunkSize : UInt64} {log : HandlerLog} {h h' : RequestHandler} {r : ServeRequest}

theorem HandlerLog.Answers.init (C : ℕ) (source : ContentSource) (info : ContentInfo) :
    HandlerLog.empty.Answers C (newRequestHandler source info) := Answering.init

/-- The source and the information of the handler do not change. -/
theorem HandlerLog.Answers.of_answering {C : ℕ}
    (ha : Answering C h.source h.info (fun _ => True) (fun _ => True) log.accepted log.sent h') :
    log.Answers C h' := by
  rw [HandlerLog.Answers, ha.hasSource, ha.hasInfo]
  exact ha

theorem HandlerLog.Answers.serveRequest {C : ℕ} (ha : log.Answers C h)
    (hr : ∀ r' ∈ log.accepted, r'.origin ≠ r.origin) :
    { log with accepted := log.accepted ++ [r] }.Answers C (h.serveRequest r) :=
  .of_answering (Answering.serveRequest ha hr fun _ => trivial)

theorem HandlerLog.Answers.cancelRequest {C : ℕ} (ha : log.Answers C h) (id : UInt64) (ok : Bool) :
    { log with sent := log.sent ++ delivered ok (h.cancelRequest id).2 }.Answers C
      (h.cancelRequest id).1 :=
  .of_answering (Answering.cancelRequest ha id ok (fun _ _ _ => trivial) fun _ _ _ _ => trivial)

theorem HandlerLog.Answers.exitGracefully {C : ℕ} (ha : log.Answers C h)
    (he : h.exitGracefully = .ok h') : log.Answers C h' :=
  .of_answering (Answering.exitGracefully ha (fun _ _ => trivial) he)

theorem HandlerLog.Answers.serve {out : List Outgoing} {ok : Bool} (called : List ServeRequest)
    (ha : log.Answers chunkSize.toNat h) (hs : h.serve chunkSize ok = some (h', out)) :
    HandlerLog.Answers chunkSize.toNat ⟨log.accepted, log.sent ++ delivered ok out, called⟩ h' :=
  .of_answering (Answering.serve rfl ha hs fun _ _ _ => trivial)

end Handlers

/-! ## Steps -/

namespace Session.Ledger

variable {C : ℕ} {s s' : Session} {sent out : List Outgoing} {i : ℕ}

/-- The messages of a handler are about requests that it accepted. -/
theorem origin_mem (h : s.Ledger C sent) {m : Outgoing} (hm : m ∈ (s.logs i).sent) :
    m.request ∈ (s.logs i).accepted := (h.answers i).books.known m hm

/-- A step in which no handler does anything. -/
theorem idle (h : s.Ledger C sent) {l : List ServerMessage} (hlogs : s'.logs = s.logs)
    (hhandled : s'.handled = s.handled ++ l) (hl : l.filterMap ServerMessage.asked = [])
    (hhandlers : s'.client.handlers = s.client.handlers)
    (hregistered : s'.client.registered = s.client.registered)
    (hseen : s'.client.seen = s.client.seen)
    (hresponding : s'.client.responding = s.client.responding)
    (hcontent : ∀ path i, s'.client.content path = some i → s.client.content path = some i) :
    s'.Ledger C sent := by
  have hasked : s'.handled.filterMap ServerMessage.asked =
      s.handled.filterMap ServerMessage.asked := by
    rw [hhandled, List.filterMap_append, hl, List.append_nil]
  refine ⟨?_, ?_, ?_, ?_, ?_, ?_, ?_, ?_, ?_, ?_, fun path i hi => ?_⟩
  · rw [hlogs, hhandlers]
    exact h.answers
  · rw [hlogs, hregistered]
    exact h.blank
  · rw [hlogs, hseen]
    exact h.numbered
  · rw [hlogs]
    exact h.owned
  · rw [hlogs]
    exact h.accepted
  · rw [hlogs]
    exact h.empty
  · rw [hseen]
    exact h.old
  · rw [hlogs, hseen, hresponding]
    exact h.responding
  · rw [hasked, hseen]
    exact h.count
  · rw [hlogs, hasked, hhandlers]
    exact h.asked
  · rw [hregistered, hhandlers]
    exact h.content path i (hcontent path i hi)

/-- **A step of the handler `i`**, in which it sends `out`. -/
theorem acts (h : s.Ledger C sent) {h' : RequestHandler} {called : List ServeRequest}
    {l : List ServerMessage}
    (hans : HandlerLog.Answers C ⟨(s.logs i).accepted, (s.logs i).sent ++ out, called⟩ h')
    (hinfo : h'.info = (s.client.handlers i).info) (hi : i < s.client.registered)
    (hlogs : s'.logs = Function.update s.logs i ⟨(s.logs i).accepted, (s.logs i).sent ++ out, called⟩)
    (hhandled : s'.handled = s.handled ++ l) (hl : l.filterMap ServerMessage.asked = [])
    (hhandlers : s'.client.handlers = Function.update s.client.handlers i h')
    (hregistered : s'.client.registered = s.client.registered)
    (hseen : s'.client.seen = s.client.seen)
    (hresponding : s'.client.responding = s.client.responding)
    (hcontent : s'.client.content = s.client.content) : s'.Ledger C (sent ++ out) := by
  have hasked : s'.handled.filterMap ServerMessage.asked =
      s.handled.filterMap ServerMessage.asked := by
    rw [hhandled, List.filterMap_append, hl, List.append_nil]
  have haccepted : ∀ j, (s'.logs j).accepted = (s.logs j).accepted := by
    intro j
    rw [hlogs]
    by_cases hj : j = i
    · rw [hj, Function.update_self]
    · rw [Function.update_of_ne hj]
  have hinfos : ∀ j, (s'.client.handlers j).info = (s.client.handlers j).info := by
    intro j
    rw [hhandlers]
    by_cases hj : j = i
    · rw [hj, Function.update_self, hinfo]
    · rw [Function.update_of_ne hj]
  -- what the handler sends is about its own requests
  have hout : ∀ m ∈ out, m.request ∈ (s.logs i).accepted := fun m hm =>
    hans.books.known m (List.mem_append_right _ hm)
  have hother : ∀ p, (∀ r ∈ (s.logs i).accepted, r.origin ≠ p) →
    about p (sent ++ out) = about p sent := by
    intro p hp
    rw [about_append, about_eq_nil fun m hm => hp _ (hout m hm), List.append_nil]
  refine ⟨fun j => ?_, fun j hj => ?_, fun j r hr => ?_, fun j j' r hr r' hr' => ?_, fun j r hr => ?_,
    fun p hp d hd => ?_, fun m hm => ?_, fun r hr => ?_, ?_, fun j r hr => ?_, fun path j hj => ?_⟩
  · rw [hlogs, hhandlers]
    by_cases hj : j = i
    · subst hj
      rw [Function.update_self, Function.update_self]
      exact hans
    · rw [Function.update_of_ne hj, Function.update_of_ne hj]
      exact h.answers j
  · rw [hregistered] at hj
    rw [hlogs, Function.update_of_ne (by omega)]
    exact h.blank j hj
  · rw [haccepted] at hr
    rw [hseen]
    exact h.numbered j r hr
  · rw [haccepted] at hr hr'
    exact h.owned j j' r hr r' hr'
  · rw [haccepted] at hr
    rw [hlogs]
    by_cases hj : j = i
    · subst hj
      rw [Function.update_self, about_append, about_append, h.accepted j r hr]
    · rw [Function.update_of_ne hj, hother, h.accepted j r hr]
      intro r' hr' he
      exact hj (h.owned j i r hr r' hr' he.symm)
  · simp only [haccepted] at hp
    rw [hother p (hp i)] at hd
    exact h.empty p hp d hd
  · rw [hseen]
    rcases List.mem_append.mp hm with hm | hm
    · exact h.old m hm
    · exact h.numbered i _ (hout m hm)
  · rw [hresponding] at hr
    rw [hseen]
    simp only [haccepted]
    exact h.responding r hr
  · rw [hasked, hseen]
    exact h.count
  · rw [haccepted] at hr
    rw [hasked, hinfos]
    exact h.asked j r hr
  · rw [hcontent] at hj
    rw [hregistered, hinfos]
    exact h.content path j hj

/-- A `Request` message that no handler gets. -/
theorem refuses (h : s.Ledger C sent) {id : UInt64} {path : String} (hlogs : s'.logs = s.logs)
    (hhandled : s'.handled = s.handled ++ [.request id path])
    (hhandlers : s'.client.handlers = s.client.handlers)
    (hregistered : s'.client.registered = s.client.registered)
    (hseen : s'.client.seen = s.client.seen + 1)
    (hresponding : ∀ r, s'.client.responding = some r → r.origin = s.client.seen)
    (hcontent : s'.client.content = s.client.content) : s'.Ledger C sent := by
  have hasked : s'.handled.filterMap ServerMessage.asked =
      s.handled.filterMap ServerMessage.asked ++ [(id, path)] := by
    rw [hhandled, List.filterMap_append]
    rfl
  refine ⟨?_, ?_, fun i r hr => ?_, ?_, ?_, ?_, fun m hm => ?_, fun r hr => ?_, ?_, fun i r hr => ?_, ?_⟩
  · rw [hlogs, hhandlers]
    exact h.answers
  · rw [hlogs, hregistered]
    exact h.blank
  · rw [hlogs] at hr
    rw [hseen]
    exact Nat.lt_succ_of_lt (h.numbered i r hr)
  · rw [hlogs]
    exact h.owned
  · rw [hlogs]
    exact h.accepted
  · rw [hlogs]
    exact h.empty
  · rw [hseen]
    exact Nat.lt_succ_of_lt (h.old m hm)
  · rw [hseen, hlogs, hresponding r hr]
    exact ⟨Nat.lt_succ_self _, fun i r' hr' => (h.numbered i r' hr').ne⟩
  · rw [hasked, List.length_append, h.count, hseen]
    rfl
  · rw [hlogs] at hr
    rw [hasked, hhandlers, List.getElem?_append_left (by rw [h.count]; exact h.numbered i r hr)]
    exact h.asked i r hr
  · rw [hcontent, hregistered, hhandlers]
    exact h.content

/-- A `Request` message for content that is registered. -/
theorem accepts (h : s.Ledger C sent) {id : UInt64} {path : String}
    (hpath : s.client.content path = some i)
    (hlogs : s'.logs = Function.update s.logs i
      { s.logs i with accepted := (s.logs i).accepted ++ [⟨s.client.seen, id⟩] })
    (hhandled : s'.handled = s.handled ++ [.request id path])
    (hhandlers : s'.client.handlers = Function.update s.client.handlers i
      ((s.client.handlers i).serveRequest ⟨s.client.seen, id⟩))
    (hregistered : s'.client.registered = s.client.registered)
    (hseen : s'.client.seen = s.client.seen + 1) (hresponding : s'.client.responding = none)
    (hcontent : s'.client.content = s.client.content) : s'.Ledger C sent := by
  obtain ⟨hi, hinfo⟩ := h.content path i hpath
  have hasked : s'.handled.filterMap ServerMessage.asked =
      s.handled.filterMap ServerMessage.asked ++ [(id, path)] := by
    rw [hhandled, List.filterMap_append]
    rfl
  have hinfos : ∀ j, (s'.client.handlers j).info = (s.client.handlers j).info := by
    intro j
    rw [hhandlers]
    by_cases hj : j = i
    · rw [hj, Function.update_self]
      unfold RequestHandler.serveRequest
      split <;> rfl
    · rw [Function.update_of_ne hj]
  have hsent : ∀ j, (s'.logs j).sent = (s.logs j).sent := by
    intro j
    rw [hlogs]
    by_cases hj : j = i
    · rw [hj, Function.update_self]
    · rw [Function.update_of_ne hj]
  have hmem : ∀ j r, r ∈ (s'.logs j).accepted →
      r ∈ (s.logs j).accepted ∨ j = i ∧ r = ⟨s.client.seen, id⟩ := by
    intro j r hr
    rw [hlogs] at hr
    by_cases hj : j = i
    · subst hj
      rw [Function.update_self] at hr
      exact (List.mem_append.mp hr).imp_right fun hr => ⟨rfl, List.mem_singleton.mp hr⟩
    · rw [Function.update_of_ne hj] at hr
      exact .inl hr
  have hold : ∀ j r, r ∈ (s.logs j).accepted → r ∈ (s'.logs j).accepted := by
    intro j r hr
    rw [hlogs]
    by_cases hj : j = i
    · subst hj
      rw [Function.update_self]
      exact List.mem_append_left _ hr
    · rwa [Function.update_of_ne hj]
  refine ⟨fun j => ?_, fun j hj => ?_, fun j r hr => ?_, fun j j' r hr r' hr' he => ?_, fun j r hr => ?_,
    fun p hp => ?_, fun m hm => ?_, fun r hr => ?_, ?_, fun j r hr => ?_, ?_⟩
  · rw [hlogs, hhandlers]
    by_cases hj : j = i
    · subst hj
      rw [Function.update_self, Function.update_self]
      exact (h.answers j).serveRequest fun r hr => (h.numbered j r hr).ne
    · rw [Function.update_of_ne hj, Function.update_of_ne hj]
      exact h.answers j
  · rw [hregistered] at hj
    rw [hlogs, Function.update_of_ne (by omega)]
    exact h.blank j hj
  · rw [hseen]
    rcases hmem j r hr with hr | ⟨-, rfl⟩
    · exact Nat.lt_succ_of_lt (h.numbered j r hr)
    · exact Nat.lt_succ_self _
  · rcases hmem j r hr with hr | ⟨hj, rfl⟩ <;> rcases hmem j' r' hr' with hr' | ⟨hj', rfl⟩
    · exact h.owned j j' r hr r' hr' he
    · exact absurd he (h.numbered j r hr).ne
    · exact absurd he.symm (h.numbered j' r' hr').ne
    · rw [hj, hj']
  · rw [hsent]
    rcases hmem j r hr with hr | ⟨-, rfl⟩
    · exact h.accepted j r hr
    · -- nothing was sent about a request that is new
      rw [about_eq_nil fun m hm => (h.old m hm).ne,
        about_eq_nil fun m hm => (h.numbered j _ (h.origin_mem hm)).ne]
  · exact h.empty p fun j r hr => hp j r (hold j r hr)
  · rw [hseen]
    exact Nat.lt_succ_of_lt (h.old m hm)
  · rw [hresponding] at hr
    cases hr
  · rw [hasked, List.length_append, h.count, hseen]
    rfl
  · rw [hasked, hinfos]
    rcases hmem j r hr with hr | ⟨rfl, rfl⟩
    · rw [List.getElem?_append_left (by rw [h.count]; exact h.numbered j r hr)]
      exact h.asked j r hr
    · rw [← h.count, List.getElem?_concat_length, hinfo]
  · intro path j hj
    rw [hcontent] at hj
    rw [hregistered, hinfos]
    exact h.content path j hj

/-- New content. -/
theorem registers (h : s.Ledger C sent) {source : ContentSource} {info : ContentInfo}
    (hlogs : s'.logs = s.logs) (hhandled : s'.handled = s.handled)
    (hhandlers : s'.client.handlers =
      Function.update s.client.handlers s.client.registered (newRequestHandler source info))
    (hregistered : s'.client.registered = s.client.registered + 1)
    (hseen : s'.client.seen = s.client.seen) (hresponding : s'.client.responding = s.client.responding)
    (hcontent : s'.client.content =
      Function.update s.client.content info.path (some s.client.registered)) : s'.Ledger C sent := by
  have hne : ∀ i r, r ∈ (s.logs i).accepted → i ≠ s.client.registered := by
    rintro i r hr rfl
    rw [h.blank _ le_rfl] at hr
    cases hr
  refine ⟨fun i => ?_, fun i hi => ?_, ?_, ?_, ?_, ?_, ?_, ?_, ?_, fun i r hr => ?_, fun path i hi => ?_⟩
  · rw [hlogs, hhandlers]
    by_cases hi : i = s.client.registered
    · subst hi
      rw [Function.update_self, h.blank _ le_rfl]
      exact .init C source info
    · rw [Function.update_of_ne hi]
      exact h.answers i
  · rw [hlogs]
    exact h.blank i (by omega)
  · rw [hlogs, hseen]
    exact h.numbered
  · rw [hlogs]
    exact h.owned
  · rw [hlogs]
    exact h.accepted
  · rw [hlogs]
    exact h.empty
  · rw [hseen]
    exact h.old
  · rw [hlogs, hseen, hresponding]
    exact h.responding
  · rw [hhandled, hseen]
    exact h.count
  · rw [hlogs] at hr
    rw [hhandled, hhandlers, Function.update_of_ne (hne i r hr)]
    exact h.asked i r hr
  · rw [hregistered, hhandlers]
    rw [hcontent, Function.update_apply] at hi
    split at hi
    · rename_i hp
      cases hi
      rw [Function.update_self, hp]
      exact ⟨Nat.lt_succ_self _, rfl⟩
    · obtain ⟨hlt, hinfo⟩ := h.content path i hi
      rw [Function.update_of_ne hlt.ne]
      exact ⟨Nat.lt_succ_of_lt hlt, hinfo⟩

/-- The `EmptyResponse` for a path without content. -/
theorem responds (h : s.Ledger C sent) {r : ServeRequest} (hr : s.client.responding = some r)
    {ok b : Bool} :
    Session.Ledger C ⟨{ s.client with responding := none, restart := b }, s.handled, s.logs⟩
      (sent ++ delivered ok [⟨r.origin, .emptyResponse ⟨r.id⟩⟩]) := by
  obtain ⟨hlt, hnone⟩ := h.responding r hr
  refine ⟨h.answers, h.blank, h.numbered, h.owned, fun i r' hr' => ?_, fun p hp d hd => ?_,
    fun m hm => ?_, fun r' hr' => ?_, h.count, h.asked, h.content⟩
  · have hother : about r'.origin (delivered ok [⟨r.origin, .emptyResponse ⟨r.id⟩⟩]) = [] := by
      refine about_eq_nil fun m hm => ?_
      rw [List.mem_singleton.mp (mem_of_mem_delivered hm)]
      exact (hnone i r' hr').symm
    rw [about_append, hother, List.append_nil]
    exact h.accepted i r' hr'
  · rw [about_append] at hd
    rcases List.mem_append.mp hd with hd | hd
    · exact h.empty p hp d hd
    · obtain ⟨m, hm, rfl⟩ := List.mem_map.mp hd
      rw [List.mem_singleton.mp (mem_of_mem_delivered (List.mem_of_mem_filter hm))]
      exact ⟨_, rfl⟩
  · rcases List.mem_append.mp hm with hm | hm
    · exact h.old m hm
    · rw [List.mem_singleton.mp (mem_of_mem_delivered hm)]
      exact hlt
  · cases hr'

/-- `on_request`. -/
theorem request (h : s.Ledger C sent) {id : UInt64} {path : String} {limited ok : Bool}
    (hidle : s.client.responding = none) :
    Session.Ledger C ⟨s.client.onRequest id path limited, s.handled ++ [.request id path],
      s.client.record s.logs [] (.message (.request id path) limited ok)⟩ sent := by
  have hrefused : ∀ {c' : Client} {logs : ℕ → HandlerLog}, logs = s.logs →
      c'.handlers = s.client.handlers → c'.registered = s.client.registered →
      c'.seen = s.client.seen + 1 → c'.responding = none → c'.content = s.client.content →
      Session.Ledger C ⟨c', s.handled ++ [.request id path], logs⟩ sent := by
    intro c' logs hlogs h1 h2 h3 h4 h5
    refine h.refuses hlogs rfl h1 h2 h3 (fun r hr => ?_) h5
    change c'.responding = some r at hr
    rw [h4] at hr
    cases hr
  simp only [Client.record, Client.onRequest]
  by_cases hused : (s.client.requests id).isSome = true
  · simp only [hused, if_true, true_or]
    refine hrefused ?_ rfl rfl rfl hidle rfl
    cases s.client.content path <;> rfl
  by_cases hlimited : limited = true
  · simp only [hused, hlimited, if_true, or_true, if_false, Bool.false_eq_true]
    refine hrefused ?_ rfl rfl rfl hidle rfl
    cases s.client.content path <;> rfl
  simp only [hused, hlimited, if_false, or_self, Bool.false_eq_true]
  cases hpath : s.client.content path with
  | none =>
      refine h.refuses rfl rfl rfl rfl rfl (fun r hr => ?_) rfl
      cases hr
      rfl
  | some i => exact h.accepts hpath rfl rfl rfl rfl rfl hidle rfl

/-- **Every step of the client keeps the books.** -/
theorem step {k : Constraints} {e : ClientEvent} {c' : Client} (h : s.Ledger k.chunkSize.toNat sent)
    (hreq : ∀ id i f, s.client.requests id = some (i, f) → i < s.client.registered)
    (hc : s.client.step k e = some (c', out)) :
    Session.Ledger k.chunkSize.toNat ⟨c', s.handled ++ e.handled, s.client.record s.logs out e⟩
      (sent ++ out) := by
  -- nothing happens
  have hidle : Session.Ledger k.chunkSize.toNat ⟨s.client, s.handled ++ [], s.logs⟩ (sent ++ []) := by
    rw [List.append_nil sent]
    exact h.idle (l := []) rfl rfl rfl rfl rfl rfl rfl fun _ _ hi => hi
  cases e with
  | message m limited ok =>
      simp only [Client.step] at hc
      split at hc
      · rename_i hready
        have hresp : s.client.responding = none := by simpa using hready.2
        cases m with
        | request id path =>
            cases hc
            rw [List.append_nil]
            exact h.request hresp
        | success id =>
            cases hc
            obtain ⟨h1, h2, h3, -, h5⟩ := s.client.callServedCallback_same id
            rw [List.append_nil]
            refine h.idle (l := [.success id]) rfl rfl rfl h1 h3 h5 ?_ fun path i hi => ?_
            · change (s.client.callServedCallback id).responding = _
              rw [Client.callServedCallback_eq]
            · change (s.client.callServedCallback id).content path = some i at hi
              rwa [h2] at hi
        | requestClosed id msg =>
            simp only [Client.handleMessage, Client.onRequestClosed] at hc
            cases hentry : s.client.requests id with
            | none =>
                simp only [hentry] at hc
                cases hc
                simp only [Client.record, hentry, List.append_nil]
                exact h.idle (l := [.requestClosed id msg]) rfl rfl rfl rfl rfl rfl rfl
                  fun _ _ hi => hi
            | some x =>
                obtain ⟨i, f⟩ := x
                simp only [hentry] at hc
                obtain ⟨b, hsend⟩ := Client.send_eq _ _ ok
                rw [hsend] at hc
                cases hc
                simp only [Client.record, hentry]
                refine h.acts ((h.answers i).cancelRequest id ok) ?_ (hreq id i f hentry) rfl
                  (l := [.requestClosed id msg]) rfl rfl rfl rfl rfl rfl rfl
                exact (Answering.cancelRequest (h.answers i) id ok (fun _ _ _ => trivial)
                  fun _ _ _ _ => trivial).hasInfo
      · cases hc
  | emptyResponse ok =>
      obtain ⟨r, hr, heq⟩ := Option.map_eq_some_iff.mp hc
      obtain ⟨b, hsend⟩ := Client.send_eq _ _ ok
      rw [hsend] at heq
      cases heq
      simp only [ClientEvent.handled, List.append_nil]
      exact h.responds hr
  | register source info =>
      simp only [Client.step] at hc
      split at hc
      · split at hc
        · cases hc
          exact hidle
        · rename_i c' heq
          cases hc
          rw [Client.registerContent_eq_ok heq, List.append_nil]
          exact h.registers rfl (List.append_nil _) rfl rfl rfl rfl rfl
      · cases hc
  | unregister path =>
      simp only [Client.step] at hc
      split at hc
      · cases hc
        unfold Client.unregisterContent
        split
        · exact hidle
        · rename_i i hpath
          split
          · exact hidle
          · rename_i h' he
            have hans := (h.answers i).exitGracefully he
            have hlog : HandlerLog.mk (s.logs i).accepted ((s.logs i).sent ++ []) (s.logs i).called =
                s.logs i := by rw [List.append_nil]
            rw [← hlog] at hans
            refine h.acts hans ?_ (h.content path i hpath).1 ?_ (l := []) rfl rfl rfl rfl rfl rfl rfl
            · exact (Answering.exitGracefully (h.answers i) (fun _ _ => trivial) he).hasInfo
            · rw [hlog, Function.update_eq_self]
              rfl
      · cases hc
  | unregistered =>
      obtain ⟨c'', hc', heq⟩ := Option.map_eq_some_iff.mp hc
      cases heq
      obtain ⟨path, -, hc'⟩ := Option.bind_eq_some_iff.mp hc'
      obtain ⟨i, -, hc'⟩ := Option.bind_eq_some_iff.mp hc'
      split at hc' <;> cases hc'
      rw [List.append_nil]
      refine h.idle (l := []) rfl rfl rfl rfl rfl rfl rfl fun path' j hj => ?_
      change Function.update s.client.content path none path' = some j at hj
      rw [Function.update_apply] at hj
      split at hj
      · cases hj
      · exact hj
  | serve i ok =>
      simp only [Client.step] at hc
      split at hc
      · rename_i hi
        obtain ⟨h', out₁, b, hserve, rfl, rfl⟩ := Client.serveStep_eq_some hc
        have hans := (h.answers i).serve
          ((s.logs i).called ++ (s.client.handlers i).point.calls.toList) hserve
        obtain ⟨h1, h2, h3, -, h5⟩ :=
          (s.client.put i h').afterCall_same (s.client.handlers i).point.calls
        refine h.acts hans ?_ hi rfl (l := []) rfl rfl h1 h3 h5 ?_ h2
        · exact (Answering.serve rfl (h.answers i) hserve fun _ _ _ => trivial).hasInfo
        · cases (s.client.handlers i).point.calls with
          | none => rfl
          | some r =>
              change ((s.client.put i h').callServedCallback r.id).responding = _
              rw [Client.callServedCallback_eq]
              rfl
      · cases hc

theorem init (C : ℕ) : Session.init.Ledger C [] := by
  refine ⟨fun i => .init C _ _, fun i _ => rfl, ?_, ?_, ?_, ?_, ?_, ?_, rfl, ?_, ?_⟩
  · rintro i r ⟨⟩
  · rintro i j r ⟨⟩
  · rintro i r ⟨⟩
  · rintro p - d ⟨⟩
  · rintro m ⟨⟩
  · rintro r ⟨⟩
  · rintro i r ⟨⟩
  · rintro path i ⟨⟩

/-- **The messages about a request that a handler has accepted**: the header and some chunks of its
content, or nothing, and then perhaps a `CloseResponse`. -/
theorem messages (h : s.Ledger C sent) {r : ServeRequest} (hr : r ∈ (s.logs i).accepted) :
    ∃ l close, about r.origin sent = l ++ close ∧ (close = [] ∨ close = [.closeResponse ⟨r.id⟩]) ∧
      (l = [] ∨ ∃ k ≤ (s.client.handlers i).source.chunks C,
        l = responseUpTo C (s.client.handlers i).source (s.client.handlers i).info r k) := by
  have hans := h.answers i
  rw [h.accepted i r hr]
  by_cases hopen : r ∈ (s.client.handlers i).openRequests
  · refine ⟨_, [], (List.append_nil _).symm, .inl rfl, ?_⟩
    rcases RequestHandler.mem_openRequests.mp hopen with hhand | hwait
    · exact (hans.progress r hhand).upTo hhand
    · exact .inl (hans.books.fresh r hwait)
  · rcases Answering.ended hans hr hopen with
      (hwhole | ⟨-, hcut | ⟨k, hk, hcut, -⟩ | ⟨k, hk, hcut, -⟩⟩) | ⟨-, hbroken⟩
    · exact ⟨_, [], (List.append_nil _).symm, .inl rfl, .inr ⟨_, le_rfl, hwhole⟩⟩
    · exact ⟨[], _, rfl, .inr hcut, .inl rfl⟩
    · exact ⟨_, _, hcut, .inr rfl, .inr ⟨k, hk, rfl⟩⟩
    · exact ⟨_, [], (List.append_nil _).symm, .inl rfl, .inr ⟨k, hk, hcut⟩⟩
    · exact ⟨_, [], (List.append_nil _).symm, .inl rfl, hbroken.imp_right And.right⟩

/-- **A handler keeps its source**, and has it from the registration. -/
theorem registration {k : Constraints} {e : ClientEvent} (h : s.Ledger k.chunkSize.toNat sent)
    (hs : Session.Steps k s e s') {i : ℕ} (hi : i < s'.client.registered) :
    (i < s.client.registered ∧ (s'.client.handlers i).source = (s.client.handlers i).source ∧
      (s'.client.handlers i).info = (s.client.handlers i).info) ∨
    e = .register (s'.client.handlers i).source (s'.client.handlers i).info := by
  -- the handler `j` becomes `h'`
  have hput : ∀ {j : ℕ} {h' : RequestHandler}, s'.client.registered = s.client.registered →
      s'.client.handlers = Function.update s.client.handlers j h' →
      h'.source = (s.client.handlers j).source → h'.info = (s.client.handlers j).info →
      i < s.client.registered ∧ (s'.client.handlers i).source = (s.client.handlers i).source ∧
        (s'.client.handlers i).info = (s.client.handlers i).info := by
    intro j h' hreg hhandlers h1 h2
    rw [hreg] at hi
    rw [hhandlers]
    by_cases hij : i = j
    · subst hij
      rw [Function.update_self]
      exact ⟨hi, h1, h2⟩
    · rw [Function.update_of_ne hij]
      exact ⟨hi, rfl, rfl⟩
  cases hs with
  | quiet | refused | unknown | unregistered => exact .inl ⟨hi, rfl, rfl⟩
  | @accepted id path limited ok j =>
      refine .inl (hput (j := j) rfl rfl ?_ ?_)
      · unfold RequestHandler.serveRequest
        split <;> rfl
      · unfold RequestHandler.serveRequest
        split <;> rfl
  | @succeeded id =>
      obtain ⟨h1, -, h3, -⟩ := s.client.callServedCallback_same id
      refine .inl ⟨by rwa [h3] at hi, ?_, ?_⟩
      · exact congrArg RequestHandler.source (congrFun h1 i)
      · exact congrArg RequestHandler.info (congrFun h1 i)
  | @closed id msg limited ok f b j =>
      have hans := Answering.cancelRequest (h.answers j) id ok (fun _ _ _ => trivial)
        fun _ _ _ _ => trivial
      exact .inl (hput (j := j) rfl rfl hans.hasSource hans.hasInfo)
  | @registers source info =>
      by_cases hnew : i = s.client.registered
      · right
        subst hnew
        simp [Client.put, newRequestHandler]
      · have hlt : i < s.client.registered := by
          change i < s.client.registered + 1 at hi
          omega
        have hsame : Function.update s.client.handlers s.client.registered
            (newRequestHandler source info) i = s.client.handlers i := Function.update_of_ne hnew _ _
        exact .inl ⟨hlt, congrArg RequestHandler.source hsame, congrArg RequestHandler.info hsame⟩
  | @unregisters path j h' _ _ he =>
      have hans := Answering.exitGracefully (h.answers j) (fun _ _ => trivial) he
      exact .inl (hput (j := j) rfl rfl hans.hasSource hans.hasInfo)
  | @serves j h' out ok b _ hserve =>
      have hans := Answering.serve rfl (h.answers j) hserve fun _ _ _ => trivial
      obtain ⟨h1, -, h3, -⟩ :=
        (s.client.put j h').afterCall_same (s.client.handlers j).point.calls
      exact .inl (hput (j := j) h3 h1 hans.hasSource hans.hasInfo)

end Session.Ledger

/-! ## Empty responses -/

section Empty

variable {k : Constraints} {c c' : Client} {e : ClientEvent} {out : List Outgoing} {m : Outgoing}

/-- Whether the message is an `EmptyResponse`. -/
def ClientData.isEmpty : ClientData → Bool
  | .emptyResponse _ => true
  | _ => false

theorem RequestHandler.nextIteration_isEmpty {h : RequestHandler} (r : ServeRequest) :
    ∀ m ∈ (h.nextIteration r true).2, m.data.isEmpty = false := by
  intro m hm
  simp only [RequestHandler.nextIteration, RequestHandler.closing] at hm
  split at hm
  · split at hm
    · rw [List.mem_singleton.mp hm]
      rfl
    · cases hm
  · cases hm

theorem RequestHandler.finish_isEmpty {h : RequestHandler} (r : ServeRequest) (total : ℕ) :
    ∀ m ∈ (h.finish r total true).2, m.data.isEmpty = false := by
  unfold RequestHandler.finish
  split
  · exact nextIteration_isEmpty r
  · exact nextIteration_isEmpty r

/-- A request handler never sends an empty response. -/
theorem RequestHandler.serve_isEmpty {h h' : RequestHandler} {chunkSize : UInt64} {ok : Bool}
    (hs : h.serve chunkSize ok = some (h', out)) (hm : m ∈ delivered ok out) :
    m.data.isEmpty = false := by
  obtain ⟨hs, hout⟩ : h.serve chunkSize true = some (h', out) ∧ delivered ok out = out := by
    refine (RequestHandler.serve_cases hs).resolve_right ?_
    rintro ⟨rfl, -⟩
    cases hm
  rw [hout] at hm
  unfold RequestHandler.serve at hs
  cases hp : h.point with
  | waiting =>
      simp only [hp] at hs
      split at hs <;> cases hs
      cases hm
  | header r =>
      simp only [hp] at hs
      cases hs
      rw [List.mem_singleton.mp hm]
      rfl
  | headerSent r =>
      simp only [hp] at hs
      split at hs
      · obtain ⟨-, rfl⟩ := Prod.mk.inj (Option.some.inj hs)
        exact nextIteration_isEmpty r m hm
      · split at hs <;> cases hs <;> cases hm
  | chunk r sequence total data stream =>
      simp only [hp] at hs
      cases hs
      rw [List.mem_singleton.mp hm]
      rfl
  | chunkSent r sequence total stream =>
      simp only [hp] at hs
      split at hs
      · obtain ⟨-, rfl⟩ := Prod.mk.inj (Option.some.inj hs)
        exact finish_isEmpty r total m hm
      · split at hs <;> cases hs <;> cases hm
  | callback r total =>
      simp only [hp] at hs
      cases hs
      cases hm
  | called r total =>
      simp only [hp] at hs
      obtain ⟨-, rfl⟩ := Prod.mk.inj (Option.some.inj hs)
      exact finish_isEmpty r total m hm
  | done =>
      simp only [hp] at hs
      cases hs

/-- **The client sends an empty response only for a request that waits for one.** -/
theorem Client.empty_of_step (hc : c.step k e = some (c', out)) (hm : m ∈ out)
    (hempty : m.data.isEmpty = true) : ∃ r, c.responding = some r ∧ r.origin = m.origin := by
  have hno : ∀ {l : List Outgoing}, out = l → (∀ m ∈ l, m.data.isEmpty = false) → False := by
    rintro l rfl hl
    rw [hl m hm] at hempty
    cases hempty
  have hnil : out = [] → False := fun h => hno h (by rintro m ⟨⟩)
  cases e with
  | message msg limited ok =>
      simp only [Client.step] at hc
      split at hc
      · cases msg with
        | request id path =>
            cases hc
            exact (hnil rfl).elim
        | success id =>
            cases hc
            exact (hnil rfl).elim
        | requestClosed id text =>
            simp only [Client.handleMessage, Client.onRequestClosed] at hc
            cases hentry : c.requests id with
            | none =>
                simp only [hentry] at hc
                cases hc
                exact (hnil rfl).elim
            | some x =>
                obtain ⟨i, f⟩ := x
                simp only [hentry] at hc
                obtain ⟨b, hsend⟩ := Client.send_eq _ _ ok
                rw [hsend] at hc
                cases hc
                refine (hno rfl fun m hm => ?_).elim
                have hm := mem_of_mem_delivered hm
                rcases (c.handlers i).cancelRequest_cases id with
                  ⟨heq, -⟩ | ⟨-, -, heq⟩ | ⟨-, -, _, _, _, -, -, heq⟩ <;> rw [heq] at hm
                · cases hm
                · cases hm
                · rw [List.mem_singleton.mp hm]
                  rfl
      · cases hc
  | emptyResponse ok =>
      obtain ⟨r, hr, heq⟩ := Option.map_eq_some_iff.mp hc
      obtain ⟨b, hsend⟩ := Client.send_eq _ _ ok
      rw [hsend] at heq
      cases heq
      rw [List.mem_singleton.mp (mem_of_mem_delivered hm)]
      exact ⟨r, hr, rfl⟩
  | register source info =>
      simp only [Client.step] at hc
      split at hc
      · split at hc <;> cases hc <;> exact (hnil rfl).elim
      · cases hc
  | unregister path =>
      simp only [Client.step] at hc
      split at hc <;> cases hc
      exact (hnil rfl).elim
  | unregistered =>
      obtain ⟨c'', -, heq⟩ := Option.map_eq_some_iff.mp hc
      cases heq
      exact (hnil rfl).elim
  | serve i ok =>
      simp only [Client.step] at hc
      split at hc
      · obtain ⟨h', out₁, b, hserve, rfl, -⟩ := Client.serveStep_eq_some hc
        exact (hno rfl fun m hm => RequestHandler.serve_isEmpty hserve hm).elim
      · cases hc

/-- **A request waits for an empty response only if there is no content for its path.** -/
theorem Client.responding_of_step (hc : c.step k e = some (c', out)) {r : ServeRequest}
    (hr : c'.responding = some r) : c.responding = some r ∨ ∃ id path limited ok,
      e = .message (.request id path) limited ok ∧ r.origin = c.seen ∧ c.content path = none := by
  cases e with
  | message msg limited ok =>
      simp only [Client.step] at hc
      split at hc
      · cases msg with
        | request id path =>
            cases hc
            change (c.onRequest id path limited).responding = _ at hr
            simp only [Client.onRequest] at hr
            split at hr
            · exact .inl hr
            split at hr
            · exact .inl hr
            split at hr
            · rename_i hnone
              cases hr
              exact .inr ⟨id, path, limited, ok, rfl, rfl, hnone⟩
            · exact .inl hr
        | success id =>
            cases hc
            change (c.callServedCallback id).responding = _ at hr
            rw [Client.callServedCallback_eq] at hr
            exact .inl hr
        | requestClosed id text =>
            simp only [Client.handleMessage, Client.onRequestClosed] at hc
            split at hc
            · cases hc
              exact .inl hr
            · obtain ⟨b, hsend⟩ := Client.send_eq _ _ ok
              rw [hsend] at hc
              cases hc
              exact .inl hr
      · cases hc
  | emptyResponse ok =>
      obtain ⟨r', -, heq⟩ := Option.map_eq_some_iff.mp hc
      obtain ⟨b, hsend⟩ := Client.send_eq _ _ ok
      rw [hsend] at heq
      cases heq
      cases hr
  | register source info =>
      simp only [Client.step] at hc
      split at hc
      · split at hc
        · cases hc
          exact .inl hr
        · rename_i heq
          cases hc
          rw [Client.registerContent_eq_ok heq] at hr
          exact .inl hr
      · cases hc
  | unregister path =>
      simp only [Client.step] at hc
      split at hc
      · cases hc
        unfold Client.unregisterContent at hr
        split at hr
        · exact .inl hr
        · split at hr <;> exact .inl hr
      · cases hc
  | unregistered =>
      obtain ⟨c'', hc', heq⟩ := Option.map_eq_some_iff.mp hc
      cases heq
      obtain ⟨path, -, hc'⟩ := Option.bind_eq_some_iff.mp hc'
      obtain ⟨i, -, hc'⟩ := Option.bind_eq_some_iff.mp hc'
      split at hc' <;> cases hc'
      exact .inl hr
  | serve i ok =>
      simp only [Client.step] at hc
      split at hc
      · obtain ⟨h', out₁, b, -, -, rfl⟩ := Client.serveStep_eq_some hc
        left
        cases hcalls : (c.handlers i).point.calls with
        | none =>
            rw [hcalls] at hr
            exact hr
        | some r' =>
            rw [hcalls] at hr
            change ((c.put i h').callServedCallback r'.id).responding = _ at hr
            rw [Client.callServedCallback_eq] at hr
            exact hr
      · cases hc

end Empty

end Loon
