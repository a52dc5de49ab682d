import Mathlib.Data.Set.Insert
import Loon.Client.Graceful
import Loon.Client.ServeSteps

set_option autoImplicit false

/-!
# Callbacks of the request handler

The callback of a request against what was sent and what was cancelled, for one handler among others.

* `AllSent`: the header and all chunks of the stream were sent;
* `Turn`: what a step of the client is for one of its handlers;
* `Working`, **`Working.turn`**: a callback is run once, and only after everything was sent;
* `Punctual`, `Punctual.turn`: no cancellation comes between the decision to run a callback and its
  run;
* `Complete`, **`Complete.turn`**: no callback is left out, unless the handler is stopped when there
  is nothing left to read.
-/

namespace Loon

open Chunking

/-- What a handler has done: the requests it was given, what it sent, and the callbacks it ran. -/
structure HandlerLog where
  accepted : List ServeRequest
  sent : List Outgoing
  called : List ServeRequest

/-- The log of a new handler. -/
def HandlerLog.empty : HandlerLog := ⟨[], [], []⟩

/-! ## What was sent -/

section Sent

variable (C : ℕ) (source : ContentSource) (info : ContentInfo) (r : ServeRequest)

/-- The header and all chunks of the response were sent. -/
def AllSent (sent : List Outgoing) : Prop :=
  responseUpTo C source info r (source.chunks C) <+: about r.origin sent

variable {C source info r} {sent : List Outgoing}

theorem AllSent.append (h : AllSent C source info r sent) (out : List Outgoing) :
    AllSent C source info r (sent ++ out) := by
  rw [AllSent, about_append]
  exact h.trans (List.prefix_append _ _)

theorem closeResponse_notMem_responseUpTo {k : ℕ} {m : CloseResponse} :
    .closeResponse m ∉ responseUpTo C source info r k := by
  intro hm
  rcases List.mem_cons.mp hm with hm | hm
  · cases hm
  · obtain ⟨i, -, hi⟩ := List.mem_map.mp hm
    cases hi

/-- The close of a response does not complete one. -/
theorem AllSent.of_close {m : Outgoing} {d : CloseResponse} (hm : m.data = .closeResponse d)
    (h : AllSent C source info r (sent ++ [m])) : AllSent C source info r sent := by
  by_cases ho : m.origin = r.origin
  · rw [AllSent, about_send_self ho, List.prefix_concat_iff] at h
    refine h.resolve_left fun heq => ?_
    have hmem : .closeResponse d ∈ responseUpTo C source info r (source.chunks C) := by
      rw [heq, ← hm]
      simp
    exact closeResponse_notMem_responseUpTo hmem
  · rw [AllSent, about_send ho] at h
    exact h

theorem AllSent.of_closes {r' : ServeRequest} {out : List Outgoing}
    (hout : ∀ m ∈ out, ∃ id, m = ⟨r'.origin, .closeResponse ⟨id⟩⟩)
    (h : AllSent C source info r (sent ++ out)) : AllSent C source info r sent := by
  induction out generalizing sent with
  | nil => rwa [List.append_nil] at h
  | cons m out ih =>
      rw [← List.singleton_append, ← List.append_assoc] at h
      have hrest := ih (fun m' hm' => hout m' (List.mem_cons_of_mem m hm')) h
      obtain ⟨id, rfl⟩ := hout m List.mem_cons_self
      exact hrest.of_close rfl

/-- Nor does what is sent about another request. -/
theorem AllSent.of_ne {out : List Outgoing} (hout : ∀ m ∈ out, m.origin ≠ r.origin)
    (h : AllSent C source info r (sent ++ out)) : AllSent C source info r sent := by
  have hnone : about r.origin out = [] := by
    unfold about
    rw [List.map_eq_nil_iff, List.filter_eq_nil_iff]
    intro m hm
    rw [decide_eq_true_eq]
    exact hout m hm
  rwa [AllSent, about_append, hnone, List.append_nil] at h

/-- A response of `k` chunks is complete only with all of them. -/
theorem AllSent.eq_chunks (h : AllSent C source info r sent) {k : ℕ}
    (hk : k ≤ source.chunks C) (hsent : about r.origin sent = responseUpTo C source info r k) :
    k = source.chunks C := by
  have hlen := h.length_le
  rw [hsent] at hlen
  simp only [responseUpTo, List.length_cons, List.length_map, List.length_range] at hlen
  omega

end Sent

section Spent

variable {C : ℕ} {source : ContentSource} {info : ContentInfo} {r : ServeRequest}
  {q lost : ServeRequest → Prop} {accepted : List ServeRequest} {sent : List Outgoing}
  {h : RequestHandler}

/-- Before the header or a chunk is sent, not everything was. -/
theorem Answering.not_allSent (h' : Answering C source info q lost accepted sent h)
    (hr : h.point.request = some r) (hsends : h.point.sends = true) :
    ¬ AllSent C source info r sent := by
  intro hall
  have htrail := h'.progress r hr
  cases hp : h.point with
  | header =>
      rw [hp] at htrail
      have hlen := hall.length_le
      rw [show about r.origin sent = [] from htrail] at hlen
      cases hlen
  | chunk =>
      rw [hp] at htrail hr
      cases hr
      obtain ⟨k, hk, -, -, -, -, hsent⟩ := htrail
      have := hall.eq_chunks hk.le hsent
      omega
  | _ =>
      rw [hp] at hsends
      cases hsends

/-- If everything was sent before the callback, there is nothing left to read. -/
theorem Answering.spent (h' : Answering C source info q lost accepted sent h)
    (hr : h.point.request = some r) (hlate : h.point.late = false)
    (hall : AllSent C source info r sent) : h.spent C := by
  have hread : ∀ k, ¬ k < source.chunks C → (source.data.drop (k * C)).take C = [] := by
    intro k hk
    by_contra hne
    exact hk (lt_pieces_iff_ne_nil.mpr hne)
  have htrail := h'.progress r hr
  have hsource := h'.hasSource
  have hsends := fun hs => h'.not_allSent hr hs hall
  unfold RequestHandler.spent
  cases hp : h.point with
  | waiting | done =>
      rw [hp] at hr
      cases hr
  | header | chunk => exact absurd (by rw [hp]; rfl) hsends
  | headerSent =>
      rw [hp] at htrail hr
      cases hr
      have hnone := hall.eq_chunks (Nat.zero_le _) htrail
      have hdata := hread 0 (by omega)
      rw [Nat.zero_mul, List.drop_zero] at hdata
      rw [hsource]
      exact hdata
  | chunkSent =>
      rw [hp] at htrail hr
      cases hr
      obtain ⟨k, hk, -, -, rfl, hsent⟩ := htrail
      have hlast := hall.eq_chunks hk hsent
      exact hread (k + 1) (by omega)
  | callback | called =>
      rw [hp] at hlate
      cases hlate

end Spent

/-! ## Turns -/

/-- What a step of the client is for one of its handlers: nothing, one of the calls of other
threads, a step of the serve thread, or the start of it. The ids that the server has closed may grow
meanwhile. -/
inductive Turn (chunkSize : UInt64) (closed : Set UInt64) (log : HandlerLog) (h : RequestHandler) :
    Option HandlingEvent → Set UInt64 → HandlerLog → RequestHandler → Prop where
  | rests {closed' : Set UInt64} (hc : ∀ r ∈ log.accepted, r.id ∈ closed' ↔ r.id ∈ closed) :
      Turn chunkSize closed log h none closed' log h
  | accepts {r : ServeRequest}
      (hnew : ∀ r' ∈ log.accepted, r'.origin ≠ r.origin ∧ r'.id ≠ r.id) (hid : r.id ∉ closed) :
      Turn chunkSize closed log h (some (.serveRequest r.id)) closed
        { log with accepted := log.accepted ++ [r] } (h.serveRequest r)
  | cancels {id : UInt64} {ok : Bool} :
      Turn chunkSize closed log h (some (.cancelRequest id ok)) (insert id closed)
        { log with sent := log.sent ++ delivered ok (h.cancelRequest id).2 } (h.cancelRequest id).1
  | exits {h' : RequestHandler} (he : h.exitGracefully = .ok h') :
      Turn chunkSize closed log h (some .exitGracefully) closed log h'
  | serves {h' : RequestHandler} {out : List Outgoing} {ok : Bool}
      (hs : h.serve chunkSize ok = some (h', out)) :
      Turn chunkSize closed log h (some (.serve ok)) closed
        ⟨log.accepted, log.sent ++ delivered ok out, log.called ++ h.point.calls.toList⟩ h'
  | spawned (source : ContentSource) (info : ContentInfo) (hlog : log = .empty) :
      Turn chunkSize closed log h none closed log (newRequestHandler source info)

section Working

variable (C : ℕ) (source : ContentSource) (info : ContentInfo)

/-- **The callbacks of a handler**: each is run at its place in the iteration, after everything was
sent; and a request that the server has closed is marked before its callback. -/
structure Working (closed : Set UInt64) (log : HandlerLog) (h : RequestHandler) : Prop where
  answering : Answering C source info (fun _ => True) (fun _ => True) log.accepted log.sent h
  ids : ∀ r ∈ log.accepted, ∀ r' ∈ log.accepted, r.id = r'.id → r = r'
  called : ∀ r ∈ log.called, r ∈ log.accepted ∧ AllSent C source info r log.sent ∧
    (r ∈ h.openRequests → h.point.reported = some r)
  reported : ∀ r, h.point.reported = some r → r ∈ log.called
  waiting : h.isDone = false → ∀ r ∈ h.pendingRequests, r.id ∉ closed
  marked : ∀ r, h.point.request = some r → r.id ∈ closed →
    h.cancelHandlingRequest = true ∨ h.point.late = true

/-- No callback was left out of those that may be run. -/
structure Complete (closed : Set UInt64) (log : HandlerLog) (h : RequestHandler) : Prop where
  unspent : h.cancelHandlingRequest = true → ∀ r, h.point.request = some r → r.id ∉ closed →
    ¬ h.spent C
  finished : ∀ r ∈ log.accepted, r ∉ h.openRequests → r.id ∉ closed →
    AllSent C source info r log.sent → r ∈ log.called

/-- The callback that is about to be run is not that of a closed request. -/
def Punctual (closed : Set UInt64) (h : RequestHandler) : Prop :=
  ∀ r, h.point.calls = some r → r.id ∉ closed

variable {C source info} {closed closed' : Set UInt64} {log log' : HandlerLog} {h h' : RequestHandler}
  {r : ServeRequest} {chunkSize : UInt64} {l : Option HandlingEvent}

theorem Working.own (hw : Working C source info closed log h) :
    Working C h.source h.info closed log h := by
  obtain rfl := hw.answering.hasSource
  obtain rfl := hw.answering.hasInfo
  exact hw

/-- A request that is open is not closed by the server, or its callback is out of reach. -/
theorem Working.notMem_pending (hw : Working C source info closed log h)
    (hr : h.point.request = some r) : r ∉ h.pendingRequests := (hw.answering.request_books hr).notMem

theorem Working.mem_accepted (hw : Working C source info closed log h) (hr : r ∈ h.openRequests) :
    r ∈ log.accepted := hw.answering.books.opens.subset hr

/-- A callback that is about to be run was not run before. -/
theorem Working.notMem_called (hw : Working C source info closed log h)
    (hr : h.point.calls = some r) : r ∉ log.called := by
  obtain ⟨hreq, hno, -⟩ := ServePoint.request_of_calls hr
  intro hc
  have hrep := (hw.called r hc).2.2 (RequestHandler.mem_openRequests.mpr (.inl hreq))
  rw [hno] at hrep
  cases hrep

/-! ### Each turn -/

theorem Working.rests (hw : Working C source info closed log h)
    (hc : ∀ r ∈ log.accepted, r.id ∈ closed' ↔ r.id ∈ closed) :
    Working C source info closed' log h := by
  refine ⟨hw.answering, hw.ids, hw.called, hw.reported, fun hd r hr => ?_,
    fun r hr hcl => ?_⟩
  · rw [hc r (hw.mem_accepted (RequestHandler.mem_openRequests.mpr (.inr hr)))]
    exact hw.waiting hd r hr
  · rw [hc r (hw.mem_accepted (RequestHandler.mem_openRequests.mpr (.inl hr)))] at hcl
    exact hw.marked r hr hcl

theorem Working.serveRequest (hw : Working C source info closed log h)
    (hnew : ∀ r' ∈ log.accepted, r'.origin ≠ r.origin ∧ r'.id ≠ r.id) (hid : r.id ∉ closed) :
    Working C source info closed { log with accepted := log.accepted ++ [r] } (h.serveRequest r) := by
  have hans := hw.answering.serveRequest (fun r' hr' => (hnew r' hr').1) fun _ => trivial
  have hnot : r ∉ log.accepted := fun hr => (hnew r hr).1 rfl
  have hids : ∀ r₁ ∈ log.accepted ++ [r], ∀ r₂ ∈ log.accepted ++ [r], r₁.id = r₂.id → r₁ = r₂ := by
    intro r₁ h₁ r₂ h₂ he
    rcases List.mem_append.mp h₁ with h₁ | h₁ <;> rcases List.mem_append.mp h₂ with h₂ | h₂
    · exact hw.ids r₁ h₁ r₂ h₂ he
    · rw [List.mem_singleton.mp h₂] at he
      exact absurd he (hnew r₁ h₁).2
    · rw [List.mem_singleton.mp h₁] at he
      exact absurd he.symm (hnew r₂ h₂).2
    · rw [List.mem_singleton.mp h₁, List.mem_singleton.mp h₂]
  unfold RequestHandler.serveRequest at hans ⊢
  split at hans
  · rename_i hd
    rw [if_pos hd]
    refine ⟨hans, hids, fun r' hr' => ?_, hw.reported, hw.waiting, hw.marked⟩
    obtain ⟨hmem, hrest⟩ := hw.called r' hr'
    exact ⟨List.mem_append_left _ hmem, hrest⟩
  rename_i hd
  rw [if_neg hd]
  refine ⟨hans, hids, fun r' hr' => ?_, hw.reported, fun _ r' hr' => ?_, hw.marked⟩
  · obtain ⟨hmem, hall, hrep⟩ := hw.called r' hr'
    refine ⟨List.mem_append_left _ hmem, hall, fun hopen => hrep ?_⟩
    rcases RequestHandler.mem_openRequests.mp hopen with hopen | hopen
    · exact RequestHandler.mem_openRequests.mpr (.inl hopen)
    · rcases List.mem_append.mp hopen with hopen | hopen
      · exact RequestHandler.mem_openRequests.mpr (.inr hopen)
      · rw [List.mem_singleton.mp hopen] at hmem
        exact absurd hmem hnot
  · rcases List.mem_append.mp hr' with hr' | hr'
    · exact hw.waiting (by simpa using hd) r' hr'
    · rw [List.mem_singleton.mp hr']
      exact hid

theorem Working.cancelRequest (hw : Working C source info closed log h) (id : UInt64) (ok : Bool) :
    Working C source info (insert id closed)
      { log with sent := log.sent ++ delivered ok (h.cancelRequest id).2 } (h.cancelRequest id).1 := by
  have hans := hw.answering.cancelRequest id ok (fun _ _ _ => trivial) fun _ _ _ _ => trivial
  -- No other open request has the id of the one that is cancelled.
  have hother : ∀ r ∈ h.openRequests, r.id = id → ∀ r' ∈ h.openRequests, r'.id = id → r' = r := by
    intro r hr he r' hr' he'
    exact hw.ids r' (hw.mem_accepted hr') r (hw.mem_accepted hr) (he'.trans he.symm)
  have hin : ∀ r, h.point.request = some r → r ∈ h.openRequests := fun r hr =>
    RequestHandler.mem_openRequests.mpr (.inl hr)
  have hwait : ∀ r ∈ h.pendingRequests, r ∈ h.openRequests := fun r hr =>
    RequestHandler.mem_openRequests.mpr (.inr hr)
  have hhand : ∀ r, h.point.request = some r → h.handlingRequestId ≠ some id → r.id ≠ id := by
    intro r hr hne he
    rw [hw.answering.handling, hr] at hne
    exact hne (congrArg some he)
  rcases h.cancelRequest_cases id with ⟨heq, hno⟩ | ⟨hd, hid, heq⟩ | ⟨hd, hid, r, a, b, hab, hr, heq⟩
  · rw [heq, delivered_nil, List.append_nil] at hans ⊢
    refine ⟨hans, hw.ids, hw.called, hw.reported, fun hd r hr hcl => ?_, fun r hr hcl => ?_⟩
    · rcases hno with hno | ⟨-, hno⟩
      · rw [hd] at hno
        cases hno
      · exact hw.waiting hd r hr (Set.mem_of_mem_insert_of_ne hcl (hno r hr))
    · rcases hno with hno | ⟨hno, -⟩
      · have hp : h.point = .done := by simpa [RequestHandler.isDone] using hno
        rw [hp] at hr
        cases hr
      · exact hw.marked r hr (Set.mem_of_mem_insert_of_ne hcl (hhand r hr hno))
  · rw [heq, delivered_nil, List.append_nil] at hans ⊢
    refine ⟨hans, hw.ids, hw.called, hw.reported, fun hd r hr hcl => ?_,
      fun _ _ _ => .inl rfl⟩
    rw [hw.answering.handling] at hid
    obtain ⟨r₀, hr₀, he⟩ := Option.map_eq_some_iff.mp hid
    have hr : r ∈ h.pendingRequests := hr
    have hne : r.id ≠ id := by
      intro he'
      have hsame := hother r₀ (hin r₀ hr₀) he r (hwait r hr) he'
      rw [hsame] at hr
      exact hw.notMem_pending hr₀ hr
    exact hw.waiting hd r hr (Set.mem_of_mem_insert_of_ne hcl hne)
  · rw [heq] at hans ⊢
    have hsub : ∀ r' ∈ a ++ b, r' ∈ h.pendingRequests := by
      rw [hab]
      exact ((List.sublist_cons_self r b).append_left a).subset
    have hmem : r ∈ h.openRequests := hwait r (by rw [hab]; simp)
    refine ⟨hans, hw.ids, fun r' hr' => ?_, hw.reported, fun hd r' hr' hcl => ?_,
      fun r' hr' hcl => ?_⟩
    · obtain ⟨hacc, hall, hrep⟩ := hw.called r' hr'
      refine ⟨hacc, hall.append _, fun hopen => hrep ?_⟩
      rcases RequestHandler.mem_openRequests.mp hopen with hopen | hopen
      · exact hin r' hopen
      · exact hwait r' (hsub r' hopen)
    · have hne : r'.id ≠ id := by
        intro he
        have hsame := hother r hmem hr r' (hwait r' (hsub r' hr')) he
        have hnodup : (a ++ r :: b).Nodup := by
          rw [← hab]
          exact (hw.answering.books.nodup.sublist hw.answering.books.opens).sublist
            (List.sublist_append_right _ _)
        rw [hsame] at hr'
        exact (List.nodup_middle.mp hnodup).notMem hr'
      exact hw.waiting hd r' (hsub r' hr') (Set.mem_of_mem_insert_of_ne hcl hne)
    · exact hw.marked r' hr' (Set.mem_of_mem_insert_of_ne hcl (hhand r' hr' hid))

theorem Working.exitGracefully (hw : Working C source info closed log h)
    (he : h.exitGracefully = .ok h') : Working C source info closed log h' := by
  have hans := hw.answering.exitGracefully (fun _ _ => trivial) he
  unfold RequestHandler.exitGracefully at he
  split at he
  · cases he
    exact hw
  split at he
  · cases he
  · cases he
    refine ⟨hans, hw.ids, hw.called, hw.reported, hw.waiting, fun r hr hcl => ?_⟩
    refine (hw.marked r hr hcl).imp_left fun hc => ?_
    change (h.handlingRequestId.isSome || h.cancelHandlingRequest) = true
    rw [hc, Bool.or_true]

/-- The callback is run after everything was sent. -/
theorem Working.allSent_of_calls (hw : Working C source info closed log h)
    (hr : h.point.calls = some r) : AllSent C source info r log.sent := by
  have htrail := hw.answering.progress r (ServePoint.request_of_calls hr).1
  cases hp : h.point with
  | callback r' total =>
      rw [hp] at htrail hr
      cases hr
      rw [AllSent, htrail.2]
  | _ =>
      rw [hp] at hr
      cases hr

/-- The wait for the next request, after an iteration or without one. -/
theorem Working.await (hw : Working C source info closed log h) (hd : h.isDone = false)
    {out : List Outgoing} {h₂ : RequestHandler} (hq : h₂.pendingRequests = h.pendingRequests)
    (hans : Answering C source info (fun _ => True) (fun _ => True) log.accepted (log.sent ++ out)
      h₂.await) :
    Working C source info closed { log with sent := log.sent ++ out } h₂.await := by
  obtain ⟨hlate, htakes⟩ := h₂.await_point
  have hno : h₂.await.point.reported = none := (ServePoint.reported_of_late hlate).2
  have hwait : ∀ r ∈ h₂.await.openRequests, r ∈ h.pendingRequests := by
    intro r hr
    rwa [RequestHandler.await_openRequests, hq] at hr
  refine ⟨hans, hw.ids, fun r hr => ?_, fun r hr => ?_, fun _ r hr => ?_, fun r hr hcl => ?_⟩
  · obtain ⟨hacc, hall, hrep⟩ := hw.called r hr
    refine ⟨hacc, hall.append _, fun hopen => ?_⟩
    have hmem := hwait r hopen
    have hhand := ServePoint.request_of_reported
      (hrep (RequestHandler.mem_openRequests.mpr (.inr hmem)))
    exact absurd hmem (hw.notMem_pending hhand)
  · rw [hno] at hr
    cases hr
  · exact hw.waiting hd r (hwait r (RequestHandler.mem_openRequests.mpr (.inr hr)))
  · rw [← hq] at hwait
    exact absurd hcl (hw.waiting hd r (hq ▸ htakes r hr))

/-- **A step of the serve thread.** -/
theorem Working.serve (hw : Working chunkSize.toNat source info closed log h) {out : List Outgoing}
    {ok : Bool} (hs : h.serve chunkSize ok = some (h', out)) :
    Working chunkSize.toNat source info closed
      ⟨log.accepted, log.sent ++ delivered ok out, log.called ++ h.point.calls.toList⟩ h' := by
  have hans := hw.answering.serve rfl hs fun _ _ _ => trivial
  have hserves := RequestHandler.serves_of_serve hs
  generalize delivered ok out = out at hans hserves ⊢
  cases hserves with
  | wakes hp =>
      have hd : h.isDone = false := by
        rw [RequestHandler.isDone, hp]
        rfl
      have hcalls : h.point.calls = none := by
        rw [hp]
        rfl
      rw [hcalls, Option.toList_none, List.append_nil log.called]
      exact hw.await hd rfl hans
  | @moves r p _ hr hp hm hout =>
      obtain ⟨hno, hrep⟩ := hm.reported
      have hopen : ∀ r', r' ∈ { h with point := p }.openRequests → r' ∈ h.openRequests := by
        intro r' hr'
        rw [RequestHandler.mem_openRequests] at hr' ⊢
        rw [hr, ← hp]
        exact hr'
      refine ⟨hans, hw.ids, fun r' hr' => ?_, fun r' hr' => ?_, fun _ => ?_, fun r' hr' hcl => ?_⟩
      · rcases List.mem_append.mp hr' with hr' | hr'
        · obtain ⟨hacc, hall, hrep'⟩ := hw.called r' hr'
          refine ⟨hacc, hall.append _, fun ho => ?_⟩
          have := hrep' (hopen r' ho)
          rw [hno] at this
          cases this
        · have hcalls := Option.mem_toList.mp hr'
          have hhand := (ServePoint.request_of_calls hcalls).1
          exact ⟨hw.mem_accepted (RequestHandler.mem_openRequests.mpr (.inl hhand)),
            (hw.allSent_of_calls hcalls).append _, fun _ => hrep.trans hcalls⟩
      · refine List.mem_append_right _ (Option.mem_toList.mpr ?_)
        rw [← hrep]
        exact hr'
      · exact hw.waiting (RequestHandler.isDone_of_request hr)
      · have hsame : r' = r := Option.some.inj (hr'.symm.trans hp)
        rw [hsame] at hcl
        refine (hw.marked r hr hcl).imp_right fun hlate => ?_
        rcases ServePoint.late_iff.mp hlate with ⟨r₁, h₁⟩ | ⟨r₁, h₁⟩
        · exact ServePoint.late_iff.mpr (.inr ⟨r₁, hrep.trans h₁⟩)
        · rw [hno] at h₁
          cases h₁
  | @ends r _ hr hend hout =>
      have hcalls : h.point.calls = none := by
        rcases hend with ⟨hlate, -⟩ | hrep
        · exact (ServePoint.reported_of_late hlate).1
        · cases hp : h.point <;> rw [hp] at hrep <;> cases hrep
          rfl
      rw [hcalls, Option.toList_none, List.append_nil log.called]
      exact hw.await (RequestHandler.isDone_of_request hr) rfl hans
  | leaves hr hstop hc =>
      have := hw.answering.stop hstop (by rw [hr]; rfl)
      rw [hc] at this
      cases this
  | @fails r hr hend =>
      have hcalls : h.point.calls = none := by
        rcases hend with hsends | ⟨hlate, -⟩ | hrep
        · cases hp : h.point <;> rw [hp] at hsends <;> cases hsends <;> rfl
        · exact (ServePoint.reported_of_late hlate).1
        · cases hp : h.point <;> rw [hp] at hrep <;> cases hrep
          rfl
      rw [hcalls, Option.toList_none, List.append_nil log.called]
      refine ⟨hans, hw.ids, fun r' hr' => ?_, ?_, ?_, ?_⟩
      · obtain ⟨hacc, hall, hrep⟩ := hw.called r' hr'
        refine ⟨hacc, hall.append _, fun hopen => ?_⟩
        -- who waits is not in hand
        have hwait : r' ∈ h.pendingRequests :=
          (RequestHandler.mem_openRequests.mp hopen).resolve_left (by rintro ⟨⟩)
        have hhand := ServePoint.request_of_reported
          (hrep (RequestHandler.mem_openRequests.mpr (.inr hwait)))
        exact absurd hwait (hw.notMem_pending hhand)
      · rintro r' ⟨⟩
      · rintro ⟨⟩
      · rintro r' ⟨⟩

theorem Working.init : Working C source info closed .empty (newRequestHandler source info) := by
  refine ⟨.init, ?_, ?_, ?_, ?_, ?_⟩
  · rintro r ⟨⟩
  · rintro r ⟨⟩
  · rintro r ⟨⟩
  · rintro - r ⟨⟩
  · rintro r ⟨⟩

/-- **Every turn keeps the callbacks in order.** -/
theorem Working.turn (hw : Working chunkSize.toNat source info closed log h)
    (ht : Turn chunkSize closed log h l closed' log' h') :
    Working chunkSize.toNat h'.source h'.info closed' log' h' := by
  cases ht with
  | rests hc => exact (hw.rests hc).own
  | accepts hnew hid => exact (hw.serveRequest hnew hid).own
  | cancels => exact (hw.cancelRequest _ _).own
  | exits he => exact (hw.exitGracefully he).own
  | serves hs => exact (hw.serve hs).own
  | spawned source info hlog =>
      rw [hlog]
      exact .init

/-- Only steps of the serve thread move it, if it works on a request. -/
theorem Working.point_eq (hw : Working C source info closed log h)
    (ht : Turn chunkSize closed log h l closed' log' h') (hl : ∀ ok, l ≠ some (.serve ok))
    (hr : h.point.request = some r) : h'.point = h.point := by
  cases ht with
  | rests => rfl
  | accepts => exact RequestHandler.serveRequest_point
  | @cancels id =>
      rcases h.cancelRequest_cases id with ⟨heq, -⟩ | ⟨-, -, heq⟩ | ⟨-, -, _, _, _, -, -, heq⟩ <;>
        rw [heq]
  | exits he => exact RequestHandler.exitGracefully_point he
  | serves => exact absurd rfl (hl _)
  | spawned _ _ hlog =>
      have hacc := hw.mem_accepted (RequestHandler.mem_openRequests.mpr (.inl hr))
      rw [hlog] at hacc
      cases hacc

/-! ### The decision to run a callback -/

/-- **A callback that is about to be run stays one of an open request**, unless this is cancelled just
then. -/
theorem Punctual.turn (hp : Punctual closed h) (hw : Working chunkSize.toNat source info closed log h)
    (ht : Turn chunkSize closed log h l closed' log' h')
    (hc : ∀ id ok, l = some (.cancelRequest id ok) → ∀ r, h.point.calls = some r → r.id ≠ id) :
    Punctual closed' h' := by
  have hin : ∀ r, h.point.calls = some r → r ∈ log.accepted := fun r hr =>
    hw.mem_accepted (RequestHandler.mem_openRequests.mpr (.inl (ServePoint.request_of_calls hr).1))
  cases ht with
  | rests hsame =>
      intro r hr
      rw [hsame r (hin r hr)]
      exact hp r hr
  | accepts =>
      intro r hr
      rw [RequestHandler.serveRequest_point] at hr
      exact hp r hr
  | @cancels id =>
      have hpoint : (h.cancelRequest id).1.point = h.point := by
        rcases h.cancelRequest_cases id with ⟨heq, -⟩ | ⟨-, -, heq⟩ | ⟨-, -, _, _, _, -, -, heq⟩ <;>
          rw [heq]
      intro r hr hcl
      rw [hpoint] at hr
      exact hp r hr (Set.mem_of_mem_insert_of_ne hcl (hc id _ rfl r hr))
  | exits he =>
      intro r hr
      rw [RequestHandler.exitGracefully_point he] at hr
      exact hp r hr
  | @serves _ out ok hs =>
      intro r hr
      have hserves := RequestHandler.serves_of_serve hs
      generalize delivered ok out = out at hserves
      cases hserves with
      | wakes =>
          rw [(ServePoint.reported_of_late (RequestHandler.await_point (h := h)).1).1] at hr
          cases hr
      | @moves r₀ p _ hr₀ hp₀ hm =>
          obtain ⟨hcancel, hlate⟩ := hm.calls r hr
          have hhand := (ServePoint.request_of_calls hr).1
          obtain rfl : r = r₀ := Option.some.inj (hhand.symm.trans hp₀)
          intro hcl
          rcases hw.marked r hr₀ hcl with h₁ | h₁
          · rw [hcancel] at h₁
            cases h₁
          · rw [hlate] at h₁
            cases h₁
      | ends =>
          rw [(ServePoint.reported_of_late RequestHandler.await_point.1).1] at hr
          cases hr
      | leaves | fails => cases hr
  | spawned =>
      rintro r ⟨⟩

/-! ### All callbacks -/

theorem Complete.serve (hk : Complete chunkSize.toNat source info closed log h)
    (hw : Working chunkSize.toNat source info closed log h) {out : List Outgoing} {ok : Bool}
    (hs : h.serve chunkSize ok = some (h', out)) :
    Complete chunkSize.toNat source info closed
      ⟨log.accepted, log.sent ++ delivered ok out, log.called ++ h.point.calls.toList⟩ h' := by
  have hserves := RequestHandler.serves_of_serve hs
  generalize delivered ok out = out at hserves ⊢
  cases hserves with
  | wakes hp =>
      refine ⟨fun hc => ?_, fun r hr hopen hid hall => List.mem_append_left _ ?_⟩
      · rw [h.await_flags.2.1, hw.answering.idle hp] at hc
        cases hc
      · rw [List.append_nil] at hall
        refine hk.finished r hr (fun ho => hopen ?_) hid hall
        rw [RequestHandler.await_openRequests]
        rcases RequestHandler.mem_openRequests.mp ho with ho | ho
        · rw [hp] at ho
          cases ho
        · exact ho
  | @moves r₀ p _ hr₀ hp hm hout =>
      refine ⟨fun hc r hr hid hspent => ?_, fun r hr hopen hid hall => List.mem_append_left _ ?_⟩
      · have hsame : r = r₀ := Option.some.inj (hr.symm.trans hp)
        exact hk.unspent hc r (hsame ▸ hr₀) hid (hm.spent hc hspent)
      · have hnot : r ∉ h.openRequests := by
          intro ho
          refine hopen ?_
          rw [RequestHandler.mem_openRequests] at ho ⊢
          rw [hr₀, ← hp] at ho
          exact ho
        refine hk.finished r hr hnot hid (hall.of_ne fun m hm he => hnot ?_)
        have hacc := hw.mem_accepted (RequestHandler.mem_openRequests.mpr (.inl hr₀))
        rw [hout m hm] at he
        rw [← hw.answering.books.eq_of_origin hacc hr he]
        exact RequestHandler.mem_openRequests.mpr (.inl hr₀)
  | @ends r₀ _ hr₀ hend hout =>
      refine ⟨fun hc => ?_, fun r hr hopen hid hall => List.mem_append_left _ ?_⟩
      · rw [RequestHandler.await_flags.2.1] at hc
        cases hc
      · have hsent := hall.of_closes hout
        rw [RequestHandler.await_openRequests] at hopen
        by_cases hsame : r = r₀
        · subst hsame
          rcases hend with ⟨hlate, hc⟩ | hrep
          · exact absurd (hw.answering.spent hr₀ hlate hsent) (hk.unspent hc r hr₀ hid)
          · exact hw.reported r hrep
        · refine hk.finished r hr (fun ho => ?_) hid hsent
          rcases RequestHandler.mem_openRequests.mp ho with ho | ho
          · exact hsame (Option.some.inj (ho.symm.trans hr₀))
          · exact hopen ho
  | leaves hr hstop hc =>
      have := hw.answering.stop hstop (by rw [hr]; rfl)
      rw [hc] at this
      cases this
  | @fails r₀ hr₀ hend =>
      refine ⟨fun _ r hr => (by cases hr), fun r hr hopen hid hall => List.mem_append_left _ ?_⟩
      rw [List.append_nil] at hall
      by_cases hsame : r = r₀
      · subst hsame
        rcases hend with hsends | ⟨hlate, hc⟩ | hrep
        · exact absurd hall (hw.answering.not_allSent hr₀ hsends)
        · exact absurd (hw.answering.spent hr₀ hlate hall) (hk.unspent hc r hr₀ hid)
        · exact hw.reported r hrep
      · refine hk.finished r hr (fun ho => hopen ?_) hid hall
        rcases RequestHandler.mem_openRequests.mp ho with ho | ho
        · exact absurd (Option.some.inj (ho.symm.trans hr₀)) hsame
        · exact RequestHandler.mem_openRequests.mpr (.inr ho)

theorem Complete.cancelRequest (hk : Complete C source info closed log h)
    (hw : Working C source info closed log h) (id : UInt64) (ok : Bool) :
    Complete C source info (insert id closed)
      { log with sent := log.sent ++ delivered ok (h.cancelRequest id).2 } (h.cancelRequest id).1 := by
  have hold : ∀ j : UInt64, j ∉ insert id closed → j ≠ id ∧ j ∉ closed := fun j hj =>
    ⟨fun he => hj (.inl he), fun hcl => hj (.inr hcl)⟩
  rcases h.cancelRequest_cases id with ⟨heq, -⟩ | ⟨-, hid, heq⟩ | ⟨-, -, r, a, b, hab, hr, heq⟩
  · rw [heq, delivered_nil, List.append_nil]
    exact ⟨fun hc r hr hj => hk.unspent hc r hr (hold _ hj).2,
      fun r hr hopen hj => hk.finished r hr hopen (hold _ hj).2⟩
  · rw [heq, delivered_nil, List.append_nil]
    refine ⟨fun _ r hr hj => ?_, fun r hr hopen hj => hk.finished r hr hopen (hold _ hj).2⟩
    have hr : h.point.request = some r := hr
    rw [hw.answering.handling, hr] at hid
    exact absurd (Option.some.inj hid) (hold _ hj).1
  · rw [heq]
    refine ⟨fun hc r hr hj => hk.unspent hc r hr (hold _ hj).2, fun r' hr' hopen hj hall => ?_⟩
    have hclose : ∀ m ∈ delivered ok [⟨r.origin, .closeResponse ⟨id⟩⟩],
        ∃ id, m = Outgoing.mk r.origin (.closeResponse ⟨id⟩) := fun m hm =>
      ⟨id, List.mem_singleton.mp (mem_of_mem_delivered hm)⟩
    refine hk.finished r' hr' (fun ho => hopen ?_) (hold _ hj).2 (hall.of_closes hclose)
    rw [RequestHandler.mem_openRequests] at ho ⊢
    refine ho.imp_right fun ho => ?_
    rw [hab, List.mem_append, List.mem_cons] at ho
    rcases ho with ho | rfl | ho
    · exact List.mem_append_left _ ho
    · exact absurd hr (hold _ hj).1
    · exact List.mem_append_right _ ho

/-- **No callback is left out**, unless the handler is stopped when there is nothing left to read
for the request in hand. -/
theorem Complete.turn (hk : Complete chunkSize.toNat source info closed log h)
    (hw : Working chunkSize.toNat source info closed log h)
    (ht : Turn chunkSize closed log h l closed' log' h')
    (he : l = some .exitGracefully → ∀ r, h.point.request = some r → r.id ∉ closed →
      ¬ h.spent chunkSize.toNat) :
    Complete chunkSize.toNat h'.source h'.info closed' log' h' := by
  have hown : ∀ {closed₁ log₁ h₁}, Working chunkSize.toNat source info closed₁ log₁ h₁ →
      Complete chunkSize.toNat source info closed₁ log₁ h₁ →
      Complete chunkSize.toNat h₁.source h₁.info closed₁ log₁ h₁ := by
    intro closed₁ log₁ h₁ hw₁ hk₁
    rw [hw₁.answering.hasSource, hw₁.answering.hasInfo]
    exact hk₁
  cases ht with
  | rests hc =>
      refine hown (hw.rests hc) ⟨fun hcancel r hr hj => ?_, fun r hr hopen hj => ?_⟩
      · refine hk.unspent hcancel r hr fun hcl => hj ?_
        rwa [hc r (hw.mem_accepted (RequestHandler.mem_openRequests.mpr (.inl hr)))]
      · exact hk.finished r hr hopen fun hcl => hj ((hc r hr).mpr hcl)
  | @accepts r hnew hid =>
      refine hown (hw.serveRequest hnew hid) ?_
      have hold : ∀ r' ∈ log.accepted ++ [r], r' ≠ r → r' ∈ log.accepted := by
        intro r' hr' hne
        exact (List.mem_append.mp hr').resolve_right fun h' => hne (List.mem_singleton.mp h')
      unfold RequestHandler.serveRequest
      split
      · -- nothing is ever sent for a request that comes too late
        refine ⟨hk.unspent, fun r' hr' hopen hid' hall => ?_⟩
        refine hk.finished r' (hold r' hr' ?_) hopen hid' hall
        rintro rfl
        have hnil := hw.answering.books.about_new fun r'' hr'' => (hnew r'' hr'').1
        have hlen := hall.length_le
        rw [hnil] at hlen
        cases hlen
      refine ⟨hk.unspent, fun r' hr' hopen => ?_⟩
      have hnot : r' ∉ h.openRequests ∧ r' ≠ r := by
        rw [RequestHandler.mem_openRequests] at hopen ⊢
        refine ⟨fun ho => hopen (ho.imp_right (List.mem_append_left _)), ?_⟩
        rintro rfl
        exact hopen (.inr (by simp))
      exact hk.finished r' (hold r' hr' hnot.2) hnot.1
  | cancels => exact hown (hw.cancelRequest _ _) (hk.cancelRequest hw _ _)
  | exits hexit =>
      refine hown (hw.exitGracefully hexit) ?_
      unfold RequestHandler.exitGracefully at hexit
      split at hexit
      · cases hexit
        exact hk
      split at hexit
      · cases hexit
      · cases hexit
        exact ⟨fun _ => he rfl, hk.finished⟩
  | serves hs => exact hown (hw.serve hs) (hk.serve hw hs)
  | spawned source info hlog =>
      rw [hlog]
      refine ⟨by rintro ⟨⟩, ?_⟩
      rintro r ⟨⟩

end Working

end Loon
