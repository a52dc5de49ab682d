import Loon.Client.Session
import Loon.Link.Conversation

set_option autoImplicit false

/-!
# What the client sends for a request

Every request the client has taken and not given up is at a stage of its response:
`RequestHandler.stages` and `Client.stages` list these requests. `Moves` is what a step can do to
such a list: give up requests without a word, or send one message for one of them that may follow at
its stage.

* `RequestHandler.serve_spec`, `RequestHandler.cancelRequest_spec`: the steps of a handler;
* **`Client.step_spec`**: every step of the client moves its list, except that a `Request` message
  adds a request to it.
-/

namespace Loon

open Chunking

/-! ## Stages -/

/-- How much of the content of size `N` was sent for that request. -/
def ServePoint.stage (N : ℕ) : ServePoint → Stage
  | .header _ => .fresh
  | .headerSent _ => .begun N 0
  | .chunk _ sequence _ _ _ => .begun N sequence.toNat
  | .chunkSent _ sequence total _ => if total = N then .ended else .begun N sequence.toNat
  | _ => .ended

/-- The counters of the serve thread. -/
def ServePoint.Counts (C N : ℕ) : ServePoint → Prop
  | .chunk _ sequence total data stream => total = sequence.toNat * C ∧ total < N ∧
      data.length = due C N sequence.toNat ∧ stream.length = N - (total + data.length)
  | .chunkSent _ sequence total stream =>
    stream.length = N - total ∧ (total = N ∨ total = sequence.toNat * C ∧ total < N)
  | .callback _ total => total = N
  | .called _ total => total = N
  | _ => True

/-- Requests with the stages of their responses. -/
abbrev Stages := List (ServeRequest × Stage)

/-- What a step of the client can do to its requests. -/
inductive Moves (C : ℕ) (l : Stages) : Stages → List Outgoing → Prop where
  | quiet {l' : Stages} (h : l'.Sublist l) : Moves C l l' []
  | sends {a b l' : Stages} {r : ServeRequest} {σ σ' : Stage} {d : ClientData}
      (hl : l = a ++ (r, σ) :: b) (hid : d.requestId = r.id) (hn : σ.next C d = some σ')
      (h : l'.Sublist (a ++ (r, σ') :: b)) : Moves C l l' [⟨r.origin, d⟩]

/-- A move of some of the requests. -/
theorem Moves.frame {C : ℕ} {l l' : Stages} {out : List Outgoing} (h : Moves C l l' out)
    (x y : Stages) : Moves C (x ++ l ++ y) (x ++ l' ++ y) out := by
  cases h with
  | quiet h => exact .quiet ((h.append_left x).append_right y)
  | @sends a b _ r σ σ' d hl hid hn h =>
    refine .sends (a := x ++ a) (b := b ++ y) ?_ hid hn ?_
    · rw [hl]
      simp
    · simpa using (h.append_left x).append_right y

namespace RequestHandler

variable (C : ℕ) (h : RequestHandler)

/-- The size of the content. -/
def size : ℕ := h.source.size.toNat

/-- The requests of a handler, the one it works on first. -/
def stages : Stages :=
  (h.point.request.map fun r => (r, h.point.stage h.size)).toList ++
    h.pendingRequests.map fun r => (r, .fresh)

/-- **The invariant of a handler** whose source supplies what it announces. -/
structure Sound : Prop where
  exact : h.source.data.length = h.size
  pos : 0 < h.size
  handling : h.handlingRequestId = h.point.request.map ServeRequest.id
  counts : h.point.Counts C h.size

end RequestHandler

section Handler

variable {C : ℕ} {h h' : RequestHandler} {r : ServeRequest} {out : List Outgoing}

theorem RequestHandler.leave_sound (hS : h.Sound C) : h.leave.Sound C :=
  ⟨hS.exact, hS.pos, rfl, trivial⟩

theorem RequestHandler.leave_stages :
    h.leave.stages = h.pendingRequests.map fun r => (r, Stage.fresh) := rfl

/-- The wait for the next request. -/
theorem RequestHandler.await_spec (he : h.source.data.length = h.size) (hp : 0 < h.size)
    (hn : h.handlingRequestId = none) :
    h.await.Sound C ∧ h.await.stages = h.pendingRequests.map fun r => (r, Stage.fresh) := by
  unfold RequestHandler.await
  split_ifs with hstop
  · exact ⟨⟨he, hp, rfl, trivial⟩, rfl⟩
  · cases hq : h.pendingRequests with
    | nil => exact ⟨⟨he, hp, hn, trivial⟩, by simp [RequestHandler.stages, ServePoint.request]⟩
    | cons r rs => exact ⟨⟨he, hp, rfl, trivial⟩, rfl⟩

/-- The end of an iteration: the response ends with a `CloseResponse` if it was cancelled. -/
theorem RequestHandler.nextIteration_spec (hS : h.Sound C) (hr : h.point.request = some r) :
    (h.nextIteration r true).1.Sound C ∧
    (h.nextIteration r true).1.stages = h.pendingRequests.map (fun r => (r, Stage.fresh)) ∧
    (h.nextIteration r true).2 =
      if h.cancelHandlingRequest then [⟨r.origin, .closeResponse ⟨r.id⟩⟩] else [] := by
  have hid : h.handlingRequestId = some r.id := by
    rw [hS.handling, hr]
    rfl
  obtain ⟨h1, h2⟩ := RequestHandler.await_spec (C := C)
    (h := { h with handlingRequestId := none, cancelHandlingRequest := false }) hS.exact hS.pos rfl
  unfold RequestHandler.nextIteration RequestHandler.closing
  simp only [true_or, if_true]
  refine ⟨h1, h2, ?_⟩
  rw [hid]

/-- The stages of a handler that works on `r`. -/
theorem RequestHandler.stages_eq (hr : h.point.request = some r) :
    h.stages = (r, h.point.stage h.size) :: h.pendingRequests.map fun r => (r, Stage.fresh) := by
  unfold RequestHandler.stages
  rw [hr]
  rfl

/-- A handler gives up the request it works on, with or without a `CloseResponse`. -/
theorem RequestHandler.nextIteration_moves (hS : h.Sound C) (hr : h.point.request = some r)
    {N k : ℕ} (hbegun : h.cancelHandlingRequest = true → h.point.stage h.size = .begun N k) :
    (h.nextIteration r true).1.Sound C ∧
      Moves C h.stages (h.nextIteration r true).1.stages (h.nextIteration r true).2 := by
  obtain ⟨h1, h2, h3⟩ := RequestHandler.nextIteration_spec hS hr
  refine ⟨h1, ?_⟩
  rw [h2, h3, RequestHandler.stages_eq hr]
  split_ifs with hc
  · rw [hbegun hc]
    exact .sends (a := []) rfl rfl rfl (List.sublist_cons_self _ _)
  · exact .quiet (List.sublist_cons_self _ _)

/-- A handler moves on with the request it works on. -/
theorem RequestHandler.moves_point {point : ServePoint} (hr : h.point.request = some r)
    (hr' : point.request = some r) (hst : point.stage h.size = h.point.stage h.size) :
    Moves C h.stages { h with point := point }.stages [] := by
  have hs' : { h with point := point }.stages =
      (r, point.stage h.size) :: h.pendingRequests.map fun r => (r, Stage.fresh) :=
    RequestHandler.stages_eq (h := { h with point := point }) hr'
  rw [RequestHandler.stages_eq hr, hs', hst]
  exact .quiet (List.Sublist.refl _)

/-- A handler sends a message for the request it works on. -/
theorem RequestHandler.moves_send {point : ServePoint} {d : ClientData}
    (hr : h.point.request = some r) (hr' : point.request = some r) (hid : d.requestId = r.id)
    (hst : (h.point.stage h.size).next C d = some (point.stage h.size)) :
    Moves C h.stages { h with point := point }.stages [⟨r.origin, d⟩] := by
  have hs' : { h with point := point }.stages =
      (r, point.stage h.size) :: h.pendingRequests.map fun r => (r, Stage.fresh) :=
    RequestHandler.stages_eq (h := { h with point := point }) hr'
  rw [RequestHandler.stages_eq hr, hs']
  exact .sends (a := []) rfl hid hst (List.Sublist.refl _)

/-- A handler gives up the request it works on without a word. -/
theorem RequestHandler.moves_leave (hr : h.point.request = some r) :
    Moves C h.stages h.leave.stages [] := by
  rw [RequestHandler.stages_eq hr, RequestHandler.leave_stages]
  exact .quiet (List.sublist_cons_self _ _)

variable {chunkSize : UInt64}

/-- The next chunk is the one that is due, or the content is complete. -/
theorem RequestHandler.readChunk_spec (hC : C = chunkSize.toNat) (hpos : 0 < C) (hS : h.Sound C)
    (hr : h.point.request = some r) {sequence : UInt64} {total : ℕ} {stream : Bytes}
    (hstage : h.point.stage h.size =
      if total = h.size then .ended else .begun h.size sequence.toNat)
    (hlen : stream.length = h.size - total)
    (htot : total = h.size ∨ total = sequence.toNat * C ∧ total < h.size) :
    (h.readChunk chunkSize r sequence total stream).Sound C ∧
      Moves C h.stages (h.readChunk chunkSize r sequence total stream).stages [] := by
  have hhandling : h.handlingRequestId = some r.id := by
    rw [hS.handling, hr]
    rfl
  have htake : (stream.take chunkSize.toNat).length = min C (h.size - total) := by
    rw [List.length_take, hlen, hC]
  unfold RequestHandler.readChunk
  dsimp only
  split_ifs with hdata
  · have hall : total = h.size := by
      rw [hdata, List.length_nil] at htake
      omega
    refine ⟨⟨hS.exact, hS.pos, hhandling, hall⟩, RequestHandler.moves_point hr rfl ?_⟩
    rw [hstage, if_pos hall]
    rfl
  · have hne : total ≠ h.size := by
      intro e
      rw [e, Nat.sub_self, Nat.min_zero] at htake
      exact hdata (List.eq_nil_of_length_eq_zero htake)
    obtain ⟨hseq, hlt⟩ := htot.resolve_left hne
    refine ⟨⟨hS.exact, hS.pos, hhandling, hseq, hlt, ?_, ?_⟩, RequestHandler.moves_point hr rfl ?_⟩
    · rw [htake, hseq, Nat.min_comm]
      rfl
    · rw [htake, List.length_drop, hlen, ← hC]
      change _ = h.size - _
      omega
    · rw [hstage, if_neg hne]
      rfl

/-- The end of an iteration with a response that is complete or was cancelled. -/
theorem RequestHandler.finish_spec (hS : h.Sound C) (hr : h.point.request = some r) {total k : ℕ}
    (hstage : total ≠ h.size → h.point.stage h.size = .begun h.size k) :
    (h.finish r total true).1.Sound C ∧
      Moves C h.stages (h.finish r total true).1.stages (h.finish r total true).2 := by
  unfold RequestHandler.finish
  split_ifs with htot
  · have hS' : { h with cancelHandlingRequest := false }.Sound C :=
      ⟨hS.exact, hS.pos, hS.handling, hS.counts⟩
    exact RequestHandler.nextIteration_moves (N := 0) (k := 0) hS' hr (fun hc => by cases hc)
  · exact RequestHandler.nextIteration_moves hS hr fun _ => hstage htot

/-- A chunk is the one that is due, and its number does not overflow. -/
theorem RequestHandler.sendChunk_spec (hpos : 0 < C) (hS : h.Sound C) {sequence : UInt64}
    {total : ℕ} {data stream : Bytes} (hp : h.point = .chunk r sequence total data stream) :
    { h with point := .chunkSent r (sequence + 1) (total + data.length) stream }.Sound C ∧
      Moves C h.stages
        { h with point := .chunkSent r (sequence + 1) (total + data.length) stream }.stages
        [⟨r.origin, .contentChunk ⟨r.id, sequence, data⟩⟩] := by
  have hr : h.point.request = some r := by rw [hp]; rfl
  have hcounts := hS.counts
  rw [hp] at hcounts
  obtain ⟨htot, hlt, hlen, hrest⟩ := hcounts
  have hsucc : total + data.length ≠ h.size → (sequence + 1).toNat = sequence.toNat + 1 := by
    intro hlast
    rw [htot] at hlast hlt
    rw [UInt64.toNat_add]
    exact Nat.mod_eq_of_lt (succ_lt_of_due hpos h.source.size.toNat_lt hlen hlast hlt)
  refine ⟨⟨hS.exact, hS.pos, by rw [hS.handling, hr]; rfl, hrest, ?_⟩,
    RequestHandler.moves_send hr rfl rfl ?_⟩
  · change total + data.length = h.size ∨ _ ∧ total + data.length < h.size
    by_cases hlast : total + data.length = h.size
    · exact .inl hlast
    · right
      rw [hsucc hlast, Nat.succ_mul]
      unfold due at hlen
      omega
  · rw [hp]
    change (Stage.begun h.size sequence.toNat).next C _ = some (if _ then _ else _)
    rw [Stage.next_of_due (m := ⟨r.id, sequence, data⟩) rfl hlen, ← htot]
    split_ifs with hlast
    · rfl
    · rw [hsucc hlast]

/-- A step of the serve thread whose send, if there is one, succeeds. -/
theorem RequestHandler.serve_true_spec (hC : C = chunkSize.toNat) (hpos : 0 < C) (hS : h.Sound C)
    (hs : h.serve chunkSize true = some (h', out)) : h'.Sound C ∧ Moves C h.stages h'.stages out := by
  have hhandling := hS.handling
  have hcounts := hS.counts
  unfold RequestHandler.serve at hs
  cases hp : h.point with
  | waiting =>
    rw [hp] at hhandling
    simp only [hp] at hs
    split_ifs at hs
    cases hs
    obtain ⟨h1, h2⟩ := RequestHandler.await_spec (C := C) hS.exact hS.pos hhandling
    refine ⟨h1, ?_⟩
    rw [h2]
    unfold RequestHandler.stages
    rw [hp]
    exact .quiet (List.Sublist.refl _)
  | header r =>
    simp only [hp] at hs
    cases hs
    have hr : h.point.request = some r := by rw [hp]; rfl
    refine ⟨⟨hS.exact, hS.pos, by rw [hhandling, hr]; rfl, trivial⟩,
      RequestHandler.moves_send hr rfl rfl ?_⟩
    rw [hp]
    rfl
  | headerSent r =>
    have hr : h.point.request = some r := by rw [hp]; rfl
    have hst : h.point.stage h.size = .begun h.size 0 := by rw [hp]; rfl
    simp only [hp] at hs
    split_ifs at hs
    · cases hs
      exact RequestHandler.nextIteration_moves hS hr fun _ => hst
    · cases hs
      exact ⟨RequestHandler.leave_sound hS, RequestHandler.moves_leave hr⟩
    · cases hs
      have hne : 0 ≠ h.size := Nat.ne_of_lt hS.pos
      refine RequestHandler.readChunk_spec hC hpos hS hr ?_ hS.exact (.inr ⟨?_, hS.pos⟩)
      · rw [hst, if_neg hne]
        rfl
      · simp
  | chunk r sequence total data stream =>
    simp only [hp] at hs
    cases hs
    exact RequestHandler.sendChunk_spec hpos hS hp
  | chunkSent r sequence total stream =>
    have hr : h.point.request = some r := by rw [hp]; rfl
    have hst : h.point.stage h.size =
        if total = h.size then .ended else .begun h.size sequence.toNat := by rw [hp]; rfl
    rw [hp] at hcounts
    obtain ⟨hlen, htot⟩ := hcounts
    simp only [hp] at hs
    split_ifs at hs
    · have hfin := RequestHandler.finish_spec hS hr fun hne => hst.trans (if_neg hne)
      rwa [Option.some.inj hs] at hfin
    · cases hs
      exact ⟨RequestHandler.leave_sound hS, RequestHandler.moves_leave hr⟩
    · cases hs
      exact RequestHandler.readChunk_spec hC hpos hS hr hst hlen htot
  | callback r total =>
    simp only [hp] at hs
    cases hs
    have hr : h.point.request = some r := by rw [hp]; rfl
    rw [hp] at hcounts
    refine ⟨⟨hS.exact, hS.pos, by rw [hhandling, hr]; rfl, hcounts⟩,
      RequestHandler.moves_point hr rfl ?_⟩
    rw [hp]
    rfl
  | called r total =>
    simp only [hp] at hs
    have hr : h.point.request = some r := by rw [hp]; rfl
    rw [hp] at hcounts
    have hfin := RequestHandler.finish_spec (k := 0) hS hr fun hne => absurd hcounts hne
    rwa [Option.some.inj hs] at hfin
  | done =>
    simp only [hp] at hs
    cases hs

/-- **A step of the serve thread.** -/
theorem RequestHandler.serve_spec (hC : C = chunkSize.toNat) (hpos : 0 < C) (hS : h.Sound C) {ok : Bool}
    (hs : h.serve chunkSize ok = some (h', out)) :
    h'.Sound C ∧ Moves C h.stages h'.stages (delivered ok out) := by
  rcases RequestHandler.serve_cases hs with ⟨hs, hout⟩ | ⟨rfl, -, rfl, r, hr, -⟩
  · rw [hout]
    exact RequestHandler.serve_true_spec hC hpos hS hs
  · exact ⟨RequestHandler.leave_sound hS, RequestHandler.moves_leave hr⟩

/-- **A cancellation** sends for a request that still waits, and otherwise leaves the word to the
serve thread. -/
theorem RequestHandler.cancelRequest_spec (hS : h.Sound C) (id : UInt64) (ok : Bool) :
    (h.cancelRequest id).1.Sound C ∧
      Moves C h.stages (h.cancelRequest id).1.stages (delivered ok (h.cancelRequest id).2) := by
  unfold RequestHandler.cancelRequest
  have hquiet : ∀ h' : RequestHandler, h'.stages = h.stages →
      Moves C h.stages h'.stages (delivered ok []) := by
    intro h' hsame
    rw [hsame, delivered_nil]
    exact .quiet (List.Sublist.refl _)
  split_ifs with hdone hid
  · exact ⟨hS, hquiet h rfl⟩
  · exact ⟨⟨hS.exact, hS.pos, hS.handling, hS.counts⟩, hquiet _ rfl⟩
  · cases hf : h.pendingRequests.find? (·.id = id) with
    | none => exact ⟨hS, hquiet h rfl⟩
    | some r =>
      refine ⟨⟨hS.exact, hS.pos, hS.handling, hS.counts⟩, ?_⟩
      obtain ⟨hrid, a, b, hab, ha⟩ := List.find?_eq_some_iff_append.mp hf
      have hrid : r.id = id := by simpa using hrid
      have herase : h.pendingRequests.eraseP (·.id = id) = a ++ b := by
        rw [hab, List.eraseP_append_right _ fun x hx => by simpa using ha x hx]
        rw [List.eraseP_cons_of_pos (by simpa using hrid)]
      -- the request is taken out of the queue, whether that can be told or not
      have hl : h.stages = ((h.point.request.map fun r => (r, h.point.stage h.size)).toList ++
          a.map fun r => (r, Stage.fresh)) ++ (r, Stage.fresh) :: b.map fun r => (r, Stage.fresh) := by
        unfold RequestHandler.stages
        rw [hab]
        simp
      have hl' : { h with pendingRequests := h.pendingRequests.eraseP (·.id = id) }.stages =
          ((h.point.request.map fun r => (r, h.point.stage h.size)).toList ++
            a.map fun r => (r, Stage.fresh)) ++ b.map fun r => (r, Stage.fresh) := by
        unfold RequestHandler.stages
        dsimp only
        rw [herase, List.map_append, ← List.append_assoc]
        rfl
      dsimp only
      rw [hl, hl']
      cases ok with
      | true => exact .sends rfl hrid.symm rfl ((List.sublist_cons_self _ _).append_left _)
      | false => exact .quiet ((List.sublist_cons_self _ _).append_left _)

end Handler

/-! ## The client -/

/-- The list of a family of lists, with one member singled out. -/
theorem flatMap_update {α β : Type} (f : α → List β) (g : ℕ → α) {i n : ℕ} (hi : i < n) :
    ∃ a b, ∀ x, (List.range n).flatMap (fun j => f (Function.update g i x j)) = a ++ f x ++ b := by
  induction n with
  | zero => exact absurd hi (Nat.not_lt_zero i)
  | succ n ih =>
    rcases Nat.lt_succ_iff_lt_or_eq.mp hi with hlt | rfl
    · obtain ⟨a, b, hab⟩ := ih hlt
      refine ⟨a, b ++ f (g n), fun x => ?_⟩
      rw [List.range_succ, List.flatMap_append, hab]
      simp [Function.update_of_ne (Nat.ne_of_gt hlt)]
    · refine ⟨(List.range i).flatMap fun j => f (g j), [], fun x => ?_⟩
      have hrest : (List.range i).flatMap (fun j => f (Function.update g i x j)) =
          (List.range i).flatMap fun j => f (g j) := by
        refine List.flatMap_congr fun j hj => ?_
        rw [Function.update_of_ne (Nat.ne_of_lt (List.mem_range.mp hj))]
      rw [List.range_succ, List.flatMap_append, hrest]
      simp

namespace Client

variable (C : ℕ) (c : Client)

/-- The requests of a client: the one with an empty response on the way, and those of its
handlers. -/
def stages : Stages :=
  (c.responding.map fun r => (r, Stage.fresh)).toList ++
    (List.range c.registered).flatMap fun i => (c.handlers i).stages

/-- **The invariant of the tables of a client.** -/
structure Sound : Prop where
  handler : ∀ i, i < c.registered → (c.handlers i).Sound C
  content : ∀ path i, c.content path = some i → i < c.registered
  requests : ∀ id i half, c.requests id = some (i, half) → i < c.registered

/-- The numbers of the requests are different, and of `Request` messages that were handled. -/
structure Numbered : Prop where
  nodup : (c.stages.map fun x => x.1.origin).Nodup
  old : ∀ x ∈ c.stages, x.1.origin < c.seen

/-- What a step of the client does to its requests. -/
inductive Changes (c' : Client) : ClientEvent → List Outgoing → Prop where
  | moves {e : ClientEvent} {out : List Outgoing}
      (he : ∀ id path limited ok, e ≠ .message (.request id path) limited ok)
      (hseen : c'.seen = c.seen)
      (h : Moves C c.stages c'.stages out) : Changes c' e out
  | takes {id : UInt64} {path : String} {limited ok : Bool} {a b : Stages}
      (hseen : c'.seen = c.seen + 1) (hl : c.stages = a ++ b)
      (h : c'.stages.Sublist (a ++ (⟨c.seen, id⟩, Stage.fresh) :: b)) :
      Changes c' (.message (.request id path) limited ok) []

variable {C c} {c' : Client} {i : ℕ} {h : RequestHandler} {out : List Outgoing}

theorem stages_put (hi : i < c.registered) : ∃ a b, c.stages = a ++ (c.handlers i).stages ++ b ∧
    ∀ h, (c.put i h).stages = a ++ h.stages ++ b := by
  obtain ⟨a, b, hab⟩ := flatMap_update RequestHandler.stages c.handlers hi
  have hput : ∀ h, (c.put i h).stages =
      ((c.responding.map fun r => (r, Stage.fresh)).toList ++ a) ++ h.stages ++ b := by
    intro h
    simp only [stages, put, hab, List.append_assoc]
  refine ⟨_, b, ?_, hput⟩
  rw [← hput]
  simp [put]

theorem moves_put (hi : i < c.registered) (hm : Moves C (c.handlers i).stages h.stages out) :
    Moves C c.stages (c.put i h).stages out := by
  obtain ⟨a, b, hc, hput⟩ := stages_put hi
  rw [hc, hput]
  exact hm.frame a b

theorem Sound.put (hS : c.Sound C) (hh : h.Sound C) : (c.put i h).Sound C := by
  refine ⟨fun j hj => ?_, hS.content, hS.requests⟩
  by_cases hij : j = i
  · subst hij
    simpa [Client.put] using hh
  · simpa [Client.put, hij] using hS.handler j hj

theorem Sound.erase (hS : c.Sound C) (id : UInt64) :
    { c with requests := Function.update c.requests id none }.Sound C := by
  refine ⟨hS.handler, hS.content, fun id' i half hr => ?_⟩
  by_cases hid : id' = id
  · rw [hid] at hr
    simp at hr
  · exact hS.requests id' i half (by simpa [hid] using hr)

theorem Sound.insert (hS : c.Sound C) (id : UInt64) (half : Bool) (hi : i < c.registered) :
    { c with requests := Function.update c.requests id (some (i, half)) }.Sound C := by
  refine ⟨hS.handler, hS.content, fun id' j half' hr => ?_⟩
  by_cases hid : id' = id
  · rw [hid] at hr
    simp only [Function.update_self, Option.some.injEq, Prod.mk.injEq] at hr
    rw [← hr.1]
    exact hi
  · exact hS.requests id' j half' (by simpa [hid] using hr)

/-- `response_sent` and `on_success` leave the handlers alone. -/
theorem callServedCallback_spec (hS : c.Sound C) (id : UInt64) :
    (c.callServedCallback id).Sound C ∧ (c.callServedCallback id).stages = c.stages ∧
      (c.callServedCallback id).seen = c.seen := by
  unfold callServedCallback
  cases hr : c.requests id with
  | none => exact ⟨hS, rfl, rfl⟩
  | some x =>
    obtain ⟨i, half⟩ := x
    cases half with
    | false => exact ⟨hS.insert id true (hS.requests id i false hr), rfl, rfl⟩
    | true =>
      have hE := hS.erase id
      exact ⟨⟨hE.handler, hE.content, hE.requests⟩, rfl, rfl⟩

theorem serveRequest_spec {h : RequestHandler} (hh : h.Sound C) (r : ServeRequest) :
    (h.serveRequest r).Sound C ∧ (h.serveRequest r).stages.Sublist (h.stages ++ [(r, .fresh)]) := by
  unfold RequestHandler.serveRequest
  split_ifs
  · exact ⟨hh, List.sublist_append_left _ _⟩
  · refine ⟨⟨hh.exact, hh.pos, hh.handling, hh.counts⟩, ?_⟩
    unfold RequestHandler.stages
    rw [List.map_append, ← List.append_assoc]
    exact List.Sublist.refl _

/-- A `Request` message adds a request, or asks for a restart. -/
theorem onRequest_spec (hS : c.Sound C) (id : UInt64) (path : String) (limited ok : Bool) :
    (c.onRequest id path limited).Sound C ∧
      c.Changes C (c.onRequest id path limited) (.message (.request id path) limited ok) [] := by
  have hdrop : c.stages.Sublist ([] ++ (⟨c.seen, id⟩, Stage.fresh) :: c.stages) :=
    List.sublist_cons_self _ _
  unfold onRequest
  dsimp only
  split_ifs with hr hl
  · exact ⟨⟨hS.handler, hS.content, hS.requests⟩, .takes (a := []) rfl rfl hdrop⟩
  · exact ⟨⟨hS.handler, hS.content, hS.requests⟩, .takes (a := []) rfl rfl hdrop⟩
  · cases hp : c.content path with
    | none =>
      refine ⟨⟨hS.handler, hS.content, hS.requests⟩, ?_⟩
      refine .takes (a := []) (b := c.stages) rfl rfl ?_
      unfold stages
      exact (List.sublist_append_right _ _).cons_cons _
    | some i =>
      have hi := hS.content path i hp
      obtain ⟨h1, h2⟩ := serveRequest_spec (hS.handler i hi) ⟨c.seen, id⟩
      obtain ⟨a, b, hc, hput⟩ := stages_put (c := c) hi
      refine ⟨?_, .takes (a := a ++ (c.handlers i).stages) (b := b) rfl hc ?_⟩
      · have hins := (hS.put (i := i) h1).insert id false hi
        exact ⟨hins.handler, hins.content, hins.requests⟩
      · change (c.put i _).stages.Sublist _
        rw [hput]
        simpa using (h2.append_left a).append_right b

/-- `send` leaves the tables alone. -/
theorem send_spec (hS : c.Sound C) (out : List Outgoing) (ok : Bool) :
    (c.send out ok).1.Sound C ∧ (c.send out ok).1.seen = c.seen ∧
      (c.send out ok).1.stages = c.stages ∧ (c.send out ok).2 = delivered ok out := by
  obtain ⟨b, heq⟩ := c.send_eq out ok
  rw [heq]
  exact ⟨⟨hS.handler, hS.content, hS.requests⟩, rfl, rfl, rfl⟩

/-- A `RequestClosed` message cancels the request at its handler. -/
theorem onRequestClosed_spec (hS : c.Sound C) (id : UInt64) (ok : Bool) :
    (c.onRequestClosed id ok).1.Sound C ∧ (c.onRequestClosed id ok).1.seen = c.seen ∧
      Moves C c.stages (c.onRequestClosed id ok).1.stages (c.onRequestClosed id ok).2 := by
  unfold onRequestClosed
  cases hr : c.requests id with
  | none => exact ⟨hS, rfl, .quiet (List.Sublist.refl _)⟩
  | some x =>
    obtain ⟨i, half⟩ := x
    have hi := hS.requests id i half hr
    obtain ⟨h1, h2⟩ := RequestHandler.cancelRequest_spec (hS.handler i hi) id ok
    obtain ⟨e1, e2, e3, e4⟩ := send_spec ((hS.put (i := i) h1).erase id)
      ((c.handlers i).cancelRequest id).2 ok
    refine ⟨e1, e2, ?_⟩
    have hm : Moves C c.stages (c.put i ((c.handlers i).cancelRequest id).1).stages
        (delivered ok ((c.handlers i).cancelRequest id).2) := moves_put hi h2
    rw [← e4] at hm
    exact e3 ▸ hm

/-- A newly registered content has no requests. -/
theorem registerContent_spec {k : Constraints} {source : ContentSource} {info : ContentInfo}
    (hS : c.Sound C) (he : source.data.length = source.size.toNat)
    (hr : c.registerContent k source info = .ok c') :
    c'.Sound C ∧ c'.seen = c.seen ∧ c'.stages = c.stages := by
  unfold registerContent at hr
  split_ifs at hr with hsize hused
  cases hk : checkContentConstraints k source info with
  | error e =>
    rw [hk] at hr
    cases hr
  | ok _ =>
    rw [hk] at hr
    cases hr
    have hpos : 0 < source.size.toNat := by
      refine Nat.pos_of_ne_zero fun h0 => hsize ?_
      exact UInt64.toNat_inj.mp (by simpa using h0)
    have hne : ∀ j, j < c.registered →
        Function.update c.handlers c.registered (newRequestHandler source info) j = c.handlers j :=
      fun j hj => Function.update_of_ne (Nat.ne_of_lt hj) _ _
    refine ⟨⟨fun j hj => ?_, fun path i hi => ?_, fun id i half hi => ?_⟩, rfl, ?_⟩
    · change RequestHandler.Sound C (Function.update c.handlers c.registered _ j)
      rcases Nat.lt_succ_iff_lt_or_eq.mp hj with hlt | rfl
      · rw [hne j hlt]
        exact hS.handler j hlt
      · rw [Function.update_self]
        exact ⟨he, hpos, rfl, trivial⟩
    · change i < c.registered + 1
      by_cases hpath : path = info.path
      · rw [hpath] at hi
        simp only [Function.update_self, Option.some.injEq] at hi
        omega
      · have := hS.content path i (by simpa [hpath] using hi)
        omega
    · exact Nat.lt_succ_of_lt (hS.requests id i half hi)
    · simp only [stages, put, List.range_succ, List.flatMap_append]
      rw [List.flatMap_congr fun j hj => congrArg _ (hne j (List.mem_range.mp hj))]
      simp [RequestHandler.stages, newRequestHandler, ServePoint.request]

/-- The tables of a client whose stages did not change. -/
theorem Changes.same {e : ClientEvent}
    (he : ∀ id path limited ok, e ≠ .message (.request id path) limited ok)
    (hseen : c'.seen = c.seen) (hl : c'.stages = c.stages) : c.Changes C c' e [] :=
  .moves he hseen (.quiet (by rw [hl]))

/-- One step of a serve thread. -/
theorem serveStep_spec {k : Constraints} (hC : C = k.chunkSize.toNat) (hpos : 0 < C)
    (hS : c.Sound C) (hi : i < c.registered) {ok : Bool} (hs : c.serveStep k i ok = some (c', out)) :
    c'.Sound C ∧ c'.seen = c.seen ∧ Moves C c.stages c'.stages out := by
  obtain ⟨h, out₁, b, hh, rfl, rfl⟩ := serveStep_eq_some hs
  obtain ⟨h1, h2⟩ := RequestHandler.serve_spec hC hpos (hS.handler i hi) hh
  have hput := moves_put hi h2
  have hafter : ((c.put i h).afterCall (c.handlers i).point.calls).Sound C ∧
      ((c.put i h).afterCall (c.handlers i).point.calls).stages = (c.put i h).stages ∧
      ((c.put i h).afterCall (c.handlers i).point.calls).seen = c.seen := by
    cases (c.handlers i).point.calls with
    | none => exact ⟨hS.put h1, rfl, rfl⟩
    | some r => exact callServedCallback_spec (hS.put (i := i) h1) r.id
  obtain ⟨e1, e2, e3⟩ := hafter
  refine ⟨⟨e1.handler, e1.content, e1.requests⟩, e3, ?_⟩
  change Moves C c.stages ((c.put i h).afterCall (c.handlers i).point.calls).stages _
  rw [e2]
  exact hput

/-- Stopping a handler. -/
theorem unregisterContent_spec (hS : c.Sound C) (path : String) :
    (c.unregisterContent path).Sound C ∧
      c.Changes C (c.unregisterContent path) (.unregister path) [] := by
  have hsame : c.Sound C ∧ c.Changes C c (.unregister path) [] :=
    ⟨hS, .same (fun _ _ _ _ h => by cases h) rfl rfl⟩
  unfold unregisterContent
  cases hp : c.content path with
  | none => exact hsame
  | some i =>
    have hi := hS.content path i hp
    have hh := hS.handler i hi
    cases hx : (c.handlers i).exitGracefully with
    | error _ =>
      simp only [hx]
      exact hsame
    | ok h =>
      simp only [hx]
      have hspec : h.Sound C ∧ h.stages = (c.handlers i).stages := by
        unfold RequestHandler.exitGracefully at hx
        split_ifs at hx
        · cases hx
          exact ⟨hh, rfl⟩
        · cases hx
          exact ⟨⟨hh.exact, hh.pos, hh.handling, hh.counts⟩, rfl⟩
      have hput := hS.put (i := i) hspec.1
      refine ⟨⟨hput.handler, hput.content, hput.requests⟩, .moves (fun _ _ _ _ h => by cases h) rfl ?_⟩
      refine moves_put hi ?_
      rw [hspec.2]
      exact .quiet (List.Sublist.refl _)

/-- **A step of the client.** -/
theorem step_spec {k : Constraints} {e : ClientEvent} (hC : C = k.chunkSize.toNat) (hpos : 0 < C)
    (hS : c.Sound C) (he : e.Exact) (hs : c.step k e = some (c', out)) :
    c'.Sound C ∧ c.Changes C c' e out := by
  cases e with
  | message m limited ok =>
    simp only [step] at hs
    split_ifs at hs
    cases m with
    | request id path =>
      cases hs
      exact onRequest_spec hS id path limited ok
    | success id =>
      cases hs
      obtain ⟨h1, h2, h3⟩ := callServedCallback_spec hS id
      exact ⟨h1, .same (fun _ _ _ _ h => by cases h) h3 h2⟩
    | requestClosed id message =>
      have hcl := onRequestClosed_spec hS id ok
      change some (c.onRequestClosed id ok) = some (c', out) at hs
      rw [Option.some.inj hs] at hcl
      exact ⟨hcl.1, .moves (fun _ _ _ _ h => by cases h) hcl.2.1 hcl.2.2⟩
  | emptyResponse ok =>
    simp only [step] at hs
    obtain ⟨r, hr, e⟩ := Option.map_eq_some_iff.mp hs
    have hl : c.stages = (r, Stage.fresh) :: { c with responding := none }.stages := by
      unfold stages
      rw [hr]
      rfl
    have hS' : { c with responding := none }.Sound C := ⟨hS.handler, hS.content, hS.requests⟩
    obtain ⟨e1, e2, e3, e4⟩ := send_spec hS' [⟨r.origin, .emptyResponse ⟨r.id⟩⟩] ok
    rw [e] at e1 e2 e3 e4
    refine ⟨e1, .moves (fun _ _ _ _ h => by cases h) e2 ?_⟩
    dsimp only at e3 e4
    rw [e3, e4, hl]
    cases ok with
    | true => exact .sends (a := []) (σ := .fresh) rfl rfl rfl (List.sublist_cons_self _ _)
    | false => exact .quiet (List.sublist_cons_self _ _)
  | register source info =>
    simp only [step] at hs
    split_ifs at hs
    cases hr : c.registerContent k source info with
    | error _ =>
      rw [hr] at hs
      cases hs
      exact ⟨hS, .same (fun _ _ _ _ h => by cases h) rfl rfl⟩
    | ok c₁ =>
      rw [hr] at hs
      cases hs
      obtain ⟨h1, h2, h3⟩ := registerContent_spec hS he hr
      exact ⟨h1, .same (fun _ _ _ _ h => by cases h) h2 h3⟩
  | unregister path =>
    simp only [step] at hs
    split_ifs at hs
    cases hs
    exact unregisterContent_spec hS path
  | unregistered =>
    simp only [step, contentUnregistered] at hs
    obtain ⟨c₁, hc, e⟩ := Option.map_eq_some_iff.mp hs
    cases e
    obtain ⟨path, hu, hc⟩ := Option.bind_eq_some_iff.mp hc
    obtain ⟨i, hi, hc⟩ := Option.bind_eq_some_iff.mp hc
    split_ifs at hc
    cases hc
    refine ⟨⟨hS.handler, fun path' j hj => ?_, hS.requests⟩, .same (fun _ _ _ _ h => by cases h) rfl rfl⟩
    by_cases hp : path' = path
    · rw [hp] at hj
      simp at hj
    · exact hS.content path' j (by simpa [hp] using hj)
  | serve i =>
    simp only [step] at hs
    split_ifs at hs with hi
    obtain ⟨h1, h2, h3⟩ := serveStep_spec hC hpos hS hi hs
    exact ⟨h1, .moves (fun _ _ _ _ h => by cases h) h2 h3⟩

end Client

end Loon
