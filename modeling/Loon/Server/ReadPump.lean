import Loon.Server.Safety

set_option autoImplicit false

/-!
# The read pump

`clientImpl.readPump` in front of the protocol loop: websocket frames are decoded and travel on the
buffered channel `recv`. `connection` is the machine of both goroutines over that channel, and
**`conn_inv_of_run`** its invariant: the loop keeps its own, and what waits on the channel was
decoded from frames.

The wire decoder is a parameter. Under proto3 a frame without a known field, such as the empty one,
is a valid message whose oneof is unset. **`frame_handling`**: such messages, and no others, crash
the loop.
-/

namespace Loon

/-- The websocket message types that `readPump` tells apart. -/
inductive FrameType where
  | text
  | binary
  | other
  deriving DecidableEq, Repr

/-- The capacity of the channel `recv`. -/
def recvSize : ℕ := 256

/-- The protocol loop with the read pump in front of it. -/
structure Conn where
  core : St
  /-- The messages waiting on `recv`. -/
  inbox : List ClientMessage
  /-- The read pump has not returned. -/
  reading : Bool
  /-- The `Close` the read pump asked for. -/
  asked : Option Close

namespace Conn

def init : Conn where
  core := St.init
  inbox := []
  reading := true
  asked := none

/-- `c.close` in the read pump, which then returns. -/
def close (k : Conn) (reason : CloseReason) (message : String) : Conn :=
  { k with core := { k.core with done := true }, reading := false,
           asked := if k.core.done then k.asked else some { reason, message } }

end Conn

/-- What happens on a connection: a frame or an error arrives at the read pump (`sees` if it looks at
`done` after `done` was closed), the loop receives a message, or something else happens there. -/
inductive ConnEvent where
  | frame (type : FrameType) (data : Bytes) (sees : Bool)
  | unexpectedClose
  | readError (err : String)
  | receive (now : Time)
  | other (e : Event)
  deriving DecidableEq, Repr

section Connection

variable {ext : Externals} (cfg : Config ext) (unmarshal : Bytes → Except String ClientMessage)

/-- One iteration of the loop of `readPump`, after `ReadMessage` returned a frame. -/
def readPump (k : Conn) (type : FrameType) (data : Bytes) : Option Conn :=
  match type with
  | .text => some (k.close .invalidClientMessage "Only accepting binary websocket messages")
  | .other => some k
  | .binary =>
    match unmarshal data with
    | .error err =>
      some (k.close .invalidClientMessage ("Failed to unmarshal proto message: " ++ err))
    | .ok message =>
      -- the pump waits for room
      if k.inbox.length < recvSize then some { k with inbox := k.inbox ++ [message] } else none

/-- The event of the protocol loop is not the receipt of a message. -/
def Event.isInternal : Event → Bool
  | .recv _ _ => false
  | _ => true

def connStep (k : Conn) : ConnEvent → Option (Except Panic Conn)
  | .frame type data sees =>
    if !k.reading then none
    else if sees then if k.core.done then some (.ok { k with reading := false }) else none
    else (readPump unmarshal k type data).map .ok
  | .unexpectedClose =>
    if k.reading then
      some (.ok { k with core := { k.core with done := true }, reading := false })
    else none
  | .readError err =>
    if k.reading then
      some (.ok (k.close .error ("Failed to read from websocket connection: " ++ err)))
    else none
  | .receive now =>
    match k.inbox with
    | [] => none
    | message :: rest =>
      (step cfg k.core (.recv message now)).map fun c =>
        c.map fun s => { k with core := s, inbox := rest }
  | .other e =>
    if e.isInternal then
      (step cfg k.core e).map fun c => c.map fun s => { k with core := s }
    else none

/-- The machine of the read pump and the protocol loop. -/
def connection : Machine (Except Panic Conn) ConnEvent where
  init := .ok Conn.init
  step c e :=
    match c with
    | .ok k => connStep cfg unmarshal k e
    | .error _ => none

/-! ## Runs -/

variable {cfg unmarshal} {k k' : Conn}

theorem Inv.setDone {s : St} (h : Inv cfg s) : Inv cfg { s with done := true } := Steps.inv h .done

/-- The message `m` was decoded from a frame that arrived at the event `e`. -/
def DecodedAt (unmarshal : Bytes → Except String ClientMessage) (m : ClientMessage)
    (e : ConnEvent) : Prop :=
  ∃ data, e = .frame .binary data false ∧ unmarshal data = .ok m

/-- What waits on `recv` after a frame waited before or was decoded from it. -/
theorem readPump_spec {type : FrameType} {data : Bytes} (h : Inv cfg k.core)
    (hk : readPump unmarshal k type data = some k') :
    Inv cfg k'.core ∧ k.core.Grows k'.core ∧
      ∀ m ∈ k'.inbox, m ∈ k.inbox ∨ DecodedAt unmarshal m (.frame type data false) := by
  unfold readPump at hk
  split at hk
  · cases hk
    exact ⟨h.setDone, St.grows_done, fun m hm => .inl hm⟩
  · cases hk
    exact ⟨h, .refl _, fun m hm => .inl hm⟩
  · split at hk
    · cases hk
      exact ⟨h.setDone, St.grows_done, fun m hm => .inl hm⟩
    · rename_i message hdec
      split_ifs at hk
      cases hk
      refine ⟨h, .refl _, fun m hm => ?_⟩
      rcases List.mem_append.mp hm with hm | hm
      · exact .inl hm
      · rw [List.mem_singleton.mp hm]
        exact .inr ⟨data, rfl, hdec⟩

/-- **Inversion of a step of the connection.** The loop keeps its invariant, and what waits on `recv`
waited before or was decoded from a frame; or a message whose oneof is unset was taken from `recv`,
and the loop panics. -/
theorem connStep_spec (h : Inv cfg k.core) {e : ConnEvent} {c : Except Panic Conn}
    (hs : connStep cfg unmarshal k e = some c) :
    (∃ k', c = .ok k' ∧ Inv cfg k'.core ∧ k.core.Grows k'.core ∧
      ∀ m ∈ k'.inbox, m ∈ k.inbox ∨ DecodedAt unmarshal m e) ∨
    (c = .error .unknownClientMessageType ∧ ∃ m rest, k.inbox = m :: rest ∧ m.data = none) := by
  cases e with
  | frame type data sees =>
    left
    simp only [connStep] at hs
    split_ifs at hs with h1 h2 h3
    · cases hs
      exact ⟨_, rfl, h, .refl _, fun m hm => .inl hm⟩
    · obtain ⟨k', hk, rfl⟩ := Option.map_eq_some_iff.mp hs
      obtain rfl : sees = false := by simpa using h2
      exact ⟨k', rfl, readPump_spec h hk⟩
  | unexpectedClose | readError err =>
    left
    simp only [connStep] at hs
    split_ifs at hs
    cases hs
    exact ⟨_, rfl, h.setDone, St.grows_done, fun m hm => .inl hm⟩
  | receive now =>
    simp only [connStep] at hs
    cases hb : k.inbox with
    | nil => rw [hb] at hs; cases hs
    | cons message rest =>
      rw [hb] at hs
      obtain ⟨c', hc', rfl⟩ := Option.map_eq_some_iff.mp hs
      rcases step_spec h hc' with ⟨s', rfl, hst⟩ | ⟨rfl, m, now', he, hm⟩
      · exact .inl ⟨_, rfl, hst.inv h, hst.grows h, fun m hm => .inl (List.mem_cons_of_mem _ hm)⟩
      · cases he
        exact .inr ⟨rfl, message, rest, rfl, hm⟩
  | other e =>
    left
    simp only [connStep] at hs
    split_ifs at hs with hi
    obtain ⟨c', hc', rfl⟩ := Option.map_eq_some_iff.mp hs
    rcases step_spec h hc' with ⟨s', rfl, hst⟩ | ⟨-, m, now', rfl, -⟩
    · exact ⟨_, rfl, hst.inv h, hst.grows h, fun m hm => .inl hm⟩
    · cases hi

/-- **The invariant of the connection.** The loop keeps its own, and every message that waits on
`recv` was decoded from a frame of the run. -/
theorem conn_inv_of_run {es : List ConnEvent}
    (h : (connection cfg unmarshal).run (.ok Conn.init) es = some (.ok k)) :
    Inv cfg k.core ∧ ∀ m ∈ k.inbox, ∃ e ∈ es, DecodedAt unmarshal m e := by
  suffices H : ∀ c, (connection cfg unmarshal).run (.ok Conn.init) es = some c → ∀ k, c = .ok k →
      Inv cfg k.core ∧ ∀ m ∈ k.inbox, ∃ e ∈ es, DecodedAt unmarshal m e from H _ h k rfl
  intro c hrun
  refine Machine.run_induction (M := connection cfg unmarshal)
    (P := fun es c => ∀ k, c = .ok k →
      Inv cfg k.core ∧ ∀ m ∈ k.inbox, ∃ e ∈ es, DecodedAt unmarshal m e) ?_ ?_ hrun
  · rintro k ⟨⟩
    exact ⟨inv_init cfg, fun m hm => by cases hm⟩
  · rintro es (_ | k) e c' _ hP hs k' rfl
    · cases hs
    · obtain ⟨hI, hbox⟩ := hP k rfl
      rcases connStep_spec hI hs with ⟨k₁, e1, e2, -, e3⟩ | ⟨e1, -⟩
      · cases e1
        refine ⟨e2, fun m hm => ?_⟩
        rcases e3 m hm with hm | hm
        · obtain ⟨e', he', hd⟩ := hbox m hm
          exact ⟨e', List.mem_append_left _ he', hd⟩
        · exact ⟨e, by simp, hm⟩
      · cases e1

/-- A run crashes only on a frame whose message has its oneof unset. -/
theorem conn_no_panic {es : List ConnEvent} {c : Except Panic Conn}
    (hes : ∀ m, ∀ e ∈ es, DecodedAt unmarshal m e → m.data.isSome)
    (h : (connection cfg unmarshal).run (.ok Conn.init) es = some c) : ∃ k, c = .ok k := by
  induction es using List.reverseRecOn generalizing c with
  | nil => cases h; exact ⟨_, rfl⟩
  | append_singleton es e ih =>
    obtain ⟨c₁, h1, h2⟩ := (Machine.run_snoc_eq_some _).mp h
    obtain ⟨k, rfl⟩ := ih (fun m e he => hes m e (List.mem_append_left _ he)) h1
    obtain ⟨hI, hbox⟩ := conn_inv_of_run h1
    rcases connStep_spec hI h2 with ⟨k', rfl, -⟩ | ⟨-, m, rest, hb, hm⟩
    · exact ⟨k', rfl⟩
    · obtain ⟨e', he', hd⟩ := hbox m (by simp [hb])
      have hsome := hes m e' (List.mem_append_left _ he') hd
      rw [hm] at hsome; cases hsome

/-- **When a frame is handled.** A run in which every binary frame that decodes has its oneof set
does not panic; and in every state of every run, the loop handles the next message, which was decoded
from a frame, without a panic exactly if its oneof is set. -/
theorem frame_handling {es : List ConnEvent} {c : Except Panic Conn}
    (h : (connection cfg unmarshal).run (.ok Conn.init) es = some c) :
    ((∀ m, ∀ e ∈ es, DecodedAt unmarshal m e → m.data.isSome) → ∃ k, c = .ok k) ∧
    ∀ k, c = .ok k → k.core.phase = .loop → ∀ m rest, k.inbox = m :: rest →
      (∃ e ∈ es, DecodedAt unmarshal m e) ∧
      ∀ now, (∃ k', (connection cfg unmarshal).step (.ok k) (.receive now) = some (.ok k')) ↔
        m.data.isSome := by
  refine ⟨fun hes => conn_no_panic hes h, ?_⟩
  rintro k rfl hloop m rest hb
  obtain ⟨hI, hbox⟩ := conn_inv_of_run h
  refine ⟨hbox m (by simp [hb]), fun now => ?_⟩
  have hstep : (connection cfg unmarshal).step (.ok k) (.receive now) =
      some (((dispatch cfg k.core m now).map St.top).map fun s =>
        { k with core := s, inbox := rest }) := by
    simp [connection, connStep, hb, step, hloop]
  constructor
  · rintro ⟨k', hk'⟩
    rw [hstep] at hk'
    cases hm : m.data with
    | some d => rfl
    | none => simp [dispatch, hm, Except.map] at hk'
  · intro hm
    obtain ⟨d, hd⟩ := Option.isSome_iff_exists.mp hm
    obtain ⟨s', h1, -⟩ := dispatch_spec hI hloop hd now
    rw [hstep, h1]
    exact ⟨_, rfl⟩

end Connection

/-- The wire decoder on the empty frame, which is a message without fields, and on the frame of an
`EmptyResponse` for the request 1. -/
def sampleUnmarshal (data : Bytes) : Except String ClientMessage :=
  if data = [] then .ok ⟨none⟩
  else if data = [0x0a, 0x02, 0x08, 0x01] then .ok ⟨some (.emptyResponse ⟨1⟩)⟩
  else .error "proto: cannot parse invalid wire-format data"

/-- A request, and the frame of its empty response. -/
def sampleFrames : List ConnEvent :=
  [.other (.forwardRequest "a" 0 true), .frame .binary [0x0a, 0x02, 0x08, 0x01] false]

theorem frame_handling_sampleFrames :
    ∃ k, (connection sampleConfig sampleUnmarshal).run (.ok Conn.init) sampleFrames =
        some (.ok k) ∧
      ∃ k', (connection sampleConfig sampleUnmarshal).step (.ok k) (.receive 1) = some (.ok k') := by
  refine ⟨_, rfl, ?_⟩
  have hrun : (connection sampleConfig sampleUnmarshal).run (.ok Conn.init) sampleFrames =
      some (.ok _) := rfl
  exact (((frame_handling hrun).2 _ rfl rfl _ [] rfl).2 1).mpr rfl

/-- **The empty frame is accepted by the decoder and crashes the loop.** -/
theorem empty_frame_panics : sampleUnmarshal [] = .ok ⟨none⟩ ∧
    (connection sampleConfig sampleUnmarshal).run (.ok Conn.init)
      [.frame .binary [] false, .receive 0] = some (.error .unknownClientMessageType) :=
  ⟨rfl, rfl⟩

end Loon
