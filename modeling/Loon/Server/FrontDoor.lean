import Loon.Server.ClientManager
import Loon.Server.Mime

set_option autoImplicit false

/-!
# The front door

`serveRequest` up to the call of `serve`, in two parts: what it checks before it asks the client
manager, and what it does with the answer. `ComputeMac` does not fail, so that `Client.Request` fails
only with `ErrBadMac` or `ErrClientClosed`.

* `check_eq_ok`: which requests get to the client manager;
* `forward_eq_serve`: which of them get to a client;
* **`forward_opaque`**: without a MAC of the client the answer of the manager does not show.
-/

namespace Loon

/-- What `serveRequest` reads of an HTTP request. -/
structure HttpRequest where
  accept : Bytes
  clientID : Bytes
  mac : Bytes
  path : Bytes
  deriving DecidableEq

/-- A status with its text, or the call of `serve` with a request to the connection `conn`. -/
inductive Reply where
  | status (code : ℕ) (text : String)
  | serve (conn : ℕ) (path : Bytes)
  deriving DecidableEq

def statusNotFound : Reply := .status 404 "not found"

/-- What `serveRequest` uses of a server: its content types, the HMAC, and the identity of every
connection. -/
structure Site where
  contentTypes : ContentTypeRegistry
  hmac : Bytes → Bytes → MAC
  client : ℕ → Identity

namespace Site

variable (site : Site)

def idOf (k : ℕ) : UUID := (site.client k).id

/-- The MAC with which the connection `k` is asked for the normalised path. -/
def macFor (k : ℕ) (path : Bytes) : MAC :=
  computeMac site.hmac (site.client k).idStr (normalize path) (site.client k).secret

/-- `serveRequest` in front of `manager.Get`. -/
def check (r : HttpRequest) : Except Reply (UUID × MAC) :=
  if !earlyAccept site.contentTypes r.accept then
    .error (.status 406 "not serving any acceptable content type")
  else
    match urlDecodeUUID r.clientID with
    | .error _ => .error (.status 400 "invalid client ID")
    | .ok clientID =>
      match urlDecodeMAC r.mac with
      | .error _ => .error (.status 400 "invalid MAC")
      | .ok mac => .ok (clientID, mac)

/-- `serveRequest` behind `manager.Get`, which has returned `result`. -/
def forward (r : HttpRequest) (mac : MAC) (result : ManagerResult ℕ) (taken : Bool) : Reply :=
  match result with
  | .client k =>
    match (site.client k).request site.hmac r.path mac taken with
    | .ok path => .serve k path
    | .error .clientClosed => statusNotFound
    | .error .badMac => statusNotFound
  | _ => statusNotFound

variable {site} {r : HttpRequest} {mac : MAC}

theorem check_eq_ok {id : UUID} : site.check r = .ok (id, mac) ↔
    earlyAccept site.contentTypes r.accept = true ∧ urlDecodeUUID r.clientID = .ok id ∧
      urlDecodeMAC r.mac = .ok mac := by
  unfold check
  cases earlyAccept site.contentTypes r.accept with
  | false => simp
  | true =>
      cases urlDecodeUUID r.clientID with
      | error e => simp
      | ok clientID =>
          cases urlDecodeMAC r.mac with
          | error e => simp
          | ok m => simp

theorem check_ne_serve (k : ℕ) (path : Bytes) : site.check r ≠ .error (.serve k path) := by
  unfold check
  cases earlyAccept site.contentTypes r.accept with
  | false => simp
  | true =>
      cases urlDecodeUUID r.clientID with
      | error e => simp
      | ok clientID => cases urlDecodeMAC r.mac <;> simp

theorem forward_eq_serve {result : ManagerResult ℕ} {taken : Bool} {k : ℕ} {path : Bytes} :
    site.forward r mac result taken = .serve k path ↔
      result = .client k ∧ mac = site.macFor k r.path ∧ taken = true ∧ normalize r.path = path := by
  cases result with
  | nil => simp [forward, statusNotFound]
  | error e => simp [forward, statusNotFound]
  | client i =>
      simp only [forward, ManagerResult.client.injEq]
      constructor
      · intro h
        cases hr : (site.client i).request site.hmac r.path mac taken with
        | error e =>
            rw [hr] at h
            cases e <;> cases h
        | ok p =>
            rw [hr] at h
            cases h
            exact ⟨rfl, request_eq_ok.mp hr⟩
      · rintro ⟨rfl, h⟩
        rw [request_eq_ok.mpr h]

/-- **Who does not know the MAC is not told what the manager answers.** -/
theorem forward_opaque {result : ManagerResult ℕ}
    (h : ∀ k, result = .client k → mac ≠ site.macFor k r.path)
    (taken : Bool) : site.forward r mac result taken = statusNotFound := by
  cases result with
  | nil => rfl
  | error e => rfl
  | client k =>
      have hbad : (site.client k).request site.hmac r.path mac taken = .error .badMac := if_pos (h k rfl)
      simp only [forward, hbad]

end Site

end Loon
