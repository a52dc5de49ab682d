import Loon.Server.Messages

set_option autoImplicit false

/-!
# Server options

`ProtocolOptions` and its `validate`, in the order of the source's checks. What the validation calls
outside the repository is a parameter (`Externals`): the media-type parser, the reflection helper
`structs.HasZero` and the floating-point test on the cache duration. Of these the development uses
one documented fact, that `HasZero` reports a zero chunk size.

`Config` bundles options with the proof that they were validated, so the protocol loop below is only
ever run with a validated configuration.
-/

namespace Loon

structure ProtocolConstraints where
  chunkSize : UInt64
  maxContentSize : UInt64
  acceptedContentTypes : List String
  cacheDuration : Option Time
  deriving DecidableEq, Repr

structure ProtocolIntervals where
  writeTimeout : Time
  pongTimeout : Time
  pingInterval : Time
  clientTimeout : Time
  clientTimeoutInterval : Time
  deriving DecidableEq, Repr

structure ProtocolOptions where
  baseUrl : String
  chunkBufferSize : ℤ
  constraints : ProtocolConstraints
  intervals : ProtocolIntervals
  deriving DecidableEq, Repr

/-- What the validation calls outside the repository. -/
structure Externals where
  /-- `mime.ParseMediaType`: the media type and its parameters. -/
  parseMediaType : String → Except String (String × List (String × String))
  /-- `structs.HasZero` on the constraints and on the options. -/
  hasZeroConstraints : ProtocolConstraints → Bool
  hasZeroOptions : ProtocolOptions → Bool
  /-- `seconds - float64(uint64(seconds)) > 0.001` for the seconds of a duration. -/
  fractionalSeconds : Time → Bool
  /-- `HasZero` reports a field that holds the zero value of its type. -/
  hasZero_chunkSize : ∀ c : ProtocolConstraints, c.chunkSize = 0 → hasZeroConstraints c = true

variable (ext : Externals)

/-- One check of an interval. -/
def checkPositive (d : Time) (message : String) : Except String Unit :=
  if d ≤ 0 then .error message else .ok ()

def ProtocolIntervals.validate (i : ProtocolIntervals) : Except String Unit := do
  checkPositive i.writeTimeout "write wait must be greater than zero"
  checkPositive i.pongTimeout "pong wait must be greater than zero"
  checkPositive i.pingInterval "ping interval must be greater than zero"
  checkPositive i.clientTimeout "timeout duration must be greater than zero"
  checkPositive i.clientTimeoutInterval "timeout interval must be greater than zero"

/-- The loop body over the accepted content types. -/
def checkContentType (contentType : String) : Except String Unit :=
  match ext.parseMediaType contentType with
  | .error err => .error ("invalid accepted content type: " ++ err)
  | .ok (sanitized, params) =>
    if params.length > 0 then .error "content type may not contain parameters"
    else if contentType ≠ sanitized then
      .error "content type must be lowercase and contain no spaces"
    else .ok ()

def ProtocolConstraints.validate (c : ProtocolConstraints) : Except String Unit :=
  if c.maxContentSize = 0 then .error "maximum content size cannot be zero"
  else if c.chunkSize > c.maxContentSize then
    .error "chunk size cannot be larger than maximum content size"
  else if c.acceptedContentTypes.length = 0 then .error "accepted content types cannot be empty"
  else do
    c.acceptedContentTypes.forM (checkContentType ext)
    match c.cacheDuration with
    | none => .error "invalid memory address or nil pointer dereference"
    | some d =>
      if d < 0 then .error "maximum cache duration must be positive"
      else if ext.fractionalSeconds d then .error "maximum cache duration must be in seconds"
      else if ext.hasZeroConstraints c then .error "config has unset fields"
      else .ok ()

def ProtocolOptions.validate (c : ProtocolOptions) : Except String Unit :=
  if c.baseUrl.length = 0 then .error "base URL cannot be empty"
  else if c.chunkBufferSize ≤ 0 then .error "chunk buffer size must be larger than zero"
  else do
    c.intervals.validate.mapError ("failed to validate intervals: " ++ ·)
    (c.constraints.validate ext).mapError ("failed to validate constraints: " ++ ·)
    if ext.hasZeroOptions c then .error "config has unset fields" else .ok ()

/-- Options that passed `validate`. -/
structure Config where
  options : ProtocolOptions
  valid : options.validate ext = .ok ()

variable {ext}

/-! ## What the validation says -/

/-- A sequence of checks gets through if both parts do. -/
theorem checks_ok {ε α : Type} {x : Except ε Unit} {f : Unit → Except ε α} {a : α}
    (h : (x >>= f) = .ok a) : x = .ok () ∧ f () = .ok a := by
  cases x with
  | error e => cases h
  | ok u => exact ⟨rfl, h⟩

theorem ok_of_mapError {ε ε' : Type} {x : Except ε Unit} {f : ε → ε'} (h : x.mapError f = .ok ()) :
    x = .ok () := by
  cases x with
  | error e => cases h
  | ok u => rfl

theorem checkPositive_ok {d : Time} {message : String} (h : checkPositive d message = .ok ()) :
    0 < d := by
  unfold checkPositive at h
  split_ifs at h with hd
  exact not_le.mp hd

theorem ProtocolIntervals.clientTimeout_pos {i : ProtocolIntervals} (h : i.validate = .ok ()) :
    0 < i.clientTimeout := by
  obtain ⟨-, h⟩ := checks_ok h
  obtain ⟨-, h⟩ := checks_ok h
  obtain ⟨-, h⟩ := checks_ok h
  exact checkPositive_ok (checks_ok h).1

/-- What validated constraints satisfy. -/
structure ProtocolConstraints.Checked (ext : Externals) (c : ProtocolConstraints) : Prop where
  size_le : c.chunkSize ≤ c.maxContentSize
  types_ne : c.acceptedContentTypes ≠ []
  types : c.acceptedContentTypes.forM (checkContentType ext) = .ok ()
  complete : ext.hasZeroConstraints c = false

theorem ProtocolConstraints.checked {c : ProtocolConstraints} (h : c.validate ext = .ok ()) :
    c.Checked ext := by
  unfold validate at h
  split at h
  · cases h
  split at h
  · cases h
  split at h
  · cases h
  rename_i hsize htypes
  obtain ⟨hforM, h⟩ := checks_ok h
  refine ⟨UInt64.not_lt.mp hsize, fun hnil => htypes (by rw [hnil]; rfl), hforM, ?_⟩
  cases hd : c.cacheDuration with
  | none =>
    rw [hd] at h
    cases h
  | some d =>
    rw [hd] at h
    dsimp only at h
    split_ifs at h with _ _ hzero
    exact Bool.eq_false_of_not_eq_true hzero

/-- What validated options satisfy. -/
structure ProtocolOptions.Checked (ext : Externals) (c : ProtocolOptions) : Prop where
  bufferSize : 0 < c.chunkBufferSize
  intervals : c.intervals.validate = .ok ()
  constraints : c.constraints.validate ext = .ok ()

theorem ProtocolOptions.checked {c : ProtocolOptions} (h : c.validate ext = .ok ()) :
    c.Checked ext := by
  unfold validate at h
  split at h
  · cases h
  split at h
  · cases h
  rename_i hbuffer
  obtain ⟨hintervals, h⟩ := checks_ok h
  obtain ⟨hconstraints, -⟩ := checks_ok h
  exact ⟨not_le.mp hbuffer, ok_of_mapError hintervals, ok_of_mapError hconstraints⟩

namespace Config

variable (cfg : Config ext)

/-- The chunk size every accepted chunk but the last has. -/
abbrev chunkSize : UInt64 := cfg.options.constraints.chunkSize

/-- The capacity of a chunk channel. -/
def bufferSize : ℕ := cfg.options.chunkBufferSize.toNat

theorem constraints_checked : cfg.options.constraints.Checked ext :=
  ProtocolConstraints.checked (ProtocolOptions.checked cfg.valid).constraints

/-- **A validated chunk size is positive.** -/
theorem chunkSize_pos : 0 < cfg.chunkSize.toNat := by
  by_contra h0
  have hz : cfg.options.constraints.chunkSize = 0 :=
    UInt64.toNat_inj.mp (by simpa using Nat.le_zero.mp (not_lt.mp h0))
  have hcomplete := cfg.constraints_checked.complete
  rw [ext.hasZero_chunkSize _ hz] at hcomplete
  cases hcomplete

/-- **A validated chunk channel has room for at least one chunk.** -/
theorem bufferSize_pos : 0 < cfg.bufferSize := by
  have h := (ProtocolOptions.checked cfg.valid).bufferSize
  unfold bufferSize
  omega

theorem clientTimeout_pos : 0 < cfg.options.intervals.clientTimeout :=
  ProtocolIntervals.clientTimeout_pos (ProtocolOptions.checked cfg.valid).intervals

end Config

/-! ## A sample configuration -/

/-- The library functions on media types without parameters. -/
def sampleExternals : Externals where
  parseMediaType value := .ok (value, [])
  hasZeroConstraints c := c.chunkSize = 0 || c.maxContentSize = 0 ||
    c.acceptedContentTypes.isEmpty || c.cacheDuration.isNone
  hasZeroOptions c := c.baseUrl.isEmpty || c.chunkBufferSize = 0
  fractionalSeconds d := d % 1000000000 > 1000000
  hasZero_chunkSize c h := by simp [h]

/-- Chunks of two bytes, contents of at most eight, one chunk of buffer. -/
def sampleConfig : Config sampleExternals where
  options :=
    { baseUrl := "http://localhost", chunkBufferSize := 1
      constraints := { chunkSize := 2, maxContentSize := 8,
                       acceptedContentTypes := ["text/html"], cacheDuration := some 0 }
      intervals := { writeTimeout := 10, pongTimeout := 10, pingInterval := 5, clientTimeout := 10,
                     clientTimeoutInterval := 2 } }
  valid := by decide

end Loon
