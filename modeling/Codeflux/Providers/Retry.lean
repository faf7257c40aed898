import Codeflux.Library.Observed
import Codeflux.Domain.Identity

/-!
# Bounded retries of a provider request

Each physical attempt is prepared in a recorder, admitted under a shared ceiling, made, judged, and
completed in the recorder. The clock, the context, the recorder, the admission point and the attempt
function are an environment that answers every call as it likes.
-/

namespace Codeflux.Providers

open Library Go Domain

/-- The request identity is malformed. -/
def errInvalidRequestIdentity : Failure := .new "provider request identity is invalid"
/-- No attempt is left. -/
def errRetryBudgetExhausted : Failure := .new "provider retry budget exhausted"
/-- An attempt had effects. -/
def errRetryUnsafeAfterPartial : Failure :=
  .new "provider retry is unsafe after partial observable effects"
/-- The connection failed. -/
def errTransport : Failure := .new "provider transport failure"
/-- The provider took too long. -/
def errTimeout : Failure := .new "provider timeout"
/-- The provider limits the rate. -/
def errRateLimited : Failure := .new "provider rate limited"
/-- The provider is down. -/
def errUnavailable : Failure := .new "provider unavailable"
/-- The caller gave up. -/
def errContextCanceled : Failure := .new "context canceled"

/-- The longest wait a provider may ask for, in nanoseconds. -/
def maximumProviderRetryAfter : Int := 24 * 60 * 60 * 10 ^ 9

/-! ### The logical request -/

/-- A provider and its adapter. -/
structure ProviderIdentity where
  (adapter adapterVersion provider providerVersion : String)
deriving DecidableEq

/-- A model of a provider. -/
structure ModelIdentity where
  provider : ProviderIdentity
  (model revision : String)

/-- The idempotency key of a request. -/
structure RequestIdempotency where
  providerSupported : Bool
  (key providerScope : String)

/-- What stays the same over all physical attempts. -/
structure RequestIdentity where
  modelRequestID : ModelRequestID
  provider : ProviderIdentity
  model : ModelIdentity
  idempotency : RequestIdempotency
  (idempotencyKey requestHash : String)

/-- Is it a hexadecimal SHA-256? -/
def validLowerSHA256 (value : String) : Bool :=
  byteLength value = 64 && value.toList.all isLowerHex

/-- The texts an identity has to carry, with their names in errors. -/
def RequestIdentity.required (identity : RequestIdentity) : List (String × String) :=
  [("adapter", identity.provider.adapter),
   ("adapter version", identity.provider.adapterVersion),
   ("provider", identity.provider.provider),
   ("provider version", identity.provider.providerVersion),
   ("model", identity.model.model),
   ("model revision", identity.model.revision),
   ("request hash", identity.requestHash)]

/-- Check a request identity. -/
def validateRequestIdentity (identity : RequestIdentity) : Result Unit := do
  let invalid := Failure.detail errInvalidRequestIdentity
  ensure (identity.modelRequestID.isZero = false) (invalid "model request ID is required")
  identity.required.forM fun field =>
    ensure (trimSpace field.2 = field.2 ∧ field.2 ≠ "" ∧ byteLength field.2 ≤ 255)
      (invalid (field.1 ++ " must be non-empty, trimmed, and at most 255 bytes"))
  ensure (identity.provider = identity.model.provider)
    (invalid "model provider does not match request provider")
  ensure (validLowerSHA256 identity.requestHash)
    (invalid "request hash must be a lowercase SHA-256 digest")
  ensure (byteLength identity.idempotency.key ≤ 255 ∧
      byteLength identity.idempotency.providerScope ≤ 255 ∧
      byteLength identity.idempotencyKey ≤ 255)
    (invalid "idempotency fields exceed 255 bytes")
  ensure (trimSpace identity.idempotencyKey = identity.idempotencyKey ∧
      identity.idempotencyKey ≠ "")
    (invalid "logical idempotency key is required")
  ensure (identity.idempotency.providerSupported = true →
      trimSpace identity.idempotency.key ≠ "" ∧ trimSpace identity.idempotency.providerScope ≠ "")
    (invalid "provider idempotency requires a key and provider scope")
  ensure (identity.idempotency.providerSupported = true →
      identity.idempotencyKey = identity.idempotency.key)
    (invalid "idempotency keys disagree")
  ensure (identity.idempotency.providerSupported = false →
      identity.idempotency.key = "" ∧ identity.idempotency.providerScope = "")
    (invalid "unsupported provider idempotency must not carry provider fields")

/-! ### Physical attempts -/

/-- Bounds on the attempts of one logical request and on the waits between them. -/
structure RetryPolicy where
  maximumAttempts : Nat
  (initialDelay maximumBackoff maximumCumulativeWait : Int)

/-- One attempt of a request. -/
structure PhysicalAttempt where
  identity : RequestIdentity
  number : Nat
  startedAt : Int

/-- What was observed of an attempt before it failed. -/
structure PartialEffectEvidence where
  streamedOutput : Bool := false
  toolCall : Bool := false
  providerAck : Bool := false
  lastSequence : Int := 0

/-- The normalized failure of a provider, where an error has one on its chain. -/
structure ProviderFailure where
  retryable : Bool
  retryAfter : Int
  partialEffect : PartialEffectEvidence

/-- The error of an attempt, with the provider failure that `errors.As` finds on its chain. -/
structure AttemptError where
  error : Failure
  failure : Option ProviderFailure

/-- The result of one attempt as the adapter saw it. -/
structure AttemptOutcome where
  err : Option AttemptError := none
  retryAfter : Int := 0
  partialEvidence : Option PartialEffectEvidence := none
  providerRequestID : String := ""
  firstResponseAt : Int := 0

/-- What became of an attempt. -/
inductive AttemptDisposition
  | succeeded | failed | retryScheduled | retryExhausted | retryUnsafePartial | canceled
deriving DecidableEq

/-- What is recorded of a finished attempt. -/
structure AttemptRecord where
  attempt : PhysicalAttempt
  finishedAt : Int
  disposition : AttemptDisposition
  (providerRetryAfter retryDelay : Int)
  err : Option AttemptError
  partialEvidence : Option PartialEffectEvidence
  providerRequestID : String
  firstResponseAt : Int

/-- The bounded physical work of one logical request. -/
structure RetryResult where
  identity : RequestIdentity
  attempts : Nat := 0
  cumulativeWait : Int := 0
  lastOutcome : AttemptOutcome := {}

/-- Did the caller see something? -/
def hasObservablePartialEffect (evidence : PartialEffectEvidence) : Bool :=
  evidence.streamedOutput || evidence.toolCall || evidence.lastSequence != 0

/-- Is there any trace of an effect? -/
def hasPartialEffectEvidence (evidence : PartialEffectEvidence) : Bool :=
  evidence.streamedOutput || evidence.toolCall || evidence.providerAck || evidence.lastSequence != 0

/-- The outcome with the guidance and evidence of its provider failure, where it has none itself. -/
def normalizeAttemptOutcome (outcome : AttemptOutcome) : AttemptOutcome :=
  match outcome.err.bind (·.failure) with
  | none => outcome
  | some failure =>
    { outcome with
      retryAfter := if outcome.retryAfter = 0 then failure.retryAfter else outcome.retryAfter
      partialEvidence :=
        if outcome.partialEvidence = none ∧ hasPartialEffectEvidence failure.partialEffect then
          some failure.partialEffect
        else outcome.partialEvidence }

/-- May the request be tried again? -/
def retryableProviderFailure (err : AttemptError) : Bool :=
  err.failure.all (·.retryable) &&
    (Failure.Is errTransport err.error || Failure.Is errTimeout err.error ||
      Failure.Is errRateLimited err.error || Failure.Is errUnavailable err.error)

/-- Is the provider overloaded? -/
def isProviderBackpressureFailure (err : AttemptError) : Bool :=
  Failure.Is errRateLimited err.error || Failure.Is errUnavailable err.error

/-- The wait before jitter: doubled after every failed attempt but the first, up to the maximum. -/
def deterministicBackoff (policy : RetryPolicy) (failedAttempt : Nat) : Int :=
  doubled (failedAttempt - 1) policy.initialDelay
where
  doubled : Nat → Int → Int
  | 0, delay => if policy.maximumBackoff < delay then policy.maximumBackoff else delay
  | count + 1, delay =>
    if policy.maximumBackoff / 2 ≤ delay then policy.maximumBackoff else doubled count (delay * 2)

/-! ### The environment -/

/-- The calls that are observed. An attempt is identified by its number; preparing and admitting it
may be refused. -/
inductive AttemptEvent
  | prepared (number : Nat) (accepted : Bool)
  | admitted (number : Nat) (accepted : Bool)
  | attempted (number : Nat)
  | completed (number : Nat)
deriving DecidableEq

/-- The environment of the executor. A port answers and leaves the environment as it likes; an
answer of type `Option Failure` is an error, or `none` for `nil`. -/
structure RetryPorts (σ : Type) where
  /-- `ctx.Err()`. -/
  ctxErr : σ → Option Failure × σ
  /-- `ctx.Deadline()`, when there is one. -/
  deadline : Option Int
  now : σ → Int × σ
  prepareProviderAttempt : PhysicalAttempt → σ → Option Failure × σ
  /-- `admission.Acquire(ctx)`, which blocks until a slot is free or the context is done. -/
  acquire : σ → Option Failure × σ
  release : σ → σ
  /-- `admission.Narrow(admission.Ceiling() - 1)`. -/
  narrow : σ → σ
  completeProviderAttempt : AttemptRecord → σ → Option Failure × σ
  /-- Equal jitter of a positive wait. -/
  jitter : Int → σ → Int × σ
  sleep : Int → σ → Option Failure × σ

/-- What a run of the executor returns. -/
abbrev Returned := RetryResult × Option Failure

/-- A part of the run. It fails when the executor returns. -/
abbrev Step (σ α : Type) := Effect (Observed σ AttemptEvent) Returned α

section Execute

variable {σ : Type} (ports : RetryPorts σ) (policy : RetryPolicy)

/-- Return with the error, if there is one. -/
def stopOn (result : RetryResult) : Option Failure → Step σ Unit
  | some failure => .fail (result, some failure)
  | none => pure ()

/-- The wait after a failed attempt when the provider asks for none. -/
def backoff (failedAttempt : Nat) : Step σ Int :=
  let base := deterministicBackoff policy failedAttempt
  if base ≤ 0 then pure base else silent (ports.jitter base)

/-- The wait before the next attempt. -/
def retryDelay (number : Nat) (outcome : AttemptOutcome) : Step σ Int :=
  if outcome.retryAfter = 0 then backoff ports policy number else pure outcome.retryAfter

/-- Narrow the ceiling on concurrent requests after a scheduled retry of an overloaded provider. -/
def narrowOnBackpressure (disposition : AttemptDisposition) (outcome : AttemptOutcome) :
    Step σ Unit :=
  if disposition = .retryScheduled ∧ outcome.err.any isProviderBackpressureFailure then
    disturb ports.narrow
  else pure ()

/-- Is the delay over before the deadline of the request? -/
def withinDeadline (delay : Int) : Step σ Bool :=
  match ports.deadline with
  | none => pure true
  | some deadline => do
    let now ← silent ports.now
    pure (decide (now + delay < deadline))

/-- The disposition of an attempt, the wait before the next one, and the error that ends the run. -/
def decideAttempt (identity : RequestIdentity) (number : Nat) (cumulativeWait : Int)
    (outcome : AttemptOutcome) : Step σ (AttemptDisposition × Int × Option Failure) :=
  match outcome.err with
  | none => pure (.succeeded, 0, none)
  | some err => do
    let canceled ← silent ports.ctxErr
    if canceled.isSome ∨ Failure.Is errContextCanceled err.error then
      return (.canceled, 0, some err.error)
    else if retryableProviderFailure err = false then
      return (.failed, 0, some err.error)
    else if outcome.partialEvidence.any fun evidence =>
        hasObservablePartialEffect evidence ||
          evidence.providerAck && !identity.idempotency.providerSupported then
      return (.retryUnsafePartial, 0, some (.classified errRetryUnsafeAfterPartial err.error))
    else if policy.maximumAttempts ≤ number then
      return (.retryExhausted, 0, some (.classified errRetryBudgetExhausted err.error))
    else if outcome.retryAfter < 0 then
      return (.failed, 0, some (.new "provider retry-after must not be negative"))
    else
      let delay ← retryDelay ports policy number outcome
      if maximumProviderRetryAfter < delay ∨ policy.maximumCumulativeWait - cumulativeWait < delay
      then
        return (.retryExhausted, 0, some (.classified (.detail errRetryBudgetExhausted
          "provider retry-after exceeds remaining wait budget") err.error))
      else
        let inTime ← withinDeadline ports delay
        if inTime = false then
          return (.retryExhausted, 0, some (.classified (.detail errRetryBudgetExhausted
            "provider retry delay exceeds request deadline") err.error))
        else
          return (.retryScheduled, delay, none)

/-- The record of a finished attempt. -/
def attemptRecord (physical : PhysicalAttempt) (finishedAt : Int) (outcome : AttemptOutcome)
    (disposition : AttemptDisposition) (delay : Int) : AttemptRecord where
  attempt := physical
  finishedAt
  disposition
  providerRetryAfter := outcome.retryAfter
  retryDelay := delay
  err := outcome.err
  partialEvidence := outcome.partialEvidence
  providerRequestID := outcome.providerRequestID
  firstResponseAt := outcome.firstResponseAt

/-- The error of a record that could not be completed, joined to that of the attempt. -/
def recordError (outcome : AttemptOutcome) (failure : Failure) : Failure :=
  let wrapped := Failure.wrap "complete physical provider attempt" failure
  match outcome.err with
  | some err => .joined err.error wrapped
  | none => wrapped

variable (identity : RequestIdentity) (attempt : PhysicalAttempt → σ → AttemptOutcome × σ)

/-- The first half of an attempt: prepare it, admit it, make it. -/
def makeAttempt (result : RetryResult) (number : Nat) : Step σ (PhysicalAttempt × AttemptOutcome) :=
  do
  let canceled ← silent ports.ctxErr
  stopOn result canceled
  let startedAt ← silent ports.now
  let physical : PhysicalAttempt := { identity, number, startedAt }
  let refused ← observe (ports.prepareProviderAttempt physical) fun r => .prepared number r.isNone
  stopOn result (refused.map (.wrap "prepare physical provider attempt"))
  let blocked ← observe ports.acquire fun r => .admitted number r.isNone
  stopOn result (blocked.map (.wrap "admit physical provider attempt"))
  let outcome ← observe (attempt physical) fun _ => .attempted number
  disturb ports.release
  return (physical, normalizeAttemptOutcome outcome)

/-- The second half of an attempt: judge it and complete its record. The executor returns unless
another attempt is scheduled. -/
def finishAttempt (before : RetryResult) (physical : PhysicalAttempt) (outcome : AttemptOutcome) :
    Step σ RetryResult := do
  let finishedAt ← silent ports.now
  let result := { before with attempts := physical.number, lastOutcome := outcome }
  let (disposition, delay, terminalErr) ←
    decideAttempt ports policy identity physical.number before.cumulativeWait outcome
  narrowOnBackpressure ports disposition outcome
  let unrecorded ← observe
    (ports.completeProviderAttempt (attemptRecord physical finishedAt outcome disposition delay))
    fun _ => .completed physical.number
  stopOn result (unrecorded.map (recordError outcome))
  stopOn result terminalErr
  if disposition = .succeeded then .fail (result, none)
  else if disposition = .failed ∨ disposition = .canceled then
    .fail (result, outcome.err.map (·.error))
  else
    let waited := { result with cumulativeWait := result.cumulativeWait + delay }
    let interrupted ← silent (ports.sleep delay)
    stopOn waited interrupted
    return waited

/-- One round of the executor. -/
def attemptRound (result : RetryResult) (number : Nat) : Step σ RetryResult := do
  let (physical, outcome) ← makeAttempt ports identity attempt result number
  finishAttempt ports policy identity result physical outcome

end Execute

/-- The run of one logical request: what is returned, and the environment with the trace of the
observed calls. An attempt function may be missing. -/
def execute {σ : Type} (ports : RetryPorts σ) (policy : RetryPolicy) (identity : RequestIdentity)
    (attempt : Option (PhysicalAttempt → σ → AttemptOutcome × σ)) (env : σ) :
    Returned × Observed σ AttemptEvent :=
  let result : RetryResult := { identity }
  match validateRequestIdentity identity, attempt with
  | .error failure, _ => ((result, some failure), ⟨env, []⟩)
  | .ok _, none => ((result, some (.new "provider attempt function is required")), ⟨env, []⟩)
  | .ok _, some attempt =>
    let rounds := (List.range' 1 policy.maximumAttempts).foldlM
      (attemptRound ports policy identity attempt) result
    match rounds ⟨env, []⟩ with
    | (.error returned, final) => (returned, final)
    | (.ok result, final) => ((result, some errRetryBudgetExhausted), final)

end Codeflux.Providers
