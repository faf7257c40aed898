import Codeflux.Go.ByteText
import Codeflux.Library.Checked
import Codeflux.Library.OpenEnum
import Mathlib.Data.List.Sort

/-!
# The redaction pipeline

A pipeline bounds the raw input, replaces invalid UTF-8, replaces each loaded secret by a marker,
longest secrets first, runs a fixed list of patterns, and bounds the output. The patterns are a
parameter: a function on texts that also counts its replacements. The lock of the pipeline is left
out, since every call holds it to its end.
-/

namespace Codeflux.Redact

open Library Go

/-! ### Markers and limits -/

/-- The bytes of `[REDACTED]`. -/
def marker : Bytes := [0x5B, 0x52, 0x45, 0x44, 0x41, 0x43, 0x54, 0x45, 0x44, 0x5D]

/-- The bytes of `[TRUNCATED]`. -/
def truncatedMarker : Bytes := [0x5B, 0x54, 0x52, 0x55, 0x4E, 0x43, 0x41, 0x54, 0x45, 0x44, 0x5D]

example : marker = bytes "[REDACTED]" ∧ truncatedMarker = bytes "[TRUNCATED]" := by decide +kernel

/-- The longest secret. -/
def maxSecretBytes : Nat := 2560

/-- Where redacted text goes. -/
inductive Boundary
  | promptPersistence | logPersistence | uiDelivery | diagnosticExport
deriving DecidableEq

instance : Declared Boundary where
  all := [.promptPersistence, .logPersistence, .uiDelivery, .diagnosticExport]
  text
    | .promptPersistence => "prompt-persistence"
    | .logPersistence => "log-persistence"
    | .uiDelivery => "ui-delivery"
    | .diagnosticExport => "diagnostic-export"

/-- Bounds on input and output. -/
structure Limits where
  (maximumInputBytes maximumOutputBytes : Nat)

/-- The limits that a pipeline accepts. -/
def Limits.Valid (limits : Limits) : Prop :=
  4096 ≤ limits.maximumInputBytes ∧ 1024 ≤ limits.maximumOutputBytes ∧
    limits.maximumOutputBytes ≤ limits.maximumInputBytes

instance (limits : Limits) : Decidable limits.Valid := inferInstanceAs (Decidable (_ ∧ _))

/-- Safe metadata of a redaction. -/
structure Report where
  boundary : OpenEnum Boundary
  redactions : UInt64
  (inputTruncated outputTruncated entropyEnabled : Bool)

/-- One bounded redacted value. -/
structure Redacted where
  text : Bytes
  report : Report

/-- A result, or the text of an error. -/
abbrev Result (α : Type) := Except String α

/-- The longest valid prefix of at most so many bytes, tried from the longest on. -/
def validPrefixFrom (value : Bytes) : Nat → Nat
  | 0 => 0
  | maximum + 1 =>
    if validUTF8 (value.take (maximum + 1)) then maximum + 1 else validPrefixFrom value maximum

/-- The longest valid prefix within the bound. -/
def validUTF8Prefix (value : Bytes) (maximum : Nat) : Nat :=
  validPrefixFrom value (min maximum value.length)

/-- Cut the input, and say whether it was cut. -/
def boundInput (input : Bytes) (maximum : Nat) : Bytes × Bool :=
  if input.length ≤ maximum then (input, false)
  else
    let keep := validUTF8Prefix input (maximum - maxSecretBytes - truncatedMarker.length)
    (input.take keep ++ truncatedMarker, true)

/-- Cut the output, and say whether it was cut. -/
def boundOutput (output : Bytes) (maximum : Nat) : Bytes × Bool :=
  if output.length ≤ maximum then (output, false)
  else
    let keep := validUTF8Prefix output (maximum - truncatedMarker.length)
    (output.take keep ++ truncatedMarker, true)

/-! ### Pipelines -/

/-- A loaded credential. One that was destroyed has no bytes. -/
structure Secret where
  value : Bytes
  bounded : value.length ≤ maxSecretBytes

/-- The patterns: what they make of a text, and how often they replace. -/
abbrev Patterns := Bytes → Bytes × Nat

/-- No pattern at all. -/
def noPatterns : Patterns := fun text => (text, 0)

/-- The secrets and limits of a pipeline. -/
structure Pipeline where
  exact : List Bytes
  limits : Limits
  closed : Bool
  limited : limits.Valid

/-- A way to sort secrets, the longest first. Secrets of one length may come in any order. -/
structure SecretSort where
  sort : List Bytes → List Bytes
  perm : ∀ secrets, (sort secrets).Perm secrets
  sorted : ∀ secrets, (sort secrets).Pairwise fun a b => b.length ≤ a.length

/-- Read the bytes of a secret: `Secret.Use`. -/
def Secret.use (secret : Secret) : Result Bytes := do
  ensure (secret.value ≠ []) "credential not found"
  return secret.value

/-- A pipeline for the loaded secrets. -/
def newPipeline (secretSort : SecretSort) (loaded : List Secret) (limits : Limits) :
    Result Pipeline := do
  let limited ← certify (ensure limits.Valid "redaction limits are invalid")
  let values ← loaded.mapM Secret.use
  return ⟨secretSort.sort values, limits, false, ensure_ok_iff.1 limited.down⟩

section

variable (pipeline : Pipeline)

/-- Forget the secrets. -/
def Pipeline.close : Pipeline :=
  { pipeline with exact := [], closed := true }

/-- Replace one secret, and count. -/
def replaceSecret (state : Bytes × UInt64) (secret : Bytes) : Bytes × UInt64 :=
  let replacementCount := count state.1 secret
  if replacementCount = 0 then state
  else (replaceAll state.1 secret marker, state.2 + UInt64.ofNat replacementCount)

/-- The text and the count after the loaded secrets are replaced. -/
def replaceSecrets (exact : List Bytes) (text : Bytes) : Bytes × UInt64 :=
  exact.foldl replaceSecret (text, 0)

/-- Redact a bounded input. -/
def Pipeline.redactBounded (patterns : Patterns)
    (boundary : OpenEnum Boundary) (bounded : Bytes) (inputTruncated : Bool) : Redacted :=
  let (exactText, exactCount) :=
    replaceSecrets pipeline.exact (toValidUTF8 bounded replacementRune)
  let (patternText, patternCount) := patterns exactText
  let (text, outputTruncated) := boundOutput patternText pipeline.limits.maximumOutputBytes
  { text
    report := {
      boundary
      redactions := exactCount + UInt64.ofNat patternCount
      inputTruncated
      outputTruncated
      entropyEnabled := false } }

/-- Redact one input. -/
def Pipeline.redact (patterns : Patterns) (boundary : OpenEnum Boundary)
    (input : Bytes) : Result Redacted := do
  ensure (boundary.isValid = true) "redaction boundary is invalid"
  ensure (pipeline.closed = false) "redaction pipeline is closed"
  let (bounded, inputTruncated) := boundInput input pipeline.limits.maximumInputBytes
  return pipeline.redactBounded patterns boundary bounded inputTruncated

/-- Collected chunks. -/
structure Stream where
  pipeline : Pipeline
  boundary : OpenEnum Boundary
  buffer : Bytes
  (truncated finalized : Bool)

/-- A stream without chunks. -/
def Pipeline.newStream (boundary : OpenEnum Boundary) : Result Stream := do
  ensure (boundary.isValid = true) "redaction boundary is invalid"
  return ⟨pipeline, boundary, [], false, false⟩

/-- Add raw bytes up to the input bound. The number of accepted bytes is that of the chunk. -/
def Stream.write (stream : Stream) (chunk : Bytes) : Result (Stream × Nat) := do
  ensure (stream.finalized = false) "redaction stream is finalized"
  let maximum := stream.pipeline.limits.maximumInputBytes
  if maximum ≤ stream.buffer.length then
    return ({ stream with truncated := true }, chunk.length)
  else if maximum - stream.buffer.length < chunk.length then
    return ({ stream with
      buffer := stream.buffer ++ chunk.take (maximum - stream.buffer.length)
      truncated := true }, chunk.length)
  else
    return ({ stream with buffer := stream.buffer ++ chunk }, chunk.length)

/-- Redact what was collected. -/
def Stream.finalize (stream : Stream) (patterns : Patterns) : Result (Stream × Redacted) := do
  ensure (stream.finalized = false) "redaction stream is finalized"
  let input :=
    if stream.truncated then
      (boundInput (stream.buffer ++ [0]) stream.pipeline.limits.maximumInputBytes).1
    else stream.buffer
  let result ← stream.pipeline.redact patterns stream.boundary input
  return ({ stream with finalized := true }, { result with
    report := { result.report with
      inputTruncated := result.report.inputTruncated || stream.truncated } })

/-- Write chunks to a stream one after the other. -/
def Stream.writeAll (stream : Stream) (chunks : List Bytes) : Result Stream :=
  chunks.foldlM (fun stream chunk => (stream.write chunk).map Prod.fst) stream

/-- Redact chunks through a new stream. -/
def Pipeline.redactChunks (patterns : Patterns)
    (boundary : OpenEnum Boundary) (chunks : List Bytes) : Result Redacted := do
  let stream ← pipeline.newStream boundary
  let stream ← stream.writeAll chunks
  let (_, result) ← stream.finalize patterns
  return result

end

end Codeflux.Redact
