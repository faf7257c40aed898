import Codeflux.Library.Assembly
import Codeflux.Providers.Retry

/-!
# Streams of an OpenAI-compatible endpoint

The pieces of a tool call are collected in a table under the call's index, and a finish reason
flushes the table into tool-call events. The flush ranges over a map, whose order is not determined:
`Visits` is any choice of it. Whether a text is complete JSON is left open.
-/

namespace Codeflux.Providers

open Library Go

/-! ### What arrives -/

/-- A piece of a tool call. -/
structure ToolDelta where
  index : Int
  id : String := ""
  name : String := ""
  arguments : String := ""

/-- A choice of a chunk. -/
structure Choice where
  content : String := ""
  toolCalls : List ToolDelta := []
  finishReason : String := ""

/-- The usage that a chunk reports. -/
structure ChunkUsage where
  (promptTokens completionTokens totalTokens : Int)
  /-- The cached tokens, when the details are given. -/
  cachedTokens : Option Int

/-- A chunk of the stream. -/
structure Chunk where
  id : String := ""
  model : String := ""
  systemFingerprint : String := ""
  choices : List Choice := []
  usage : Option ChunkUsage := none

/-- The data of one server event: the end marker, or the outcome of decoding a chunk. -/
inductive ServerData
  | done
  | chunk (decoded : Result Chunk)

/-! ### What is passed on -/

/-- Why a response ended. -/
inductive StopReason
  | completed | maximumTokens | toolCalls | safety | canceled | error | unknown

/-- The usage passed on. -/
structure Usage where
  known : Bool := false
  inputTokens : Int := 0
  cachedInputTokens : Int := 0
  outputTokens : Int := 0

/-- What identifies the response. -/
structure ResponseMetadata where
  responseID : String := ""
  fingerprint : String := ""

/-- A complete tool call. -/
structure ToolCall where
  (id name arguments : String)

/-- The end of a response. -/
structure FinalResponse where
  revision : String
  stopReason : Option StopReason
  usage : Usage
  metadata : ResponseMetadata
  partialEffect : PartialEffectEvidence

/-- What is passed on. -/
inductive StreamEvent
  | textDelta (text : String)
  | toolCallDelta (index : Int) (id name argumentsFragment : String)
  | toolCall (call : ToolCall)
  | usage (usage : Usage)
  | metadata (metadata : ResponseMetadata)
  | final (response : FinalResponse)

/-! ### The state of a stream -/

/-- What is known of a tool call so far. -/
structure ToolState where
  id : String := ""
  name : String := ""
  arguments : String := ""

/-- One more piece of a call. -/
def ToolState.add (tool : ToolState) (delta : ToolDelta) : ToolState where
  id := if delta.id = "" then tool.id else delta.id
  name := if delta.name = "" then tool.name else delta.name
  arguments := tool.arguments ++ delta.arguments

/-- The tool calls under way, by index. -/
abbrev ToolTable := AList fun _ : Int => ToolState

/-- Add a piece to the call of its index. -/
def ToolTable.add : ToolTable → ToolDelta → ToolTable := assemble ToolDelta.index {} ToolState.add

/-- The state of a stream, with the events passed on so far. -/
structure StreamState where
  revision : String := ""
  usage : Usage := {}
  stop : Option StopReason := none
  metadata : ResponseMetadata := {}
  partialEffect : PartialEffectEvidence := {}
  tools : ToolTable := ∅
  started : Bool := false
  done : Bool := false
  metadataSent : Bool := false
  events : List StreamEvent := []

/-- The order in which a range over the table of tool calls visits the indices. -/
structure Visits where
  visit : ToolTable → List Int
  perm : ∀ tools, (visit tools).Perm tools.keys

/-- A part of the handling of a server event. -/
abbrev Handler := Effect StreamState Failure

/-- The stop reason of a finish reason. -/
def normalizeStop : String → StopReason
  | "stop" => .completed
  | "length" => .maximumTokens
  | "tool_calls" => .toolCalls
  | "function_call" => .toolCalls
  | "content_filter" => .safety
  | _ => .unknown

namespace StreamState

/-- Pass on an event. -/
def send (event : StreamEvent) (state : StreamState) : StreamState :=
  { state with events := state.events ++ [event] }

@[simp] theorem send_tools (event : StreamEvent) (state : StreamState) :
    (state.send event).tools = state.tools := rfl

/-- The state with the identifying fields of a chunk. -/
def withHeader (value : Chunk) (state : StreamState) : StreamState :=
  { state with
    started := true
    partialEffect := { state.partialEffect with providerAck := true }
    revision := if value.model = "" then state.revision else value.model
    metadata := {
      responseID := if value.id = "" then state.metadata.responseID else value.id
      fingerprint :=
        if value.systemFingerprint = "" then state.metadata.fingerprint
        else value.systemFingerprint } }

/-- The identifying fields of a chunk, and the metadata event once they are known. -/
def noteHeader (value : Chunk) (state : StreamState) : StreamState :=
  let noted := state.withHeader value
  if state.metadataSent = false ∧ (noted.metadata.responseID ≠ "" ∨ value.model ≠ "") then
    { noted with metadataSent := true }.send (.metadata noted.metadata)
  else noted

/-- The usage of a chunk. -/
def noteUsage : Option ChunkUsage → Handler Unit
  | none => pure ()
  | some usage => do
    .lift (ensure (0 ≤ usage.promptTokens ∧ 0 ≤ usage.completionTokens ∧ 0 ≤ usage.totalTokens ∧
        usage.cachedTokens.all fun cached => 0 ≤ cached)
      (.new "OpenAI-compatible usage must not be negative"))
    .modify fun state =>
      let noted : Usage := {
        known := true
        inputTokens := usage.promptTokens
        outputTokens := usage.completionTokens
        cachedInputTokens := usage.cachedTokens.getD state.usage.cachedInputTokens }
      { state with usage := noted }.send (.usage noted)

/-- A piece of text. -/
def noteContent (content : String) (state : StreamState) : StreamState :=
  if content = "" then state
  else
    { state with
      partialEffect := { state.partialEffect with streamedOutput := true } }.send
      (.textDelta content)

/-- A piece of a tool call. -/
def noteDelta (state : StreamState) (delta : ToolDelta) : StreamState :=
  let tools := ToolTable.add state.tools delta
  let tool := (tools.lookup delta.index).getD {}
  { state with
    tools
    partialEffect := { state.partialEffect with providerAck := true } }.send
    (.toolCallDelta delta.index tool.id tool.name delta.arguments)

section Flush

variable (validJSON : String → Bool) (visits : Visits)

/-- Pass on one tool call and take it out of the table. -/
def flushCall (index : Int) : Handler Unit := do
  let tool ← .query fun state => .ok ((state.tools.lookup index).getD {})
  .lift (ensure (validJSON tool.arguments)
    (.new "OpenAI-compatible tool arguments are not complete JSON"))
  .modify fun state =>
    { state with
      partialEffect := { state.partialEffect with toolCall := true }
      tools := state.tools.erase index }.send (.toolCall ⟨tool.id, tool.name, tool.arguments⟩)

/-- Pass on the tool calls of the table, in the order in which the range visits them. -/
def flushTools : Handler Unit := do
  let indices ← .query fun state => .ok (visits.visit state.tools)
  indices.forM (flushCall validJSON)

/-- Handle one choice. -/
def consumeChoice (choice : Choice) : Handler Unit := do
  .modify fun state => choice.toolCalls.foldl noteDelta (state.noteContent choice.content)
  if choice.finishReason = "" then pure ()
  else do
    .modify fun state => { state with stop := some (normalizeStop choice.finishReason) }
    flushTools validJSON visits

/-- The handler of a chunk. -/
def consume (decoded : Result Chunk) : Handler Unit := do
  .query fun state => ensure (state.done = false)
    (.new "OpenAI-compatible endpoint emitted data after [DONE]")
  let value ← .lift decoded
  .lift (ensure (value.id ≠ "" ∨ value.model ≠ "" ∨ value.choices ≠ [] ∨ value.usage ≠ none)
    (.new "OpenAI-compatible stream chunk has no recognized fields"))
  .modify (noteHeader value)
  noteUsage value.usage
  value.choices.forM (consumeChoice validJSON visits)

end Flush

/-- The handler of the end marker. -/
def markDone : Handler Unit := do
  .query fun state => ensure (state.done = false)
    (.new "OpenAI-compatible endpoint emitted duplicate [DONE]")
  .query fun state => ensure (state.started = true)
    (.new "OpenAI-compatible endpoint ended before any response chunk")
  .query fun state => ensure (state.tools.keys = [])
    (.new "OpenAI-compatible endpoint ended with an incomplete tool call")
  .modify fun state => { state with done := true }

/-- The last event of a stream. -/
def finalResponse (state : StreamState) : FinalResponse where
  revision := state.revision
  stopReason := state.stop
  usage := state.usage
  metadata := state.metadata
  partialEffect := { state.partialEffect with lastSequence := state.events.length }

end StreamState

open StreamState

section Run

variable (validJSON : String → Bool) (visits : Visits)

/-- Handle one message of the server. -/
def handle : ServerData → Handler Unit
  | .done => markDone
  | .chunk decoded => consume validJSON visits decoded

/-- A whole stream of server events, up to the final event. -/
def runStream (data : List ServerData) : Handler Unit := do
  data.forM (handle validJSON visits)
  .query fun state => ensure (state.done = true)
    (.new "OpenAI-compatible stream ended without [DONE]")
  .modify fun state => state.send (.final state.finalResponse)

end Run

end Codeflux.Providers
