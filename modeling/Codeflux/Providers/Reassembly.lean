import Mathlib.Data.List.Perm.Basic
import Mathlib.Data.List.Sort
import Codeflux.Providers.OpenCompat

/-!
# A response is reassembled from its fragments, up to the order of its tool calls

A stream represents a response when its pieces make up the text and each tool call, in whatever way
they are cut and interleaved over the chunks, and the last choice of the last chunk has the finish
reason. The calls come in the order in which the range over the table visits their indices, which
need not be ascending.
-/

namespace Codeflux.Providers

open Library Go StreamState
open List hiding concat

/-! ### Responses and their streams -/

/-- A tool call of a response, with its index in the stream. -/
structure IndexedCall where
  index : Int
  (id name arguments : String)

/-- The call as it is passed on. -/
def IndexedCall.toToolCall (call : IndexedCall) : ToolCall := ⟨call.id, call.name, call.arguments⟩

/-- A logical response. -/
structure Response where
  text : String
  calls : List IndexedCall

/-- Distinct indices, ids and names, and arguments that are JSON texts. -/
structure Response.Valid (validJSON : String → Bool) (response : Response) : Prop where
  indices : (response.calls.map (·.index)).Nodup
  ids : (response.calls.map (·.id)).Nodup
  names : (response.calls.map (·.name)).Nodup
  arguments : ∀ call ∈ response.calls, validJSON call.arguments = true

/-- The pieces of tool calls. -/
def deltas (choices : List Choice) : List ToolDelta := choices.flatMap (·.toolCalls)

/-- The pieces of the call with the given index. -/
def piecesOf (index : Int) (choices : List Choice) : List ToolDelta :=
  (deltas choices).filter (·.index = index)

/-- The chunks carry the response: their pieces make up its text and its calls, each call's id and
name are on some piece of it and on no piece wrong, and only the last choice has a finish reason. -/
structure Represents (response : Response) (chunks : List Chunk) : Prop where
  text : concat ((chunks.flatMap (·.choices)).map (·.content)) = response.text
  known : ∀ delta ∈ deltas (chunks.flatMap (·.choices)), ∃ call ∈ response.calls,
    call.index = delta.index
  ids : ∀ call ∈ response.calls, ∀ delta ∈ piecesOf call.index (chunks.flatMap (·.choices)),
    delta.id = "" ∨ delta.id = call.id
  names : ∀ call ∈ response.calls, ∀ delta ∈ piecesOf call.index (chunks.flatMap (·.choices)),
    delta.name = "" ∨ delta.name = call.name
  identified : ∀ call ∈ response.calls,
    ∃ delta ∈ piecesOf call.index (chunks.flatMap (·.choices)), delta.id = call.id
  named : ∀ call ∈ response.calls,
    ∃ delta ∈ piecesOf call.index (chunks.flatMap (·.choices)), delta.name = call.name
  arguments : ∀ call ∈ response.calls,
    concat ((piecesOf call.index (chunks.flatMap (·.choices))).map (·.arguments)) = call.arguments
  finished : ∃ earlier last choices finish, chunks = earlier ++ [last] ∧
    last.choices = choices ++ [finish] ∧ finish.finishReason ≠ "" ∧
    ∀ choice ∈ earlier.flatMap (·.choices) ++ choices, choice.finishReason = ""
  recognized : ∀ chunk ∈ chunks,
    chunk.id ≠ "" ∨ chunk.model ≠ "" ∨ chunk.choices ≠ [] ∨ chunk.usage ≠ none
  usage : ∀ chunk ∈ chunks, ∀ usage, chunk.usage = some usage →
    0 ≤ usage.promptTokens ∧ 0 ≤ usage.completionTokens ∧ 0 ≤ usage.totalTokens ∧
      usage.cachedTokens.all (fun cached => 0 ≤ cached) = true

/-- The text of a delta. -/
def StreamEvent.text? : StreamEvent → Option String
  | .textDelta text => some text
  | _ => none

/-- The call of an event. -/
def StreamEvent.toolCall? : StreamEvent → Option ToolCall
  | .toolCall call => some call
  | _ => none

/-- The end of a stream. -/
def StreamEvent.final? : StreamEvent → Option FinalResponse
  | .final response => some response
  | _ => none

attribute [simp] StreamEvent.text? StreamEvent.toolCall? StreamEvent.final?

/-- The text of a list of events. -/
def textOf (events : List StreamEvent) : String := concat (events.filterMap StreamEvent.text?)

/-- The tool calls of a list of events. -/
def toolCallsOf (events : List StreamEvent) : List ToolCall :=
  events.filterMap StreamEvent.toolCall?

/-- The final responses of a list of events. -/
def finalsOf (events : List StreamEvent) : List FinalResponse :=
  events.filterMap StreamEvent.final?

/-- What a stream state amounts to: the table, and text, calls and finals passed on so far. -/
structure Outline where
  tools : ToolTable := ∅
  text : String := ""
  calls : List ToolCall := []
  finals : List FinalResponse := []
  done : Bool := false

/-- The outline of a state. -/
def StreamState.outline (state : StreamState) : Outline where
  tools := state.tools
  text := textOf state.events
  calls := toolCallsOf state.events
  finals := finalsOf state.events
  done := state.done

namespace Outline

/-- The pieces of a choice. -/
def add (outline : Outline) (choice : Choice) : Outline :=
  { outline with
    text := outline.text ++ choice.content
    tools := choice.toolCalls.foldl ToolTable.add outline.tools }

/-- The call that the table holds for an index. -/
def callAt (outline : Outline) (index : Int) : ToolCall :=
  let tool := (outline.tools.lookup index).getD {}
  ⟨tool.id, tool.name, tool.arguments⟩

/-- The table flushed into calls. -/
def flush (visits : Visits) (outline : Outline) : Outline :=
  { outline with
    tools := ∅
    calls := outline.calls ++ (visits.visit outline.tools).map outline.callAt }

theorem foldl_add (outline : Outline) (choices : List Choice) :
    choices.foldl add outline =
      { outline with
        text := outline.text ++ concat (choices.map (·.content))
        tools := (deltas choices).foldl ToolTable.add outline.tools } := by
  induction choices generalizing outline with
  | nil => simp [deltas]
  | cons choice rest ih =>
    rw [foldl_cons, ih]
    simp [add, deltas, String.append_assoc]

end Outline

/-! ### What the handlers do to the outline -/

theorem outline_send (state : StreamState) (event : StreamEvent) :
    (state.send event).outline =
      { state.outline with
        text := state.outline.text ++ concat event.text?.toList
        calls := state.outline.calls ++ event.toolCall?.toList
        finals := state.outline.finals ++ event.final?.toList } := by
  cases event <;> simp [outline, send, textOf, toolCallsOf, finalsOf, filterMap_cons]

@[simp] theorem outline_noteHeader (value : Chunk) (state : StreamState) :
    (state.noteHeader value).outline = state.outline := by
  unfold noteHeader
  simp only
  split_ifs
  · rw [outline_send]
    simp [outline, withHeader]
  · rfl

@[simp] theorem started_noteHeader (value : Chunk) (state : StreamState) :
    (state.noteHeader value).started = true := by
  unfold noteHeader
  simp only
  split_ifs <;> rfl

theorem outline_noteContent (content : String) (state : StreamState) :
    (state.noteContent content).outline =
      { state.outline with text := state.outline.text ++ content } := by
  unfold noteContent
  split_ifs with hempty
  · simp [hempty]
  · rw [outline_send]
    simp [outline]

theorem outline_foldl_noteDelta (state : StreamState) (pieces : List ToolDelta) :
    (pieces.foldl noteDelta state).outline =
      { state.outline with tools := pieces.foldl ToolTable.add state.outline.tools } := by
  induction pieces generalizing state with
  | nil => rfl
  | cons piece rest ih =>
    rw [foldl_cons, ih, noteDelta, outline_send, foldl_cons]
    simp [outline]

/-- The state has the given outline, and a chunk has arrived. -/
def Shows (outline : Outline) (state : StreamState) : Prop :=
  state.outline = outline ∧ state.started = true

/-- No error is possible. -/
def Never : Failure → StreamState → Prop := fun _ _ => False

section Handlers

variable {validJSON : String → Bool} {visits : Visits} {outline : Outline} {chunk : Chunk}

/-- The chunk says something, and counts no negative usage. -/
def Legible (chunk : Chunk) : Prop :=
  (chunk.id ≠ "" ∨ chunk.model ≠ "" ∨ chunk.choices ≠ [] ∨ chunk.usage ≠ none) ∧
    ∀ usage, chunk.usage = some usage →
      0 ≤ usage.promptTokens ∧ 0 ≤ usage.completionTokens ∧ 0 ≤ usage.totalTokens ∧
        usage.cachedTokens.all (fun cached => 0 ≤ cached) = true

theorem noteUsage_outline (h : Legible chunk) :
    Triple (Shows outline) (noteUsage chunk.usage) (fun _ => Shows outline) Never := by
  cases husage : chunk.usage with
  | none => exact Triple.pure fun _ hs => hs
  | some usage =>
    rw [noteUsage, ensure_of (h.2 usage husage)]
    refine Triple.modify fun state hs => ⟨?_, hs.2⟩
    rw [outline_send, ← hs.1]
    simp [StreamState.outline]

theorem started_noteContent (content : String) (state : StreamState) :
    (state.noteContent content).started = state.started := by
  unfold noteContent
  split_ifs <;> rfl

theorem started_foldl_noteDelta (state : StreamState) (pieces : List ToolDelta) :
    (pieces.foldl noteDelta state).started = state.started := by
  induction pieces generalizing state with
  | nil => rfl
  | cons piece rest ih => exact ih (state.noteDelta piece)

theorem shows_add {state : StreamState} (hs : Shows outline state) (choice : Choice) :
    Shows (outline.add choice)
      (choice.toolCalls.foldl noteDelta (state.noteContent choice.content)) := by
  constructor
  · rw [outline_foldl_noteDelta, outline_noteContent, hs.1]
    rfl
  · rw [started_foldl_noteDelta, started_noteContent, hs.2]

theorem consumeChoice_plain {choice : Choice} (h : choice.finishReason = "") :
    Triple (Shows outline) (consumeChoice validJSON visits choice)
      (fun _ => Shows (outline.add choice)) Never := by
  intro state hs
  rw [consumeChoice, Effect.modify_bind, if_pos h]
  exact shows_add hs choice

/-- After the calls `flushed` of the table have been passed on, the indices `rest` are left. -/
structure Flushing (outline : Outline) (flushed rest : List Int) (state : StreamState) : Prop where
  outline_eq : state.outline =
    { outline with
      tools := state.tools
      calls := outline.calls ++ flushed.map outline.callAt }
  started : state.started = true
  lookup : ∀ index ∈ rest, state.tools.lookup index = outline.tools.lookup index
  mem_iff : ∀ index, index ∈ state.tools ↔ index ∈ rest

variable {flushed rest : List Int}

theorem flushCall_flushing {index : Int} (hnodup : index ∉ rest)
    (hjson : validJSON (outline.callAt index).arguments = true) :
    Triple (Flushing outline flushed (index :: rest)) (flushCall validJSON index)
      (fun _ => Flushing outline (flushed ++ [index]) rest) Never := by
  intro state hs
  have hcomplete : validJSON ((state.tools.lookup index).getD {}).arguments = true := by
    rwa [hs.lookup index mem_cons_self]
  rw [flushCall, Effect.query_bind, Effect.lift_bind rfl, Effect.lift_bind (ensure_of hcomplete _),
    hs.lookup index mem_cons_self]
  refine ⟨?_, hs.started, ?_, ?_⟩
  · have houtline := hs.outline_eq
    simp only [StreamState.outline, Outline.mk.injEq] at houtline
    obtain ⟨-, htext, hcalls, hfinals, hdone⟩ := houtline
    rw [outline_send]
    simp [StreamState.outline, send, htext, hcalls, hfinals, hdone, Outline.callAt]
  · intro other hother
    rw [send_tools, AList.lookup_erase_ne (ne_of_mem_of_not_mem hother hnodup)]
    exact hs.lookup other (mem_cons_of_mem _ hother)
  · intro other
    rw [send_tools, AList.mem_erase, hs.mem_iff, mem_cons]
    constructor
    · rintro ⟨hne, heq | hmem⟩
      · exact absurd heq hne
      · exact hmem
    · intro hmem
      exact ⟨ne_of_mem_of_not_mem hmem hnodup, .inr hmem⟩

theorem flushCalls_flushing (hnodup : rest.Nodup)
    (hjson : ∀ index ∈ rest, validJSON (outline.callAt index).arguments = true) :
    Triple (Flushing outline flushed rest) (rest.forM (flushCall validJSON))
      (fun _ => Flushing outline (flushed ++ rest) []) Never := by
  induction rest generalizing flushed with
  | nil =>
    refine Triple.pure fun state hs => ?_
    rwa [append_nil]
  | cons index rest ih =>
    rw [nodup_cons] at hnodup
    rw [forall_mem_cons] at hjson
    refine (flushCall_flushing hnodup.1 hjson.1).bind fun _ => ?_
    rw [append_cons flushed index rest]
    exact ih hnodup.2 hjson.2

/-- **A flush passes on the calls of the table in the order of the range over it.** -/
theorem flushTools_outline
    (hjson : ∀ index ∈ outline.tools, validJSON (outline.callAt index).arguments = true) :
    Triple (Shows outline) (flushTools validJSON visits)
      (fun _ => Shows (outline.flush visits)) Never := by
  have hvisit : ∀ index, index ∈ visits.visit outline.tools ↔ index ∈ outline.tools := fun index =>
    (visits.perm outline.tools).mem_iff.trans AList.mem_keys.symm
  intro state hs
  have htools : state.tools = outline.tools := congrArg Outline.tools hs.1
  have hstart : Flushing outline [] (visits.visit outline.tools) state := by
    refine ⟨?_, hs.2, fun index _ => by rw [htools], fun index => by rw [htools, hvisit]⟩
    rw [map_nil, append_nil, htools]
    exact hs.1
  have hnodup : (visits.visit outline.tools).Nodup :=
    (visits.perm outline.tools).nodup_iff.2 outline.tools.keys_nodup
  rw [flushTools, Effect.query_bind, htools, Effect.lift_bind rfl]
  refine (flushCalls_flushing hnodup fun index hindex =>
    hjson index ((hvisit index).1 hindex)).conseq (fun _ h => h) ?_ (fun _ _ h => h) state hstart
  intro _ state hflushed
  refine ⟨?_, hflushed.started⟩
  have hempty : state.tools = ∅ := by
    refine AList.ext (eq_nil_iff_forall_not_mem.2 fun entry hentry => ?_)
    have hmem : entry.1 ∈ state.tools := mem_map_of_mem hentry
    exact not_mem_nil ((hflushed.mem_iff entry.1).1 hmem)
  rw [hflushed.outline_eq, hempty]
  rfl

theorem consumeChoice_finish {choice : Choice} (h : choice.finishReason ≠ "")
    (hjson : ∀ index ∈ (outline.add choice).tools,
      validJSON ((outline.add choice).callAt index).arguments = true) :
    Triple (Shows outline) (consumeChoice validJSON visits choice)
      (fun _ => Shows ((outline.add choice).flush visits)) Never := by
  intro state hs
  rw [consumeChoice, Effect.modify_bind, if_neg h, Effect.modify_bind]
  exact flushTools_outline hjson _ (shows_add hs choice)

theorem choices_plain {choices : List Choice} (h : ∀ choice ∈ choices, choice.finishReason = "") :
    Triple (Shows outline) (choices.forM (consumeChoice validJSON visits))
      (fun _ => Shows (choices.foldl Outline.add outline)) Never := by
  induction choices generalizing outline with
  | nil => exact Triple.pure fun _ hs => hs
  | cons choice rest ih =>
    rw [forall_mem_cons] at h
    exact (consumeChoice_plain h.1).bind fun _ => ih h.2

theorem consume_outline {after : Outline} (hopen : outline.done = false) (hlegible : Legible chunk)
    (hchoices : Triple (Shows outline) (chunk.choices.forM (consumeChoice validJSON visits))
      (fun _ => Shows after) Never) :
    Triple (fun state => state.outline = outline) (consume validJSON visits (.ok chunk))
      (fun _ => Shows after) Never := by
  intro state hs
  have hstate : state.done = false := (congrArg Outline.done hs).trans hopen
  rw [consume, Effect.query_bind, Effect.lift_bind (ensure_of hstate _), Effect.lift_bind rfl,
    Effect.lift_bind (ensure_of hlegible.1 _), Effect.modify_bind]
  exact (noteUsage_outline hlegible).bind (fun _ => hchoices) _
    ⟨(outline_noteHeader chunk state).trans hs, started_noteHeader chunk state⟩

variable {chunks : List Chunk}

theorem chunks_plain (hopen : outline.done = false)
    (hplain : ∀ choice ∈ chunks.flatMap (·.choices), choice.finishReason = "")
    (hlegible : ∀ chunk ∈ chunks, Legible chunk) :
    Triple (fun state => state.outline = outline)
      ((chunks.map fun chunk => ServerData.chunk (.ok chunk)).forM (handle validJSON visits))
      (fun _ state => state.outline = (chunks.flatMap (·.choices)).foldl Outline.add outline)
      Never := by
  induction chunks generalizing outline with
  | nil => exact Triple.pure fun _ hs => hs
  | cons chunk rest ih =>
    rw [flatMap_cons, foldl_append]
    rw [forall_mem_cons] at hlegible
    rw [flatMap_cons, forall_mem_append] at hplain
    have hfirst : Triple (fun state => state.outline = outline)
        (consume validJSON visits (.ok chunk))
        (fun _ => Shows (chunk.choices.foldl Outline.add outline)) Never :=
      consume_outline hopen hlegible.1 (choices_plain hplain.1)
    refine Triple.bind (hfirst.conseq (fun _ h => h) (fun _ _ h => h.1) fun _ _ h => h) fun _ => ?_
    refine ih ?_ hplain.2 hlegible.2
    rw [Outline.foldl_add, hopen]

theorem markDone_outline (hopen : outline.done = false) (hempty : outline.tools = ∅) :
    Triple (Shows outline) markDone (fun _ state => state.outline = { outline with done := true })
      Never := by
  intro state hs
  have hstate : state.done = false := (congrArg Outline.done hs.1).trans hopen
  have hkeys : state.tools.keys = [] := by
    rw [show state.tools = ∅ from (congrArg Outline.tools hs.1).trans hempty]
    rfl
  rw [markDone, Effect.query_bind, Effect.lift_bind (ensure_of hstate _), Effect.query_bind,
    Effect.lift_bind (ensure_of hs.2 _), Effect.query_bind,
    Effect.lift_bind (ensure_of hkeys _), ← hs.1]
  rfl

/-- What the chunks amount to before the flush. -/
def collected (chunks : List Chunk) : Outline :=
  (chunks.flatMap (·.choices)).foldl Outline.add {}

theorem collected_eq (chunks : List Chunk) :
    collected chunks =
      { text := concat ((chunks.flatMap (·.choices)).map (·.content))
        tools := (deltas (chunks.flatMap (·.choices))).foldl ToolTable.add ∅ } := by
  rw [collected, Outline.foldl_add]
  simp

/-- What a whole stream amounts to. -/
def ended (visits : Visits) (chunks : List Chunk) : Outline :=
  { (collected chunks).flush visits with done := true }

/-- The server events of a stream of chunks. -/
def serverData (chunks : List Chunk) : List ServerData :=
  (chunks.map fun chunk => ServerData.chunk (.ok chunk)) ++ [.done]

/-- The chunks of a response lead to the flushed outline of their pieces. -/
theorem chunks_outline {response : Response} (hrepresents : Represents response chunks)
    (hjson : ∀ index ∈ (collected chunks).tools,
      validJSON ((collected chunks).callAt index).arguments = true) :
    Triple (fun state => state.outline = {})
      ((chunks.map fun chunk => ServerData.chunk (.ok chunk)).forM (handle validJSON visits))
      (fun _ => Shows ((collected chunks).flush visits)) Never := by
  obtain ⟨earlier, last, choices, finish, rfl, hlast, hfinish, hplain⟩ := hrepresents.finished
  rw [forall_mem_append] at hplain
  have hlegible : ∀ chunk ∈ earlier ++ [last], Legible chunk := fun chunk hchunk =>
    ⟨hrepresents.recognized chunk hchunk, hrepresents.usage chunk hchunk⟩
  rw [forall_mem_append] at hlegible
  have hcollected : collected (earlier ++ [last]) =
      (choices.foldl Outline.add (collected earlier)).add finish := by
    simp [collected, hlast, foldl_append]
  have hopen : (collected earlier).done = false := by rw [collected_eq]
  rw [hcollected] at hjson ⊢
  rw [map_append]
  refine Triple.forM_append
    (chunks_plain rfl hplain.1 hlegible.1)
    (Triple.bind (consume_outline hopen (hlegible.2 last (by simp)) ?_) fun _ =>
      Triple.pure fun _ hs => hs)
  rw [hlast]
  exact Triple.forM_append (choices_plain hplain.2)
    ((consumeChoice_finish hfinish hjson).bind fun _ => Triple.pure fun _ hs => hs)

/-- **A stream that represents a response ends with the flushed outline of its pieces, and then the
final event.** -/
theorem runStream_outline (visits : Visits) {response : Response}
    (hrepresents : Represents response chunks) (hjson : ∀ index ∈ (collected chunks).tools,
      validJSON ((collected chunks).callAt index).arguments = true) :
    ∃ (state : StreamState) (final : FinalResponse),
      runStream validJSON visits (serverData chunks) {} =
          (.ok (), state.send (.final final)) ∧
        state.outline = ended visits chunks := by
  have hopen : ((collected chunks).flush visits).done = false := by rw [collected_eq]; rfl
  have hdata : Triple (fun state => state.outline = {})
      ((serverData chunks).forM (handle validJSON visits))
      (fun _ state => state.outline = ended visits chunks) Never :=
    Triple.forM_append (chunks_outline hrepresents hjson)
      ((markDone_outline hopen rfl).bind fun _ => Triple.pure fun _ hs => hs)
  have hrun : Triple (fun state => state.outline = {})
      (runStream validJSON visits (serverData chunks))
      (fun _ final => ∃ (state : StreamState) (response : FinalResponse),
        final = state.send (.final response) ∧ state.outline = ended visits chunks) Never := by
    refine hdata.bind fun _ state hs => ?_
    have hdone : state.done = true := congrArg Outline.done hs
    rw [Effect.query_bind, Effect.lift_bind (ensure_of hdone _)]
    exact ⟨state, _, rfl, hs⟩
  have hend := hrun {} rfl
  generalize runStream validJSON visits (serverData chunks) {} = outcome at hend ⊢
  rcases outcome with ⟨failure | u, final⟩
  · exact hend.elim
  · obtain ⟨state, response, rfl, houtline⟩ := hend
    exact ⟨state, response, rfl, houtline⟩

end Handlers

/-! ### The assembled calls -/

section Assembled

variable {response : Response} {chunks : List Chunk} {call : IndexedCall}

theorem foldl_add_arguments (tool : ToolState) (pieces : List ToolDelta) :
    (pieces.foldl ToolState.add tool).arguments =
      tool.arguments ++ concat (pieces.map (·.arguments)) := by
  induction pieces generalizing tool with
  | nil => simp
  | cons piece rest ih =>
    rw [foldl_cons, ih]
    simp [ToolState.add, String.append_assoc]

/-- A text that pieces carry or leave out ends up as the one they carry. -/
theorem foldl_carried (carried : ToolDelta → String) (held : ToolState → String)
    (hadd : ∀ tool piece, held (tool.add piece) =
      if carried piece = "" then held tool else carried piece) {text : String}
    {pieces : List ToolDelta} {tool : ToolState} (htool : held tool = "" ∨ held tool = text)
    (hpieces : ∀ piece ∈ pieces, carried piece = "" ∨ carried piece = text)
    (hcarried : held tool = text ∨ ∃ piece ∈ pieces, carried piece = text) :
    held (pieces.foldl ToolState.add tool) = text := by
  induction pieces generalizing tool with
  | nil => simpa using hcarried
  | cons piece rest ih =>
    rw [forall_mem_cons] at hpieces
    rw [exists_mem_cons_iff] at hcarried
    by_cases hempty : carried piece = ""
    · have hheld : held (tool.add piece) = held tool := by rw [hadd, if_pos hempty]
      refine ih (by rwa [hheld]) hpieces.2 ?_
      rw [hheld]
      obtain hdone | hhere | hlater := hcarried
      · exact .inl hdone
      · -- the text is empty, and so is what the tool holds
        rw [hempty] at hhere
        subst hhere
        exact .inl (htool.elim id id)
      · exact .inr hlater
    · have hheld : held (tool.add piece) = text := by
        rw [hadd, if_neg hempty]
        exact hpieces.1.resolve_left hempty
      exact ih (.inr hheld) hpieces.2 (.inl hheld)

theorem callAt_collected (hrepresents : Represents response chunks)
    (hcall : call ∈ response.calls) :
    (collected chunks).callAt call.index = call.toToolCall := by
  obtain ⟨piece, hpiece, -⟩ := hrepresents.identified call hcall
  have hpieces : piecesOf call.index (chunks.flatMap (·.choices)) ≠ [] := ne_nil_of_mem hpiece
  have hlookup : (collected chunks).tools.lookup call.index =
      some ((piecesOf call.index (chunks.flatMap (·.choices))).foldl ToolState.add {}) := by
    rw [collected_eq]
    show ((deltas _).foldl (assemble ToolDelta.index {} ToolState.add) ∅).lookup _ = _
    rw [lookup_foldl_assemble]
    exact if_neg hpieces
  generalize hassembled : (piecesOf call.index (chunks.flatMap (·.choices))).foldl
      ToolState.add {} =
    tool at hlookup
  have hid : tool.id = call.id := by
    rw [← hassembled]
    exact foldl_carried ToolDelta.id ToolState.id (fun _ _ => rfl) (.inl rfl)
      (hrepresents.ids call hcall) (.inr (hrepresents.identified call hcall))
  have hname : tool.name = call.name := by
    rw [← hassembled]
    exact foldl_carried ToolDelta.name ToolState.name (fun _ _ => rfl) (.inl rfl)
      (hrepresents.names call hcall) (.inr (hrepresents.named call hcall))
  have harguments : tool.arguments = call.arguments := by
    rw [← hassembled, foldl_add_arguments, ← hrepresents.arguments call hcall, String.empty_append]
  rw [Outline.callAt, hlookup, Option.getD_some, hid, hname, harguments]
  rfl

theorem mem_collected_iff (hrepresents : Represents response chunks) {index : Int} :
    index ∈ (collected chunks).tools ↔ index ∈ response.calls.map (·.index) := by
  rw [collected_eq]
  show index ∈ (deltas _).foldl (assemble ToolDelta.index {} ToolState.add) ∅ ↔ _
  rw [mem_foldl_assemble, mem_map]
  constructor
  · rintro (hempty | ⟨piece, hpiece, rfl⟩)
    · exact absurd hempty (AList.notMem_empty index)
    · exact hrepresents.known piece hpiece
  · rintro ⟨call, hcall, rfl⟩
    obtain ⟨piece, hpiece, -⟩ := hrepresents.identified call hcall
    rw [piecesOf, mem_filter, decide_eq_true_iff] at hpiece
    exact .inr ⟨piece, hpiece⟩

theorem exists_visited (visits : Visits) (hindices : (response.calls.map (·.index)).Nodup)
    (hrepresents : Represents response chunks) :
    ∃ visited : List IndexedCall, visited.Perm response.calls ∧
      visits.visit (collected chunks).tools = visited.map (·.index) ∧
      (visits.visit (collected chunks).tools).map (collected chunks).callAt =
        visited.map IndexedCall.toToolCall := by
  have hkeys : (collected chunks).tools.keys.Perm (response.calls.map (·.index)) := by
    rw [perm_ext_iff_of_nodup (collected chunks).tools.keys_nodup hindices]
    exact fun index => AList.mem_keys.symm.trans (mem_collected_iff hrepresents)
  have hvisit := (visits.perm (collected chunks).tools).trans hkeys
  have hlift : Relation.Comp (· = List.map IndexedCall.index ·) (·.Perm ·)
      (visits.visit (collected chunks).tools) response.calls := by
    rwa [eq_map_comp_perm]
  obtain ⟨visited, hvisited, hperm⟩ := hlift
  refine ⟨visited, hperm, hvisited, ?_⟩
  rw [hvisited, map_map, map_inj_left]
  exact fun call hcall => callAt_collected hrepresents (hperm.mem_iff.1 hcall)

end Assembled

/-! ### Reproducing the response -/

/-- The stream succeeds; before the final event its events give the text, and each call once, in
ascending order of the indices. -/
def Reproduces (response : Response) (outcome : Except Failure Unit × StreamState) : Prop :=
  ∃ events final, outcome.1 = .ok () ∧ outcome.2.events = events ++ [.final final] ∧
    finalsOf events = [] ∧ textOf events = response.text ∧
    ∃ sorted : List IndexedCall, sorted.Perm response.calls ∧
      sorted.Pairwise (fun a b => a.index < b.index) ∧
      toolCallsOf events = sorted.map IndexedCall.toToolCall

section Reproduce

variable {validJSON : String → Bool} {visits : Visits} {response : Response} {chunks : List Chunk}

/-- Whatever the order of the range, the stream succeeds and gives the text, and each call once,
before the final event. -/
theorem runStream_events (visits : Visits) (hvalid : response.Valid validJSON)
    (hrepresents : Represents response chunks) :
    ∃ events final, (runStream validJSON visits (serverData chunks) {}).1 = .ok () ∧
      (runStream validJSON visits (serverData chunks) {}).2.events = events ++ [.final final] ∧
      finalsOf events = [] ∧ textOf events = response.text ∧
      toolCallsOf events =
        (visits.visit (collected chunks).tools).map (collected chunks).callAt := by
  have hjson : ∀ index ∈ (collected chunks).tools,
      validJSON ((collected chunks).callAt index).arguments = true := by
    intro index hindex
    obtain ⟨call, hcall, rfl⟩ := mem_map.1 ((mem_collected_iff hrepresents).1 hindex)
    rw [callAt_collected hrepresents hcall]
    exact hvalid.arguments call hcall
  obtain ⟨state, final, hrun, houtline⟩ := runStream_outline visits hrepresents hjson
  rw [hrun]
  have htext := congrArg Outline.text houtline
  have hcalls := congrArg Outline.calls houtline
  have hfinals := congrArg Outline.finals houtline
  refine ⟨state.events, final, rfl, rfl, ?_, ?_, ?_⟩
  · rw [show finalsOf state.events = _ from hfinals, ended, collected_eq]
    rfl
  · rw [show textOf state.events = _ from htext, ended, collected_eq]
    exact hrepresents.text
  · rw [show toolCallsOf state.events = _ from hcalls, ended, Outline.flush, collected_eq]
    exact nil_append _

theorem eq_of_map_toToolCall (hvalid : response.Valid validJSON) {xs ys : List IndexedCall}
    (hxs : ∀ call ∈ xs, call ∈ response.calls) (hys : ∀ call ∈ ys, call ∈ response.calls)
    (h : xs.map IndexedCall.toToolCall = ys.map IndexedCall.toToolCall) : xs = ys := by
  induction xs generalizing ys with
  | nil => exact (map_eq_nil_iff.1 h.symm).symm
  | cons x xs ih =>
    cases ys with
    | nil => exact absurd h (by simp)
    | cons y ys =>
      rw [forall_mem_cons] at hxs hys
      rw [map_cons, map_cons, List.cons.injEq] at h
      rw [inj_on_of_nodup_map hvalid.ids hxs.1 hys.1 (congrArg ToolCall.id h.1),
        ih hxs.2 hys.2 h.2]

theorem ascending_of_reproduces (hvalid : response.Valid validJSON)
    (hrepresents : Represents response chunks)
    (h : Reproduces response (runStream validJSON visits (serverData chunks) {})) :
    (visits.visit (collected chunks).tools).Pairwise (· < ·) := by
  obtain ⟨events, final, -, hevents, -, -, hcalls⟩ :=
    runStream_events visits hvalid hrepresents
  obtain ⟨events', final', -, hevents', -, -, sorted, hsorted, hascending, hcalls'⟩ := h
  rw [hevents'] at hevents
  obtain ⟨rfl, -⟩ := append_inj' hevents rfl
  obtain ⟨visited, hvisited, hvisit, hmap⟩ := exists_visited visits hvalid.indices hrepresents
  have hsame : visited.map IndexedCall.toToolCall = sorted.map IndexedCall.toToolCall := by
    rw [← hmap, ← hcalls, hcalls']
  have hequal : visited = sorted :=
    eq_of_map_toToolCall hvalid (fun _ => hvisited.mem_iff.1) (fun _ => hsorted.mem_iff.1) hsame
  rwa [hvisit, hequal, pairwise_map]

/-- **A stream that represents a response reproduces it exactly when the range over the table of
tool calls visits the indices in ascending order.** -/
theorem runStream_reproduces_iff (hvalid : response.Valid validJSON)
    (hrepresents : Represents response chunks) :
    Reproduces response (runStream validJSON visits (serverData chunks) {}) ↔
      (visits.visit (collected chunks).tools).Pairwise (· < ·) := by
  refine ⟨ascending_of_reproduces hvalid hrepresents, fun hascending => ?_⟩
  obtain ⟨events, final, hok, hevents, hfinals, htext, hcalls⟩ :=
    runStream_events visits hvalid hrepresents
  obtain ⟨visited, hvisited, hvisit, hmap⟩ := exists_visited visits hvalid.indices hrepresents
  refine ⟨events, final, hok, hevents, hfinals, htext, visited, hvisited, ?_, hcalls.trans hmap⟩
  rwa [hvisit, pairwise_map] at hascending

end Reproduce

/-- Two calls in one response. -/
def sampleResponse : Response where
  text := "ok"
  calls := [⟨0, "call-a", "read-file", "1"⟩, ⟨1, "call-b", "apply-edit", "23"⟩]

/-- The first pieces of both calls. -/
def sampleStart : Choice where
  content := "o"
  toolCalls := [⟨0, "call-a", "read-file", ""⟩, ⟨1, "call-b", "", "2"⟩]

/-- The last pieces of both calls, and the finish reason. -/
def sampleFinish : Choice where
  content := "k"
  toolCalls := [⟨0, "", "", "1"⟩, ⟨1, "", "apply-edit", "3"⟩]
  finishReason := "tool_calls"

/-- The response in two chunks. -/
def sampleChunks : List Chunk :=
  [{ id := "r", choices := [sampleStart] }, { id := "r", choices := [sampleFinish] }]

theorem sampleResponse_valid : sampleResponse.Valid fun _ => true :=
  ⟨by decide, by decide, by decide, fun _ _ => rfl⟩

theorem sampleChunks_represent : Represents sampleResponse sampleChunks where
  text := by decide
  known := by decide
  ids := by decide
  names := by decide
  identified := by decide
  named := by decide
  arguments := by decide
  finished := ⟨[{ id := "r", choices := [sampleStart] }], { id := "r", choices := [sampleFinish] },
    [], sampleFinish, rfl, rfl, by decide, by decide⟩
  recognized := by decide
  usage := by simp [sampleChunks]

/-- The range visits the indices as they are in the table, the last one first. -/
def asFiled : Visits := ⟨AList.keys, fun _ => .refl _⟩

/-- The range visits the indices in ascending order. -/
def inOrder : Visits where
  visit tools := tools.keys.insertionSort (· ≤ ·)
  perm tools := perm_insertionSort _ tools.keys

theorem inOrder_reproduces :
    (sampleResponse.Valid (fun _ => true) ∧ Represents sampleResponse sampleChunks) ∧
      Reproduces sampleResponse (runStream (fun _ => true) inOrder (serverData sampleChunks) {}) :=
  ⟨⟨sampleResponse_valid, sampleChunks_represent⟩,
    (runStream_reproduces_iff sampleResponse_valid sampleChunks_represent).2 (by decide)⟩

/-- The flush passes on the call with index 1 before the call with index 0. -/
theorem asFiled_not_reproduces :
    (sampleResponse.Valid (fun _ => true) ∧ Represents sampleResponse sampleChunks) ∧
      ¬Reproduces sampleResponse
        (runStream (fun _ => true) asFiled (serverData sampleChunks) {}) := by
  refine ⟨⟨sampleResponse_valid, sampleChunks_represent⟩, fun h => ?_⟩
  exact absurd (ascending_of_reproduces sampleResponse_valid sampleChunks_represent h)
    (by decide)

end Codeflux.Providers
