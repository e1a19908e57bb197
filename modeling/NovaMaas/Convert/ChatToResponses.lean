/-
  From a chat stream to a Responses event stream
  (relaykit/relayconvert/internal/oai_chat/to_oai_responses_stream_resp.go).

  The state gathers the answer beside the events it sends: the text, the reasoning, and the tool calls by their chat
  index, each with the flags of its life, and `outputOrder`, the order in which the items were added.  The items that
  are open are done when a finish reason is read, and what is left when the stream is finalized; the final response is
  built from the gathered texts.

  The indexes of a content part or a summary part in its item are 0 throughout and are not modelled, nor is the text
  that the end of the reasoning repeats in its part.
-/
import NovaMaas.Convert.ResponsesStream
import NovaMaas.Lib.Text

namespace NovaMaas.Convert

/-- An event of this converter. -/
abbrev ResponsesEvent := ResponsesStreamResponse String

structure ChatToResponsesStreamTool where
  chatIndex   : ℤ
  outputIndex : ℤ
  id          : String
  name        : String
  arguments   : String := ""
  done        : Bool := false
  deriving DecidableEq

/-- `chatToResponsesOutputRef`, an item of the output order. -/
inductive OutputRef where
  | message
  | reasoning
  | tool (toolIndex : ℤ)
  deriving DecidableEq

structure ChatToResponsesStreamState where
  id                : String
  model             : String
  created           : ℤ
  usage             : Usage := {}
  status            : String := "completed"
  incompleteDetails : Option String := none
  sentCreated       : Bool := false
  textOutputIndex   : ℤ := -1
  textStarted       : Bool := false
  textDone          : Bool := false
  reasoningIndex    : ℤ := -1
  reasoningStarted  : Bool := false
  reasoningDone     : Bool := false
  finalized         : Bool := false
  nextOutputIndex   : ℤ := 0
  toolsByIndex      : List ChatToResponsesStreamTool := []
  outputOrder       : List OutputRef := []
  text              : String := ""
  reasoning         : String := ""

/-- `NewChatToResponsesStreamState`, at the time `created`. -/
def newChatToResponsesStreamState (id model : String) (created : ℤ) : ChatToResponsesStreamState :=
  { id := id, model := model, created := created }

/-- The chat index of a fragment; without one it is 0. -/
def ToolCallResponse.chatIndex (toolCall : ToolCallResponse) : ℤ := toolCall.index.getD 0

/-- A tool with the id, the name and the arguments of a fragment. -/
def ChatToResponsesStreamTool.write (tool : ChatToResponsesStreamTool) (toolCall : ToolCallResponse) :
    ChatToResponsesStreamTool :=
  { tool with
    id := if trimSpace toolCall.id ≠ "" then trimSpace toolCall.id else tool.id
    name := if trimSpace toolCall.name ≠ "" then trimSpace toolCall.name else tool.name
    arguments := tool.arguments ++ toolCall.arguments }

namespace ChatToResponsesStreamState

variable (s : ChatToResponsesStreamState)

def messageID : String := s.id ++ "_msg_0"

def reasoningID : String := s.id ++ "_reasoning_0"

def outputStatus : String := if s.status = "incomplete" then "incomplete" else "completed"

def messageOutput (status : String) : ResponsesOutput String :=
  { type := .message, id := s.messageID, status := status, role := "assistant",
    content := [⟨"output_text", s.text⟩], arguments := "" }

def reasoningOutput (status : String) : ResponsesOutput String :=
  { type := .reasoning, id := s.reasoningID, status := status, content := [⟨"summary_text", s.reasoning⟩],
    arguments := "" }

/-- `nextIndex`: the state with the item added to the output order; its index is the old `nextOutputIndex`. -/
def nextIndex (ref : OutputRef) : ChatToResponsesStreamState :=
  { s with nextOutputIndex := s.nextOutputIndex + 1, outputOrder := s.outputOrder ++ [ref] }

def findTool (chatIndex : ℤ) : Option ChatToResponsesStreamTool :=
  s.toolsByIndex.find? fun t => t.chatIndex = chatIndex

/-- The tools in the order of their chat indexes. -/
def sortedTools : List ChatToResponsesStreamTool :=
  s.toolsByIndex.insertionSort fun t u => t.chatIndex ≤ u.chatIndex

def toolOutput (tool : ChatToResponsesStreamTool) (status : String) : ResponsesOutput String :=
  { type := .functionCall, id := tool.id, status := status, callId := tool.id, name := tool.name,
    arguments := tool.arguments }

/-! ## Deltas -/

/-- The message is added, unless it was. -/
def startText : List ResponsesEvent × ChatToResponsesStreamState :=
  if s.textStarted then ([], s)
  else
    ([{ type := .outputItemAdded, delta := "", outputIndex := some s.nextOutputIndex,
        item := some { type := .message, id := s.messageID, status := "in_progress", role := "assistant",
                       arguments := "" } }],
      { s.nextIndex .message with textStarted := true, textOutputIndex := s.nextOutputIndex })

def writeText (delta : String) : List ResponsesEvent × ChatToResponsesStreamState :=
  ([{ type := .outputTextDelta, delta := delta, outputIndex := some s.textOutputIndex, itemID := s.messageID }],
    { s with text := s.text ++ delta })

def appendTextDelta (delta : String) : List ResponsesEvent × ChatToResponsesStreamState :=
  let written := s.startText.2.writeText delta
  (s.startText.1 ++ written.1, written.2)

/-- The reasoning is added, unless it was. -/
def startReasoning : List ResponsesEvent × ChatToResponsesStreamState :=
  if s.reasoningStarted then ([], s)
  else
    ([{ type := .outputItemAdded, delta := "", outputIndex := some s.nextOutputIndex,
        item := some { type := .reasoning, id := s.reasoningID, status := "in_progress", arguments := "" } }],
      { s.nextIndex .reasoning with reasoningStarted := true, reasoningIndex := s.nextOutputIndex })

def writeReasoning (delta : String) : List ResponsesEvent × ChatToResponsesStreamState :=
  ([{ type := .reasoningSummaryDelta, delta := delta, outputIndex := some s.reasoningIndex, itemID := s.reasoningID }],
    { s with reasoning := s.reasoning ++ delta })

def appendReasoningDelta (delta : String) : List ResponsesEvent × ChatToResponsesStreamState :=
  let written := s.startReasoning.2.writeReasoning delta
  (s.startReasoning.1 ++ written.1, written.2)

/-- The tool a fragment opens. -/
def newTool (toolCall : ToolCallResponse) : ChatToResponsesStreamTool :=
  { chatIndex := toolCall.chatIndex
    outputIndex := s.nextOutputIndex
    id := if trimSpace toolCall.id = "" then s.id ++ "_call_" ++ toString toolCall.chatIndex else trimSpace toolCall.id
    name := trimSpace toolCall.name }

/-- The tool of a fragment is added, unless it was. -/
def startTool (toolCall : ToolCallResponse) : List ResponsesEvent × ChatToResponsesStreamState :=
  match s.findTool toolCall.chatIndex with
  | some _ => ([], s)
  | none =>
    let tool := s.newTool toolCall
    ([{ type := .outputItemAdded, delta := "", outputIndex := some tool.outputIndex, itemID := tool.id,
        item := some { type := .functionCall, id := tool.id, status := "in_progress", callId := tool.id,
                       name := tool.name, arguments := "" } }],
      { s.nextIndex (.tool toolCall.chatIndex) with toolsByIndex := s.toolsByIndex ++ [tool] })

/-- A fragment is written to its tool. -/
def writeTool (toolCall : ToolCallResponse) : List ResponsesEvent × ChatToResponsesStreamState :=
  match s.findTool toolCall.chatIndex with
  | none => ([], s)
  | some tool =>
    let tool := tool.write toolCall
    (if toolCall.arguments ≠ "" then
      [{ type := .functionArgsDelta, delta := toolCall.arguments, outputIndex := some tool.outputIndex,
         itemID := tool.id }]
    else [],
    { s with toolsByIndex := s.toolsByIndex.map fun t => if t.chatIndex = toolCall.chatIndex then tool else t })

def appendToolCallDelta (toolCall : ToolCallResponse) : List ResponsesEvent × ChatToResponsesStreamState :=
  let written := (s.startTool toolCall).2.writeTool toolCall
  ((s.startTool toolCall).1 ++ written.1, written.2)

/-! ## Done -/

/-- The two events of the end of the text. -/
def textDoneEvents : List ResponsesEvent :=
  [{ type := .outputTextDone, delta := "", outputIndex := some s.textOutputIndex, itemID := s.messageID },
    { type := .outputItemDone, delta := "", outputIndex := some s.textOutputIndex,
      item := some (s.messageOutput s.outputStatus) }]

def reasoningDoneEvents : List ResponsesEvent :=
  [{ type := .reasoningSummaryDone, delta := "", outputIndex := some s.reasoningIndex, itemID := s.reasoningID },
    { type := .outputItemDone, delta := "", outputIndex := some s.reasoningIndex,
      item := some (s.reasoningOutput s.outputStatus) }]

def toolDoneEvents (tool : ChatToResponsesStreamTool) : List ResponsesEvent :=
  [{ type := .functionArgsDone, delta := "", outputIndex := some tool.outputIndex, itemID := tool.id },
    { type := .outputItemDone, delta := "", outputIndex := some tool.outputIndex,
      item := some (toolOutput tool s.outputStatus) }]

/-- The items that are open are done. -/
def doneDeltaEvents : List ResponsesEvent × ChatToResponsesStreamState :=
  ((if s.textStarted && !s.textDone then s.textDoneEvents else []) ++
    (if s.reasoningStarted && !s.reasoningDone then s.reasoningDoneEvents else []) ++
    (s.sortedTools.filter fun tool => !tool.done).flatMap s.toolDoneEvents,
    { s with
      textDone := s.textDone || s.textStarted
      reasoningDone := s.reasoningDone || s.reasoningStarted
      toolsByIndex := s.toolsByIndex.map fun t => { t with done := true } })

/-- `ResponsesStatusFromChatFinishReason`. -/
@[irreducible] def statusFromChatFinishReason (finishReason : String) : String × Option String :=
  match trimSpace finishReason with
  | "length" => ("incomplete", some "max_output_tokens")
  | "content_filter" => ("incomplete", some "content_filter")
  | _ => ("completed", none)

def applyFinishReason (finishReason : String) : ChatToResponsesStreamState :=
  { s with
    status := (statusFromChatFinishReason finishReason).1
    incompleteDetails := (statusFromChatFinishReason finishReason).2 }

/-! ## Responses -/

def createdResponse : OpenAIResponsesResponse String :=
  { id := s.id, model := s.model, createdAt := s.created, status := "in_progress" }

/-- The item of the output order, from what was gathered. -/
def outputOf (status : String) : OutputRef → List (ResponsesOutput String)
  | .message => [s.messageOutput status]
  | .reasoning => [s.reasoningOutput status]
  | .tool toolIndex => ((s.findTool toolIndex).map fun tool => toolOutput tool status).toList

def finalResponse : OpenAIResponsesResponse String :=
  { id := s.id
    model := s.model
    createdAt := s.created
    status := s.status
    incompleteDetails := s.incompleteDetails
    output := s.outputOrder.flatMap (s.outputOf s.outputStatus)
    usage := some s.usage }

/-! ## Chunks -/

/-- The state with what a chunk says about the whole answer. -/
def readChunk (chunk : ChatChunk) : ChatToResponsesStreamState :=
  { s with
    id := if s.id = "" then chunk.id else s.id
    model := if s.model = "" then chunk.model else s.model
    created := if s.created = 0 then chunk.created else s.created
    usage := (chunk.usage.map usageFromChatUsage).getD s.usage }

def ensureCreated : List ResponsesEvent × ChatToResponsesStreamState :=
  if s.sentCreated then ([], s)
  else ([{ type := .created, delta := "", response := some s.createdResponse }], { s with sentCreated := true })

/-- The tool calls of a choice, one after the other. -/
def appendToolCalls : List ToolCallResponse → ChatToResponsesStreamState →
    List ResponsesEvent × ChatToResponsesStreamState
  | [], s => ([], s)
  | toolCall :: rest, s =>
    let one := s.appendToolCallDelta toolCall
    let more := appendToolCalls rest one.2
    (one.1 ++ more.1, more.2)

/-- A finish reason, unless it is white space, ends the items that are open. -/
def finishChoice (choice : Choice) : List ResponsesEvent × ChatToResponsesStreamState :=
  match choice.finishReason with
  | none => ([], s)
  | some reason => if trimSpace reason ≠ "" then (s.applyFinishReason reason).doneDeltaEvents else ([], s)

def appendChoice (choice : Choice) : List ResponsesEvent × ChatToResponsesStreamState :=
  let reasoning :=
    if choice.getReasoningContent ≠ "" then s.appendReasoningDelta choice.getReasoningContent else ([], s)
  let text :=
    if choice.getContentString ≠ "" then reasoning.2.appendTextDelta choice.getContentString else ([], reasoning.2)
  let tools := appendToolCalls choice.toolCalls text.2
  let finish := tools.2.finishChoice choice
  (reasoning.1 ++ text.1 ++ tools.1 ++ finish.1, finish.2)

def appendChoices : List Choice → ChatToResponsesStreamState → List ResponsesEvent × ChatToResponsesStreamState
  | [], s => ([], s)
  | choice :: rest, s =>
    let one := s.appendChoice choice
    let more := appendChoices rest one.2
    (one.1 ++ more.1, more.2)

end ChatToResponsesStreamState

open ChatToResponsesStreamState in
/-- `ChatCompletionsStreamChunkToResponsesEvents`. -/
def chatCompletionsStreamChunkToResponsesEvents (chunk : ChatChunk) (state : ChatToResponsesStreamState) :
    List ResponsesEvent × ChatToResponsesStreamState :=
  let created := (state.readChunk chunk).ensureCreated
  let choices := appendChoices chunk.choices created.2
  (created.1 ++ choices.1, choices.2)

/-- `FinalizeChatCompletionsStreamToResponses`. -/
def finalizeChatCompletionsStreamToResponses (state : ChatToResponsesStreamState) :
    List ResponsesEvent × ChatToResponsesStreamState :=
  if state.finalized then ([], state)
  else
    let dones := state.doneDeltaEvents
    let state := { dones.2 with finalized := true }
    (dones.1 ++ [{ type := if state.status = "incomplete" then .incomplete else .completed, delta := "",
                   response := some state.finalResponse }], state)

/-- All chunks of a stream, one after the other. -/
def responsesEventsOfChunks : List ChatChunk → ChatToResponsesStreamState →
    List ResponsesEvent × ChatToResponsesStreamState
  | [], s => ([], s)
  | chunk :: chunks, s =>
    let one := chatCompletionsStreamChunkToResponsesEvents chunk s
    let more := responsesEventsOfChunks chunks one.2
    (one.1 ++ more.1, more.2)

/-- The events of a whole stream. -/
def responsesStream (s : ChatToResponsesStreamState) (chunks : List ChatChunk) : List ResponsesEvent :=
  (responsesEventsOfChunks chunks s).1 ++
    (finalizeChatCompletionsStreamToResponses (responsesEventsOfChunks chunks s).2).1

end NovaMaas.Convert
