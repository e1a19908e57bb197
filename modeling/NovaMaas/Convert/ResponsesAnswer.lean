/-
  Whole answers between chat completions and the Responses API
  (relaykit/relayconvert/internal/oai_chat/to_oai_responses_resp.go and .../oai_responses/to_oai_chat_resp.go).

  One way, the text, the reasoning and the tool calls of the first choice become output items; the other way they are
  read out of the items again by their types.  Where no message item has a text, the texts of all items stand in for it.
-/
import NovaMaas.Convert.ChatMessage
import NovaMaas.Convert.ChatToResponses
import NovaMaas.Convert.ResponsesToChat

namespace NovaMaas.Convert

/-! ## From chat completions -/

def ResponsesOutputType.ofString : String → ResponsesOutputType
  | "message" => .message
  | "reasoning" => .reasoning
  | "function_call" => .functionCall
  | "custom_tool_call" => .customToolCall
  | name => .other name

/-- `responseOutputStatus`. -/
def responseOutputStatus {τ : Type} (resp : OpenAIResponsesResponse τ) : String :=
  if trimSpace resp.status ≠ "incomplete" then "completed" else "incomplete"

def chatToolCallToResponsesOutput (toolCall : ToolCallRequest String) (responseID : String) (index : ℕ)
    (status : String) : ResponsesOutput String :=
  let callID := if trimSpace toolCall.id = "" then responseID ++ "_call_" ++ toString index else trimSpace toolCall.id
  if toolCall.type = "" ∨ toolCall.type = "function" then
    { type := .functionCall, id := callID, status := status, callId := callID, name := toolCall.name
      arguments := toolCall.arguments }
  else
    { type := .ofString toolCall.type, id := callID, status := status, callId := callID, arguments := toolCall.custom }

/-- The output items of a message: its text, its reasoning, and its calls. -/
def outputOfMessage (message : Message String) (id status : String) : List (ResponsesOutput String) :=
  (if message.stringContent ≠ "" then
    [{ type := .message, id := id ++ "_msg_0", status := status, role := "assistant"
       content := [⟨"output_text", message.stringContent⟩], arguments := "" }]
  else []) ++
  (if message.getReasoningContent ≠ "" then
    [{ type := .reasoning, id := id ++ "_reasoning_0", status := status
       content := [⟨"summary_text", message.getReasoningContent⟩], arguments := "" }]
  else []) ++
  message.parseToolCalls.zipIdx.map fun p => chatToolCallToResponsesOutput p.1 id p.2 status

open ChatToResponsesStreamState in
/-- `ChatCompletionsResponseToResponsesResponse`. -/
def chatCompletionsResponseToResponsesResponse (resp : Option (OpenAITextResponse String)) (id : String) :
    Except String (OpenAIResponsesResponse String × Usage) :=
  match resp with
  | none => .error "response is nil"
  | some resp =>
    let usage := usageFromChatUsage resp.usage
    let out : OpenAIResponsesResponse String :=
      { id := id, createdAt := resp.created, status := "completed", model := resp.model, usage := some usage }
    match resp.choices.head? with
    | none => .ok (out, usage)
    | some choice =>
      let out := { out with
        status := (statusFromChatFinishReason choice.finishReason).1
        incompleteDetails := (statusFromChatFinishReason choice.finishReason).2 }
      .ok ({ out with output := outputOfMessage choice.message id (responseOutputStatus out) }, usage)

/-! ## To chat completions -/

/-- `UsageFromResponsesUsage`; of the details of the input no converter here reads back any. -/
def usageFromResponsesUsage (src : Option Usage) : Usage :=
  match src with
  | none => {}
  | some src =>
    { promptTokens := src.inputTokens
      completionTokens := src.outputTokens
      inputTokens := src.inputTokens
      outputTokens := src.outputTokens
      totalTokens := if src.totalTokens ≠ 0 then src.totalTokens else src.inputTokens + src.outputTokens
      claudeCacheCreation5mTokens := src.claudeCacheCreation5mTokens
      claudeCacheCreation1hTokens := src.claudeCacheCreation1hTokens
      usageSemantic := src.usageSemantic }

section
variable {τ : Type} [Inhabited τ] [Append τ] [DecidableEq τ]

/-- The texts of the messages of an assistant, or of messages that do not say whose they are. -/
def messageTexts (output : List (ResponsesOutput τ)) : List τ :=
  (output.filter fun out => out.type = .message ∧ (out.role = "" ∨ out.role = "assistant")).flatMap fun out =>
    (out.content.filter fun c => c.type = "output_text").map ResponsesOutputContent.text

/-- The texts of all items. -/
def allTexts (output : List (ResponsesOutput τ)) : List τ :=
  output.flatMap fun out => out.content.map ResponsesOutputContent.text

/-- `ExtractOutputTextFromResponses`. -/
def extractOutputTextFromResponses (resp : OpenAIResponsesResponse τ) : τ :=
  if joinText (messageTexts resp.output) ≠ default then joinText (messageTexts resp.output)
  else joinText (allTexts resp.output)

/-- `ExtractReasoningTextFromResponses`. -/
def extractReasoningTextFromResponses (resp : OpenAIResponsesResponse τ) : τ :=
  joinText (allTexts (resp.output.filter fun out => out.type = .reasoning))

/-- The tool call of an item, if it is one and has a name. -/
def toolCallOfOutput (out : ResponsesOutput τ) : Option (ToolCallRequest τ) :=
  if isResponsesToolOutputType out.type = false ∨ trimSpace out.name = "" then none
  else some
    { id := if trimSpace out.callId = "" then trimSpace out.id else trimSpace out.callId
      type := "function"
      name := trimSpace out.name
      arguments := out.arguments
      custom := default }

/-- `ResponsesResponseToChatCompletionsResponse`. -/
def responsesResponseToChatCompletionsResponse (resp : Option (OpenAIResponsesResponse τ)) (id : String) :
    Except String (OpenAITextResponse τ × Usage) :=
  match resp with
  | none => .error "response is nil"
  | some resp =>
    let text := extractOutputTextFromResponses resp
    let reasoning := extractReasoningTextFromResponses resp
    let usage := usageFromResponsesUsage resp.usage
    let toolCalls := resp.output.filterMap toolCallOfOutput
    let finishReason := match responsesFinishReasonFromStatus (some resp) with
      | some mappedReason => mappedReason
      | none => if toolCalls ≠ [] then "tool_calls" else "stop"
    .ok ({ id := id
           created := resp.createdAt
           model := resp.model
           choices := [{ message := { role := "assistant"
                                      content := .string text
                                      reasoningContent := if reasoning ≠ default then some reasoning else none
                                      toolCalls := if toolCalls ≠ [] then some toolCalls else none }
                         finishReason := finishReason }]
           usage := usage }, usage)

end

end NovaMaas.Convert
