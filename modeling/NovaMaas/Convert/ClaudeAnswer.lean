/-
  Answers of the Anthropic API as chat completions
  (relaykit/relayconvert/internal/claude_messages/to_oai_chat_resp.go): a whole answer, and an answer that is streamed.

  The two are separate code.  The one for whole answers walks over the blocks with one variable for the text and one for
  the thinking, so that of several blocks of a kind the last one stays; and it looks at the first block once more by
  itself.  The one for events sends every delta on.
-/
import NovaMaas.Convert.ChatAccumulate
import NovaMaas.Convert.ClaudeMessage

namespace NovaMaas.Convert

open ClaudeMediaMessage

variable {J : Type}

/-! ## Events -/

section
variable (claudeResponse : ClaudeResponse J)

/-- The index of the block of an event; without one it is 0. -/
def ClaudeResponse.fcIdx : ℤ := claudeResponse.index.getD 0

def contentBlockStartChoice (block : ClaudeMediaMessage J) : Choice :=
  if block.type = .toolUse then
    { toolCalls := [{ index := some claudeResponse.fcIdx, id := block.id, name := block.name, arguments := "" }] }
  else if block.type = .text then { content := block.text }
  else {}

/-- The choice of a delta.  A delta of an input without the input is a nil dereference. -/
def contentBlockDeltaChoice (delta : ClaudeMediaMessage J) : Except String Choice :=
  match delta.type with
  | .inputJsonDelta =>
    match delta.partialJson with
    | none => .error "invalid memory address or nil pointer dereference"
    | some json => .ok { toolCalls := [{ index := some claudeResponse.fcIdx, arguments := json }] }
  | .signatureDelta => .ok { content := delta.text, reasoningContent := some "\n" }
  | .thinkingDelta => .ok { content := delta.text, reasoningContent := delta.thinking }
  | _ => .ok { content := delta.text }

def messageDeltaChoice : Choice :=
  match claudeResponse.delta.bind stopReason with
  | none => {}
  | some stopReason =>
    if stopReasonClaudeToOpenAI stopReason ≠ "null" then
      { finishReason := some (stopReasonClaudeToOpenAI stopReason) }
    else {}

/-- The choice of an event, if it has one. -/
def claudeEventChoice : Except String (Option Choice) :=
  match claudeResponse.type with
  | .messageStart => .ok (some { content := some "" })
  | .contentBlockStart => .ok (claudeResponse.contentBlock.map (contentBlockStartChoice claudeResponse))
  | .contentBlockDelta =>
    match claudeResponse.delta with
    | none => .ok (some {})
    | some delta => (contentBlockDeltaChoice claudeResponse delta).map some
  | .messageDelta => .ok (some (messageDeltaChoice claudeResponse))
  | .messageStop => .ok none
  | .other _ => .ok none

/-- `StreamResponseClaude2OpenAI`. -/
def streamResponseClaude2OpenAI : Except String (Option ChatChunk) := do
  let choice ← claudeEventChoice claudeResponse
  pure (choice.map fun choice =>
    if claudeResponse.type = .messageStart then
      { id := (claudeResponse.message.map ClaudeMediaMessage.id).getD ""
        model := (claudeResponse.message.map model).getD claudeResponse.model
        choices := [choice] }
    else { model := claudeResponse.model, choices := [choice] })

end

/-- The chunks of a stream of events. -/
def claudeStreamChunks : List (ClaudeResponse J) → Except String (List ChatChunk)
  | [] => .ok []
  | event :: events => do
    let chunk ← streamResponseClaude2OpenAI event
    let chunks ← claudeStreamChunks events
    pure (chunk.toList ++ chunks)

/-! ## Whole answers -/

/-- The variables of the walk over the blocks. -/
structure ClaudeWalk where
  responseText    : String
  thinkingContent : String := ""
  tools           : List (ToolCallRequest String) := []

def ClaudeWalk.step (json : JsonCodec J) (walk : ClaudeWalk) (message : ClaudeMediaMessage J) : ClaudeWalk :=
  match message.type with
  | .toolUse =>
    { walk with tools := walk.tools ++ [{ id := message.id, type := "function", name := message.name
                                          arguments := json.marshal message.input, custom := "" }] }
  | .thinking => { walk with thinkingContent := message.thinking.getD walk.thinkingContent }
  | .text => { walk with responseText := message.getText }
  | _ => walk

/-- `ResponseClaude2OpenAI`, at the time `created`. -/
def responseClaude2OpenAI (json : JsonCodec J) (created : ℤ) (claudeResponse : ClaudeResponse J) :
    OpenAITextResponse String :=
  let first := claudeResponse.content.head?
  let responseThinking := (first.bind thinking).getD ""
  let walk := claudeResponse.content.foldl (ClaudeWalk.step json)
    { responseText := (first.map getText).getD "" }
  { id := claudeResponse.id
    model := claudeResponse.model
    created := created
    choices := [{ message := { role := "assistant"
                               content := .string walk.responseText
                               reasoningContent :=
                                 if walk.thinkingContent ≠ "" then some walk.thinkingContent
                                 else if responseThinking ≠ "" then some responseThinking else none
                               toolCalls := if walk.tools ≠ [] then some walk.tools else none }
                  finishReason := stopReasonClaudeToOpenAI claudeResponse.stopReason }] }

end NovaMaas.Convert
