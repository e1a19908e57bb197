/-
  Messages of the Anthropic API (relaykit/dto/claude.go): the blocks of a message, whole answers, and the events of a
  streamed answer, as the converters to chat completions read them.

  One record, `ClaudeMediaMessage`, serves for a block of a message, for the delta of an event and for the message an
  event starts; which of its fields are there depends on the type.  The input of a tool is a JSON value, of a type `J`
  whose default is the value of a field that is not there.
-/
import NovaMaas.Convert.ChatMessage
import NovaMaas.Convert.ClaudeStream
import NovaMaas.Lib.Text

namespace NovaMaas.Convert

inductive ClaudeMediaType where
  | text
  | inputText
  | image
  | thinking
  | toolUse
  | toolResult
  | textDelta
  | thinkingDelta
  | inputJsonDelta
  | signatureDelta
  | other (name : String)
  deriving DecidableEq

/-- `ClaudeMessageSource`. -/
structure ClaudeMessageSource where
  mediaType : String
  data      : String

/-- The content of a tool result: a string, or blocks. -/
inductive ClaudeResultContent (J : Type) where
  | string (text : String)
  | media (content : J)

structure ClaudeMediaMessage (J : Type) where
  type        : ClaudeMediaType
  text        : Option String := none
  source      : Option ClaudeMessageSource := none
  stopReason  : Option String := none
  partialJson : Option String := none
  thinking    : Option String := none
  id          : String := ""
  name        : String := ""
  model       : String := ""
  input       : J
  content     : ClaudeResultContent J
  toolUseId   : String := ""

variable {J : Type}

def ClaudeMediaMessage.getText (m : ClaudeMediaMessage J) : String := m.text.getD ""

/-! ## Requests -/

/-- The content of a message: a string, blocks, or what cannot be parsed as blocks. -/
inductive ClaudeMessageContent (J : Type) where
  | string (text : String)
  | blocks (content : List (ClaudeMediaMessage J))
  | unparsable (err : String)

structure ClaudeMessage (J : Type) where
  role    : String
  content : ClaudeMessageContent J

/-- The blocks of a message, as `ParseContent` gives them when its error is not looked at. -/
def ClaudeMessage.blocks (m : ClaudeMessage J) : List (ClaudeMediaMessage J) :=
  match m.content with
  | .blocks content => content
  | _ => []

/-- The system prompt: a string, or blocks. -/
inductive ClaudeSystem (J : Type) where
  | absent
  | string (text : String)
  | blocks (content : List (ClaudeMediaMessage J))

structure ClaudeRequest (J : Type) where
  model         : String := ""
  system        : ClaudeSystem J := .absent
  messages      : List (ClaudeMessage J) := []
  maxTokens     : Option ℕ := none
  stopSequences : List String := []
  stream        : Option Bool := none
  tools         : List (FunctionTool J) := []

/-- The name of the block with an id, the first one in the request. -/
def ClaudeRequest.searchToolNameByToolCallId (c : ClaudeRequest J) (toolCallId : String) : String :=
  (((c.messages.flatMap ClaudeMessage.blocks).find? fun block => block.id = toolCallId).map
    ClaudeMediaMessage.name).getD ""

/-! ## Answers and events -/

inductive ClaudeEventType where
  | messageStart
  | contentBlockStart
  | contentBlockDelta
  | messageDelta
  | messageStop
  | other (name : String)
  deriving DecidableEq

/-- `ClaudeResponse`: a whole answer, or an event of one. -/
structure ClaudeResponse (J : Type) where
  type         : ClaudeEventType := .other "message"
  id           : String := ""
  model        : String := ""
  content      : List (ClaudeMediaMessage J) := []
  stopReason   : String := ""
  index        : Option ℤ := none
  contentBlock : Option (ClaudeMediaMessage J) := none
  delta        : Option (ClaudeMediaMessage J) := none
  message      : Option (ClaudeMediaMessage J) := none

/-- `ClaudeStopReasonToOpenAIFinishReason`. -/
def stopReasonClaudeToOpenAI (stopReason : String) : String :=
  match stopReason.map lowerRune with
  | "stop_sequence" => "stop"
  | "end_turn" => "stop"
  | "max_tokens" => "length"
  | "tool_use" => "tool_calls"
  | "refusal" => "content_filter"
  | _ => stopReason

end NovaMaas.Convert
