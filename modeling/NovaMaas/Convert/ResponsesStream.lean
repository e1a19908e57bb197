/-
  The events of a streamed Responses API answer (relaykit/dto/openai_response.go), as the stream converters write and
  read them.

  An answer is a list of output items: a message, the reasoning, tool calls.  Each item is added, written to by deltas
  and done; the events say which item they are about by its place in the output, by its id, or by both.  The last event
  carries the whole answer once more.

  Texts are kept under a type of their own, `τ`: the converter that writes events works with strings, the one that reads
  them cuts arguments at byte positions.
-/
import NovaMaas.Convert.ChatStream

namespace NovaMaas.Convert

inductive ResponsesEventType where
  | created
  | completed
  | done
  | incomplete
  | failed
  | error
  | outputTextDelta
  | outputTextDone
  | outputItemAdded
  | outputItemDone
  | functionArgsDelta
  | functionArgsDone
  | customToolInputDelta
  | customToolInputDone
  | reasoningSummaryDelta
  | reasoningSummaryDone
  | reasoningTextDelta
  | reasoningTextDone
  | other (name : String)

inductive ResponsesOutputType where
  | message
  | reasoning
  | functionCall
  | customToolCall
  | other (name : String)
  deriving DecidableEq

structure ResponsesOutputContent (τ : Type) where
  type : String
  text : τ

/-- `ResponsesOutput`, an output item.  The arguments of a tool call are those of `ArgumentsString`. -/
structure ResponsesOutput (τ : Type) where
  type      : ResponsesOutputType
  id        : String := ""
  status    : String := ""
  role      : String := ""
  callId    : String := ""
  name      : String := ""
  content   : List (ResponsesOutputContent τ) := []
  arguments : τ

/-- `OpenAIResponsesResponse`. -/
structure OpenAIResponsesResponse (τ : Type) where
  id                : String := ""
  model             : String := ""
  createdAt         : ℤ := 0
  status            : String := ""
  /-- The reason of the details, where there are any. -/
  incompleteDetails : Option String := none
  output            : List (ResponsesOutput τ) := []
  usage             : Option Usage := none

/-- `ResponsesStreamResponse`, an event. -/
structure ResponsesStreamResponse (τ : Type) where
  type        : ResponsesEventType
  response    : Option (OpenAIResponsesResponse τ) := none
  delta       : τ
  item        : Option (ResponsesOutput τ) := none
  outputIndex : Option ℤ := none
  itemID      : String := ""

end NovaMaas.Convert
