/-
  The chunks of a streamed chat completion (relaykit/dto/openai_response.go), as the stream converters read them.

  A chunk has a list of choices; the converters here look at the first one only, or walk all of them.  A choice carries
  a fragment of the text, a fragment of the reasoning under one of two names, fragments of tool calls, and at the end
  a finish reason.  A fragment of a tool call names the call by an index; without one it is known by its place.
-/
import Mathlib

namespace NovaMaas.Convert

structure ClaudeUsage where
  inputTokens              : ℤ
  outputTokens             : ℤ
  cacheCreationInputTokens : ℤ := 0
  cacheReadInputTokens     : ℤ := 0
  /-- The tokens kept for five minutes and for an hour. -/
  cacheCreation            : Option (ℤ × ℤ) := none

structure GeminiUsageMetadata where
  promptTokenCount     : ℤ := 0
  candidatesTokenCount : ℤ := 0
  totalTokenCount      : ℤ := 0
  deriving DecidableEq

/-- The usage of another format that travels along; of it, what these converters show in place of the counts. -/
structure BillingUsage where
  source              : String := ""
  semantic            : String := ""
  claudeUsage         : Option ClaudeUsage := none
  geminiUsageMetadata : Option GeminiUsageMetadata := none

/-- What the converters read of the token counts. -/
structure Usage where
  promptTokens                : ℤ := 0
  completionTokens            : ℤ := 0
  totalTokens                 : ℤ := 0
  inputTokens                 : ℤ := 0
  outputTokens                : ℤ := 0
  cachedTokens                : ℤ := 0
  cachedCreationTokens        : ℤ := 0
  cacheWriteTokens            : ℤ := 0
  claudeCacheCreation5mTokens : ℤ := 0
  claudeCacheCreation1hTokens : ℤ := 0
  usageSemantic               : String := ""
  billingUsage                : Option BillingUsage := none

/-- `InputTokenDetails.CacheCreationTokensTotal`. -/
def Usage.cacheCreationTokensTotal (u : Usage) : ℤ := max (max u.cachedCreationTokens u.cacheWriteTokens) 0

/-- `UsageFromChatUsage`, less what no converter here reads back: the details of the prompt, and an evidence made of the
source itself. -/
def usageFromChatUsage (src : Usage) : Usage where
  promptTokens := src.promptTokens
  completionTokens := src.completionTokens
  inputTokens := src.promptTokens
  outputTokens := src.completionTokens
  totalTokens := if src.totalTokens ≠ 0 then src.totalTokens else src.promptTokens + src.completionTokens
  claudeCacheCreation5mTokens := src.claudeCacheCreation5mTokens
  claudeCacheCreation1hTokens := src.claudeCacheCreation1hTokens
  usageSemantic := src.usageSemantic
  billingUsage := src.billingUsage

/-- A fragment of a tool call. -/
structure ToolCallResponse where
  index     : Option ℤ := none
  id        : String := ""
  name      : String := ""
  arguments : String := ""

structure Choice where
  content          : Option String := none
  reasoningContent : Option String := none
  reasoning        : Option String := none
  toolCalls        : List ToolCallResponse := []
  /-- The list of tool calls is there, though it is empty. -/
  noToolCalls      : Bool := false
  finishReason     : Option String := none

namespace Choice

variable (c : Choice)

def getContentString : String := c.content.getD ""

/-- The first of the two names that is there. -/
def getReasoningContent : String := (c.reasoningContent <|> c.reasoning).getD ""

/-- The finish reason, where there is one and it is not empty. -/
def finished : Bool := c.finishReason.any (· ≠ "")

end Choice

/-- `ChatCompletionsStreamResponse`. -/
structure ChatChunk where
  id      : String := ""
  model   : String := ""
  created : ℤ := 0
  choices : List Choice := []
  usage   : Option Usage := none

/-- A chunk of a stream with one choice; a chunk that only tells the usage has none. -/
def ChatChunk.Single (c : ChatChunk) : Prop := c.choices.length ≤ 1

instance (c : ChatChunk) : Decidable c.Single := inferInstanceAs (Decidable (_ ≤ _))

/-- The fragments of tool calls of a list, each with the index it is known by. -/
def keyed (toolCalls : List ToolCallResponse) : List (ℤ × ToolCallResponse) :=
  toolCalls.zipIdx.map fun (call, i) => (call.index.getD i, call)

namespace ChatChunk

variable (c : ChatChunk)

def text : String := (c.choices.head?.map Choice.getContentString).getD ""

def thinking : String := (c.choices.head?.map Choice.getReasoningContent).getD ""

def toolCalls : List ToolCallResponse := (c.choices.head?.map Choice.toolCalls).getD []

/-- `IsFinished`. -/
def finished : Bool := c.choices.head?.any Choice.finished

end ChatChunk

end NovaMaas.Convert
