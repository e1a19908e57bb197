/-
  From a chat stream to an Anthropic event stream (relaykit/relayconvert/internal/oai_chat/to_claude_messages_resp.go,
  and the single step that ConvertStreamResponseChunk and FinalizeStreamResponse of response_registry.go make of it).

  The converter is fed one chunk after the other.  What it remembers is small: the type of the block that was written
  to last, its index, and for tool calls, of which several may be open side by side, the index of the first one and
  the largest offset seen.  The FIRST chunk is treated by a copy of the logic.  The end of the message waits for the
  usage: a chunk with a finish reason and no usage only leaves the reason behind.

  The usage an event carries is modelled with its token counts.  Where a usage comes with one of Anthropic's own, that is
  what the event carries.
-/
import NovaMaas.Convert.ChatStream

namespace NovaMaas.Convert

/-! ## Events -/

inductive ContentBlock where
  | text
  | thinking
  | toolUse (id name : String)

inductive BlockDelta where
  | textDelta (text : String)
  | thinkingDelta (thinking : String)
  | inputJsonDelta (partialJson : String)

/-- `ClaudeResponse`, by its type. -/
inductive ClaudeEvent where
  | messageStart (id model : String) (usage : ClaudeUsage)
  | contentBlockStart (index : ℤ) (block : ContentBlock)
  | contentBlockDelta (index : ℤ) (delta : BlockDelta)
  | contentBlockStop (index : ℤ)
  | messageDelta (stopReason : String) (usage : Option ClaudeUsage)
  | messageStop

/-! ## The parts of an end -/

/-- A letter in lower case.  Of the letters outside ASCII only two come down to one inside. -/
def lowerRune (c : Char) : Char :=
  if c.toNat = 0x130 then 'i' else if c.toNat = 0x212A then 'k' else c.toLower

/-- `OpenAIFinishReasonToClaudeStopReason`. -/
def stopReasonOpenAI2Claude (finishReason : String) : String :=
  match finishReason.map lowerRune with
  | "stop" => "end_turn"
  | "stop_sequence" => "stop_sequence"
  | "length" => "max_tokens"
  | "max_tokens" => "max_tokens"
  | "content_filter" => "refusal"
  | "tool_calls" => "tool_use"
  | _ => finishReason

def normalizeCacheCreationSplit (totalTokens tokens5m tokens1h : ℤ) : ℤ × ℤ :=
  (tokens5m + max (totalTokens - tokens5m - tokens1h) 0, tokens1h)

def buildClaudeUsageFromOpenAIUsage (oaiUsage : Usage) : ClaudeUsage :=
  let own := oaiUsage.billingUsage.bind fun billingUsage =>
    if billingUsage.source = "claude_messages" ∨ billingUsage.semantic = "anthropic" then billingUsage.claudeUsage
    else none
  let split := normalizeCacheCreationSplit oaiUsage.cachedCreationTokens oaiUsage.claudeCacheCreation5mTokens
    oaiUsage.claudeCacheCreation1hTokens
  let cacheCreationTokens := oaiUsage.cacheCreationTokensTotal
  own.getD
    { inputTokens :=
        if oaiUsage.usageSemantic ≠ "anthropic" then
          max (oaiUsage.promptTokens - oaiUsage.cachedTokens - cacheCreationTokens) 0
        else oaiUsage.promptTokens
      outputTokens := oaiUsage.completionTokens
      cacheCreationInputTokens := cacheCreationTokens
      cacheReadInputTokens := oaiUsage.cachedTokens
      cacheCreation := if 0 < split.1 ∨ 0 < split.2 then some split else none }

/-! ## The state -/

inductive LastMessageType where
  | none
  | text
  | tools
  | thinking
  deriving DecidableEq

structure ClaudeConvertInfo where
  lastMessagesType       : LastMessageType := .none
  index                  : ℤ := 0
  usage                  : Option Usage := none
  finishReason           : String := ""
  done                   : Bool := false
  toolCallBaseIndex      : ℤ := 0
  toolCallMaxIndexOffset : ℤ := 0

/-- The open block or blocks are stopped. -/
def stopOpenBlocks (state : ClaudeConvertInfo) : List ClaudeEvent :=
  match state.lastMessagesType with
  | .text => [.contentBlockStop state.index]
  | .thinking => [.contentBlockStop state.index]
  | .tools => (List.range (state.toolCallMaxIndexOffset + 1).toNat).map fun offset : ℕ =>
      .contentBlockStop (state.toolCallBaseIndex + offset)
  | .none => []

/-- The state after the open blocks are stopped. -/
def ClaudeConvertInfo.advance (state : ClaudeConvertInfo) : ClaudeConvertInfo :=
  match state.lastMessagesType with
  | .none => state
  | .tools =>
    { state with
      index := state.toolCallBaseIndex + state.toolCallMaxIndexOffset + 1
      toolCallBaseIndex := 0
      toolCallMaxIndexOffset := 0
      lastMessagesType := .none }
  | _ => { state with index := state.index + 1, lastMessagesType := .none }

/-- `stopOpenBlocksAndAdvance`. -/
def stopOpenBlocksAndAdvance (state : ClaudeConvertInfo) : List ClaudeEvent × ClaudeConvertInfo :=
  (stopOpenBlocks state, state.advance)

/-- The last two events. -/
def endMessage (stopReason : String) (oaiUsage : Option Usage) : List ClaudeEvent :=
  [.messageDelta stopReason (oaiUsage.map buildClaudeUsageFromOpenAIUsage), .messageStop]

/-- The stop reason of an end that may come without one. -/
def stopReasonOrEndTurn (finishReason : String) : String :=
  if stopReasonOpenAI2Claude finishReason = "" then "end_turn" else stopReasonOpenAI2Claude finishReason

/-! ## The first chunk -/

/-- The first chunk opens a block for its first tool call, if it has any. -/
def firstToolCall (toolCalls : List ToolCallResponse) (state : ClaudeConvertInfo) :
    List ClaudeEvent × ClaudeConvertInfo :=
  match toolCalls with
  | [] => ([], state)
  | toolCall :: _ =>
    (.contentBlockStart 0 (.toolUse toolCall.id toolCall.name) ::
      (if toolCall.arguments ≠ "" then [.contentBlockDelta 0 (.inputJsonDelta toolCall.arguments)] else []),
    { state with lastMessagesType := .tools, toolCallBaseIndex := 0, toolCallMaxIndexOffset := 0 })

/-- The first chunk opens a block for its reasoning or, without any, for its text. -/
def firstContent (choice : Choice) (state : ClaudeConvertInfo) : List ClaudeEvent × ClaudeConvertInfo :=
  let reasoning := choice.getReasoningContent
  let content := choice.getContentString
  if reasoning ≠ "" then
    let fresh := if state.lastMessagesType ≠ .thinking then stopOpenBlocksAndAdvance state else ([], state)
    (fresh.1 ++
      [.contentBlockStart fresh.2.index .thinking, .contentBlockDelta fresh.2.index (.thinkingDelta reasoning)],
      { fresh.2 with lastMessagesType := .thinking })
  else if content ≠ "" then
    let fresh := if state.lastMessagesType ≠ .text then stopOpenBlocksAndAdvance state else ([], state)
    (fresh.1 ++ [.contentBlockStart fresh.2.index .text, .contentBlockDelta fresh.2.index (.textDelta content)],
      { fresh.2 with lastMessagesType := .text })
  else ([], state)

/-- A first chunk with a finish reason ends the message if a usage is there. -/
def firstFinish (chunk : ChatChunk) (choice : Choice) (state : ClaudeConvertInfo) :
    List ClaudeEvent × ClaudeConvertInfo :=
  if choice.finished then
    let state := { state with finishReason := choice.finishReason.getD "" }
    match chunk.usage <|> state.usage with
    | none => ([], state)
    | some oaiUsage =>
      (stopOpenBlocks state ++ endMessage (stopReasonOpenAI2Claude state.finishReason) (some oaiUsage),
        { state with done := true })
  else ([], state)

def firstChunk (estimatePromptTokens : ℤ) (chunk : ChatChunk) (state : ClaudeConvertInfo) :
    List ClaudeEvent × ClaudeConvertInfo :=
  let start := [ClaudeEvent.messageStart chunk.id chunk.model { inputTokens := estimatePromptTokens, outputTokens := 0 }]
  match chunk.choices with
  | [] => (start, state)
  | choice :: _ =>
    let tools := firstToolCall choice.toolCalls state
    let content := firstContent choice tools.2
    let finish := firstFinish chunk choice content.2
    (start ++ tools.1 ++ content.1 ++ finish.1, finish.2)

/-! ## The other chunks -/

/-- The events of the tool calls of a chunk; the fragment of an open call, and a block for a call that is named. -/
def toolCallEvents (base : ℤ) : List (ℤ × ToolCallResponse) → List ClaudeEvent
  | [] => []
  | (offset, toolCall) :: rest =>
    (if toolCall.name ≠ "" then [.contentBlockStart (base + offset) (.toolUse toolCall.id toolCall.name)] else []) ++
    (if toolCall.arguments ≠ "" then [.contentBlockDelta (base + offset) (.inputJsonDelta toolCall.arguments)] else []) ++
    toolCallEvents base rest

/-- The largest offset, from `maxOffset` on. -/
def largestOffset (maxOffset : ℤ) (toolCalls : List (ℤ × ToolCallResponse)) : ℤ :=
  toolCalls.foldl (fun m call => max m call.1) maxOffset

/-- The tool calls of a chunk, after the blocks of any other type are stopped. -/
def toolCallChunk (toolCalls : List (ℤ × ToolCallResponse)) (state : ClaudeConvertInfo) :
    List ClaudeEvent × ClaudeConvertInfo :=
  let (stops, state) :=
    if state.lastMessagesType ≠ .tools then
      let (stops, state) := stopOpenBlocksAndAdvance state
      (stops, { state with toolCallBaseIndex := state.index, toolCallMaxIndexOffset := 0 })
    else ([], state)
  let base := state.toolCallBaseIndex
  let maxOffset := largestOffset state.toolCallMaxIndexOffset toolCalls
  (stops ++ toolCallEvents base toolCalls,
    { state with lastMessagesType := .tools, toolCallMaxIndexOffset := maxOffset, index := base + maxOffset })

/-- A fragment of the text or of the reasoning, in a block of its own if the last one was of another type. -/
def contentChunk (type : LastMessageType) (block : ContentBlock) (delta : BlockDelta) (state : ClaudeConvertInfo) :
    List ClaudeEvent × ClaudeConvertInfo :=
  let (starts, state) :=
    if state.lastMessagesType ≠ type then
      let (stops, state) := stopOpenBlocksAndAdvance state
      (stops ++ [ClaudeEvent.contentBlockStart state.index block], state)
    else ([], state)
  (starts ++ [.contentBlockDelta state.index delta], { state with lastMessagesType := type })

def choiceChunk (choice : Choice) (state : ClaudeConvertInfo) : List ClaudeEvent × ClaudeConvertInfo :=
  let reasoning := choice.getReasoningContent
  let textContent := choice.getContentString
  if choice.toolCalls ≠ [] then toolCallChunk (keyed choice.toolCalls) state
  else if reasoning ≠ "" then contentChunk .thinking .thinking (.thinkingDelta reasoning) state
  else if textContent ≠ "" then contentChunk .text .text (.textDelta textContent) state
  else ([], state)

def laterChunk (chunk : ChatChunk) (state : ClaudeConvertInfo) : List ClaudeEvent × ClaudeConvertInfo :=
  match chunk.choices with
  | [] =>
    match chunk.usage <|> state.usage with
    | none => ([], state)
    | some oaiUsage =>
      (stopOpenBlocks state ++ endMessage (stopReasonOrEndTurn state.finishReason) (some oaiUsage),
        { state with done := true })
  | choice :: _ =>
    let state := if choice.finished then { state with finishReason := choice.finishReason.getD "" } else state
    -- the end waits for the usage
    if choice.finished ∧ chunk.usage = none then ([], state)
    else
      let read := choiceChunk choice state
      if choice.finished then
        (read.1 ++ stopOpenBlocks read.2 ++
          endMessage (stopReasonOpenAI2Claude read.2.finishReason) (chunk.usage <|> read.2.usage),
          { read.2 with done := true })
      else read

/-- `StreamResponseOpenAI2Claude`, for the chunk that is the `count`-th. -/
def streamResponseOpenAI2Claude (count : ℕ) (estimatePromptTokens : ℤ) (chunk : ChatChunk) (state : ClaudeConvertInfo) :
    List ClaudeEvent × ClaudeConvertInfo :=
  if state.done then ([], state)
  else if count = 1 then firstChunk estimatePromptTokens chunk state
  else laterChunk chunk state

/-- `FinalizeStreamResponseOpenAI2Claude`. -/
def finalizeStreamResponseOpenAI2Claude (state : ClaudeConvertInfo) : List ClaudeEvent × ClaudeConvertInfo :=
  if state.done then ([], state)
  else (stopOpenBlocks state ++ endMessage (stopReasonOrEndTurn state.finishReason) state.usage,
    { state with done := true })

/-! ## The stream -/

/-- The state of one stream: the count of its chunks, the converter's state and the usage last seen. -/
structure ClaudeStreamState where
  sendResponseCount    : ℕ := 0
  estimatePromptTokens : ℤ := 0
  claudeConvertInfo    : ClaudeConvertInfo := {}
  usage                : Option Usage := none

/-- A stream that nothing was fed to.  The host may have told the converter a usage already. -/
def ClaudeStreamState.new (estimatePromptTokens : ℤ) (preseeded : Option Usage) : ClaudeStreamState :=
  { estimatePromptTokens := estimatePromptTokens, claudeConvertInfo := { usage := preseeded } }

/-- `ConvertStreamResponseChunk`. -/
def convertStreamResponseChunk (chunk : ChatChunk) (s : ClaudeStreamState) : List ClaudeEvent × ClaudeStreamState :=
  let read := streamResponseOpenAI2Claude (s.sendResponseCount + 1) s.estimatePromptTokens chunk s.claudeConvertInfo
  (read.1,
    { s with
      sendResponseCount := s.sendResponseCount + 1
      claudeConvertInfo := read.2
      usage := chunk.usage.map usageFromChatUsage <|> s.usage })

/-- The converter's state once it is told the usage last seen, if it has none. -/
def ClaudeStreamState.tellUsage (s : ClaudeStreamState) : ClaudeConvertInfo :=
  { s.claudeConvertInfo with usage := s.claudeConvertInfo.usage <|> s.usage }

/-- `FinalizeStreamResponse`. -/
def finalizeStreamResponse (s : ClaudeStreamState) : List ClaudeEvent × ClaudeStreamState :=
  let final := finalizeStreamResponseOpenAI2Claude s.tellUsage
  (final.1, { s with claudeConvertInfo := final.2, usage := s.tellUsage.usage <|> s.usage })

/-- All chunks of a stream, one after the other. -/
def convertChunks : List ChatChunk → ClaudeStreamState → List ClaudeEvent × ClaudeStreamState
  | [], s => ([], s)
  | chunk :: chunks, s =>
    let read := convertStreamResponseChunk chunk s
    let rest := convertChunks chunks read.2
    (read.1 ++ rest.1, rest.2)

/-- The stream is finalized `n` times. -/
def finalizeTimes : ℕ → ClaudeStreamState → List ClaudeEvent × ClaudeStreamState
  | 0, s => ([], s)
  | n + 1, s =>
    let final := finalizeStreamResponse s
    let rest := finalizeTimes n final.2
    (final.1 ++ rest.1, rest.2)

/-- The events of a whole stream. -/
def claudeStream (s : ClaudeStreamState) (chunks : List ChatChunk) (n : ℕ) : List ClaudeEvent :=
  (convertChunks chunks s).1 ++ (finalizeTimes n (convertChunks chunks s).2).1

end NovaMaas.Convert
