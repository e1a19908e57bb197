/-
  From Gemini answers to chat completions (relaykit/relayconvert/internal/gemini_chat/to_oai_chat_resp.go), whole and
  streamed.

  Both converters walk the parts of a candidate and write the texts of a content with a line break between them.  They
  differ in four places: what is no image is left out of a stream, code ends with one more line break there, a chunk with
  a thought writes all its texts as reasoning, and a whole answer keeps the last thought only.

  The ids of the calls are new on every conversion; a conversion is given them as a function of the place of the call.
  The arguments of a call are a JSON value, which is written as `marshal` writes it.
-/
import NovaMaas.Convert.ChatToClaude
import NovaMaas.Convert.GeminiMessage

namespace NovaMaas.Convert

open GeminiPart

/-! ## Parts -/

variable {J : Type}

/-- `writeSep`: a line break before every text but the first. -/
def joinLines : List String → String
  | [] => ""
  | [text] => text
  | text :: texts => text ++ ("\n" ++ joinLines texts)

def GeminiInlineData.isImage (d : GeminiInlineData) : Bool := hasPrefix d.mimeType "image"

/-- Inline data as Markdown. -/
def GeminiInlineData.markdown (label : String) (d : GeminiInlineData) : String :=
  label ++ ("(data:" ++ (d.mimeType ++ (";base64," ++ (d.data ++ ")"))))

/-- What a part shows that is neither data nor a call nor a thought; `close` stands behind code. -/
def GeminiPart.plainText? (close : String) (part : GeminiPart J) : Option String :=
  match part.executableCode, part.codeExecutionResult with
  | some code, _ => some ("```" ++ (code.language ++ ("\n" ++ (code.code ++ ("\n```" ++ close)))))
  | none, some output => some ("```output\n" ++ (output ++ ("\n```" ++ close)))
  | none, none => if part.text ≠ "\n" then some part.text else none

/-- What a part writes to the content of a whole answer. -/
def GeminiPart.wholeText? (part : GeminiPart J) : Option String :=
  match part.inlineData, part.functionCall with
  | some d, _ => some (d.markdown (if d.isImage then "![image]" else "[media]"))
  | none, some _ => none
  | none, none => if part.thought then none else part.plainText? ""

/-- What a part writes to the content of a chunk. -/
def GeminiPart.chunkText? (part : GeminiPart J) : Option String :=
  match part.inlineData, part.functionCall with
  | some d, _ => if d.isImage then some (d.markdown "![image]") else none
  | none, some _ => none
  | none, none => if part.thought then some part.text else part.plainText? "\n"

/-- The text of a thought. -/
def GeminiPart.thoughtText? (part : GeminiPart J) : Option String :=
  match part.inlineData, part.functionCall with
  | none, none => if part.thought then some part.text else none
  | _, _ => none

/-- The call of a part. -/
def GeminiPart.call? (part : GeminiPart J) : Option (GeminiFunctionCall J) :=
  match part.inlineData with
  | some _ => none
  | none => part.functionCall

section
variable (marshal : J → String)

/-- `geminiResponseToolCall`. -/
def geminiResponseToolCall (uuid : String) (call : GeminiFunctionCall J) : ToolCallResponse :=
  { id := "call_" ++ uuid, name := call.functionName, arguments := marshal call.arguments }

/-- The calls of the parts, in their order. -/
def candidateCalls (uuid : ℕ → String) (parts : List (GeminiPart J)) : List ToolCallResponse :=
  (parts.filterMap call?).zipIdx.map fun p => geminiResponseToolCall marshal (uuid p.2) p.1

/-! ## Finish reasons -/

def finishReasonStop : String := "stop"
def finishReasonLength : String := "length"
def finishReasonContentFilter : String := "content_filter"
def finishReasonToolCalls : String := "tool_calls"

/-- The finish reason of a candidate. -/
def finishReasonOfGemini (reason : String) : String :=
  match reason with
  | "STOP" => finishReasonStop
  | "MAX_TOKENS" => finishReasonLength
  | _ => finishReasonContentFilter

/-! ## A whole answer -/

/-- The reasoning of a message: the text of the last thought. -/
def wholeReasoning (parts : List (GeminiPart J)) : Option String := (parts.filterMap thoughtText?).getLast?

def responseToolCall (call : ToolCallResponse) : ToolCallRequest String :=
  { id := call.id, type := "function", name := call.name, arguments := call.arguments, custom := "" }

/-- The message of a candidate. -/
def wholeMessage (uuid : ℕ → String) (parts : List (GeminiPart J)) : Message String where
  role := "assistant"
  content := .string (joinLines (parts.filterMap wholeText?))
  reasoningContent := wholeReasoning parts
  toolCalls := if candidateCalls marshal uuid parts = [] then none
    else some ((candidateCalls marshal uuid parts).map responseToolCall)

/-- The choice of a candidate, and whether a candidate had calls up to it. -/
def wholeChoice (uuid : ℕ → String) (isToolCall : Bool) (candidate : GeminiChatCandidate J) :
    OpenAITextResponseChoice String × Bool :=
  let isToolCall := isToolCall || candidateCalls marshal uuid candidate.parts ≠ []
  let partsReason := if (candidate.parts.filterMap call?) ≠ [] then finishReasonToolCalls else finishReasonStop
  ({ index := candidate.index
     message := wholeMessage marshal uuid candidate.parts
     finishReason := if isToolCall then finishReasonToolCalls
       else candidate.finishReason.elim partsReason finishReasonOfGemini }, isToolCall)

def wholeChoices (uuid : ℕ → ℕ → String) (isToolCall : Bool) :
    List (GeminiChatCandidate J) → List (OpenAITextResponseChoice String)
  | [] => []
  | candidate :: rest =>
    let choice := wholeChoice marshal (uuid rest.length) isToolCall candidate
    choice.1 :: wholeChoices uuid choice.2 rest

/-- `ResponseGeminiChat2OpenAI`. -/
def responseGeminiChat2OpenAI (uuid : ℕ → ℕ → String) (id : String) (created : ℤ) (response : GeminiChatResponse J) :
    OpenAITextResponse String where
  id := id
  created := created
  choices := wholeChoices marshal uuid false response.candidates

/-! ## A chunk -/

/-- The choice of a candidate in a chunk; `STOP` is told separately. -/
def chunkChoice (uuid : ℕ → String) (candidate : GeminiChatCandidate J) : Choice :=
  let text := joinLines (candidate.parts.filterMap chunkText?)
  let isThought := (candidate.parts.filterMap thoughtText?) ≠ []
  let isTools := (candidate.parts.filterMap call?) ≠ []
  let finishReason := if candidate.finishReason = some "STOP" then none
    else candidate.finishReason.map finishReasonOfGemini
  { content := if isThought then none else some text
    reasoningContent := if isThought then some text else none
    toolCalls := (candidateCalls marshal uuid candidate.parts).zipIdx.map fun p => { p.1 with index := some (p.2 : ℤ) }
    finishReason := if isTools then some finishReasonToolCalls else finishReason }

def chunkChoices (uuid : ℕ → ℕ → String) : List (GeminiChatCandidate J) → List Choice
  | [] => []
  | candidate :: rest => chunkChoice marshal (uuid rest.length) candidate :: chunkChoices uuid rest

/-- `StreamResponseGeminiChat2OpenAI`: the choices, and whether a candidate stops. -/
def streamResponseGeminiChat2OpenAI (uuid : ℕ → ℕ → String) (geminiResponse : GeminiChatResponse J) :
    List Choice × Bool :=
  (chunkChoices marshal uuid geminiResponse.candidates,
    geminiResponse.candidates.any fun candidate => candidate.finishReason = some "STOP")

end

/-! ## The state of a stream -/

structure GeminiToChatStreamState where
  id            : String
  created       : ℤ
  sawToolCall   : Bool := false
  finishEmitted : Bool := false
  latestUsage   : Option Usage := none

/-- `NewGeminiToChatStreamState`. -/
def newGeminiToChatStreamState (uuid : String) (timestamp : ℤ) (id : String) (created : ℤ) :
    GeminiToChatStreamState where
  id := if trimSpace id = "" then "chatcmpl-" ++ uuid else trimSpace id
  created := if created = 0 then timestamp else created

/-- A candidate has a finish reason other than `STOP`. -/
def hasNonStopFinish (geminiResponse : GeminiChatResponse J) : Bool :=
  geminiResponse.candidates.any fun candidate =>
    candidate.finishReason.any fun reason => reason ≠ "" && reason ≠ "STOP"

/-- The finish reason `tool_calls` is taken back. -/
def Choice.withoutToolCallsFinish (choice : Choice) : Choice :=
  { choice with
    finishReason := if choice.finishReason = some finishReasonToolCalls then none else choice.finishReason }

/-- What a call of `ConvertChunk` is given: its arguments, and the ids of the calls. -/
structure GeminiChunkInput (J : Type) where
  response : GeminiChatResponse J
  model    : String := ""
  usage    : Option Usage := none
  uuid     : ℕ → ℕ → String

namespace GeminiToChatStreamState

variable (s : GeminiToChatStreamState)

/-- `terminalChunk`. -/
def terminalChunk (model : String) : ChatChunk where
  id := s.id
  created := s.created
  model := model
  choices := [{ finishReason := some (if s.sawToolCall then finishReasonToolCalls else finishReasonStop) }]
  usage := s.latestUsage

/-- `ConvertChunk`. -/
def convertChunk (marshal : J → String) (input : GeminiChunkInput J) : GeminiToChatStreamState × List ChatChunk :=
  let converted := streamResponseGeminiChat2OpenAI marshal input.uuid input.response
  let isToolCall := converted.1.head?.any fun choice => choice.toolCalls ≠ []
  let choices := if isToolCall && !hasNonStopFinish input.response
    then converted.1.map Choice.withoutToolCallsFinish else converted.1
  let response : ChatChunk :=
    { id := s.id, model := input.model, created := s.created, choices := choices, usage := input.usage }
  let s := { s with
    sawToolCall := s.sawToolCall || isToolCall
    latestUsage := input.usage <|> s.latestUsage
    finishEmitted := s.finishEmitted || choices.any Choice.finished }
  if converted.2 && !s.finishEmitted
    then ({ s with finishEmitted := true }, [response, s.terminalChunk input.model])
    else (s, [response])

/-- `Finalize`. -/
def finalize (model : String) : GeminiToChatStreamState × List ChatChunk :=
  if s.finishEmitted then (s, []) else ({ s with finishEmitted := true }, [s.terminalChunk model])

/-- The chunks of a stream that is finalized at its end. -/
def run (marshal : J → String) (model : String) : GeminiToChatStreamState → List (GeminiChunkInput J) → List ChatChunk
  | s, [] => (s.finalize model).2
  | s, input :: rest =>
    let converted := s.convertChunk marshal input
    converted.2 ++ run marshal model converted.1 rest

end GeminiToChatStreamState

end NovaMaas.Convert
