/-
  The messages of a chat completion (relaykit/dto/openai_request.go), as requests and answers carry them.

  The content of a message is absent, a string, or a list of parts of which the converters read the texts and the media.
  The tool calls are kept as JSON in the source and parsed at every use; here they are parsed, `none` standing for the
  field that is not there.  A part that neither `StringContent` nor `ParseContent` reads is `unread`.

  Texts are kept under a type of their own, `τ`, as those of the Responses API are.
-/
import NovaMaas.Convert.ResponsesStream

namespace NovaMaas.Convert

/-- A call of an assistant message; its type is `function`, or another name of the API. -/
structure ToolCallRequest (τ : Type) where
  id        : String := ""
  type      : String := ""
  name      : String := ""
  arguments : τ
  /-- The raw message of a call that is no function, as `JsonRawMessageToString` reads it. -/
  custom    : τ

/-- `MediaContent`. -/
inductive MediaContent (τ : Type) where
  | text (text : τ)
  | imageUrl (url detail : String)
  | inputAudio (data format : String)
  | file (fileId fileName fileData : String)
  | videoUrl (url : String)
  deriving DecidableEq

/-- A part of a content. -/
inductive ContentPart (τ : Type) where
  | media (content : MediaContent τ)
  | unread
  deriving DecidableEq

def ContentPart.text? {τ : Type} : ContentPart τ → Option τ
  | .media (.text text) => some text
  | _ => none

def ContentPart.media? {τ : Type} : ContentPart τ → Option (MediaContent τ)
  | .media content => some content
  | .unread => none

inductive MessageContent (τ : Type) where
  | absent
  | string (text : τ)
  | list (parts : List (ContentPart τ))
  /-- What `SetMediaContent` sets. -/
  | media (contents : List (MediaContent τ))
  deriving DecidableEq

structure Message (τ : Type) where
  role             : String := ""
  content          : MessageContent τ := .absent
  name             : Option String := none
  reasoningContent : Option τ := none
  reasoning        : Option τ := none
  toolCalls        : Option (List (ToolCallRequest τ)) := none
  toolCallId       : String := ""

/-- Texts written one after the other, as to a `strings.Builder`. -/
def joinText {τ : Type} [Inhabited τ] [Append τ] (texts : List τ) : τ := texts.foldl (· ++ ·) default

namespace MessageContent

variable {τ : Type} [Inhabited τ] [Append τ]

/-- `StringContent`. -/
def stringContent : MessageContent τ → τ
  | .absent => default
  | .string text => text
  | .list parts => joinText (parts.filterMap ContentPart.text?)
  | .media _ => default

/-- `ParseContent`. -/
def parseContent : MessageContent τ → List (MediaContent τ)
  | .absent => []
  | .string text => [.text text]
  | .list parts => parts.filterMap ContentPart.media?
  | .media contents => contents

/-- `IsStringContent`. -/
def isStringContent : MessageContent τ → Bool
  | .string _ => true
  | _ => false

end MessageContent

namespace Message

variable {τ : Type} [Inhabited τ] [Append τ] (m : Message τ)

def stringContent : τ := m.content.stringContent

def parseContent : List (MediaContent τ) := m.content.parseContent

/-- The first of the two names that is there. -/
def getReasoningContent : τ := (m.reasoningContent <|> m.reasoning).getD default

def parseToolCalls : List (ToolCallRequest τ) := m.toolCalls.getD []

end Message

/-! ## Requests -/

/-- A tool a request offers; its parameters are a JSON value. -/
structure FunctionTool (J : Type) where
  name        : String
  description : String := ""
  parameters  : J

/-- `GeneralOpenAIRequest`, as far as the converters of conversations read or write it. -/
structure GeneralOpenAIRequest (J : Type) where
  model      : String := ""
  messages   : List (Message String) := []
  n          : Option ℤ := none
  maxTokens  : Option ℕ := none
  maxCompletionTokens : Option ℕ := none
  stream     : Option Bool := none
  stop       : List String := []
  tools      : List (FunctionTool J) := []
  toolChoice : Option J := none

/-! ## Answers -/

structure OpenAITextResponseChoice (τ : Type) where
  index        : ℤ := 0
  message      : Message τ
  finishReason : String := ""

/-- `OpenAITextResponse`.  Its time is a number, as `chatCreatedAt` reads it. -/
structure OpenAITextResponse (τ : Type) where
  id      : String := ""
  model   : String := ""
  created : ℤ := 0
  choices : List (OpenAITextResponseChoice τ) := []
  usage   : Usage := {}

end NovaMaas.Convert
