/-
  A request of the Anthropic API as a chat completion request
  (relaykit/relayconvert/internal/claude_messages/to_oai_chat_req.go).

  A message is walked block by block.  Tool results become messages of their own, sent at once; texts and images are
  gathered for the message itself, and so are the calls of tools.  A message with calls is sent with its calls ALONE: the
  texts that were gathered are not set on it, and are lost.

  Of the request itself the parts that the conversation does not depend on are passed on: the temperature and the other
  sampling numbers, the cache marks of blocks, and the reasoning settings of one dialect are not modelled.
-/
import NovaMaas.Convert.ClaudeMessage

namespace NovaMaas.Convert

open ClaudeMediaMessage

variable {J : Type}

/-! ## The converter -/

/-- The environment of a conversion. -/
structure ClaudeRequestOptions (J : Type) where
  /-- The dialect of OpenRouter, for a model of Anthropic. -/
  isOpenRouter       : Bool
  isOpenRouterClaude : Bool
  originModelName    : Option String
  /-- The blocks of a tool result, parsed and written as JSON again. -/
  encodeMedia        : J → String

/-- What is gathered over the blocks of a message. -/
structure ClaudeRequestWalk where
  toolCalls     : List (ToolCallRequest String) := []
  mediaMessages : List (MediaContent String) := []
  /-- The messages that were sent on the way. -/
  toolMessages  : List (Message String) := []

section
variable (json : JsonCodec J) (options : ClaudeRequestOptions J) (claudeRequest : ClaudeRequest J)

/-- The call of a tool. -/
def toolUseCall (mediaMsg : ClaudeMediaMessage J) : ToolCallRequest String :=
  { id := mediaMsg.id, type := "function", name := mediaMsg.name, arguments := json.marshal mediaMsg.input, custom := "" }

/-- The message of a tool result. -/
def toolResultMessage (mediaMsg : ClaudeMediaMessage J) : Message String :=
  { role := "tool"
    name := some (if mediaMsg.name = "" then claudeRequest.searchToolNameByToolCallId mediaMsg.toolUseId
      else mediaMsg.name)
    toolCallId := mediaMsg.toolUseId
    content := .string (match mediaMsg.content with
      | .string text => text
      | .media content => options.encodeMedia content) }

def ClaudeRequestWalk.step (walk : ClaudeRequestWalk) (mediaMsg : ClaudeMediaMessage J) :
    Except String ClaudeRequestWalk :=
  match mediaMsg.type with
  | .text => .ok { walk with mediaMessages := walk.mediaMessages ++ [.text mediaMsg.getText] }
  | .inputText => .ok { walk with mediaMessages := walk.mediaMessages ++ [.text mediaMsg.getText] }
  | .image =>
    match mediaMsg.source with
    | none => .error "invalid memory address or nil pointer dereference"
    | some source =>
      .ok { walk with
            mediaMessages := walk.mediaMessages ++
              [.imageUrl ("data:" ++ source.mediaType ++ ";base64," ++ source.data) ""] }
  | .toolUse => .ok { walk with toolCalls := walk.toolCalls ++ [toolUseCall json mediaMsg] }
  | .toolResult =>
    .ok { walk with toolMessages := walk.toolMessages ++ [toolResultMessage options claudeRequest mediaMsg] }
  | _ => .ok walk

/-- The message itself, after the walk over its blocks. -/
def ClaudeRequestWalk.message (walk : ClaudeRequestWalk) (role : String) : Message String :=
  { role := role
    toolCalls := if walk.toolCalls ≠ [] then some walk.toolCalls else none
    content := if walk.mediaMessages ≠ [] ∧ walk.toolCalls = [] then .media walk.mediaMessages else .absent }

/-- A message is sent if it has a content or calls. -/
def sentMessages (message : Message String) : List (Message String) :=
  if message.parseContent ≠ [] ∨ message.toolCalls ≠ none then [message] else []

/-- The messages of one message. -/
def claudeMessageToOpenAI (claudeMessage : ClaudeMessage J) : Except String (List (Message String)) :=
  match claudeMessage.content with
  | .string text => .ok (sentMessages { role := claudeMessage.role, content := .string text })
  | .unparsable err => .error err
  | .blocks content => do
    let walk ← content.foldlM (ClaudeRequestWalk.step json options claudeRequest) {}
    pure (walk.toolMessages ++ sentMessages (walk.message claudeMessage.role))

/-- The messages of the conversation. -/
def claudeConversation : List (ClaudeMessage J) → Except String (List (Message String))
  | [] => .ok []
  | claudeMessage :: rest => do
    let messages ← claudeMessageToOpenAI json options claudeRequest claudeMessage
    let more ← claudeConversation rest
    pure (messages ++ more)

/-- The message of the system prompt. -/
def claudeSystemMessages : List (Message String) :=
  match claudeRequest.system with
  | .absent => []
  | .string text => if text ≠ "" then [{ role := "system", content := .string text }] else []
  | .blocks systems =>
    if systems = [] then []
    else if options.isOpenRouterClaude then
      [{ role := "system", content := .media (systems.map fun system => .text system.getText) }]
    else [{ role := "system", content := .string (joinText (systems.map getText)) }]

/-- The model with the ending that asks for thinking, if the model that was asked for has it. -/
def thinkingModel : String :=
  match options.originModelName with
  | none => claudeRequest.model
  | some origin =>
    if !options.isOpenRouter ∧ origin.endsWith "-thinking" ∧ !claudeRequest.model.endsWith "-thinking" then
      claudeRequest.model ++ "-thinking"
    else claudeRequest.model

/-- `ClaudeMessagesRequestToOpenAIChat`. -/
def claudeMessagesRequestToOpenAIChat : Except String (GeneralOpenAIRequest J) := do
  let conversation ← claudeConversation json options claudeRequest claudeRequest.messages
  pure { model := thinkingModel options claudeRequest
         messages := claudeSystemMessages options claudeRequest ++ conversation
         maxTokens := claudeRequest.maxTokens
         stream := claudeRequest.stream
         stop := claudeRequest.stopSequences
         tools := claudeRequest.tools }

end

/-! ## Reading conversations -/

/-- A block that the converter knows: a text, an image with its data, a call or a result of a tool. -/
def ClaudeMediaMessage.Known (block : ClaudeMediaMessage J) : Prop :=
  block.type = .text ∨ (block.type = .image ∧ block.source ≠ none) ∨ block.type = .toolUse ∨ block.type = .toolResult

instance [DecidableEq J] (block : ClaudeMediaMessage J) : Decidable block.Known :=
  inferInstanceAs (Decidable (_ ∨ (_ ∧ _) ∨ _ ∨ _))

namespace ClaudeMessage

variable (m : ClaudeMessage J)

/-- A message that is a string, or blocks that the converter knows. -/
def Known : Prop := (∀ err, m.content ≠ .unparsable err) ∧ ∀ block ∈ m.blocks, block.Known

/-- The calls of tools. -/
def toolUses : List (ClaudeMediaMessage J) := m.blocks.filter fun block => block.type = .toolUse

/-- The results of tools. -/
def toolResults : List (ClaudeMediaMessage J) := m.blocks.filter fun block => block.type = .toolResult

def allTexts : List String :=
  match m.content with
  | .string text => [text]
  | .blocks content =>
    (content.filter fun block : ClaudeMediaMessage J => block.type = ClaudeMediaType.text).map getText
  | .unparsable _ => []

/-- The texts, empty ones left out. -/
def texts : List String := m.allTexts.filter fun text => text ≠ ""

/-- The message has no call beside a text. -/
def Apart : Prop := m.toolUses = [] ∨ m.texts = []

end ClaudeMessage

/-- The text of a part. -/
def MediaContent.text? : MediaContent String → Option String
  | .text t => some t
  | _ => none

/-- An answer to a call: a message of a tool, with the name of the tool. -/
def Message.isToolMessage (m : Message String) : Bool := m.role = "tool" && m.name.isSome

/-- The texts of a message that is no answer to a call, empty ones left out. -/
def Message.texts (m : Message String) : List String :=
  if m.isToolMessage then [] else (m.parseContent.filterMap MediaContent.text?).filter fun text => text ≠ ""

/-- Whatever is answered at some place of a list is held at an earlier place. -/
def AnsweredAfter {α : Type} (holds answers : α → Prop) (l : List α) : Prop :=
  ∀ pre a post, l = pre ++ a :: post → answers a → ∃ b ∈ pre, holds b

/-- The messages say what the request said: the texts, the calls with their inputs, the results, each once and in order,
and no result comes before its call that did not do so in the request. -/
structure ConversationKept (json : JsonCodec J) (options : ClaudeRequestOptions J) (req : ClaudeRequest J)
    (messages : List (Message String)) : Prop where
  texts   : ∃ conversation, messages = claudeSystemMessages options req ++ conversation ∧
    conversation.flatMap Message.texts = req.messages.flatMap ClaudeMessage.texts
  calls   : (messages.flatMap Message.parseToolCalls).map (fun call => (call.id, call.name, json.parse call.arguments)) =
    (req.messages.flatMap ClaudeMessage.toolUses).map fun block => (block.id, block.name, some block.input)
  results : (messages.filter Message.isToolMessage).map Message.toolCallId =
    (req.messages.flatMap ClaudeMessage.toolResults).map toolUseId
  order   : ∀ id, AnsweredAfter (fun m : ClaudeMessage J => id ∈ m.toolUses.map ClaudeMediaMessage.id)
      (fun m => id ∈ m.toolResults.map toolUseId) req.messages →
    AnsweredAfter (fun m : Message String => id ∈ m.parseToolCalls.map ToolCallRequest.id)
      (fun m => m.isToolMessage ∧ m.toolCallId = id) messages

end NovaMaas.Convert
