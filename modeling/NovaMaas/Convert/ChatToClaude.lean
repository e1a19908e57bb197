/-
  A chat completion request as a request of the Anthropic API
  (relaykit/relayconvert/internal/oai_chat/to_claude_messages_req.go).

  The messages are walked twice.  The first walk brings neighbours of one role together: where both are strings the
  later one is written behind the earlier one, which is taken off the list, and a message without a text gets three
  dots.  The second walk writes the messages of the API: those of the system go into the system prompt, the answer to a
  call goes to the message of the user before it, and a conversation that does not begin with the user is given three
  dots to begin with.

  The tool choice, the search on the web, the settings of thinking and the sampling numbers are not modelled.  What the
  settings of thinking do to the name of the model and to the limit of tokens is.
-/
import NovaMaas.Convert.ClaudeRequest
import NovaMaas.Lib.Json

namespace NovaMaas.Convert

/-! ## Strings -/

def isQuote (c : Char) : Bool := c = '"'

/-- `strings.Trim(s, "\"")`. -/
def trimQuotes (s : String) : String :=
  String.ofList (((s.toList.dropWhile isQuote).reverse.dropWhile isQuote).reverse)

/-! ## The first walk -/

/-- The messages so far, and the last one. -/
structure FormatState where
  formatMessages : List (Message String) := []
  lastMessage    : Message String := { role := "tool" }

/-- What is taken over of a message. -/
def fmtMessage (message : Message String) : Message String where
  role := message.role
  content := message.content
  toolCallId := if message.role = "tool" then message.toolCallId else ""
  toolCalls := if message.role = "assistant" then message.toolCalls else none

/-- The message is written behind the last one. -/
def merges (last message : Message String) : Bool :=
  last.role = message.role && last.role ≠ "tool" && last.content.isStringContent && message.content.isStringContent

def mergedText (last message : Message String) : String :=
  trimQuotes (last.stringContent ++ " " ++ message.stringContent)

/-- A message without a text gets three dots. -/
def withDots (m : Message String) : Message String :=
  if m.content = .absent ∨ m.content = .string "" then { m with content := .string "..." } else m

def FormatState.step (s : FormatState) (message : Message String) : FormatState :=
  if merges s.lastMessage message then
    let fmt := withDots { fmtMessage message with content := .string (mergedText s.lastMessage message) }
    { formatMessages := s.formatMessages.dropLast ++ [fmt], lastMessage := fmt }
  else
    let fmt := withDots (fmtMessage message)
    { formatMessages := s.formatMessages ++ [fmt], lastMessage := fmt }

def formatMessages (messages : List (Message String)) : List (Message String) :=
  (messages.foldl FormatState.step {}).formatMessages

/-! ## The second walk -/

/-- The environment of a conversion. -/
structure ChatToClaudeOptions where
  /-- `Options.Claude.DefaultMaxTokens`. -/
  defaultMaxTokens       : Option (String → ℕ)
  thinkingAdapterEnabled : Bool
  preserveThinkingSuffix : String → Bool
  /-- `ResolveBase64Data`: the data and the MIME type. -/
  resolveBase64Data      : MediaContent String → Except String (String × String)
  parseJson              : String → Option Json
  /-- A content as a JSON value. -/
  contentValue           : MessageContent String → Json

structure MessagesWalk where
  claudeMessages : List (ClaudeMessage Json) := []
  isFirstMessage : Bool := true
  systemMessages : List (ClaudeMediaMessage Json) := []

def textBlock (text : String) : ClaudeMediaMessage Json :=
  { type := .text, text := some text, input := .null, content := .string "" }

variable (options : ChatToClaudeOptions)

/-- The answer to a call. -/
def toolResultBlock (message : Message String) : ClaudeMediaMessage Json :=
  { type := .toolResult
    toolUseId := message.toolCallId
    input := .null
    content := match message.content with
      | .string text => .string text
      | content => .media (options.contentValue content) }

/-- The arguments of a call as an input: an object, and the empty one for what is none. -/
def toolInput (arguments : String) : Json :=
  if arguments = "" then .obj []
  else
    match options.parseJson arguments with
    | some (.obj fields) => .obj fields
    | some .null => .null
    | _ => .obj []

def toolUseBlock (toolCall : ToolCallRequest String) : ClaudeMediaMessage Json :=
  { type := .toolUse
    id := toolCall.id
    name := toolCall.name
    input := toolInput options toolCall.arguments
    content := .string "" }

/-- `ToFileSource` is not nil. -/
def hasFileSource : MediaContent String → Bool
  | .text _ => false
  | .imageUrl url _ => url ≠ ""
  | .inputAudio data _ => data ≠ ""
  | .file _ _ fileData => fileData ≠ ""
  | .videoUrl url => url ≠ ""

/-- The block of a file. -/
def fileBlock (resolved : String × String) : ClaudeMediaMessage Json :=
  { type := if hasPrefix resolved.2 "application/pdf" then .other "document" else .image
    source := some { mediaType := resolved.2, data := resolved.1 }
    input := .null
    content := .string "" }

/-- The block of a part, if it has one. -/
def mediaBlock (mediaMessage : MediaContent String) : Except String (List (ClaudeMediaMessage Json)) :=
  match mediaMessage with
  | .text text => .ok (if text ≠ "" then [textBlock text] else [])
  | source =>
    if hasFileSource source then
      match options.resolveBase64Data source with
      | .error err => .error ("get file data failed: " ++ err)
      | .ok resolved => .ok [fileBlock resolved]
    else .ok []

def mediaBlocks : List (MediaContent String) → Except String (List (ClaudeMediaMessage Json))
  | [] => .ok []
  | mediaMessage :: rest =>
    match mediaBlock options mediaMessage with
    | .error err => .error err
    | .ok blocks =>
      match mediaBlocks rest with
      | .error err => .error err
      | .ok more => .ok (blocks ++ more)

/-- A block behind a content; a string becomes a block first.  (Only strings and lists of blocks are ever written.) -/
def ClaudeMessageContent.append (content : ClaudeMessageContent Json) (block : ClaudeMediaMessage Json) :
    ClaudeMessageContent Json :=
  match content with
  | .string text => .blocks [textBlock text, block]
  | .blocks content => .blocks (content ++ [block])
  | .unparsable _ => .blocks [block]

/-- The blocks that a system message gives. -/
def systemBlocks (message : Message String) : List (ClaudeMediaMessage Json) :=
  ((message.parseContent.filterMap MediaContent.text?).filter fun text => text ≠ "").map textBlock

/-- A conversation does not begin with anyone but the user. -/
def MessagesWalk.begin (w : MessagesWalk) (role : String) : MessagesWalk :=
  if w.isFirstMessage then
    { w with
      isFirstMessage := false
      claudeMessages :=
        if role ≠ "user" then w.claudeMessages ++ [{ role := "user", content := .blocks [textBlock "..."] }]
        else w.claudeMessages }
  else w

/-- A message of the user or the assistant. -/
def claudeContent (message : Message String) : Except String (ClaudeMessageContent Json) :=
  match message.content, message.toolCalls with
  | .string text, none => .ok (.string (if text = "" then "..." else text))
  | _, _ =>
    match mediaBlocks options message.parseContent with
    | .error err => .error err
    | .ok blocks => .ok (.blocks (blocks ++ message.parseToolCalls.map (toolUseBlock options)))

def MessagesWalk.add (w : MessagesWalk) (message : Message String) : Except String MessagesWalk :=
  if message.role = "tool" then
    match w.claudeMessages.getLast? with
    | some last =>
      if last.role = "user" then
        .ok { w with
              claudeMessages := w.claudeMessages.dropLast ++
                [{ role := last.role, content := last.content.append (toolResultBlock options message) }] }
      else
        .ok { w with
              claudeMessages := w.claudeMessages ++
                [{ role := "user", content := .blocks [toolResultBlock options message] }] }
    | none =>
      .ok { w with
            claudeMessages := w.claudeMessages ++
              [{ role := "user", content := .blocks [toolResultBlock options message] }] }
  else
    match claudeContent options message with
    | .error err => .error err
    | .ok content =>
      .ok { w with claudeMessages := w.claudeMessages ++ [{ role := message.role, content := content }] }

def MessagesWalk.step (w : MessagesWalk) (message : Message String) : Except String MessagesWalk :=
  if message.role = "system" then .ok { w with systemMessages := w.systemMessages ++ systemBlocks message }
  else (w.begin message.role).add options message

def claudeWalk : List (Message String) → MessagesWalk → Except String MessagesWalk
  | [], w => .ok w
  | message :: rest, w =>
    match w.step options message with
    | .error err => .error err
    | .ok w => claudeWalk rest w

/-! ## The request -/

/-- `EffortSuffixes`. -/
def effortSuffixes : List String := ["-max", "-xhigh", "-high", "-medium", "-low", "-minimal"]

/-- The name of the model without an ending that asks for an effort, where that is looked for. -/
def effortModel (model : String) : Option String :=
  if hasPrefix model "claude-opus-4-6" || hasPrefix model "claude-opus-4-7" || hasPrefix model "claude-opus-4-8" then
    (effortSuffixes.find? fun ending => hasSuffix model ending).map (trimSuffix model)
  else none

/-- `GetMaxTokens`. -/
def GeneralOpenAIRequest.getMaxTokens {J : Type} (req : GeneralOpenAIRequest J) : ℕ :=
  if req.maxCompletionTokens.getD 0 ≠ 0 then req.maxCompletionTokens.getD 0 else req.maxTokens.getD 0

/-- The limit of tokens, before the settings of thinking. -/
def claudeMaxTokens (req : GeneralOpenAIRequest Json) : Option ℕ :=
  if 0 < req.getMaxTokens then some req.getMaxTokens
  else options.defaultMaxTokens.map fun limit => limit req.model

/-- The name of the model and the limit of tokens. -/
def claudeModel (req : GeneralOpenAIRequest Json) : String × Option ℕ :=
  match effortModel req.model with
  | some model => (model, claudeMaxTokens options req)
  | none =>
    if options.thinkingAdapterEnabled && hasSuffix req.model "-thinking" then
      let trimmedModel := trimSuffix req.model "-thinking"
      let model := if options.preserveThinkingSuffix req.model then req.model else trimmedModel
      if hasPrefix trimmedModel "claude-opus-4-7" || hasPrefix trimmedModel "claude-opus-4-8" then
        (model, claudeMaxTokens options req)
      else (model, some (max ((claudeMaxTokens options req).getD 0) 1280))
    else (req.model, claudeMaxTokens options req)

/-- A field that is not there, or null, is set. -/
def setMissing (key : String) (v : Json) (fields : JsonObject) : JsonObject :=
  match Json.get fields key with
  | .null => (fields.filter fun field => field.1 ≠ key) ++ [(key, v)]
  | _ => fields

/-- `FunctionParametersToInputSchema`. -/
def functionParametersToInputSchema (parameters : Json) : Json :=
  .obj (setMissing "properties" (.obj []) (setMissing "type" (.str "object") (parameters.obj?.getD [])))

/-- `OpenAIChatRequestToClaudeMessages`. -/
def openAIChatRequestToClaudeMessages (textRequest : GeneralOpenAIRequest Json) :
    Except String (ClaudeRequest Json) :=
  match claudeWalk options (formatMessages textRequest.messages) {} with
  | .error err => .error err
  | .ok walk =>
    match (claudeModel options textRequest).2 with
    | none =>
      .error ("claude messages request requires max_tokens: set max_tokens on the request or configure " ++
        "Options.Claude.DefaultMaxTokens")
    | some maxTokens =>
      .ok { model := (claudeModel options textRequest).1
            system := if walk.systemMessages = [] then .absent else .blocks walk.systemMessages
            messages := walk.claudeMessages
            maxTokens := some maxTokens
            stopSequences := textRequest.stop
            stream := if textRequest.stream = some true then some true else none
            tools := textRequest.tools.map fun tool =>
              { tool with parameters := functionParametersToInputSchema tool.parameters } }

end NovaMaas.Convert
