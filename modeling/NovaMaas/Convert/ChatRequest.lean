/-
  A chat request as a Responses request (relaykit/relayconvert/internal/oai_chat/to_oai_responses_req.go).

  The messages of the system and the developer are joined to one text, the instructions.  Every other message becomes
  one item with its role, or one with the output of a call; and after the item of an assistant message come its calls,
  one item each.  So the calls of a message are told apart from those of the next by their place only.

  Raw messages are the JSON values they hold.  Tools that are not functions, the response format, the sampling numbers and
  penalties, and the fields that are copied as they are have been left out.
-/
import NovaMaas.Convert.ChatMessage
import NovaMaas.Lib.Json

namespace NovaMaas.Convert

/-- `OpenAIResponsesRequest`, as far as the converters of conversations read or write it. -/
structure OpenAIResponsesRequest where
  model              : String := ""
  input              : Option Json := none
  instructions       : Option Json := none
  maxOutputTokens    : Option ℕ := none
  stream             : Option Bool := none
  tools              : Option Json := none
  toolChoice         : Option Json := none
  conversation       : Option Json := none
  previousResponseID : String := ""
  prompt             : Option Json := none
  contextManagement  : Option Json := none

/-- How a message's content is written where it is no string. -/
structure ContentText where
  marshal : MessageContent String → String

/-! ## The parts of a content -/

/-- `normalizeChatImageURLToString`. -/
def normalizeChatImageURLToString (url detail : String) : Json :=
  if url ≠ "" then .str url
  else .obj ([("url", .str url)] ++ (if detail = "" then [] else [("detail", .str detail)]) ++ [("MimeType", .str "")])

/-- A field with `omitempty`. -/
def unlessEmpty (key value : String) : JsonObject := if value = "" then [] else [(key, .str value)]

/-- A part of a content as a part of an item; texts of the assistant are output. -/
def contentPart (role : String) : MediaContent String → Json
  | .text text => .obj [("type", .str (if role = "assistant" then "output_text" else "input_text")), ("text", .str text)]
  | .imageUrl url detail => .obj [("type", .str "input_image"), ("image_url", normalizeChatImageURLToString url detail)]
  | .inputAudio data format =>
    .obj [("type", .str "input_audio"), ("input_audio", .obj [("data", .str data), ("format", .str format)])]
  | .file fileId fileName fileData =>
    .obj [("type", .str "input_file"),
      ("file", .obj (unlessEmpty "filename" fileName ++ unlessEmpty "file_data" fileData ++
        unlessEmpty "file_id" fileId))]
  | .videoUrl url => .obj [("type", .str "input_video"), ("video_url", .obj [("url", .str url)])]

/-! ## Messages -/

/-- The text of a system or developer message; `none` without one. -/
def instructionsPart (m : Message String) : Option String :=
  let text :=
    match m.content with
    | .absent => ""
    | .string text => trimSpace text
    | _ => trimSpace ("\n".intercalate ((m.parseContent.filterMap fun part =>
        match part with
        | .text text => some text
        | _ => none).filter fun text => trimSpace text ≠ ""))
  if text = "" then none else some text

/-- The output of a call, as the tool message has it. -/
def toolOutput (contents : ContentText) (m : Message String) : String :=
  match m.content with
  | .absent => ""
  | .string text => text
  | content => contents.marshal content

/-- The item of a call, where it is a function with an id and a name. -/
def callItem (tc : ToolCallRequest String) : Option JsonObject :=
  if trimSpace tc.id = "" then none
  else if tc.type ≠ "" ∧ tc.type ≠ "function" then none
  else if trimSpace tc.name = "" then none
  else
    some [("type", .str "function_call"), ("call_id", .str tc.id), ("name", .str (trimSpace tc.name)),
      ("arguments", .str tc.arguments)]

/-- The content of a message as the content of its item. -/
def itemContent (role : String) (m : Message String) : Json :=
  match m.content with
  | .absent => .str ""
  | .string text => .str text
  | _ => .arr (m.parseContent.map (contentPart role))

/-- The items of a message that is none of the system's. -/
def messageItems (contents : ContentText) (m : Message String) : List JsonObject :=
  let role := trimSpace m.role
  if role = "tool" ∨ role = "function" then
    let callID := trimSpace m.toolCallId
    if callID = "" then
      [[("role", .str "user"), ("content", .str ("[tool_output_missing_call_id] " ++ toolOutput contents m))]]
    else
      [[("type", .str "function_call_output"), ("call_id", .str callID), ("output", .str (toolOutput contents m))]]
  else
    [("role", .str role), ("content", itemContent role m)] ::
      (if role = "assistant" then m.parseToolCalls.filterMap callItem else [])

/-- A message that goes into the instructions. -/
def Message.isSystem (m : Message String) : Bool := trimSpace m.role = "system" || trimSpace m.role = "developer"

/-! ## The request -/

/-- The choice of a tool: the name of a function is moved out of its object. -/
def chatToolChoice (v : Json) : Json :=
  match v with
  | .obj fields =>
    let ownName := (Json.get fields "name").str?.filter fun name => name ≠ ""
    let functionName := ((Json.get fields "function").obj?.bind fun function => (Json.get function "name").str?).filter
      fun name => name ≠ ""
    if (Json.get fields "type").str? = some "function" then
      match ownName <|> functionName with
      | some name => .obj [("type", .str "function"), ("name", .str name)]
      | none => v
    else v
  | v => v

/-- A tool that is a function; the other types are not modelled. -/
def chatTool (tool : FunctionTool Json) : Json :=
  .obj [("type", .str "function"), ("name", .str tool.name), ("description", .str tool.description),
    ("parameters", tool.parameters)]

/-- `ChatCompletionsRequestToResponsesRequest`. -/
def chatCompletionsRequestToResponsesRequest (contents : ContentText) (req : GeneralOpenAIRequest Json) :
    Except String OpenAIResponsesRequest :=
  if req.model = "" then .error "model is required"
  else if 1 < req.n.getD 1 then .error "n>1 is not supported in responses compatibility mode"
  else
    let messages := req.messages.filter fun m => trimSpace m.role ≠ ""
    let instructions := (messages.filter Message.isSystem).filterMap instructionsPart
    let items := (messages.filter fun m => !m.isSystem).flatMap (messageItems contents)
    .ok
      { model := req.model
        input := some (.arr (items.map Json.obj))
        instructions := if instructions = [] then none else some (.str ("\n\n".intercalate instructions))
        maxOutputTokens :=
          if req.maxTokens = none ∧ req.maxCompletionTokens = none then none
          else some (max (req.maxTokens.getD 0) (req.maxCompletionTokens.getD 0))
        stream := req.stream
        tools := if req.tools = [] then none else some (.arr (req.tools.map chatTool))
        toolChoice := req.toolChoice.map chatToolChoice }

end NovaMaas.Convert
