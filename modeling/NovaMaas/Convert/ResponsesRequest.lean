/-
  A Responses request as a chat request (relaykit/relayconvert/internal/oai_responses/to_oai_chat_req.go).

  The instructions become a system message.  The items are read one after the other: an item with a role becomes a
  message, the output of a call a tool message; a call is put to the assistant message that the list ends with, and
  where it ends with none, to a new one.  Of the tools the functions are modelled; the format of the text and the
  penalties, which have errors of their own, are not.
-/
import NovaMaas.Convert.ChatRequest

namespace NovaMaas.Convert

variable (texts : JsonText)

/-! ## Contents -/

open Json

/-- A part of a content, as `StringContent` and `ParseContent` read it. -/
def readPart (part : Json) : ContentPart String :=
  match part with
  | .obj fields =>
    let type := (get fields "type").str?
    if type = some "text" then
      match get fields "text" with
      | .str text => .media (.text text)
      | _ => .unread
    else if type = some "image_url" then
      match get fields "image_url" with
      | .str url => .media (.imageUrl url "high")
      | .obj image =>
        .media (.imageUrl ((get image "url").str?.getD "") ((get image "detail").str?.getD "high"))
      | _ => .media (.imageUrl "" "high")
    else if type = some "input_audio" then
      match (get fields "input_audio").obj? with
      | none => .unread
      | some audio =>
        match (get audio "data").str?, (get audio "format").str? with
        | some data, some format => .media (.inputAudio data format)
        | _, _ => .unread
    else if type = some "file" then
      match (get fields "file").obj? with
      | none => .unread
      | some file =>
        match (get file "file_id").str?, (get file "filename").str?, (get file "file_data").str? with
        | some fileId, _, _ => .media (.file fileId "" "")
        | none, some fileName, some fileData => .media (.file "" fileName fileData)
        | none, _, _ => .unread
    else if type = some "video_url" then
      match (get fields "video_url").str? with
      | some url => .media (.videoUrl url)
      | none => .unread
    else .unread
  | _ => .unread

/-- The fields of some names that are there, as one object; without any, the part itself. -/
def pickFields (part : JsonObject) (keys : List String) : Json :=
  let picked := keys.filterMap fun key => (part.lookup key).map fun v => (key, v)
  if picked = [] then .obj part else .obj picked

/-- `responsesImagePartToChatImageURL`. -/
def responsesImagePartToChatImageURL (part : JsonObject) : Json :=
  (part.lookup "image_url").getD (pickFields part ["url", "file_id", "detail"])

/-- `responsesFilePartToChatFile`. -/
def responsesFilePartToChatFile (part : JsonObject) : Json :=
  (part.lookup "file").getD (pickFields part ["file_id", "file_data", "filename", "file_url"])

/-- `responsesPartPayload`. -/
def responsesPartPayload (part : JsonObject) (key : String) : Json :=
  (part.lookup key).getD (.obj (part.filter fun field => field.1 ≠ "type"))

/-- `responsesVideoPartToChatVideoURL`. -/
def responsesVideoPartToChatVideoURL (part : JsonObject) : Json :=
  match part.lookup "video_url" with
  | some (.obj video) =>
    let url := (get video "url").interface2String texts
    if url ≠ "" then .str url else .obj video
  | some videoURL => videoURL
  | none =>
    let url := (get part "url").interface2String texts
    if url ≠ "" then .str url else responsesPartPayload part "video_url"

/-- A part of an item as a part of a message, and its text where it is a text. -/
def responsesContentPart (rawPart : Json) : Json × Option String :=
  match rawPart with
  | .obj part =>
    let partType := trimSpace ((get part "type").interface2String texts)
    if partType = "input_text" ∨ partType = "output_text" ∨ partType = "text" then
      let text := (get part "text").interface2String texts
      (.obj [("type", .str "text"), ("text", .str text)], some text)
    else if partType = "input_image" then
      (.obj [("type", .str "image_url"), ("image_url", responsesImagePartToChatImageURL part)], none)
    else if partType = "input_file" then
      (.obj [("type", .str "file"), ("file", responsesFilePartToChatFile part)], none)
    else if partType = "input_audio" then
      (.obj [("type", .str "input_audio"), ("input_audio", responsesPartPayload part "input_audio")], none)
    else if partType = "input_video" then
      (.obj [("type", .str "video_url"), ("video_url", responsesVideoPartToChatVideoURL texts part)], none)
    else (.obj part, none)
  | _ => (rawPart, none)

/-- `responsesContentPartsToChatContent`: texts alone become one string. -/
def responsesContentPartsToChatContent (parts : List Json) : MessageContent String :=
  let converted := parts.map (responsesContentPart texts)
  if converted.all fun part => part.2.isSome then .string (joinText (converted.filterMap Prod.snd))
  else .list (converted.map fun part => readPart part.1)

/-- `responsesInputContentToChatContent`.  A content of another kind is kept, and reads as one without parts. -/
def responsesInputContentToChatContent : Json → MessageContent String
  | .null => .string ""
  | .str text => .string text
  | .arr parts => responsesContentPartsToChatContent texts parts
  | _ => .list []

/-! ## Items -/

/-- `responsesCallID`. -/
def responsesCallID (item : JsonObject) : String :=
  let callID := trimSpace ((get item "call_id").interface2String texts)
  if callID ≠ "" then callID else trimSpace ((get item "id").interface2String texts)

/-- `responsesArgumentsString`, and `responseToolOutputToChatContent`. -/
def responsesArgumentsString : Json → String
  | .null => ""
  | .str text => text
  | v => texts.marshal v

/-- `responsesFunctionCallItemToChatToolCall`. -/
def responsesFunctionCallItemToChatToolCall (item : JsonObject) : Except String (ToolCallRequest String) :=
  let name := trimSpace ((get item "name").interface2String texts)
  if name = "" then .error "function_call item is missing name"
  else
    .ok { id := responsesCallID texts item
          type := "function"
          name := name
          arguments := responsesArgumentsString texts (get item "arguments")
          custom := "" }

/-- `responsesCustomToolCallItemToChatToolCall`. -/
def responsesCustomToolCallItemToChatToolCall (item : JsonObject) : ToolCallRequest String where
  id := responsesCallID texts item
  type := "custom"
  name := trimSpace ((get item "name").interface2String texts)
  arguments := responsesArgumentsString texts (get item "input")
  custom := texts.marshal (.obj item)

/-- `appendToolCallToLastAssistant`. -/
def appendToolCallToLastAssistant (messages : List (Message String)) (toolCall : ToolCallRequest String) :
    List (Message String) :=
  match messages.getLast? with
  | some last =>
    if last.role = "assistant" then
      messages.dropLast ++ [{ last with toolCalls := some (last.parseToolCalls ++ [toolCall]) }]
    else messages ++ [{ role := "assistant", toolCalls := some [toolCall] }]
  | none => [{ role := "assistant", toolCalls := some [toolCall] }]

/-- `responsesInputItemToChatMessages`. -/
def responsesInputItemToChatMessages (item : JsonObject) (messages : List (Message String)) :
    Except String (List (Message String)) :=
  let itemType := trimSpace ((get item "type").interface2String texts)
  if itemType = "function_call" then
    match responsesFunctionCallItemToChatToolCall texts item with
    | .error err => .error err
    | .ok toolCall => .ok (appendToolCallToLastAssistant messages toolCall)
  else if itemType = "custom_tool_call" then
    .ok (appendToolCallToLastAssistant messages (responsesCustomToolCallItemToChatToolCall texts item))
  else if itemType = "function_call_output" then
    .ok (messages ++ [{ role := "tool"
                        toolCallId := trimSpace ((get item "call_id").interface2String texts)
                        content := .string (responsesArgumentsString texts (get item "output")) }])
  else
    let role := trimSpace ((get item "role").interface2String texts)
    .ok (messages ++ [{ role := if role = "" then "user" else role
                        content := responsesInputContentToChatContent texts (get item "content") }])

/-- The items of a request, one after the other. -/
def responsesInputItems : List JsonObject → List (Message String) → Except String (List (Message String))
  | [], messages => .ok messages
  | item :: items, messages =>
    match responsesInputItemToChatMessages texts item messages with
    | .error err => .error err
    | .ok messages => responsesInputItems items messages

/-! ## The request -/

/-- `rawJSONPresent`, with the value. -/
def rawJSONPresent (raw : Option Json) : Option Json :=
  match raw with
  | some .null => none
  | raw => raw

/-- `responsesJSONString`. -/
def responsesJSONString : Json → String
  | .str s => s
  | v => texts.marshal v

/-- The message that the instructions become. -/
def instructionsMessages (instructions : Option Json) : List (Message String) :=
  match rawJSONPresent instructions with
  | none => []
  | some v =>
    if trimSpace (responsesJSONString texts v) = "" then []
    else [{ role := "system", content := .string (responsesJSONString texts v) }]

/-- `responsesRequestMessagesToChat`. -/
def responsesRequestMessagesToChat (req : OpenAIResponsesRequest) : Except String (List (Message String)) :=
  let messages := instructionsMessages texts req.instructions
  match rawJSONPresent req.input with
  | none => .ok messages
  | some (.str input) => .ok (messages ++ [{ role := "user", content := .string input }])
  | some (.arr items) =>
    match items.mapM toObject with
    | .error err => .error ("invalid input array: " ++ err)
    | .ok items => responsesInputItems texts items messages
  | some v => .error ("unsupported responses input type \"" ++ v.jsonType ++ "\"")

/-- `validateResponsesRequestChatUnsupportedFields`: the fields that chat has no place for. -/
def unsupportedFields (req : OpenAIResponsesRequest) : List String :=
  (if (rawJSONPresent req.conversation).isSome then ["conversation"] else []) ++
  (if trimSpace req.previousResponseID ≠ "" then ["previous_response_id"] else []) ++
  (if (rawJSONPresent req.prompt).isSome then ["prompt"] else []) ++
  (if (rawJSONPresent req.contextManagement).isSome then ["context_management"] else [])

/-- `responsesRequestToolsToChat`, for tools that are functions. -/
def responsesRequestToolsToChat (raw : Option Json) : Except String (List (FunctionTool Json)) :=
  match rawJSONPresent raw with
  | none => .ok []
  | some (.arr tools) =>
    match tools.mapM toObject with
    | .error err => .error ("invalid tools: " ++ err)
    | .ok tools =>
      .ok ((tools.filter fun tool => trimSpace ((get tool "type").interface2String texts) = "function").map
        fun tool =>
          { name := trimSpace ((get tool "name").interface2String texts)
            description := (get tool "description").interface2String texts
            parameters := get tool "parameters" })
  | some v =>
    .error ("invalid tools: json: cannot unmarshal " ++ v.kind ++
      " into Go value of type []map[string]interface \x7b\x7d")

/-- `responsesRequestToolChoiceToChat`. -/
def responsesRequestToolChoiceToChat (raw : Option Json) : Except String (Option Json) :=
  match rawJSONPresent raw with
  | none => .ok none
  | some (.str choice) => .ok (some (.str choice))
  | some (.obj choice) =>
    let name := trimSpace ((get choice "name").interface2String texts)
    if (get choice "type").interface2String texts = "function" ∧ name ≠ "" then
      .ok (some (.obj [("type", .str "function"), ("function", .obj [("name", .str name)])]))
    else .ok (some (.obj choice))
  | some v =>
    .error ("invalid tool_choice: json: cannot unmarshal " ++ v.kind ++
      " into Go value of type map[string]interface \x7b\x7d")

/-- `ResponsesRequestToChatCompletionsRequest`. -/
def responsesRequestToChatCompletionsRequest (req : OpenAIResponsesRequest) :
    Except String (GeneralOpenAIRequest Json) :=
  if req.model = "" then .error "model is required"
  else if unsupportedFields req ≠ [] then
    .error ("responses to chat conversion does not support stateful fields: " ++
      ", ".intercalate (unsupportedFields req))
  else do
    let messages ← responsesRequestMessagesToChat texts req
    let tools ← responsesRequestToolsToChat texts req.tools
    let toolChoice ← responsesRequestToolChoiceToChat texts req.toolChoice
    return { model := req.model, messages := messages, maxCompletionTokens := req.maxOutputTokens, stream := req.stream
             tools := tools, toolChoice := toolChoice }

end NovaMaas.Convert
