/-
  A chat request is converted to a Responses request and back.

  On the way there an assistant message with calls is laid flat: its item, then an item for every call.  On the way back
  a call goes to the assistant message that the list ends with.  The item of the message comes first and nothing comes
  between it and its calls, so a call finds its own message again, whatever stands before and after.

  What is lost is white space around roles, ids and names, and the old role `function`: its messages come back as tool
  messages.  Messages with a blank role are dropped.
-/
import NovaMaas.Convert.ResponsesRequest
import NovaMaas.Lib.Except

open List Except

namespace NovaMaas.Convert

open Message

variable (texts : JsonText) (contents : ContentText)

/-! ## What comes back -/

/-- A call that comes back: its id and its name are trimmed. -/
def ToolCallRequest.returned (tc : ToolCallRequest String) : ToolCallRequest String where
  id := trimSpace tc.id
  type := "function"
  name := trimSpace tc.name
  arguments := tc.arguments
  custom := ""

/-- The message of a call's output. -/
def Message.isToolOutput (m : Message String) : Bool := trimSpace m.role = "tool" || trimSpace m.role = "function"

/-- A message that comes back. -/
def Message.returned (m : Message String) : Message String :=
  if m.isToolOutput then
    { role := "tool", toolCallId := trimSpace m.toolCallId, content := .string m.stringContent }
  else
    { role := trimSpace m.role
      content := .string m.stringContent
      toolCalls := if trimSpace m.role = "assistant" ∧ m.parseToolCalls ≠ [] then
        some (m.parseToolCalls.map ToolCallRequest.returned) else none }

/-- The system message of some texts; none without texts. -/
def systemMessages (parts : List String) : List (Message String) :=
  if parts = [] then [] else [{ role := "system", content := .string ("\n\n".intercalate parts) }]

/-- The texts of the system and developer messages that are not blank. -/
def systemTexts (messages : List (Message String)) : List String :=
  ((messages.filter isSystem).map fun m => trimSpace m.stringContent).filter fun text => text ≠ ""

/-- A message of a conversation in plain text: its content is a string or absent, its calls (of the assistant's) are
functions with an id and a name, and the output of a call says which call. -/
structure Message.Plain (m : Message String) : Prop where
  content : m.content = .absent ∨ m.content = .string m.stringContent
  calls   : trimSpace m.role = "assistant" → ∀ tc ∈ m.parseToolCalls,
    (tc.type = "" ∨ tc.type = "function") ∧ trimSpace tc.id ≠ "" ∧ trimSpace tc.name ≠ ""
  output  : m.isToolOutput = true → trimSpace m.toolCallId ≠ ""

instance (m : Message String) : Decidable m.Plain :=
  decidable_of_iff
    ((m.content = .absent ∨ m.content = .string m.stringContent) ∧
      (trimSpace m.role = "assistant" → ∀ tc ∈ m.parseToolCalls,
        (tc.type = "" ∨ tc.type = "function") ∧ trimSpace tc.id ≠ "" ∧ trimSpace tc.name ≠ "") ∧
      (m.isToolOutput = true → trimSpace m.toolCallId ≠ ""))
    ⟨fun h => ⟨h.1, h.2.1, h.2.2⟩, fun h => ⟨h.content, h.calls, h.output⟩⟩

theorem Message.Plain.cases {m : Message String} (h : m.Plain) :
    m.content = .absent ∨ ∃ text, m.content = .string text := by
  rcases h.content with hc | hc
  · exact Or.inl hc
  · exact Or.inr ⟨_, hc⟩

/-! ## One message -/

section
variable {texts contents}

variable {m : Message String}

theorem itemContent_plain (h : m.Plain) (role : String) : itemContent role m = .str m.stringContent := by
  unfold itemContent stringContent
  rcases h.cases with hc | ⟨text, hc⟩
  · rw [hc]
    rfl
  · rw [hc]
    rfl

theorem toolOutput_plain (h : m.Plain) : toolOutput contents m = m.stringContent := by
  unfold toolOutput stringContent
  rcases h.cases with hc | ⟨text, hc⟩
  · rw [hc]
    rfl
  · rw [hc]
    rfl

theorem trimSpace_empty : trimSpace "" = "" := by decide +kernel

theorem trimSpace_functionCall : trimSpace "function_call" = "function_call" := by decide +kernel

theorem trimSpace_functionCallOutput : trimSpace "function_call_output" = "function_call_output" := by decide +kernel

/-- An item without a type is a message. -/
theorem read_roleItem {role text : String} (hrole : trimSpace role ≠ "") (messages : List (Message String)) :
    responsesInputItemToChatMessages texts [("role", .str (trimSpace role)), ("content", .str text)] messages =
      .ok (messages ++ [{ role := trimSpace role, content := .string text }]) := by
  have htype : trimSpace ((Json.get [("role", .str (trimSpace role)), ("content", .str text)] "type").interface2String
      texts) = "" := trimSpace_empty
  have hread : trimSpace ((Json.get [("role", .str (trimSpace role)), ("content", .str text)] "role").interface2String
      texts) = trimSpace role := trimSpace_trimSpace role
  unfold responsesInputItemToChatMessages
  rw [htype, hread, if_neg (by decide), if_neg (by decide), if_neg (by decide)]
  show Except.ok (messages ++ [{ role := if trimSpace role = "" then "user" else trimSpace role
                                 content := .string text }]) = _
  rw [if_neg hrole]

/-- The output of a call is a tool message. -/
theorem read_outputItem (callID text : String) (messages : List (Message String)) :
    responsesInputItemToChatMessages texts
        [("type", .str "function_call_output"), ("call_id", .str (trimSpace callID)), ("output", .str text)] messages =
      .ok (messages ++ [{ role := "tool", toolCallId := trimSpace callID, content := .string text }]) := by
  have htype : trimSpace ((Json.get [("type", .str "function_call_output"), ("call_id", .str (trimSpace callID)),
      ("output", .str text)] "type").interface2String texts) = "function_call_output" := trimSpace_functionCallOutput
  have hread : trimSpace ((Json.get [("type", .str "function_call_output"), ("call_id", .str (trimSpace callID)),
      ("output", .str text)] "call_id").interface2String texts) = trimSpace callID := trimSpace_trimSpace callID
  unfold responsesInputItemToChatMessages
  rw [htype, hread, if_neg (by decide), if_neg (by decide), if_pos rfl]
  rfl

/-- A call is put to the assistant message that the list ends with. -/
theorem read_callItem {tc : ToolCallRequest String} (hid : trimSpace tc.id ≠ "") (hname : trimSpace tc.name ≠ "")
    (messages : List (Message String)) {last : Message String} (hlast : last.role = "assistant") :
    responsesInputItemToChatMessages texts
        [("type", .str "function_call"), ("call_id", .str tc.id), ("name", .str (trimSpace tc.name)),
          ("arguments", .str tc.arguments)] (messages ++ [last]) =
      .ok (messages ++ [{ last with toolCalls := some (last.parseToolCalls ++ [tc.returned]) }]) := by
  set item : JsonObject := [("type", .str "function_call"), ("call_id", .str tc.id), ("name", .str (trimSpace tc.name)),
    ("arguments", .str tc.arguments)] with hitem
  have htype : trimSpace ((Json.get item "type").interface2String texts) = "function_call" := trimSpace_functionCall
  have hreadName : trimSpace ((Json.get item "name").interface2String texts) = trimSpace tc.name :=
    trimSpace_trimSpace tc.name
  have hreadId : responsesCallID texts item = trimSpace tc.id := if_pos hid
  have hcall : responsesFunctionCallItemToChatToolCall texts item = .ok tc.returned := by
    unfold responsesFunctionCallItemToChatToolCall
    rw [hreadName, if_neg hname, hreadId]
    rfl
  unfold responsesInputItemToChatMessages
  rw [htype, if_pos rfl, hcall]
  show ok (appendToolCallToLastAssistant (messages ++ [last]) tc.returned) = _
  unfold appendToolCallToLastAssistant
  rw [getLast?_concat, dropLast_concat]
  exact congrArg ok (if_pos hlast)

theorem responsesInputItems_cons (item : JsonObject) (items : List JsonObject) (messages : List (Message String)) :
    responsesInputItems texts (item :: items) messages =
      (responsesInputItemToChatMessages texts item messages).bind (responsesInputItems texts items) := by
  rw [responsesInputItems]
  cases responsesInputItemToChatMessages texts item messages with
  | error => rfl
  | ok => rfl

theorem responsesInputItems_append (items items' : List JsonObject) (messages : List (Message String)) :
    responsesInputItems texts (items ++ items') messages =
      (responsesInputItems texts items messages).bind (responsesInputItems texts items') := by
  induction items generalizing messages with
  | nil => rfl
  | cons item _ ih =>
    rw [cons_append, responsesInputItems_cons, responsesInputItems_cons]
    cases responsesInputItemToChatMessages texts item messages with
    | error => rfl
    | ok messages => exact ih messages

/-- The calls of a message come back to it, one after the other. -/
theorem read_callItems (calls : List (ToolCallRequest String))
    (h : ∀ tc ∈ calls, (tc.type = "" ∨ tc.type = "function") ∧ trimSpace tc.id ≠ "" ∧ trimSpace tc.name ≠ "")
    (messages : List (Message String)) {last : Message String} (hlast : last.role = "assistant") (hne : calls ≠ []) :
    responsesInputItems texts (calls.filterMap callItem) (messages ++ [last]) = .ok (messages ++ [{ last with
        toolCalls := some (last.parseToolCalls ++ calls.map ToolCallRequest.returned) }]) := by
  induction calls generalizing last with
  | nil => exact absurd rfl hne
  | cons tc calls ih =>
    obtain ⟨htype, hid, hname⟩ := h tc mem_cons_self
    have hitem : callItem tc = some [("type", .str "function_call"), ("call_id", .str tc.id),
        ("name", .str (trimSpace tc.name)), ("arguments", .str tc.arguments)] := by
      unfold callItem
      rw [if_neg hid, if_neg (by rintro ⟨h1, h2⟩; rcases htype with h | h <;> contradiction), if_neg hname]
    rw [filterMap_cons_some hitem, responsesInputItems_cons, read_callItem hid hname messages hlast]
    by_cases hcalls : calls = []
    · rw [hcalls]
      rfl
    · have hrole : ({ last with toolCalls := some (last.parseToolCalls ++ [tc.returned]) } : Message String).role =
          "assistant" := hlast
      refine (ih (fun tc htc => h tc (mem_cons_of_mem _ htc)) hrole hcalls).trans ?_
      simp [parseToolCalls]

/-- The items of a message come back as that message, after whatever is there. -/
theorem read_messageItems (h : m.Plain) (hrole : trimSpace m.role ≠ "") (messages : List (Message String)) :
    responsesInputItems texts (messageItems contents m) messages = .ok (messages ++ [m.returned]) := by
  unfold messageItems returned
  by_cases houtput : m.isToolOutput = true
  · have hor : trimSpace m.role = "tool" ∨ trimSpace m.role = "function" := by
      simpa [isToolOutput] using houtput
    rw [if_pos hor, if_pos houtput, if_neg (h.output houtput), toolOutput_plain h, responsesInputItems_cons,
      read_outputItem]
    rfl
  · have hor : ¬ (trimSpace m.role = "tool" ∨ trimSpace m.role = "function") := by
      simpa [isToolOutput] using houtput
    rw [if_neg hor, if_neg houtput, itemContent_plain h, responsesInputItems_cons, read_roleItem hrole]
    by_cases hassistant : trimSpace m.role = "assistant"
    · by_cases hcalls : m.parseToolCalls = []
      · rw [if_pos hassistant, hcalls, if_neg (fun hand => hand.2 rfl)]
        rfl
      · rw [if_pos hassistant, if_pos ⟨hassistant, hcalls⟩]
        refine (read_callItems m.parseToolCalls (h.calls hassistant) messages ?_ hcalls).trans ?_
        · exact hassistant
        · rfl
    · rw [if_neg hassistant, if_neg (fun hand => hassistant hand.1)]
      rfl

/-- So do those of all messages. -/
theorem read_allItems (ms : List (Message String)) (h : ∀ m ∈ ms, m.Plain) (hrole : ∀ m ∈ ms, trimSpace m.role ≠ "")
    (messages : List (Message String)) :
    responsesInputItems texts (ms.flatMap (messageItems contents)) messages = .ok (messages ++ ms.map returned) := by
  induction ms generalizing messages with
  | nil =>
    rw [map_nil, append_nil]
    rfl
  | cons m ms ih =>
    rw [flatMap_cons, responsesInputItems_append, read_messageItems (h m mem_cons_self) (hrole m mem_cons_self)]
    show responsesInputItems texts (ms.flatMap (messageItems contents)) (messages ++ [m.returned]) = _
    rw [ih (fun m hm => h m (mem_cons_of_mem _ hm)) (fun m hm => hrole m (mem_cons_of_mem _ hm)),
      append_assoc, map_cons, singleton_append]

/-! ## The request -/

/-- The text of a plain system message. -/
theorem instructionsPart_plain (h : m.Plain) :
    instructionsPart m = if trimSpace m.stringContent = "" then none else some (trimSpace m.stringContent) := by
  unfold instructionsPart stringContent
  rcases h.cases with hc | ⟨text, hc⟩
  · rw [hc]
    have hempty : trimSpace (MessageContent.stringContent (.absent : MessageContent String)) = "" := trimSpace_empty
    rw [hempty]
  · rw [hc]
    rfl

theorem instructionsParts_plain (ms : List (Message String)) (h : ∀ m ∈ ms, m.Plain) :
    ms.filterMap instructionsPart = (ms.map fun m => trimSpace m.stringContent).filter fun text => text ≠ "" := by
  induction ms with
  | nil => rfl
  | cons m _ ih =>
    have hpart := instructionsPart_plain (h m mem_cons_self)
    rw [map_cons, filter_cons, ← ih fun m hm => h m (mem_cons_of_mem _ hm)]
    by_cases hempty : trimSpace m.stringContent = ""
    · rw [if_pos hempty] at hpart
      rw [filterMap_cons_none hpart, if_neg (by simpa using hempty)]
    · rw [if_neg hempty] at hpart
      rw [filterMap_cons_some hpart, if_pos (by simpa using hempty)]

/-- Joined texts that are not blank are not blank. -/
theorem trimSpace_intercalate_ne {parts : List String} (hne : parts ≠ []) (h : ∀ part ∈ parts, trimSpace part ≠ "") :
    trimSpace ("\n\n".intercalate parts) ≠ "" := by
  obtain ⟨part, rest, rfl⟩ := exists_cons_of_ne_nil hne
  intro hblank
  apply h part mem_cons_self
  rw [trimSpace_eq_empty_iff] at hblank ⊢
  intro c hc
  apply hblank
  by_cases hrest : rest = []
  · rw [hrest, String.intercalate_singleton]
    exact hc
  · rw [String.intercalate_cons_of_ne_nil hrest]
    simp [hc]

theorem mapM_toObject (items : List JsonObject) : (items.map Json.obj).mapM Json.toObject = .ok items := by
  induction items with
  | nil => rfl
  | cons _ _ ih =>
    rw [map_cons, mapM_cons, ih]
    rfl

theorem messagesToChat_items {req : OpenAIResponsesRequest} {items : List JsonObject}
    (h : req.input = some (.arr (items.map Json.obj))) :
    responsesRequestMessagesToChat texts req =
      responsesInputItems texts items (instructionsMessages texts req.instructions) := by
  unfold responsesRequestMessagesToChat
  rw [h]
  simp only [rawJSONPresent]
  rw [mapM_toObject]

/-- The messages of a converted request. -/
theorem read_converted {req : GeneralOpenAIRequest Json} (hplain : ∀ m ∈ req.messages, m.Plain)
    {converted : OpenAIResponsesRequest}
    (h : chatCompletionsRequestToResponsesRequest contents req = .ok converted) :
    responsesRequestMessagesToChat texts converted = .ok (systemMessages (systemTexts req.messages) ++
        ((req.messages.filter fun m => trimSpace m.role ≠ "").filter fun m => !m.isSystem).map returned) := by
  unfold chatCompletionsRequestToResponsesRequest at h
  by_cases hmodel : req.model = ""
  · rw [if_pos hmodel] at h
    cases h
  rw [if_neg hmodel] at h
  by_cases hn : 1 < req.n.getD 1
  · rw [if_pos hn] at h
    cases h
  rw [if_neg hn] at h
  obtain rfl := ok.inj h
  set messages := req.messages.filter fun m => trimSpace m.role ≠ "" with hmessages
  have hkept : ∀ m ∈ messages, m.Plain ∧ trimSpace m.role ≠ "" := by
    intro m hm
    rw [hmessages, mem_filter] at hm
    exact ⟨hplain m hm.1, by simpa using hm.2⟩
  have hsystem : messages.filter isSystem = req.messages.filter isSystem := by
    rw [hmessages, filter_filter]
    refine filter_congr fun m _ => ?_
    by_cases hrole : trimSpace m.role = ""
    · simp [isSystem, hrole]
    · simp [hrole]
  have hparts : (messages.filter isSystem).filterMap instructionsPart = systemTexts req.messages := by
    rw [instructionsParts_plain _ fun m hm => (hkept m (mem_of_mem_filter hm)).1, hsystem]
    rfl
  have hinstructions : instructionsMessages texts
      (if (messages.filter isSystem).filterMap instructionsPart = [] then none
        else some (.str ("\n\n".intercalate ((messages.filter isSystem).filterMap instructionsPart)))) =
      systemMessages (systemTexts req.messages) := by
    rw [hparts]
    unfold systemMessages
    by_cases hnil : systemTexts req.messages = []
    · rw [if_pos hnil, if_pos hnil]
      rfl
    · have hne : trimSpace ("\n\n".intercalate (systemTexts req.messages)) ≠ "" := by
        apply trimSpace_intercalate_ne hnil
        intro part hpart
        obtain ⟨hmem, hpart'⟩ := mem_filter.1 hpart
        obtain ⟨m, -, rfl⟩ := mem_map.1 hmem
        rw [trimSpace_trimSpace]
        simpa using hpart'
      rw [if_neg hnil, if_neg hnil]
      exact if_neg hne
  have hitems : responsesInputItems texts ((messages.filter fun m => !m.isSystem).flatMap (messageItems contents))
      (systemMessages (systemTexts req.messages)) = .ok (systemMessages (systemTexts req.messages) ++
          (messages.filter fun m => !m.isSystem).map returned) :=
    read_allItems _ (fun m hm => (hkept m (mem_of_mem_filter hm)).1)
      (fun m hm => (hkept m (mem_of_mem_filter hm)).2) _
  rw [messagesToChat_items rfl, hinstructions]
  exact hitems

/-- A request that is accepted has the messages that its items become. -/
theorem messages_of_ok {converted : OpenAIResponsesRequest} {back : GeneralOpenAIRequest Json}
    (h : responsesRequestToChatCompletionsRequest texts converted = .ok back) :
    responsesRequestMessagesToChat texts converted = .ok back.messages := by
  unfold responsesRequestToChatCompletionsRequest at h
  by_cases hmodel : converted.model = ""
  · rw [if_pos hmodel] at h
    cases h
  rw [if_neg hmodel] at h
  by_cases hfields : unsupportedFields converted ≠ []
  · rw [if_pos hfields] at h
    cases h
  rw [if_neg hfields] at h
  obtain ⟨messages, hmessages, h⟩ := bind_eq_ok.1 h
  obtain ⟨tools, -, h⟩ := bind_eq_ok.1 h
  obtain ⟨toolChoice, -, h⟩ := bind_eq_ok.1 h
  obtain rfl := ok.inj h
  exact hmessages

/-- A choice of a tool that both sides can read: a string or an object. -/
def Json.IsChoice (v : Json) : Prop := v.str?.isSome ∨ v.obj?.isSome

theorem Json.IsChoice.chatToolChoice {v : Json} (h : Json.IsChoice v) : Json.IsChoice (chatToolChoice v) := by
  cases v with
  | obj fields =>
    show Json.IsChoice (if (Json.get fields "type").str? = some "function" then _ else Json.obj fields)
    split
    · split
      · exact Or.inr rfl
      · exact Or.inr rfl
    · exact Or.inr rfl
  | null | bool | num | str | arr => exact h

theorem toolChoiceToChat_ok {v : Json} (h : Json.IsChoice v) :
    ∃ choice, responsesRequestToolChoiceToChat texts (some v) = .ok choice := by
  cases v with
  | str => exact ⟨_, rfl⟩
  | obj =>
    unfold responsesRequestToolChoiceToChat
    simp only [rawJSONPresent]
    split
    · exact ⟨_, rfl⟩
    · exact ⟨_, rfl⟩
  | null | bool | num | arr => rcases h with h | h <;> cases h

theorem toolsToChat_ok (tools : List (FunctionTool Json)) :
    ∃ back, responsesRequestToolsToChat texts (if tools = [] then none else some (.arr (tools.map chatTool))) =
      .ok back := by
  unfold responsesRequestToolsToChat
  by_cases hnil : tools = []
  · rw [if_pos hnil]
    exact ⟨[], rfl⟩
  · have hobjects : tools.map chatTool = (tools.map fun tool =>
        [("type", Json.str "function"), ("name", .str tool.name), ("description", .str tool.description),
          ("parameters", tool.parameters)]).map Json.obj := by
      rw [map_map]
      rfl
    rw [if_neg hnil]
    simp only [rawJSONPresent]
    rw [hobjects, mapM_toObject]
    exact ⟨_, rfl⟩

/-- Both conversions accept a request in plain text that names a model, asks for one answer, and chooses a tool by a
string or an object. -/
theorem round_trip_accepted {req : GeneralOpenAIRequest Json} (hplain : ∀ m ∈ req.messages, m.Plain) (hmodel : req.model ≠ "")
    (hn : req.n.getD 1 ≤ 1) (hchoice : ∀ v ∈ req.toolChoice, Json.IsChoice v) :
    ∃ converted back, chatCompletionsRequestToResponsesRequest contents req = .ok converted ∧
      responsesRequestToChatCompletionsRequest texts converted = .ok back := by
  have hconverted : ∃ converted, chatCompletionsRequestToResponsesRequest contents req = .ok converted ∧
      converted.model = req.model ∧ unsupportedFields converted = [] ∧
      converted.tools = (if req.tools = [] then none else some (.arr (req.tools.map chatTool))) ∧
      converted.toolChoice = req.toolChoice.map chatToolChoice := by
    unfold chatCompletionsRequestToResponsesRequest
    rw [if_neg hmodel, if_neg (by omega)]
    refine ⟨_, rfl, rfl, ?_, rfl, rfl⟩
    have hblank : trimSpace "" = "" := trimSpace_empty
    simp [unsupportedFields, rawJSONPresent, hblank]
  obtain ⟨converted, hconverted, hmodel', hfields, htools', hchoice'⟩ := hconverted
  have hmessages : responsesRequestMessagesToChat texts converted = .ok _ := read_converted hplain hconverted
  obtain ⟨tools, htools⟩ : ∃ tools, responsesRequestToolsToChat texts
      (if req.tools = [] then none else some (.arr (req.tools.map chatTool))) = .ok tools := toolsToChat_ok req.tools
  have hchosen : ∃ choice, responsesRequestToolChoiceToChat texts (req.toolChoice.map chatToolChoice) = .ok choice := by
    cases hreq : req.toolChoice with
    | none => exact ⟨none, rfl⟩
    | some v => exact toolChoiceToChat_ok (hchoice v hreq).chatToolChoice
  obtain ⟨choice, hchosen⟩ := hchosen
  have hback : ∃ back, responsesRequestToChatCompletionsRequest texts converted = .ok back := by
    unfold responsesRequestToChatCompletionsRequest
    rw [if_neg (by rwa [hmodel']), if_neg (by simp [hfields]), hmessages, htools', htools, hchoice', hchosen]
    exact ⟨_, rfl⟩
  obtain ⟨back, hback⟩ := hback
  exact ⟨converted, back, hconverted, hback⟩

end

/-- **The conversation comes back.**  A chat request of messages in plain text that is converted to a Responses request
and back has one system message with the texts of the system and the developer, if there are any, and then the other
messages in order. -/
theorem messages_returned (req : GeneralOpenAIRequest Json) (hplain : ∀ m ∈ req.messages, m.Plain)
    (converted : OpenAIResponsesRequest) (h : chatCompletionsRequestToResponsesRequest contents req = .ok converted)
    (back : GeneralOpenAIRequest Json) (hback : responsesRequestToChatCompletionsRequest texts converted = .ok back) :
    back.messages = systemMessages (systemTexts req.messages) ++
      ((req.messages.filter fun m => trimSpace m.role ≠ "").filter fun m => !m.isSystem).map returned := by
  have hread : responsesRequestMessagesToChat texts converted = .ok back.messages := messages_of_ok hback
  rw [read_converted hplain h] at hread
  exact (ok.inj hread).symm

/-- Texts of values, for a run that is to be evaluated. -/
def blankTexts : JsonText where
  marshal := fun _ => ""
  sprint := fun _ => ""

/-- A conversation with a call, whose output is given under the old role. -/
def weatherChat : GeneralOpenAIRequest Json where
  model := "gpt"
  messages := [
    { role := "system", content := .string " Be brief. " },
    { role := "user", content := .string "Weather?" },
    { role := "assistant"
      toolCalls := some [{ id := "call_1", type := "function", name := "weather", arguments := "\x7b\x7d", custom := "" }] },
    { role := "function", toolCallId := "call_1", content := .string "Rain." }]

theorem round_trip_accepted_weather : ∃ converted back,
    chatCompletionsRequestToResponsesRequest ⟨fun _ => ""⟩ weatherChat = .ok converted ∧
      responsesRequestToChatCompletionsRequest blankTexts converted = .ok back :=
  round_trip_accepted (by decide +kernel) (by decide) (by decide) fun _ h => nomatch h

/-- The output comes back under the new role. -/
theorem function_role_lost : (∀ m ∈ weatherChat.messages, m.Plain ∧ m.role ≠ "") ∧
      ((chatCompletionsRequestToResponsesRequest ⟨fun _ => ""⟩ weatherChat).bind fun converted =>
        (responsesRequestToChatCompletionsRequest blankTexts converted).map fun back =>
          back.messages.map role) = .ok ["system", "user", "assistant", "tool"] ∧
      weatherChat.messages.map role = ["system", "user", "assistant", "function"] := by
  refine ⟨?_, ?_, rfl⟩
  · decide +kernel
  · decide +kernel

theorem messages_returned_weather :
    ∃ converted back, chatCompletionsRequestToResponsesRequest ⟨fun _ => ""⟩ weatherChat = .ok converted ∧
      responsesRequestToChatCompletionsRequest blankTexts converted = .ok back ∧
      back.messages = systemMessages (systemTexts weatherChat.messages) ++
        ((weatherChat.messages.filter fun m => trimSpace m.role ≠ "").filter fun m => !m.isSystem).map returned := by
  have hplain : ∀ m ∈ weatherChat.messages, m.Plain := by decide +kernel
  have hok : ((chatCompletionsRequestToResponsesRequest ⟨fun _ => ""⟩ weatherChat).bind
      (responsesRequestToChatCompletionsRequest blankTexts)).isOk = true := by decide +kernel
  cases hconverted : chatCompletionsRequestToResponsesRequest ⟨fun _ => ""⟩ weatherChat with
  | error =>
    rw [hconverted] at hok
    cases hok
  | ok converted =>
    rw [hconverted] at hok
    cases hback : responsesRequestToChatCompletionsRequest blankTexts converted with
    | error =>
      have hok : (responsesRequestToChatCompletionsRequest blankTexts converted).isOk = true := hok
      rw [hback] at hok
      cases hok
    | ok back =>
      exact ⟨converted, back, rfl, hback,
        messages_returned blankTexts ⟨fun _ => ""⟩ weatherChat hplain converted hconverted back hback⟩

end NovaMaas.Convert
