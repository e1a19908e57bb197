/-
  From a Responses event stream to a chat stream
  (relaykit/relayconvert/internal/oai_responses/to_oai_chat_stream_resp.go).

  Text and reasoning are passed on.  A tool call is harder: its events may name it by the output index, by the item id or
  by the call id, its arguments may come before the call is added, and they come more than once: as deltas, in the item
  that is done, and in the final response.  The state keeps the calls under keys, three maps from what an event may
  name to a key, two buffers for arguments of calls that are not known yet, and for each call the number of bytes that
  were sent.

  A call is a pointer in the source; here it is its number, which is the chat index it gets, and `tools` holds the calls
  by number.  A key is a string with one of three beginnings in the source; here it is a `ToolKey`.  The usage, and the
  text that is gathered to estimate one, are not modelled.
-/
import NovaMaas.Convert.ResponsesStream
import NovaMaas.Lib.Text

namespace NovaMaas.Convert

/-- A text, as the bytes it is made of. -/
abbrev Bytes := List UInt8

/-- An event that is read. -/
abbrev WireEvent := ResponsesStreamResponse Bytes

/-! ## What is written -/

/-- A fragment of a tool call, as it is sent. -/
structure ToolDelta where
  index     : ℕ
  id        : String
  name      : String
  arguments : Bytes
  deriving DecidableEq

/-- `ChatCompletionsStreamResponse`, as it is sent: a choice with one delta. -/
structure ChatDelta where
  id               : String
  model            : String
  created          : ℤ
  role             : String := ""
  content          : Option Bytes := none
  reasoningContent : Option Bytes := none
  toolCall         : Option ToolDelta := none
  finishReason     : Option String := none

/-! ## The state -/

/-- The key of a tool call: `output:`, `item:` or `call:` and what the event named. -/
inductive ToolKey where
  | output (outputIndex : ℤ)
  | item (itemID : String)
  | call (callID : String)
  deriving DecidableEq

def ToolKey.toString : ToolKey → String
  | .output outputIndex => "output:" ++ Int.repr outputIndex
  | .item itemID => "item:" ++ itemID
  | .call callID => "call:" ++ callID

/-- `responsesStreamTool`.  Its index is its number. -/
structure ResponsesStreamTool where
  key        : ToolKey
  callID     : String := ""
  itemID     : String := ""
  name       : String := ""
  arguments  : Bytes := []
  sent       : Bool := false
  nameSent   : Bool := false
  argsSentAt : ℕ := 0

/-- What is sent of the arguments of a call: the delta or, without one, what was not sent yet. -/
def ResponsesStreamTool.argsDelta (tool : ResponsesStreamTool) (explicitDelta : Bytes) : Bytes :=
  if explicitDelta = [] then tool.arguments.drop tool.argsSentAt else explicitDelta

structure ResponsesToChatStreamState where
  id                         : String := ""
  model                      : String := ""
  created                    : ℤ := 0
  sentStart                  : Bool := false
  finalized                  : Bool := false
  hasSentText                : Bool := false
  sawToolCall                : Bool := false
  hasSentReasoning           : Bool := false
  needsReasoningSummaryBreak : Bool := false
  /-- The calls by number; the next one is the length. -/
  tools                      : List ResponsesStreamTool := []
  toolByKey                  : AList fun _ : ToolKey => ℕ := ∅
  outputIndexToKey           : AList fun _ : ℤ => ToolKey := ∅
  itemIDToKey                : AList fun _ : String => ToolKey := ∅
  callIDToKey                : AList fun _ : String => ToolKey := ∅
  pendingArgsByOutputIndex   : AList fun _ : ℤ => Bytes := ∅
  pendingArgsByItemID        : AList fun _ : String => Bytes := ∅

/-- `NewResponsesToChatStreamState`, at the time `created`. -/
def newResponsesToChatStreamState (model : String) (created : ℤ) : ResponsesToChatStreamState :=
  { model := model, created := created }

/-! ## What an event names -/

section
variable (event : WireEvent)

/-- `responseStreamEventItemID`. -/
def responseStreamEventItemID : String :=
  match event.item with
  | some item => if trimSpace item.id ≠ "" then trimSpace item.id else trimSpace event.itemID
  | none => trimSpace event.itemID

def fallbackToolKey (itemID callID : String) (outputIndex : Option ℤ) : Option ToolKey :=
  match outputIndex with
  | some i => some (.output i)
  | none =>
    if trimSpace itemID ≠ "" then some (.item (trimSpace itemID))
    else if trimSpace callID ≠ "" then some (.call (trimSpace callID))
    else none

def keyForEvent : Option ToolKey :=
  match event.outputIndex with
  | some i => some (.output i)
  | none =>
    let named := event.item.bind fun item =>
      if trimSpace item.id ≠ "" then some (ToolKey.item (trimSpace item.id))
      else if trimSpace item.callId ≠ "" then some (.call (trimSpace item.callId))
      else none
    named <|> (if trimSpace event.itemID ≠ "" then some (.item (trimSpace event.itemID)) else none)

def fallbackCallID : String :=
  if trimSpace event.itemID ≠ "" then trimSpace event.itemID
  else
    match event.outputIndex with
    | some i => "call_output_" ++ Int.repr i
    | none => ""

end

def isResponsesToolOutputType : ResponsesOutputType → Bool
  | .functionCall => true
  | .customToolCall => true
  | _ => false

/-- `ResponsesFinishReasonFromStatus`. -/
def responsesFinishReasonFromStatus {τ : Type} (response : Option (OpenAIResponsesResponse τ)) : Option String :=
  response.bind fun response =>
    if trimSpace response.status ≠ "incomplete" then none
    else if trimSpace (response.incompleteDetails.getD "") = "content_filter" then some "content_filter"
    else some "length"

def ensureIncompleteResponse (response : Option (OpenAIResponsesResponse Bytes)) : OpenAIResponsesResponse Bytes :=
  let response := response.getD {}
  if response.status = "" then { response with status := "incomplete" } else response

/-! ## Deltas -/

namespace ResponsesToChatStreamState

variable (s : ResponsesToChatStreamState)

def makeChunk : ChatDelta := { id := s.id, model := s.model, created := s.created }

def applyResponseMetadata (response : Option (OpenAIResponsesResponse Bytes)) : ResponsesToChatStreamState :=
  match response with
  | none => s
  | some response =>
    { s with
      id := if response.id ≠ "" ∧ s.id = "" then response.id else s.id
      model := if response.model ≠ "" then response.model else s.model
      created := if response.createdAt ≠ 0 then response.createdAt else s.created }

def ensureStart : List ChatDelta × ResponsesToChatStreamState :=
  if s.sentStart then ([], s)
  else ([{ s.makeChunk with role := "assistant", content := some [] }], { s with sentStart := true })

def textDelta (delta : Bytes) : List ChatDelta × ResponsesToChatStreamState :=
  if delta = [] then ([], s)
  else
    let start := { s with hasSentText := true }.ensureStart
    (start.1 ++ [{ start.2.makeChunk with content := some delta }], start.2)

/-- A line feed. -/
def lineFeed : UInt8 := 10

/-- The reasoning of a new summary part begins with a blank line. -/
def withSummaryBreak (delta : Bytes) : Bytes :=
  if [lineFeed, lineFeed].isPrefixOf delta then delta
  else if [lineFeed].isPrefixOf delta then lineFeed :: delta
  else lineFeed :: lineFeed :: delta

def reasoningDelta (delta : Bytes) : List ChatDelta × ResponsesToChatStreamState :=
  if delta = [] then ([], s)
  else
    let delta := if s.needsReasoningSummaryBreak then withSummaryBreak delta else delta
    let start := { s with needsReasoningSummaryBreak := false }.ensureStart
    (start.1 ++ [{ start.2.makeChunk with reasoningContent := some delta }], { start.2 with hasSentReasoning := true })

/-! ## Tool calls -/

/-- A call is changed. -/
def modifyTool (n : ℕ) (f : ResponsesStreamTool → ResponsesStreamTool) : ResponsesToChatStreamState :=
  { s with tools := s.tools.modify n f }

/-- `toolDelta`, for the call `n`. -/
def toolDelta (n : ℕ) (explicitDelta : Bytes) : List ChatDelta × ResponsesToChatStreamState :=
  match s.tools[n]? with
  | none => ([], s)
  | some tool =>
    let argsDelta := tool.argsDelta explicitDelta
    if tool.sent ∧ argsDelta = [] ∧ (tool.name = "" ∨ tool.nameSent) then ([], s)
    else
      let start := s.ensureStart
      let callID := trimSpace tool.callID
      let responseTool : ToolDelta :=
        { index := n
          id := if callID = "" then tool.key.toString else callID
          name := if !tool.nameSent && tool.name ≠ "" then tool.name else ""
          arguments := argsDelta }
      let sent := start.2.modifyTool n fun tool =>
        { tool with
          nameSent := tool.nameSent || tool.name ≠ ""
          sent := true
          argsSentAt := tool.argsSentAt + argsDelta.length }
      (start.1 ++ [{ start.2.makeChunk with toolCall := some responseTool }], { sent with sawToolCall := true })

/-- The call `n` is known by an output index, and gets the arguments that were kept under it. -/
def linkOutputIndex (n : ℕ) (key : ToolKey) (outputIndex : Option ℤ) : ResponsesToChatStreamState :=
  match outputIndex with
  | none => s
  | some i =>
    let pending := (s.pendingArgsByOutputIndex.lookup i).getD []
    { s.modifyTool n fun tool => { tool with arguments := tool.arguments ++ pending } with
      outputIndexToKey := s.outputIndexToKey.insert i key
      pendingArgsByOutputIndex := s.pendingArgsByOutputIndex.erase i }

/-- The call `n` is known by an item id, and gets the arguments that were kept under it. -/
def linkItemID (n : ℕ) (key : ToolKey) (itemID : String) : ResponsesToChatStreamState :=
  if itemID = "" then s
  else
    let pending := (s.pendingArgsByItemID.lookup itemID).getD []
    { s.modifyTool n fun tool => { tool with itemID := itemID, arguments := tool.arguments ++ pending } with
      itemIDToKey := s.itemIDToKey.insert itemID key
      pendingArgsByItemID := s.pendingArgsByItemID.erase itemID }

/-- The call `n` is known by a call id; without any it gets the item's. -/
def linkCallID (n : ℕ) (key : ToolKey) (callID itemID : String) : ResponsesToChatStreamState :=
  if callID ≠ "" then
    { s.modifyTool n fun tool => { tool with callID := callID } with callIDToKey := s.callIDToKey.insert callID key }
  else s.modifyTool n fun tool => { tool with callID := if tool.callID = "" then itemID else tool.callID }

/-- A new call, under a key. -/
def addTool (tool : ResponsesStreamTool) : ResponsesToChatStreamState :=
  { s with tools := s.tools ++ [tool], toolByKey := s.toolByKey.insert tool.key s.tools.length }

/-- The call an item is about, if it is known under the item's key, its id or its call id. -/
def knownTool (key : ToolKey) (itemID callID : String) : Option ℕ :=
  s.toolByKey.lookup key <|>
    (if itemID ≠ "" then (s.itemIDToKey.lookup itemID).bind fun key => s.toolByKey.lookup key else none) <|>
    (if callID ≠ "" then (s.callIDToKey.lookup callID).bind fun key => s.toolByKey.lookup key else none)

/-- `ensureToolForEvent`. -/
def ensureToolForEvent (event : WireEvent) : Option (ℕ × ResponsesToChatStreamState) :=
  event.item.bind fun item =>
    (keyForEvent event <|> fallbackToolKey item.id item.callId event.outputIndex).map fun key =>
      let itemID := responseStreamEventItemID event
      let callID := trimSpace item.callId
      let found :=
        match s.knownTool key itemID callID with
        | some n => (n, { s with toolByKey := s.toolByKey.insert key n })
        | none => (s.tools.length, s.addTool { key := key })
      let linked := ((found.2.linkOutputIndex found.1 key event.outputIndex).linkItemID found.1 key itemID).linkCallID
        found.1 key callID (trimSpace item.id)
      (found.1, linked.modifyTool found.1 fun tool =>
        { tool with name := if trimSpace item.name ≠ "" then trimSpace item.name else tool.name })

/-- `findToolForEvent`. -/
def findToolForEvent (event : WireEvent) : Option ℕ :=
  match event.outputIndex.bind fun i => s.outputIndexToKey.lookup i with
  | some key => s.toolByKey.lookup key
  | none =>
    match (if trimSpace event.itemID ≠ "" then s.itemIDToKey.lookup (trimSpace event.itemID) else none) with
    | some key => s.toolByKey.lookup key
    | none => event.item.bind fun _ => (keyForEvent event).bind fun key => s.toolByKey.lookup key

/-- `ensureFallbackToolForEvent`. -/
def ensureFallbackToolForEvent (event : WireEvent) : Option (ℕ × ResponsesToChatStreamState) :=
  let key :=
    match event.outputIndex with
    | some i => some (ToolKey.output i)
    | none => if trimSpace event.itemID ≠ "" then some (.item (trimSpace event.itemID)) else none
  key.map fun key =>
    let found :=
      match s.toolByKey.lookup key with
      | some n => (n, s)
      | none => (s.tools.length, s.addTool { key := key, callID := fallbackCallID event })
    (found.1, (found.2.linkOutputIndex found.1 key event.outputIndex).linkItemID found.1 key
      (responseStreamEventItemID event))

/-- `toolItem`. -/
def toolItem (event : WireEvent) : List ChatDelta × ResponsesToChatStreamState :=
  match s.ensureToolForEvent event, event.item with
  | some found, some item =>
    (found.2.modifyTool found.1 fun tool =>
      { tool with arguments := if item.arguments ≠ [] then item.arguments else tool.arguments }).toolDelta found.1 []
  | _, _ => ([], s)

/-- `toolArgumentsDelta`. -/
def toolArgumentsDelta (event : WireEvent) : List ChatDelta × ResponsesToChatStreamState :=
  if event.delta = [] then ([], s)
  else
    match s.findToolForEvent event with
    | some n =>
      (s.modifyTool n fun tool => { tool with arguments := tool.arguments ++ event.delta }).toolDelta n event.delta
    | none =>
      match event.outputIndex with
      | some i =>
        ([], { s with
          pendingArgsByOutputIndex :=
            s.pendingArgsByOutputIndex.insert i ((s.pendingArgsByOutputIndex.lookup i).getD [] ++ event.delta) })
      | none =>
        let itemID := trimSpace event.itemID
        if itemID ≠ "" then
          ([], { s with
            pendingArgsByItemID :=
              s.pendingArgsByItemID.insert itemID ((s.pendingArgsByItemID.lookup itemID).getD [] ++ event.delta) })
        else ([], s)

/-- `flushPendingTool`. -/
def flushPendingTool (event : WireEvent) : List ChatDelta × ResponsesToChatStreamState :=
  match s.findToolForEvent event with
  | some n => s.toolDelta n []
  | none =>
    match s.ensureFallbackToolForEvent event with
    | some found => found.2.toolDelta found.1 []
    | none => ([], s)

/-! ## The end -/

/-- The call of a key that is flushed; one that is not known is added. -/
def flushedTool (key : ToolKey) : ℕ × ResponsesToChatStreamState :=
  match s.toolByKey.lookup key with
  | some n => (n, s)
  | none =>
    let callID :=
      match key with
      | .output i => "call_output_" ++ Int.repr i
      | .item itemID => itemID
      | .call callID => "call:" ++ callID
    (s.tools.length, s.addTool { key := key, callID := callID })

/-- The call `n` gets what is kept under the key. -/
def takePending (n : ℕ) : ToolKey → ResponsesToChatStreamState
  | .output i =>
    let pending := (s.pendingArgsByOutputIndex.lookup i).getD []
    { s.modifyTool n fun tool => { tool with arguments := tool.arguments ++ pending } with
      pendingArgsByOutputIndex := s.pendingArgsByOutputIndex.erase i }
  | .item itemID =>
    let pending := (s.pendingArgsByItemID.lookup itemID).getD []
    { s.modifyTool n fun tool => { tool with arguments := tool.arguments ++ pending } with
      pendingArgsByItemID := s.pendingArgsByItemID.erase itemID }
  | .call _ => s

/-- The keys of the calls and of what is kept, in the order of their texts. -/
def pendingKeys : List ToolKey :=
  (s.toolByKey.keys ++ s.pendingArgsByOutputIndex.keys.map ToolKey.output ++
      s.pendingArgsByItemID.keys.map ToolKey.item).dedup.insertionSort fun a b => a.toString ≤ b.toString

/-- The keys are flushed one after the other. -/
def flushKeys : List ToolKey → ResponsesToChatStreamState → List ChatDelta × ResponsesToChatStreamState
  | [], s => ([], s)
  | key :: keys, s =>
    let flushed := ((s.flushedTool key).2.takePending (s.flushedTool key).1 key).toolDelta (s.flushedTool key).1 []
    let rest := flushKeys keys flushed.2
    (flushed.1 ++ rest.1, rest.2)

/-- `flushAllPendingTools`. -/
def flushAllPendingTools : List ChatDelta × ResponsesToChatStreamState := flushKeys s.pendingKeys s

/-- `finalize`. -/
def finalize (response : Option (OpenAIResponsesResponse Bytes)) : List ChatDelta × ResponsesToChatStreamState :=
  if s.finalized then ([], s)
  else
    let flushed := { s with finalized := true }.flushAllPendingTools
    let start := flushed.2.ensureStart
    let finishReason :=
      match responsesFinishReasonFromStatus response with
      | some reason => reason
      | none => if start.2.sawToolCall then "tool_calls" else "stop"
    (flushed.1 ++ start.1 ++ [{ start.2.makeChunk with finishReason := some finishReason }], start.2)

/-- An item of the final response: what was not sent of it. -/
def terminalOutput (out : ResponsesOutput Bytes) : List ChatDelta × ResponsesToChatStreamState :=
  if out.type = .message ∧ !s.hasSentText then
    s.textDelta ((out.content.filter fun c => c.type = "output_text").flatMap ResponsesOutputContent.text)
  else if out.type = .reasoning ∧ !s.hasSentReasoning then
    s.reasoningDelta (out.content.flatMap ResponsesOutputContent.text)
  else if isResponsesToolOutputType out.type then
    s.toolItem { type := .other "", delta := [], item := some out }
  else ([], s)

def terminalOutputs : List (ResponsesOutput Bytes) → ResponsesToChatStreamState →
    List ChatDelta × ResponsesToChatStreamState
  | [], s => ([], s)
  | out :: rest, s =>
    let one := s.terminalOutput out
    let more := terminalOutputs rest one.2
    (one.1 ++ more.1, more.2)

/-- `terminalOutputChunks`. -/
def terminalOutputChunks (response : Option (OpenAIResponsesResponse Bytes)) :
    List ChatDelta × ResponsesToChatStreamState :=
  terminalOutputs ((response.map OpenAIResponsesResponse.output).getD []) s

/-- The end of an answer. -/
def terminal (response : Option (OpenAIResponsesResponse Bytes)) : List ChatDelta × ResponsesToChatStreamState :=
  let shown := (s.applyResponseMetadata response).terminalOutputChunks response
  let final := shown.2.finalize response
  (shown.1 ++ final.1, final.2)

end ResponsesToChatStreamState

/-! ## Events -/

/-- `ResponsesStreamEventToChatChunks`; a failed answer is an error. -/
def responsesStreamEventToChatChunks (event : WireEvent) (state : ResponsesToChatStreamState) :
    Except String (List ChatDelta × ResponsesToChatStreamState) :=
  match event.type with
  | .created => .ok (state.applyResponseMetadata event.response).ensureStart
  | .reasoningSummaryDelta => .ok (state.reasoningDelta event.delta)
  | .reasoningTextDelta => .ok (state.reasoningDelta event.delta)
  | .reasoningSummaryDone =>
    .ok ([], { state with needsReasoningSummaryBreak := state.needsReasoningSummaryBreak || state.hasSentReasoning })
  | .reasoningTextDone =>
    .ok ([], { state with needsReasoningSummaryBreak := state.needsReasoningSummaryBreak || state.hasSentReasoning })
  | .outputTextDelta => .ok (state.textDelta event.delta)
  | .outputItemAdded =>
    .ok (if event.item.any fun item => isResponsesToolOutputType item.type then state.toolItem event else ([], state))
  | .outputItemDone =>
    .ok (if event.item.any fun item => isResponsesToolOutputType item.type then state.toolItem event else ([], state))
  | .functionArgsDelta => .ok (state.toolArgumentsDelta event)
  | .customToolInputDelta => .ok (state.toolArgumentsDelta event)
  | .functionArgsDone => .ok (state.flushPendingTool event)
  | .customToolInputDone => .ok (state.flushPendingTool event)
  | .completed => .ok (state.terminal event.response)
  | .done => .ok (state.terminal event.response)
  | .incomplete => .ok (state.terminal (some (ensureIncompleteResponse event.response)))
  | .failed => .error "responses stream error: response.failed"
  | .error => .error "responses stream error: response.error"
  | _ => .ok ([], state)

/-- `FinalizeResponsesToChatStream`. -/
def finalizeResponsesToChatStream (state : ResponsesToChatStreamState) :
    List ChatDelta × ResponsesToChatStreamState :=
  state.finalize none

/-- All events of a stream, one after the other. -/
def chatDeltasOfEvents : List WireEvent → ResponsesToChatStreamState →
    Except String (List ChatDelta × ResponsesToChatStreamState)
  | [], s => .ok ([], s)
  | event :: events, s =>
    match responsesStreamEventToChatChunks event s with
    | .error e => .error e
    | .ok one =>
      match chatDeltasOfEvents events one.2 with
      | .error e => .error e
      | .ok more => .ok (one.1 ++ more.1, more.2)

/-- The deltas of a whole stream. -/
def chatStream (s : ResponsesToChatStreamState) (events : List WireEvent) : Except String (List ChatDelta) :=
  match chatDeltasOfEvents events s with
  | .error e => .error e
  | .ok all => .ok (all.1 ++ (finalizeResponsesToChatStream all.2).1)

end NovaMaas.Convert
