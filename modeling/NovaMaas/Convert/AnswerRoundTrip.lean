/-
  A chat completion through the Responses API and back.

  The items of the output keep apart what the message had: the text is in a message item, the reasoning in a reasoning
  item, each call in an item of its own.  Reading them back finds the reasoning and the calls; the text is found where
  there is a message item.  Without one the text is taken from all items, and then the reasoning is read twice, once as
  the text.  Ids and names of calls are trimmed on the way, and so is the finish reason before it is looked up.
-/
import NovaMaas.Convert.ResponsesAnswer

open List

namespace NovaMaas.Convert

open ChatToResponsesStreamState

/-- An answer that is converted to the Responses API and back. -/
def answerRoundTrip (resp : OpenAITextResponse String) (id backId : String) :
    Except String (OpenAITextResponse String × Usage) := do
  let out ← chatCompletionsResponseToResponsesResponse (some resp) id
  responsesResponseToChatCompletionsResponse (some out.1) backId

/-- What is read of a call: its id, its name and its arguments. -/
def ToolCallRequest.read (call : ToolCallRequest String) : String × String × String :=
  (call.id, call.name, call.arguments)

/-- What is read of a message: the text, the reasoning and the calls. -/
def Message.read (m : Message String) : String × String × List (String × String × String) :=
  (m.stringContent, m.getReasoningContent, m.parseToolCalls.map ToolCallRequest.read)

/-- The answer `back`, with the token counts `usage`, says what the first choice said. -/
structure AnswerKept (choice : OpenAITextResponseChoice String) (original : Usage) (back : OpenAITextResponse String)
    (usage : Usage) : Prop where
  message          : back.choices.map (fun c => c.message.read) = [choice.message.read]
  promptTokens     : usage.promptTokens = original.promptTokens
  completionTokens : usage.completionTokens = original.completionTokens
  length           : ∀ c ∈ back.choices, c.finishReason = "length" ↔ choice.finishReason = "length"
  contentFilter    : ∀ c ∈ back.choices, c.finishReason = "content_filter" ↔ choice.finishReason = "content_filter"

/-- A function call with an id and a name. -/
def ToolCallRequest.Named (call : ToolCallRequest String) : Prop :=
  (call.type = "" ∨ call.type = "function") ∧ call.id ≠ "" ∧ call.name ≠ ""

instance (call : ToolCallRequest String) : Decidable call.Named := inferInstanceAs (Decidable (_ ∧ _ ∧ _))

/-- No white space at the ends of the id and of the name. -/
def ToolCallRequest.Trimmed (call : ToolCallRequest String) : Prop :=
  trimSpace call.id = call.id ∧ trimSpace call.name = call.name

instance (call : ToolCallRequest String) : Decidable call.Trimmed := inferInstanceAs (Decidable (_ ∧ _))

/-! ## The items of a message -/

section
variable (message : Message String) (id status : String)

/-- The items of the calls. -/
def callOutputs : List (ResponsesOutput String) :=
  message.parseToolCalls.zipIdx.map fun p => chatToolCallToResponsesOutput p.1 id p.2 status

theorem chatToolCall_content (call : ToolCallRequest String) (i : ℕ) :
    (chatToolCallToResponsesOutput call id i status).content = [] := by
  simp only [chatToolCallToResponsesOutput]
  split <;> rfl

theorem mem_callOutputs {out : ResponsesOutput String} (h : out ∈ callOutputs message id status) :
    ∃ call ∈ message.parseToolCalls, ∃ i, out = chatToolCallToResponsesOutput call id i status := by
  obtain ⟨p, hp, rfl⟩ := mem_map.mp h
  exact ⟨p.1, fst_mem_of_mem_zipIdx hp, p.2, rfl⟩

/-- The items of calls have no texts, whichever of them are looked at. -/
theorem texts_callOutputs (keep : ResponsesOutput String → Bool) (keepText : ResponsesOutputContent String → Bool) :
    ((callOutputs message id status).filter keep).flatMap
      (fun out => (out.content.filter keepText).map ResponsesOutputContent.text) = [] := by
  rw [flatMap_eq_nil_iff]
  intro out hout
  obtain ⟨call, -, i, rfl⟩ := mem_callOutputs message id status (mem_of_mem_filter hout)
  rw [chatToolCall_content]
  rfl

theorem allTexts_callOutputs (keep : ResponsesOutput String → Bool) :
    allTexts ((callOutputs message id status).filter keep) = [] := by
  have h := texts_callOutputs message id status keep fun _ => true
  simpa [allTexts] using h

theorem joinText_single (s : String) : joinText [s] = s := by
  show "" ++ s = s
  simp

theorem messageTexts_output :
    joinText (messageTexts (outputOfMessage message id status)) = message.stringContent := by
  have hcalls := texts_callOutputs message id status
    (fun out => out.type = .message ∧ (out.role = "" ∨ out.role = "assistant")) fun c => c.type = "output_text"
  unfold callOutputs at hcalls
  unfold messageTexts outputOfMessage
  rw [filter_append, flatMap_append, hcalls, filter_append, flatMap_append, append_nil]
  by_cases htext : message.stringContent = "" <;> by_cases hreasoning : message.getReasoningContent = "" <;>
    simp [htext, hreasoning, joinText_single] <;> rfl

theorem allTexts_output : joinText (allTexts (outputOfMessage message id status)) =
    message.stringContent ++ message.getReasoningContent := by
  have hcalls := allTexts_callOutputs message id status fun _ => true
  rw [filter_true] at hcalls
  unfold allTexts callOutputs at hcalls
  unfold allTexts outputOfMessage
  rw [flatMap_append, hcalls, append_nil]
  by_cases htext : message.stringContent = "" <;> by_cases hreasoning : message.getReasoningContent = "" <;>
    simp [htext, hreasoning, joinText]

theorem reasoningTexts_output :
    joinText (allTexts ((outputOfMessage message id status).filter fun out => out.type = .reasoning)) =
      message.getReasoningContent := by
  have hcalls := allTexts_callOutputs message id status fun out => out.type = .reasoning
  unfold allTexts callOutputs at hcalls
  unfold allTexts outputOfMessage
  rw [filter_append, flatMap_append, hcalls, append_nil]
  by_cases htext : message.stringContent = "" <;> by_cases hreasoning : message.getReasoningContent = "" <;>
    simp [htext, hreasoning, joinText]

/-- The items of the text and of the reasoning are no calls. -/
theorem toolCalls_output : (outputOfMessage message id status).filterMap toolCallOfOutput =
      (callOutputs message id status).filterMap toolCallOfOutput := by
  unfold outputOfMessage callOutputs
  rw [filterMap_append]
  have hwords : ∀ (b c : Prop) [Decidable b] [Decidable c] (x y : ResponsesOutput String),
      toolCallOfOutput x = none → toolCallOfOutput y = none →
      ((if b then [x] else []) ++ if c then [y] else []).filterMap toolCallOfOutput = [] := by
    intro b c _ _ x y hx hy
    split <;> split <;> simp [hx, hy]
  rw [hwords]
  · rfl
  · exact if_pos (Or.inl rfl)
  · exact if_pos (Or.inl rfl)

end

/-! ## The calls -/

section
variable (id status : String)

/-- A call that is a function comes back with its id and its name trimmed, unless the name is blank. -/
theorem toolCallOfOutput_chatToolCall {call : ToolCallRequest String} (h : call.Named) (i : ℕ) :
    toolCallOfOutput (chatToolCallToResponsesOutput call id i status) =
      if trimSpace call.name = "" then none
      else some
        { id := trimSpace (if trimSpace call.id = "" then id ++ "_call_" ++ toString i else trimSpace call.id)
          type := "function", name := trimSpace call.name, arguments := call.arguments, custom := "" } := by
  unfold chatToolCallToResponsesOutput toolCallOfOutput
  rw [if_pos h.1]
  by_cases hname : trimSpace call.name = ""
  · simp [hname]
  · simp [hname, isResponsesToolOutputType]

/-- The calls come back as they were exactly when none of their ids and names had to be trimmed. -/
theorem calls_kept_iff {calls : List (ToolCallRequest String)} (h : ∀ call ∈ calls, call.Named) (n : ℕ) :
    (((calls.zipIdx n).map fun p => chatToolCallToResponsesOutput p.1 id p.2 status).filterMap
      toolCallOfOutput).map ToolCallRequest.read = calls.map ToolCallRequest.read ↔
    ∀ call ∈ calls, call.Trimmed := by
  induction calls generalizing n with
  | nil => simp
  | cons call calls ih =>
    have hcall := h call mem_cons_self
    have htail := ih (fun c hc => h c (mem_cons_of_mem _ hc)) (n + 1)
    rw [zipIdx_cons, map_cons, filterMap_cons, toolCallOfOutput_chatToolCall id status hcall n, forall_mem_cons]
    by_cases hname : trimSpace call.name = ""
    · rw [if_pos hname]
      constructor
      · -- one call is missing, so there are too few
        intro heq
        have hlen := congrArg length heq
        have hle := length_filterMap_le toolCallOfOutput
          ((calls.zipIdx (n + 1)).map fun p => chatToolCallToResponsesOutput p.1 id p.2 status)
        simp only [length_map, length_cons, length_zipIdx] at hlen hle
        omega
      · rintro ⟨htrim, -⟩
        exact absurd (htrim.2.symm.trans hname) hcall.2.2
    · rw [if_neg hname]
      simp only [map_cons, cons.injEq, htail]
      refine and_congr_left fun _ => ?_
      unfold ToolCallRequest.read ToolCallRequest.Trimmed
      simp only [Prod.mk.injEq, and_true]
      refine and_congr_left fun _ => ?_
      constructor
      · intro hid
        rw [← hid, trimSpace_trimSpace]
      · intro hid
        rw [hid, if_neg hcall.2.1, hid]

end

/-! ## The finish reason -/

theorem statusFromChatFinishReason_eq (reason : String) : statusFromChatFinishReason reason =
      if trimSpace reason = "length" then ("incomplete", some "max_output_tokens")
      else if trimSpace reason = "content_filter" then ("incomplete", some "content_filter")
      else ("completed", none) := by
  unfold statusFromChatFinishReason
  split <;> simp_all

theorem trimSpace_length : trimSpace "length" = "length" := by decide +kernel

theorem trimSpace_contentFilter : trimSpace "content_filter" = "content_filter" := by decide +kernel

/-- The finish reason that comes back: the original one, if it tells that the answer is not complete. -/
def finishBack (reason : String) (calls : Bool) : String :=
  if trimSpace reason = "length" then "length"
  else if trimSpace reason = "content_filter" then "content_filter"
  else if calls then "tool_calls" else "stop"

theorem responsesFinishReason_status (reason : String) (resp : OpenAIResponsesResponse String)
    (hstatus : resp.status = (statusFromChatFinishReason reason).1)
    (hdetails : resp.incompleteDetails = (statusFromChatFinishReason reason).2) :
    responsesFinishReasonFromStatus (some resp) = if trimSpace reason = "length" then some "length"
      else if trimSpace reason = "content_filter" then some "content_filter" else none := by
  have hincomplete : trimSpace "incomplete" = "incomplete" := by decide +kernel
  have hmax : trimSpace "max_output_tokens" = "max_output_tokens" := by decide +kernel
  have hcompleted : trimSpace "completed" = "completed" := by decide +kernel
  rw [statusFromChatFinishReason_eq] at hstatus hdetails
  unfold responsesFinishReasonFromStatus
  by_cases hl : trimSpace reason = "length"
  · rw [if_pos hl] at hstatus hdetails
    simp [hstatus, hdetails, hincomplete, hmax, hl]
  · by_cases hc : trimSpace reason = "content_filter"
    · rw [if_neg hl, if_pos hc] at hstatus hdetails
      simp [hstatus, hdetails, hincomplete, trimSpace_contentFilter, hc]
    · rw [if_neg hl, if_neg hc] at hstatus hdetails
      simp [hstatus, hcompleted, hl, hc]

/-- The finish reason is not told to be incomplete with white space around it. -/
def PlainFinish (reason : String) : Prop :=
  trimSpace reason = "length" ∨ trimSpace reason = "content_filter" → trimSpace reason = reason

instance (reason : String) : Decidable (PlainFinish reason) := inferInstanceAs (Decidable (_ → _))

theorem finishBack_iff (reason : String) (calls : Bool) : ((finishBack reason calls = "length" ↔ reason = "length") ∧
      (finishBack reason calls = "content_filter" ↔ reason = "content_filter")) ↔ PlainFinish reason := by
  unfold finishBack PlainFinish
  by_cases hl : trimSpace reason = "length"
  · rw [if_pos hl, hl]
    constructor
    · rintro ⟨h, -⟩ -
      exact (h.1 rfl).symm
    · intro h
      have hreason : "length" = reason := h (Or.inl rfl)
      rw [← hreason]
      decide
  · have hnl : reason ≠ "length" := by
      rintro rfl
      exact hl trimSpace_length
    by_cases hc : trimSpace reason = "content_filter"
    · rw [if_neg hl, if_pos hc, hc]
      constructor
      · rintro ⟨-, h⟩ -
        exact (h.1 rfl).symm
      · intro h
        have hreason : "content_filter" = reason := h (Or.inr rfl)
        rw [← hreason]
        decide
    · have hnc : reason ≠ "content_filter" := by
        rintro rfl
        exact hc trimSpace_contentFilter
      rw [if_neg hl, if_neg hc]
      cases calls <;> simp [hl, hc, hnl, hnc]

/-! ## The whole answer -/

/-- The answer of the Responses API for a choice. -/
def responseOfChoice (resp : OpenAITextResponse String) (choice : OpenAITextResponseChoice String) (id : String) :
    OpenAIResponsesResponse String :=
  let out : OpenAIResponsesResponse String :=
    { id := id, createdAt := resp.created, status := (statusFromChatFinishReason choice.finishReason).1
      model := resp.model, usage := some (usageFromChatUsage resp.usage)
      incompleteDetails := (statusFromChatFinishReason choice.finishReason).2 }
  { out with output := outputOfMessage choice.message id (responseOutputStatus out) }

theorem chatCompletionsResponse_eq {resp : OpenAITextResponse String} {choice : OpenAITextResponseChoice String}
    (h : resp.choices.head? = some choice) (id : String) :
    chatCompletionsResponseToResponsesResponse (some resp) id =
      .ok (responseOfChoice resp choice id, usageFromChatUsage resp.usage) := by
  simp only [chatCompletionsResponseToResponsesResponse, h, responseOfChoice]

section
variable (resp : OpenAITextResponse String) (choice : OpenAITextResponseChoice String) (id : String)

theorem responseOfChoice_output :
    ∃ status, (responseOfChoice resp choice id).output = outputOfMessage choice.message id status := ⟨_, rfl⟩

theorem extractOutputText_responseOfChoice : extractOutputTextFromResponses (responseOfChoice resp choice id) =
      if choice.message.stringContent ≠ "" then choice.message.stringContent
      else choice.message.getReasoningContent := by
  obtain ⟨status, hout⟩ := responseOfChoice_output resp choice id
  unfold extractOutputTextFromResponses
  rw [hout, messageTexts_output, allTexts_output]
  by_cases htext : choice.message.stringContent = ""
  · rw [if_neg (by simpa using htext), if_neg (by simpa using htext), htext]
    simp
  · rw [if_pos (by simpa using htext), if_pos htext]

theorem extractReasoningText_responseOfChoice :
    extractReasoningTextFromResponses (responseOfChoice resp choice id) = choice.message.getReasoningContent := by
  obtain ⟨status, hout⟩ := responseOfChoice_output resp choice id
  unfold extractReasoningTextFromResponses
  rw [hout, reasoningTexts_output]

theorem finishReason_responseOfChoice : responsesFinishReasonFromStatus (some (responseOfChoice resp choice id)) =
      if trimSpace choice.finishReason = "length" then some "length"
      else if trimSpace choice.finishReason = "content_filter" then some "content_filter" else none :=
  responsesFinishReason_status choice.finishReason _ rfl rfl

end

/-- What comes back for an answer with a first choice. -/
theorem answerRoundTrip_eq {resp : OpenAITextResponse String} {choice : OpenAITextResponseChoice String}
    (h : resp.choices.head? = some choice) (id backId : String) :
    ∃ back usage choice' status calls, answerRoundTrip resp id backId = .ok (back, usage) ∧ back.choices = [choice'] ∧
      usage.promptTokens = resp.usage.promptTokens ∧ usage.completionTokens = resp.usage.completionTokens ∧
      choice'.message.stringContent = (if choice.message.stringContent ≠ "" then choice.message.stringContent
        else choice.message.getReasoningContent) ∧
      choice'.message.getReasoningContent = choice.message.getReasoningContent ∧
      choice'.message.parseToolCalls = (callOutputs choice.message id status).filterMap toolCallOfOutput ∧
      choice'.finishReason = finishBack choice.finishReason calls := by
  have hback : answerRoundTrip resp id backId =
      responsesResponseToChatCompletionsResponse (some (responseOfChoice resp choice id)) backId := by
    unfold answerRoundTrip
    rw [chatCompletionsResponse_eq h]
    rfl
  obtain ⟨status, hout⟩ := responseOfChoice_output resp choice id
  have hcalls : (responseOfChoice resp choice id).output.filterMap toolCallOfOutput =
      (callOutputs choice.message id status).filterMap toolCallOfOutput := by
    rw [hout, toolCalls_output]
  rw [hback]
  unfold responsesResponseToChatCompletionsResponse
  simp only [extractOutputText_responseOfChoice, extractReasoningText_responseOfChoice, hcalls]
  refine ⟨_, _, _, status, decide ((callOutputs choice.message id status).filterMap toolCallOfOutput ≠ []), rfl, rfl,
    ?_, ?_, ?_, ?_, ?_, ?_⟩
  · rfl
  · rfl
  · rfl
  · by_cases hreasoning : choice.message.getReasoningContent = ""
    · simp [Message.getReasoningContent] at hreasoning ⊢
      simp [hreasoning]
    · simp [Message.getReasoningContent] at hreasoning ⊢
      simp [hreasoning]
  · show ((if filterMap toolCallOfOutput _ ≠ [] then _ else _) : Option _).getD [] = _
    split
    · rfl
    · rename_i hnil
      simpa using (not_not.1 hnil).symm
  · rw [finishReason_responseOfChoice]
    unfold finishBack
    by_cases hl : trimSpace choice.finishReason = "length"
    · simp [hl]
    · by_cases hc : trimSpace choice.finishReason = "content_filter"
      · simp [hc]
      · simp [hl, hc]

/-- An answer comes back as it was exactly when it has a text or no reasoning, no id or name of a call has white space at
an end, and a finish reason that stands for an incomplete answer has none either. -/
theorem answer_kept_iff {resp : OpenAITextResponse String} {choice : OpenAITextResponseChoice String}
    (hchoice : resp.choices.head? = some choice) (hcalls : ∀ call ∈ choice.message.parseToolCalls, call.Named)
    (id backId : String) :
    (∃ back usage, answerRoundTrip resp id backId = .ok (back, usage) ∧ AnswerKept choice resp.usage back usage) ↔
      (choice.message.stringContent ≠ "" ∨ choice.message.getReasoningContent = "") ∧
        (∀ call ∈ choice.message.parseToolCalls, call.Trimmed) ∧ PlainFinish choice.finishReason := by
  obtain ⟨back, usage, choice', status, calls, hback, hone, hprompt, hcompletion, htext, hreasoning, htools, hfinish⟩ :=
    answerRoundTrip_eq hchoice id backId
  have hkept := calls_kept_iff id status hcalls 0
  have hread : back.choices.map (fun c => c.message.read) = [choice.message.read] ↔
      (choice.message.stringContent ≠ "" ∨ choice.message.getReasoningContent = "") ∧
        ∀ call ∈ choice.message.parseToolCalls, call.Trimmed := by
    rw [← hkept, hone, map_singleton, singleton_inj]
    unfold Message.read
    rw [Prod.mk.injEq, Prod.mk.injEq, htext, hreasoning, htools]
    unfold callOutputs
    refine and_congr ?_ (by simp)
    by_cases hempty : choice.message.stringContent = ""
    · simp [hempty]
    · simp [hempty]
  have hreason := finishBack_iff choice.finishReason calls
  rw [← hfinish] at hreason
  constructor
  · rintro ⟨back', usage', hback', hkept'⟩
    obtain ⟨rfl, rfl⟩ := Prod.mk.inj (Except.ok.inj (hback.symm.trans hback'))
    obtain ⟨h, h'⟩ := hread.1 hkept'.message
    refine ⟨h, h', hreason.1 ⟨?_, ?_⟩⟩
    · exact hkept'.length choice' (by rw [hone]; exact mem_singleton_self _)
    · exact hkept'.contentFilter choice' (by rw [hone]; exact mem_singleton_self _)
  · rintro ⟨h, h', hplain⟩
    obtain ⟨hlength, hfilter⟩ := hreason.2 hplain
    refine ⟨back, usage, hback, hread.2 ⟨h, h'⟩, hprompt, hcompletion, ?_, ?_⟩
    · intro c hc
      rw [hone, mem_singleton] at hc
      rw [hc]
      exact hlength
    · intro c hc
      rw [hone, mem_singleton] at hc
      rw [hc]
      exact hfilter

/-- A choice with a text, a reasoning and a call, cut off at the length limit. -/
def fullChoice : OpenAITextResponseChoice String :=
  { message := { role := "assistant", content := .string "hi", reasoningContent := some "hm"
                 toolCalls := some [{ id := "call_1", type := "function", name := "lookup", arguments := "{}"
                                      custom := "" }] }
    finishReason := "length" }

theorem answer_kept_fullChoice :
    ∃ back usage, answerRoundTrip { choices := [fullChoice] } "resp_1" "chatcmpl_1" = .ok (back, usage) ∧
      AnswerKept fullChoice {} back usage := by
  have hfirst : ({ choices := [fullChoice] } : OpenAITextResponse String).choices.head? = some fullChoice := rfl
  exact (answer_kept_iff hfirst (by decide +kernel) "resp_1" "chatcmpl_1").2 (by decide +kernel)

/-- A choice that is nothing but reasoning. -/
def thinkingChoice : OpenAITextResponseChoice String :=
  { message := { role := "assistant", reasoningContent := some "hm" }, finishReason := "stop" }

/-- The reasoning comes back as the text, too. -/
theorem answer_not_kept_thinkingChoice : (∀ call ∈ thinkingChoice.message.parseToolCalls, call.Named) ∧
    ¬ ∃ back usage, answerRoundTrip { choices := [thinkingChoice] } "resp_1" "chatcmpl_1" = .ok (back, usage) ∧
      AnswerKept thinkingChoice {} back usage := by
  constructor
  · intro call hcall
    cases hcall
  · rintro ⟨back, usage, hback, hkept⟩
    have hfirst : ({ choices := [thinkingChoice] } : OpenAITextResponse String).choices.head? = some thinkingChoice := rfl
    obtain ⟨back', usage', choice', -, -, hback', hone, -, -, htext, -⟩ :=
      answerRoundTrip_eq hfirst "resp_1" "chatcmpl_1"
    obtain ⟨rfl, rfl⟩ := Prod.mk.inj (Except.ok.inj (hback.symm.trans hback'))
    have hread := hkept.message
    rw [hone, map_singleton, singleton_inj] at hread
    have hempty : choice'.message.stringContent = "" := congrArg Prod.fst hread
    rw [htext] at hempty
    exact absurd hempty (by decide +kernel)

end NovaMaas.Convert
