/-
  What a request of the Anthropic API says is said by the chat completion request it is converted to, or not.

  Message by message: the results come first, each as a message of its own, then the message itself with its calls or,
  WITHOUT calls, with its texts.  Calls and results are therefore all there, in order, and an answer stays behind its
  call, since messages are converted one after the other.  The texts are all there unless a message has a call beside a
  text.
-/
import NovaMaas.Convert.ClaudeRequest
import NovaMaas.Lib.Gather

open List

namespace NovaMaas.Convert

open Message ClaudeRequestWalk

variable {J : Type}

/-! ## Lists that are made of lists -/

/-- An element of lists put together is in one of them, and those before it are before it. -/
theorem flatMap_split {α β : Type} (f : α → List β) :
    ∀ (l : List α) (pre : List β) (b : β) (post : List β), l.flatMap f = pre ++ b :: post →
      ∃ before a after rest, l = before ++ a :: after ∧ b ∈ f a ∧ pre = before.flatMap f ++ rest := by
  intro l
  induction l with
  | nil =>
    intro pre b post h
    cases pre <;> cases h
  | cons a l ih =>
    intro pre b post h
    rw [flatMap_cons] at h
    rcases append_eq_append_iff.1 h with ⟨c, hpre, hrest⟩ | ⟨c, hfa, hrest⟩
    · obtain ⟨before, a', after, rest, hl, hb, hc⟩ := ih c b post hrest
      refine ⟨a :: before, a', after, rest, by rw [hl]; rfl, hb, ?_⟩
      rw [hpre, hc, flatMap_cons, append_assoc]
    · cases c with
      | nil =>
        rw [append_nil] at hfa
        obtain ⟨before, a', after, rest, hl, hb, hc⟩ := ih [] b post hrest.symm
        refine ⟨a :: before, a', after, rest, by rw [hl]; rfl, hb, ?_⟩
        rw [flatMap_cons, append_assoc, ← hc, append_nil, hfa]
      | cons =>
        obtain ⟨rfl, -⟩ := cons.inj hrest
        refine ⟨[], a, l, pre, rfl, ?_, rfl⟩
        rw [hfa]
        exact mem_append_right _ mem_cons_self

/-- What is answered after it is held stays so, element by element. -/
theorem AnsweredAfter.flatMap {α β : Type} {holds answers : α → Prop} {holds' answers' : β → Prop} {f : α → List β}
    {l : List α} (h : AnsweredAfter holds answers l) (hholds : ∀ a ∈ l, holds a → ∃ b ∈ f a, holds' b)
    (hanswers : ∀ a ∈ l, ∀ b ∈ f a, answers' b → answers a) : AnsweredAfter holds' answers' (l.flatMap f) := by
  intro pre b post hsplit hb
  obtain ⟨before, a, after, rest, hl, hba, hpre⟩ := flatMap_split f l pre b post hsplit
  have ha : a ∈ l := by
    rw [hl]
    exact mem_append_right _ mem_cons_self
  obtain ⟨a', ha', hheld⟩ := h before a after hl (hanswers a ha b hba hb)
  have hmem : a' ∈ l := by
    rw [hl]
    exact mem_append_left _ ha'
  obtain ⟨b', hb', hheld'⟩ := hholds a' hmem hheld
  refine ⟨b', ?_, hheld'⟩
  rw [hpre]
  exact mem_append_left _ (mem_flatMap.2 ⟨a', ha', hb'⟩)

/-- Elements in front that answer nothing do no harm. -/
theorem AnsweredAfter.append {α : Type} {holds answers : α → Prop} {front l : List α} (h : AnsweredAfter holds answers l)
    (hfront : ∀ a ∈ front, ¬ answers a) : AnsweredAfter holds answers (front ++ l) := by
  intro pre a post hsplit ha
  rcases append_eq_append_iff.1 hsplit with ⟨c, hpre, hrest⟩ | ⟨c, hfa, hrest⟩
  · obtain ⟨b, hb, hheld⟩ := h c a post hrest ha
    refine ⟨b, ?_, hheld⟩
    rw [hpre]
    exact mem_append_right _ hb
  · cases c with
    | nil =>
      obtain ⟨b, hb, -⟩ := h [] a post hrest.symm ha
      cases hb
    | cons =>
      obtain ⟨rfl, -⟩ := cons.inj hrest
      refine absurd ha (hfront a ?_)
      rw [hfa]
      exact mem_append_right _ mem_cons_self

/-! ## One message -/

section
variable (json : JsonCodec J) (options : ClaudeRequestOptions J) (req : ClaudeRequest J)

/-- The part a block becomes in the message itself. -/
def mediaOfBlock (block : ClaudeMediaMessage J) : Option (MediaContent String) :=
  match block.type with
  | .text => some (.text block.getText)
  | .image => block.source.map fun source => .imageUrl ("data:" ++ source.mediaType ++ ";base64," ++ source.data) ""
  | _ => none

/-- What the walk gathers over blocks that are known. -/
theorem walk_known {blocks : List (ClaudeMediaMessage J)} (h : ∀ block ∈ blocks, block.Known) (walk : ClaudeRequestWalk) :
    blocks.foldlM (step json options req) walk =
      .ok { toolCalls := walk.toolCalls ++ (blocks.filter fun block => block.type = .toolUse).map (toolUseCall json)
            mediaMessages := walk.mediaMessages ++ blocks.filterMap mediaOfBlock
            toolMessages := walk.toolMessages ++
              (blocks.filter fun block => block.type = .toolResult).map (toolResultMessage options req) } := by
  induction blocks generalizing walk with
  | nil => simp [pure, Except.pure]
  | cons block blocks ih =>
    have hrest := fun walk => ih (fun b hb => h b (mem_cons_of_mem _ hb)) walk
    rw [foldlM_cons]
    rcases h block mem_cons_self with htype | ⟨htype, hsource⟩ | htype | htype
    · have hstep : step json options req walk block =
          .ok { walk with mediaMessages := walk.mediaMessages ++ [.text block.getText] } := by
        simp only [step, htype]
      rw [hstep]
      show foldlM _ _ blocks = _
      rw [hrest]
      simp [htype, mediaOfBlock]
    · obtain ⟨source, hsource⟩ := Option.ne_none_iff_exists'.1 hsource
      have hstep : step json options req walk block = .ok { walk with mediaMessages := walk.mediaMessages ++
                  [.imageUrl ("data:" ++ source.mediaType ++ ";base64," ++ source.data) ""] } := by
        simp only [step, htype, hsource]
      rw [hstep]
      show foldlM _ _ blocks = _
      rw [hrest]
      simp [htype, hsource, mediaOfBlock]
    · have hstep : step json options req walk block =
          .ok { walk with toolCalls := walk.toolCalls ++ [toolUseCall json block] } := by
        simp only [step, htype]
      rw [hstep]
      show foldlM _ _ blocks = _
      rw [hrest]
      simp [htype, mediaOfBlock]
    · have hstep : step json options req walk block =
          .ok { walk with toolMessages := walk.toolMessages ++ [toolResultMessage options req block] } := by
        simp only [step, htype]
      rw [hstep]
      show foldlM _ _ blocks = _
      rw [hrest]
      simp [htype, mediaOfBlock]

/-- The message itself, without the results. -/
def ownMessages (m : ClaudeMessage J) : List (Message String) :=
  match m.content with
  | .string text => sentMessages { role := m.role, content := .string text }
  | .blocks content =>
    sentMessages (message
      { toolCalls := m.toolUses.map (toolUseCall json), mediaMessages := content.filterMap mediaOfBlock } m.role)
  | .unparsable _ => []

/-- The messages a message becomes. -/
def messagesOf (m : ClaudeMessage J) : List (Message String) :=
  m.toolResults.map (toolResultMessage options req) ++ ownMessages json m

variable {m : ClaudeMessage J}

open ClaudeMessage hiding texts

theorem claudeMessageToOpenAI_eq (h : m.Known) :
    claudeMessageToOpenAI json options req m = .ok (messagesOf json options req m) := by
  obtain ⟨hparsed, hknown⟩ := h
  unfold claudeMessageToOpenAI messagesOf ownMessages toolResults toolUses
  unfold ClaudeMessage.blocks at hknown ⊢
  cases hc : m.content with
  | string => rfl
  | unparsable err => exact absurd hc (hparsed err)
  | blocks =>
    rw [hc] at hknown
    simp only [walk_known json options req hknown, nil_append]
    rfl

theorem claudeConversation_eq {messages : List (ClaudeMessage J)} (h : ∀ m ∈ messages, m.Known) :
    claudeConversation json options req messages = .ok (messages.flatMap (messagesOf json options req)) := by
  induction messages with
  | nil => rfl
  | cons m _ ih =>
    rw [claudeConversation, claudeMessageToOpenAI_eq json options req (h m mem_cons_self),
      ih fun m hm => h m (mem_cons_of_mem _ hm)]
    rfl

/-- The message itself is no answer to a call. -/
theorem ownMessages_isToolMessage {message : Message String}
    (h : message ∈ ownMessages json m) : message.isToolMessage = false := by
  have hname : message.name = none := by
    unfold ownMessages sentMessages at h
    split at h
    · split at h
      · rw [mem_singleton] at h
        rw [h]
      · cases h
    · split at h
      · rw [mem_singleton] at h
        rw [h]
        rfl
      · cases h
    · cases h
  simp [isToolMessage, hname]

theorem results_messagesOf (m : ClaudeMessage J) : (messagesOf json options req m).filter isToolMessage =
      m.toolResults.map (toolResultMessage options req) := by
  unfold messagesOf
  rw [filter_append, filter_eq_self.2, filter_eq_nil_iff.2, append_nil]
  · intro message hmessage
    simp [ownMessages_isToolMessage json hmessage]
  · intro message hmessage
    obtain ⟨block, -, rfl⟩ := mem_map.1 hmessage
    rfl

theorem calls_ownMessages (m : ClaudeMessage J) :
    (ownMessages json m).flatMap parseToolCalls = m.toolUses.map (toolUseCall json) := by
  unfold ownMessages
  cases hc : m.content with
  | string =>
    have hnone : m.toolUses = [] := by simp [toolUses, ClaudeMessage.blocks, hc]
    simp [sentMessages, parseContent, MessageContent.parseContent, parseToolCalls, hnone]
  | unparsable =>
    have hnone : m.toolUses = [] := by simp [toolUses, ClaudeMessage.blocks, hc]
    simp [hnone]
  | blocks =>
    simp only [sentMessages, message]
    by_cases hnil : m.toolUses.map (toolUseCall json) = []
    · rw [hnil]
      split <;> simp [parseToolCalls]
    · simp [parseToolCalls, hnil]

theorem calls_messagesOf (m : ClaudeMessage J) :
    (messagesOf json options req m).flatMap parseToolCalls = m.toolUses.map (toolUseCall json) := by
  unfold messagesOf
  rw [flatMap_append, calls_ownMessages]
  have hresults : (m.toolResults.map (toolResultMessage options req)).flatMap parseToolCalls = [] := by
    rw [flatMap_eq_nil_iff]
    intro message hmessage
    obtain ⟨block, -, rfl⟩ := mem_map.1 hmessage
    rfl
  rw [hresults, nil_append]

theorem text?_mediaOfBlock (blocks : List (ClaudeMediaMessage J)) :
    (blocks.filterMap mediaOfBlock).filterMap MediaContent.text? =
      (blocks.filter fun block => block.type = .text).map ClaudeMediaMessage.getText := by
  rw [filterMap_filterMap]
  induction blocks with
  | nil => rfl
  | cons block _ ih =>
    rw [filterMap_cons, ih, filter_cons]
    unfold mediaOfBlock
    cases htype : block.type <;> simp [MediaContent.text?]
    · cases hsource : block.source <;> simp [MediaContent.text?]

/-- The texts of a message with calls are lost. -/
theorem texts_ownMessages (h : m.Known) :
    (ownMessages json m).flatMap texts = if m.toolUses = [] then m.texts else [] := by
  have hread : ∀ message : Message String, message ∈ ownMessages json m →
      message.texts = (message.parseContent.filterMap MediaContent.text?).filter fun text => text ≠ "" := by
    intro message hmessage
    unfold texts
    rw [ownMessages_isToolMessage json hmessage]
    rfl
  unfold ClaudeMessage.texts ClaudeMessage.allTexts
  rw [flatMap_congr hread]
  unfold ownMessages sentMessages
  cases hc : m.content with
  | string =>
    have hnone : m.toolUses = [] := by simp [toolUses, ClaudeMessage.blocks, hc]
    simp [parseContent, MessageContent.parseContent, hnone, MediaContent.text?]
  | unparsable err => exact absurd hc (h.1 err)
  | blocks content =>
    simp only [message]
    by_cases hnil : m.toolUses = []
    · rw [if_pos hnil, ← text?_mediaOfBlock]
      by_cases hmedia : content.filterMap mediaOfBlock = []
      · simp [hnil, hmedia, parseContent, MessageContent.parseContent]
      · simp [hnil, hmedia, parseContent, MessageContent.parseContent]
    · simp [hnil, parseContent, MessageContent.parseContent]

theorem texts_messagesOf (h : m.Known) :
    (messagesOf json options req m).flatMap texts = if m.toolUses = [] then m.texts else [] := by
  unfold messagesOf
  rw [flatMap_append, texts_ownMessages json h]
  have hresults : (m.toolResults.map (toolResultMessage options req)).flatMap texts = [] := by
    rw [flatMap_eq_nil_iff]
    intro message hmessage
    obtain ⟨block, -, rfl⟩ := mem_map.1 hmessage
    rfl
  rw [hresults, nil_append]

/-! ## The request -/

/-- The message of the system prompt neither calls nor answers. -/
theorem claudeSystemMessages_silent {message : Message String} (h : message ∈ claudeSystemMessages options req) :
    message.isToolMessage = false ∧ message.parseToolCalls = [] := by
  have hplain : message.name = none ∧ message.toolCalls = none := by
    unfold claudeSystemMessages at h
    split at h
    · cases h
    · split at h
      · rw [mem_singleton] at h
        rw [h]
        exact ⟨rfl, rfl⟩
      · cases h
    · split at h
      · cases h
      · split at h
        all_goals
          rw [mem_singleton] at h
          rw [h]
          exact ⟨rfl, rfl⟩
  simp [isToolMessage, parseToolCalls, hplain]

/-- The request that is made. -/
theorem claudeMessagesRequest_eq {req : ClaudeRequest J} (h : ∀ m ∈ req.messages, m.Known) :
    ∃ out, claudeMessagesRequestToOpenAIChat json options req = .ok out ∧
      out.messages = claudeSystemMessages options req ++ req.messages.flatMap (messagesOf json options req) := by
  unfold claudeMessagesRequestToOpenAIChat
  rw [claudeConversation_eq json options req h]
  exact ⟨_, rfl, rfl⟩

variable (messages : List (ClaudeMessage J))

theorem calls_request : ((claudeSystemMessages options req ++ messages.flatMap (messagesOf json options req)).flatMap
      parseToolCalls).map (fun call => (call.id, call.name, json.parse call.arguments)) =
    (messages.flatMap toolUses).map fun block => (block.id, block.name, some block.input) := by
  have hsystem : (claudeSystemMessages options req).flatMap parseToolCalls = [] := by
    rw [flatMap_eq_nil_iff]
    exact fun message hmessage => (claudeSystemMessages_silent options req hmessage).2
  rw [flatMap_append, hsystem, nil_append, flatMap_assoc]
  simp only [calls_messagesOf]
  induction messages with
  | nil => rfl
  | cons _ _ ih =>
    rw [flatMap_cons, flatMap_cons, map_append, map_append, ih, map_map]
    congr 1
    refine map_congr_left fun block _ => ?_
    simp only [Function.comp_apply, toolUseCall, json.parse_marshal]

theorem results_request : ((claudeSystemMessages options req ++ messages.flatMap (messagesOf json options req)).filter
      isToolMessage).map toolCallId =
    (messages.flatMap toolResults).map ClaudeMediaMessage.toolUseId := by
  have hsystem : (claudeSystemMessages options req).filter isToolMessage = [] := by
    rw [filter_eq_nil_iff]
    intro message hmessage
    simp [(claudeSystemMessages_silent options req hmessage).1]
  rw [filter_append, hsystem, nil_append]
  induction messages with
  | nil => rfl
  | cons _ _ ih =>
    rw [flatMap_cons, flatMap_cons, filter_append, map_append, map_append, ih, results_messagesOf, map_map]
    rfl

theorem order_request (id : String)
    (h : AnsweredAfter (fun m : ClaudeMessage J => id ∈ m.toolUses.map ClaudeMediaMessage.id)
      (fun m => id ∈ m.toolResults.map ClaudeMediaMessage.toolUseId) messages) :
    AnsweredAfter (fun m : Message String => id ∈ m.parseToolCalls.map ToolCallRequest.id)
      (fun m => m.isToolMessage ∧ m.toolCallId = id)
      (claudeSystemMessages options req ++ messages.flatMap (messagesOf json options req)) := by
  refine AnsweredAfter.append (AnsweredAfter.flatMap h ?_ ?_) ?_
  · intro m _ hm
    obtain ⟨block, hblock, rfl⟩ := mem_map.1 hm
    have hcall : toolUseCall json block ∈ (messagesOf json options req m).flatMap parseToolCalls := by
      rw [calls_messagesOf]
      exact mem_map_of_mem hblock
    obtain ⟨message, hmessage, hmem⟩ := mem_flatMap.1 hcall
    exact ⟨message, hmessage, mem_map.2 ⟨_, hmem, rfl⟩⟩
  · rintro m _ message hmessage ⟨htool, rfl⟩
    have hmem : message ∈ (messagesOf json options req m).filter isToolMessage :=
      mem_filter.2 ⟨hmessage, htool⟩
    rw [results_messagesOf] at hmem
    obtain ⟨block, hblock, rfl⟩ := mem_map.1 hmem
    exact mem_map_of_mem hblock
  · rintro message hmessage ⟨htool, -⟩
    rw [(claudeSystemMessages_silent options req hmessage).1] at htool
    cases htool

/-- The texts are all there exactly when no message has a call beside a text. -/
theorem texts_request_iff {messages : List (ClaudeMessage J)} (h : ∀ m ∈ messages, m.Known) :
    (messages.flatMap (messagesOf json options req)).flatMap texts = messages.flatMap ClaudeMessage.texts ↔
      ∀ m ∈ messages, m.Apart := by
  have hone : ∀ m ∈ messages, (messagesOf json options req m).flatMap texts =
      if m.toolUses = [] then m.texts else [] := fun m hm => texts_messagesOf json options req (h m hm)
  rw [flatMap_assoc, Gather.flatMap_eq_iff_of_eq_or_nil]
  · refine forall₂_congr fun m hm => ?_
    rw [hone m hm]
    unfold ClaudeMessage.Apart
    by_cases hnil : m.toolUses = []
    · simp [hnil]
    · rw [if_neg hnil, or_iff_right hnil]
      exact eq_comm
  · intro m hm
    rw [hone m hm]
    by_cases hnil : m.toolUses = []
    · exact Or.inl (if_pos hnil)
    · exact Or.inr (if_neg hnil)

end

/-- The conversation is kept exactly when no message has a call beside a text. -/
theorem claude_conversation_kept_iff (json : JsonCodec J) (options : ClaudeRequestOptions J) {req : ClaudeRequest J}
    (h : ∀ m ∈ req.messages, m.Known) :
    (∃ out, claudeMessagesRequestToOpenAIChat json options req = .ok out ∧
      ConversationKept json options req out.messages) ↔ ∀ m ∈ req.messages, m.Apart := by
  obtain ⟨out, hout, hmessages⟩ := claudeMessagesRequest_eq json options h
  rw [← texts_request_iff json options req h]
  constructor
  · rintro ⟨out', hout', hkept⟩
    obtain rfl : out = out' := Except.ok.inj (hout.symm.trans hout')
    obtain ⟨conversation, hsplit, htexts⟩ := hkept.texts
    rw [hmessages] at hsplit
    rw [append_cancel_left hsplit]
    exact htexts
  · intro htexts
    refine ⟨out, hout, ⟨_, hmessages, htexts⟩, ?_, ?_, ?_⟩
    · rw [hmessages]
      exact calls_request json options req req.messages
    · rw [hmessages]
      exact results_request json options req req.messages
    · intro id hid
      rw [hmessages]
      exact order_request json options req req.messages id hid

/-! ## Requests that are kept and not kept -/

/-- No dialect, and the blocks of results written as they are. -/
def plainOptions : ClaudeRequestOptions String :=
  { isOpenRouter := false, isOpenRouterClaude := false, originModelName := none, encodeMedia := fun content => content }

/-- A question, a call, and its result with a word beside it. -/
def weatherRequest : ClaudeRequest String :=
  { messages :=
      [{ role := "user", content := .string "Is it raining?" },
        { role := "assistant"
          content := .blocks [{ type := .toolUse, id := "toolu_1", name := "weather", input := "\x7b\x7d"
                                content := .string "" }] },
        { role := "user"
          content := .blocks [{ type := .toolResult, toolUseId := "toolu_1", input := "", content := .string "rain" },
                              { type := .text, text := some "And?", input := "", content := .string "" }] }] }

/-- A message that says what it is going to do and does it. -/
def announcedCall : ClaudeMessage String :=
  { role := "assistant"
    content := .blocks [{ type := .text, text := some "Let me look.", input := "", content := .string "" },
                        { type := .toolUse, id := "toolu_1", name := "weather", input := "\x7b\x7d"
                          content := .string "" }] }

theorem known_blocks {role : String} {content : List (ClaudeMediaMessage J)} (h : ∀ block ∈ content, block.Known) :
    ClaudeMessage.Known { role := role, content := .blocks content } := by
  refine ⟨?_, h⟩
  intro err herr
  cases herr

theorem known_string (role text : String) :
    ClaudeMessage.Known ({ role := role, content := .string text } : ClaudeMessage J) := by
  constructor
  · intro err herr
    cases herr
  · intro block hblock
    cases hblock

theorem claude_conversation_kept_weather :
    ∃ out, claudeMessagesRequestToOpenAIChat compactJson plainOptions weatherRequest = .ok out ∧
      ConversationKept compactJson plainOptions weatherRequest out.messages := by
  have hknown : ∀ m ∈ weatherRequest.messages, m.Known := by
    intro m hm
    simp only [weatherRequest, mem_cons, not_mem_nil, or_false] at hm
    rcases hm with rfl | rfl | rfl
    · exact known_string _ _
    · exact known_blocks (by decide)
    · exact known_blocks (by decide)
  refine (claude_conversation_kept_iff compactJson plainOptions hknown).2 fun m hm => ?_
  simp only [weatherRequest, mem_cons, not_mem_nil, or_false] at hm
  rcases hm with rfl | rfl | rfl
  · exact Or.inl (by decide)
  · exact Or.inr (by decide)
  · exact Or.inl (by decide)

/-- The text beside the call is lost. -/
theorem claude_conversation_not_kept_announcedCall : announcedCall.Known ∧
    ¬ ∃ out, claudeMessagesRequestToOpenAIChat compactJson plainOptions { messages := [announcedCall] } = .ok out ∧
      ConversationKept compactJson plainOptions { messages := [announcedCall] } out.messages := by
  have hknown : announcedCall.Known := known_blocks (by decide)
  refine ⟨hknown, ?_⟩
  rintro ⟨out, hout, hkept⟩
  obtain ⟨out', hout', hmessages⟩ := claudeMessagesRequest_eq compactJson plainOptions
    (show ∀ m ∈ ({ messages := [announcedCall] } : ClaudeRequest String).messages, m.Known by simpa using hknown)
  obtain rfl : out = out' := Except.ok.inj (hout.symm.trans hout')
  obtain ⟨conversation, hsplit, htexts⟩ := hkept.texts
  rw [hmessages] at hsplit
  rw [← append_cancel_left hsplit] at htexts
  exact absurd htexts (by decide)

end NovaMaas.Convert
