/-
  The second walk of the conversion to the Anthropic API, and with it the whole conversion.

  The second walk loses nothing: what the blocks and strings it writes say is what the messages say, word for word,
  except for the three dots of the user before a conversation that begins with someone else.  So a request says again
  what the messages say exactly if the first walk loses nothing, and if there is a message at all that is not the
  system's: a prompt alone gives a request without messages.
-/
import NovaMaas.Convert.ChatToClaudeKept

open List Except

namespace NovaMaas.Convert

open ClaudeMediaMessage MessagesWalk

/-! ## The messages of the first walk -/

def IsRole (role : String) : Prop := role = "system" ∨ role = "user" ∨ role = "assistant" ∨ role = "tool"

instance (role : String) : Decidable (IsRole role) := inferInstanceAs (Decidable (_ ∨ _))

/-- A message as the first walk leaves it. -/
structure Formatted (m : Message String) : Prop where
  role  : IsRole m.role
  text  : m.content ≠ .string ""
  calls : m.parseToolCalls ≠ [] → m.role = "assistant"

theorem formatted_fmt (s : FormatState) {message : Message String} (hrole : IsRole message.role) :
    Formatted (s.fmt message) where
  role := by
    rw [role_fmt]
    exact hrole
  text := content_withDots _
  calls := by
    have hcoherent := FormatState.Coherent.step (s := s) message
    rw [step_eq] at hcoherent
    exact hcoherent.calls

theorem formatted_step {s : FormatState} {message : Message String} (hrole : IsRole message.role)
    (h : ∀ m ∈ s.formatMessages, Formatted m) : ∀ m ∈ (s.step message).formatMessages, Formatted m := by
  intro m hm
  rw [step_eq] at hm
  rcases mem_append.mp hm with hold | hnew
  · by_cases hmerges : merges s.lastMessage message = true
    · rw [if_pos hmerges] at hold
      exact h m (mem_of_mem_dropLast hold)
    · rw [if_neg hmerges] at hold
      exact h m hold
  · rw [mem_singleton.mp hnew]
    exact formatted_fmt s hrole

theorem formatted_run (messages : List (Message String)) :
    ∀ {s : FormatState}, (∀ m ∈ messages, IsRole m.role) → (∀ m ∈ s.formatMessages, Formatted m) →
      ∀ m ∈ (messages.foldl FormatState.step s).formatMessages, Formatted m := by
  induction messages with
  | nil => exact fun _ h => h
  | cons message _ ih =>
    intro s hroles h
    exact ih (fun m hm => hroles m (mem_cons_of_mem _ hm))
      (formatted_step (hroles message mem_cons_self) h)

/-- Every kind of role that was there is there again, and no other. -/
theorem role_step (s : FormatState) (hs : s.Coherent) (message : Message String) (p : String → Prop) :
    (∃ m ∈ (s.step message).formatMessages, p m.role) ↔ (∃ m ∈ s.formatMessages, p m.role) ∨ p message.role := by
  rw [step_eq]
  simp only [mem_append, mem_singleton, or_and_right, exists_or, exists_eq_left, role_fmt]
  by_cases hmerges : merges s.lastMessage message = true
  · obtain ⟨before, last, text, hbrought⟩ := hs.brought hmerges
    rw [if_pos hmerges, hbrought.list, dropLast_concat]
    simp only [mem_append, mem_singleton, or_and_right, exists_or, exists_eq_left, hbrought.role]
    rw [or_assoc, or_self]
  · rw [if_neg hmerges]

theorem role_run (messages : List (Message String)) (p : String → Prop) : ∀ {s : FormatState}, s.Coherent →
      ((∃ m ∈ (messages.foldl FormatState.step s).formatMessages, p m.role) ↔
        (∃ m ∈ s.formatMessages, p m.role) ∨ ∃ m ∈ messages, p m.role) := by
  induction messages with
  | nil =>
    intro s _
    simp
  | cons message _ ih =>
    intro s hs
    rw [foldl_cons, ih (FormatState.Coherent.step message), role_step s hs]
    simp only [mem_cons, or_and_right, exists_or, exists_eq_left, or_assoc]

/-! ## The blocks -/

variable {options : ChatToClaudeOptions}

theorem said_textBlocks (texts : List String) : (texts.map textBlock).filterMap said? = texts.map Said.text := by
  induction texts with
  | nil => rfl
  | cons _ _ ih =>
    rw [map_cons, map_cons, ← ih]
    rfl

theorem said_systemBlocks (m : Message String) :
    (systemBlocks m).filterMap said? = m.saidTexts.map Said.text := said_textBlocks _

theorem said_toolUseBlocks (calls : List (ToolCallRequest String)) :
    (calls.map (toolUseBlock options)).filterMap said? = calls.map ToolCallRequest.said := by
  induction calls with
  | nil => rfl
  | cons _ _ ih =>
    rw [map_cons, map_cons, ← ih]
    rfl

theorem said_fileBlock (resolved : String × String) : (fileBlock resolved).said? = none := by
  unfold said? fileBlock
  by_cases hpdf : hasPrefix resolved.2 "application/pdf" = true
  · simp only [hpdf, if_true]
  · simp only [hpdf, if_false, Bool.false_eq_true]

/-- What a part says is what its block says; the block of a file says nothing. -/
theorem said_mediaBlock {part : MediaContent String} {blocks : List (ClaudeMediaMessage Json)}
    (h : mediaBlock options part = .ok blocks) :
    blocks.filterMap said? = ((part.text?.toList).filter fun text => text ≠ "").map Said.text := by
  unfold mediaBlock at h
  split at h
  · next text =>
    obtain rfl := ok.inj h
    by_cases htext : text = ""
    · simp [MediaContent.text?, htext]
    · simp [MediaContent.text?, htext, textBlock, said?, getText]
  · next hfile =>
    have hnone : part.text? = none := by
      cases part with
      | text text => exact absurd rfl (hfile text)
      | imageUrl | inputAudio | file | videoUrl => rfl
    rw [hnone]
    split at h
    · split at h
      · cases h
      · obtain rfl := ok.inj h
        rw [filterMap_cons_none (said_fileBlock _)]
        rfl
    · obtain rfl := ok.inj h
      rfl

theorem said_mediaBlocks {parts : List (MediaContent String)} :
    ∀ {blocks : List (ClaudeMediaMessage Json)}, mediaBlocks options parts = .ok blocks → blocks.filterMap said? =
        ((parts.filterMap MediaContent.text?).filter fun text => text ≠ "").map Said.text := by
  induction parts with
  | nil =>
    intro blocks h
    obtain rfl := ok.inj h
    rfl
  | cons part rest ih =>
    intro blocks h
    cases hpart : mediaBlock options part with
    | error =>
      rw [mediaBlocks, hpart] at h
      cases h
    | ok =>
      cases hrest : mediaBlocks options rest with
      | error =>
        rw [mediaBlocks, hpart, hrest] at h
        cases h
      | ok =>
        rw [mediaBlocks, hpart, hrest] at h
        obtain rfl := ok.inj h
        have hparts : (part :: rest).filterMap MediaContent.text? =
            part.text?.toList ++ rest.filterMap MediaContent.text? := by
          cases htext : part.text? with
          | none => rw [filterMap_cons_none htext, Option.toList_none, nil_append]
          | some => rw [filterMap_cons_some htext, Option.toList_some, singleton_append]
        rw [filterMap_append, said_mediaBlock hpart, ih hrest, hparts, filter_append, map_append]

variable {m : Message String}

/-- What is written of a message of the user or the assistant says what the message says. -/
theorem said_claudeContent (hm : Formatted m) (htool : m.role ≠ "tool")
    {content : ClaudeMessageContent Json} (h : claudeContent options m = .ok content) :
    ({ role := m.role, content := content } : ClaudeMessage Json).said = m.said := by
  have hcalls : m.saidCalls = m.parseToolCalls.map ToolCallRequest.said := by
    unfold Message.saidCalls
    by_cases hassistant : m.role = "assistant"
    · rw [if_pos hassistant]
    · rw [if_neg hassistant]
      by_cases hnone : m.parseToolCalls = []
      · rw [hnone]
        rfl
      · exact absurd (hm.calls hnone) hassistant
  rw [said_of_ne_tool htool, hcalls]
  unfold claudeContent at h
  split at h
  · next text hcontent hnone =>
    obtain rfl := ok.inj h
    have htext : text ≠ "" := by
      rintro rfl
      exact hm.text hcontent
    have hnocalls : m.parseToolCalls = [] := by
      unfold Message.parseToolCalls
      rw [hnone]
      rfl
    rw [saidTexts_string hcontent, if_neg htext, if_neg htext, hnocalls]
    rfl
  · split at h
    · cases h
    · next blocks hblocks =>
      obtain rfl := ok.inj h
      show (blocks ++ m.parseToolCalls.map (toolUseBlock options)).filterMap said? = _
      rw [filterMap_append, said_mediaBlocks hblocks, said_toolUseBlocks]
      rfl

/-! ## The second walk -/

def MessagesWalk.said (w : MessagesWalk) : List Said := w.claudeMessages.flatMap ClaudeMessage.said

def MessagesWalk.roles (w : MessagesWalk) : List String := w.claudeMessages.map ClaudeMessage.role

theorem said_concat (messages : List (ClaudeMessage Json)) (m : ClaudeMessage Json) :
    (messages ++ [m]).flatMap ClaudeMessage.said = messages.flatMap ClaudeMessage.said ++ m.said := by
  rw [flatMap_append, flatMap_singleton]

theorem roles_concat (messages : List (ClaudeMessage Json)) (m : ClaudeMessage Json) :
    (messages ++ [m]).map ClaudeMessage.role = messages.map ClaudeMessage.role ++ [m.role] := by
  rw [map_append, map_singleton]

theorem said_append (role : String) (content : ClaudeMessageContent Json) (block : ClaudeMediaMessage Json) :
    ({ role := role, content := content.append block } : ClaudeMessage Json).said =
      ({ role := role, content := content } : ClaudeMessage Json).said ++ block.said?.toList := by
  have hone : [block].filterMap said? = block.said?.toList := by
    cases hsaid : block.said? with
    | none => rw [filterMap_cons_none hsaid, filterMap_nil, Option.toList_none]
    | some => rw [filterMap_cons_some hsaid, filterMap_nil, Option.toList_some]
  cases content with
  | string text =>
    show [textBlock text, block].filterMap said? = [Said.text text] ++ _
    rw [← hone]
    rfl
  | blocks content =>
    show (content ++ [block]).filterMap said? = content.filterMap said? ++ _
    rw [filterMap_append, hone]
  | unparsable =>
    show [block].filterMap said? = [] ++ _
    rw [hone, nil_append]

theorem said_tool (h : m.role = "tool") : m.said = [.result m.toolCallId] := if_pos h

variable {w : MessagesWalk}

/-- What a message adds: what it says, and its role unless it goes to the message before it. -/
theorem add_spec {w' : MessagesWalk} (hm : Formatted m) (h : w.add options m = .ok w') :
    w'.isFirstMessage = w.isFirstMessage ∧ w'.systemMessages = w.systemMessages ∧ w'.said = w.said ++ m.said ∧
      ((w.roles ≠ [] ∧ w'.roles = w.roles) ∨ w'.roles = w.roles ++ [if m.role = "tool" then "user" else m.role]) := by
  unfold add at h
  by_cases htool : m.role = "tool"
  · rw [if_pos htool] at h
    have hresult : ({ role := "user", content := .blocks [toolResultBlock options m] } : ClaudeMessage Json).said =
        m.said := by
      rw [said_tool htool]
      rfl
    have hnew : w'.isFirstMessage = w.isFirstMessage → w'.systemMessages = w.systemMessages → w'.claudeMessages =
          w.claudeMessages ++ [{ role := "user", content := .blocks [toolResultBlock options m] }] →
        w'.isFirstMessage = w.isFirstMessage ∧ w'.systemMessages = w.systemMessages ∧ w'.said = w.said ++ m.said ∧
          ((w.roles ≠ [] ∧ w'.roles = w.roles) ∨
            w'.roles = w.roles ++ [if m.role = "tool" then "user" else m.role]) := by
      intro hfirst hsystem hlist
      refine ⟨hfirst, hsystem, ?_, Or.inr ?_⟩
      · unfold said
        rw [hlist, said_concat, hresult]
      · unfold roles
        rw [hlist, roles_concat, if_pos htool]
    cases hlast : w.claudeMessages.getLast? with
    | none =>
      rw [hlast] at h
      obtain rfl := ok.inj h
      exact hnew rfl rfl rfl
    | some last =>
      rw [hlast] at h
      by_cases huser : last.role = "user"
      · replace h := (if_pos huser).symm.trans h
        obtain rfl := ok.inj h
        obtain ⟨before, hbefore⟩ : ∃ before, w.claudeMessages = before ++ [last] :=
          ⟨_, (dropLast_append_getLast? last hlast).symm⟩
        refine ⟨rfl, rfl, ?_, Or.inl ⟨?_, ?_⟩⟩
        · unfold said
          rw [hbefore, dropLast_concat, said_concat, said_concat, said_append, said_tool htool, append_assoc]
          rfl
        · unfold roles
          rw [hbefore, roles_concat]
          exact append_ne_nil_of_right_ne_nil _ (cons_ne_nil _ _)
        · unfold roles
          rw [hbefore, dropLast_concat, roles_concat, roles_concat]
      · replace h := (if_neg huser).symm.trans h
        obtain rfl := ok.inj h
        exact hnew rfl rfl rfl
  · rw [if_neg htool] at h
    cases hcontent : claudeContent options m with
    | error =>
      rw [hcontent] at h
      cases h
    | ok =>
      rw [hcontent] at h
      obtain rfl := ok.inj h
      refine ⟨rfl, rfl, ?_, Or.inr ?_⟩
      · unfold said
        rw [said_concat, said_claudeContent hm htool hcontent]
      · unfold roles
        rw [roles_concat, if_neg htool]

/-- The conversation begins with the user, and nobody speaks but the user and the assistant. -/
structure MessagesWalk.Proper (w : MessagesWalk) : Prop where
  first : w.isFirstMessage = true ↔ w.roles = []
  user  : w.isFirstMessage = false → w.roles.head? = some "user"
  roles : ∀ role ∈ w.roles, role = "user" ∨ role = "assistant"

theorem proper_start : MessagesWalk.Proper {} where
  first := ⟨fun _ => rfl, fun _ => rfl⟩
  user := by
    intro h
    cases h
  roles := by
    intro role h
    cases h

/-- The three dots of the user, where the conversation begins with someone else. -/
def dotsBefore (w : MessagesWalk) (role : String) : List Said :=
  if w.isFirstMessage = true ∧ role ≠ "user" then [.text "..."] else []

theorem begin_spec (hw : w.Proper) (role : String) :
    (w.begin role).isFirstMessage = false ∧ (w.begin role).systemMessages = w.systemMessages ∧
      (w.begin role).said = w.said ++ dotsBefore w role ∧
      ((w.begin role).roles = [] ∧ role = "user" ∨ (w.begin role).roles.head? = some "user") ∧
      (∀ r ∈ (w.begin role).roles, r = "user" ∨ r = "assistant") := by
  unfold begin dotsBefore
  by_cases hfirst : w.isFirstMessage = true
  · have hnone : w.claudeMessages = [] := map_eq_nil_iff.mp (hw.first.mp hfirst)
    rw [if_pos hfirst]
    by_cases huser : role = "user"
    · rw [if_neg (fun h : w.isFirstMessage = true ∧ role ≠ "user" => h.2 huser)]
      refine ⟨rfl, rfl, ?_, Or.inl ⟨?_, huser⟩, ?_⟩
      · unfold said
        simp only [huser, ne_eq, not_true_eq_false, if_false, append_nil]
      · unfold roles
        simp only [huser, ne_eq, not_true_eq_false, if_false, hnone, map_nil]
      · intro r hr
        unfold roles at hr
        simp only [huser, ne_eq, not_true_eq_false, if_false, hnone, map_nil, not_mem_nil] at hr
    · rw [if_pos (And.intro hfirst huser)]
      refine ⟨rfl, rfl, ?_, Or.inr ?_, ?_⟩
      · unfold said
        simp only [ne_eq, huser, not_false_eq_true, if_true, hnone, nil_append]
        rfl
      · unfold roles
        simp only [ne_eq, huser, not_false_eq_true, if_true, hnone, nil_append]
        rfl
      · intro r hr
        unfold roles at hr
        simp only [ne_eq, huser, not_false_eq_true, if_true, hnone, nil_append, map_cons, map_nil,
          mem_singleton] at hr
        exact Or.inl hr
  · rw [if_neg hfirst, if_neg (fun h : w.isFirstMessage = true ∧ role ≠ "user" => hfirst h.1)]
    have hfalse : w.isFirstMessage = false := Bool.eq_false_iff.mpr hfirst
    exact ⟨hfalse, rfl, (append_nil _).symm, Or.inr (hw.user hfalse), hw.roles⟩

/-- What a message of the walk says in the conversation. -/
def conversationSaid (w : MessagesWalk) (m : Message String) : List Said :=
  if m.role = "system" then [] else dotsBefore w m.role ++ m.said

theorem said_system (h : m.role = "system") : m.said = m.saidTexts.map Said.text := by
  have htool : m.role ≠ "tool" := by
    rw [h]
    decide
  have hassistant : m.role ≠ "assistant" := by
    rw [h]
    decide
  have hnone : m.saidCalls = [] := if_neg hassistant
  rw [said_of_ne_tool htool, hnone, append_nil]

theorem head?_append_some {α : Type} {l : List α} {a : α} (h : l.head? = some a) (l' : List α) :
    (l ++ l').head? = some a := by
  cases l with
  | nil => cases h
  | cons => exact h

/-- A step of the walk says what its message says, and nothing else but the three dots. -/
theorem walk_step {w' : MessagesWalk} (hm : Formatted m) (hw : w.Proper) (h : w.step options m = .ok w') :
    w'.Proper ∧ w'.said = w.said ++ conversationSaid w m ∧ w'.systemMessages.filterMap said? =
        w.systemMessages.filterMap said? ++ (if m.role = "system" then m.said else []) ∧
      w'.isFirstMessage = (w.isFirstMessage && decide (m.role = "system")) := by
  unfold step at h
  unfold conversationSaid
  by_cases hsystem : m.role = "system"
  · rw [if_pos hsystem] at h
    obtain rfl := ok.inj h
    rw [if_pos hsystem, if_pos hsystem]
    refine ⟨⟨hw.first, hw.user, hw.roles⟩, (append_nil _).symm, ?_, ?_⟩
    · show (w.systemMessages ++ systemBlocks m).filterMap said? = _
      rw [filterMap_append, said_systemBlocks, said_system hsystem]
    · rw [decide_eq_true hsystem, Bool.and_true]
  · rw [if_neg hsystem] at h
    obtain ⟨hfirst, hsystems, hsaid, hhead, hroles⟩ := begin_spec hw m.role
    obtain ⟨hfirst', hsystems', hsaid', hroles'⟩ := add_spec hm h
    have hfalse : w'.isFirstMessage = false := hfirst'.trans hfirst
    have hrole : (if m.role = "tool" then "user" else m.role) = "user" ∨
        (if m.role = "tool" then "user" else m.role) = "assistant" := by
      by_cases htool : m.role = "tool"
      · exact Or.inl (if_pos htool)
      · rw [if_neg htool]
        rcases hm.role with h | h | h | h
        · exact absurd h hsystem
        · exact Or.inl h
        · exact Or.inr h
        · exact absurd h htool
    have hhead' : w'.roles.head? = some "user" := by
      rcases hroles' with ⟨hsome, hsame⟩ | hnew
      · rw [hsame]
        rcases hhead with ⟨hnone, _⟩ | hhead
        · exact absurd hnone hsome
        · exact hhead
      · rw [hnew]
        rcases hhead with ⟨hnone, huser⟩ | hhead
        · have htool : m.role ≠ "tool" := by
            rw [huser]
            decide
          rw [hnone, if_neg htool, huser]
          rfl
        · exact head?_append_some hhead _
    have hproper : w'.Proper := by
      refine ⟨⟨?_, ?_⟩, fun _ => hhead', ?_⟩
      · intro htrue
        rw [hfalse] at htrue
        cases htrue
      · intro hnone
        rw [hnone] at hhead'
        cases hhead'
      · intro r hr
        rcases hroles' with ⟨_, hsame⟩ | hnew
        · rw [hsame] at hr
          exact hroles r hr
        · rw [hnew] at hr
          rcases mem_append.mp hr with hold | hlast
          · exact hroles r hold
          · rw [mem_singleton.mp hlast]
            exact hrole
    refine ⟨hproper, ?_, ?_, ?_⟩
    · rw [hsaid', hsaid, if_neg hsystem, append_assoc]
    · rw [hsystems', hsystems, if_neg hsystem, append_nil]
    · rw [hfalse, decide_eq_false hsystem, Bool.and_false]

/-- The three dots, or nothing. -/
def IsDots (said : List Said) : Prop := said = [] ∨ said = [.text "..."]

theorem isDots_before (w : MessagesWalk) (role : String) : IsDots (dotsBefore w role) := by
  unfold dotsBefore
  by_cases h : w.isFirstMessage = true ∧ role ≠ "user"
  · rw [if_pos h]
    exact Or.inr rfl
  · rw [if_neg h]
    exact Or.inl rfl

/-- The walk says what the messages say, behind the three dots at most. -/
theorem walk_run {messages : List (Message String)} :
    ∀ {w w' : MessagesWalk}, (∀ m ∈ messages, Formatted m) → w.Proper → claudeWalk options messages w = .ok w' →
      w'.Proper ∧ (∃ dots, IsDots dots ∧ (w.isFirstMessage = false → dots = []) ∧
          w'.said = w.said ++ dots ++ (ofSystem false messages).flatMap Message.said) ∧
        w'.systemMessages.filterMap said? =
          w.systemMessages.filterMap said? ++ (ofSystem true messages).flatMap Message.said ∧
        (w'.isFirstMessage = true ↔ w.isFirstMessage = true ∧ ∀ m ∈ messages, m.role = "system") := by
  induction messages with
  | nil =>
    intro w w' _ hw h
    obtain rfl := ok.inj h
    refine ⟨hw, ⟨[], Or.inl rfl, fun _ => rfl, ?_⟩, (append_nil _).symm, ?_⟩
    · exact ((append_nil _).trans (append_nil _)).symm
    · exact ⟨fun hfirst => ⟨hfirst, fun m hm => by cases hm⟩, fun h => h.1⟩
  | cons m _ ih =>
    intro w w' hmessages hw h
    cases hstep : w.step options m with
    | error =>
      rw [claudeWalk, hstep] at h
      cases h
    | ok =>
      rw [claudeWalk, hstep] at h
      have hm := hmessages m mem_cons_self
      obtain ⟨hnext, hsaid, hsystem, hfirst⟩ := walk_step hm hw hstep
      obtain ⟨hw', ⟨dots, hdots, hnodots, hsaid'⟩, hsystem', hfirst'⟩ :=
        ih (fun m hm => hmessages m (mem_cons_of_mem _ hm)) hnext h
      refine ⟨hw', ?_, ?_, ?_⟩
      · unfold conversationSaid at hsaid
        by_cases hrole : m.role = "system"
        · -- the system does not begin the conversation
          rw [if_pos hrole, append_nil] at hsaid
          rw [decide_eq_true hrole, Bool.and_true] at hfirst
          refine ⟨dots, hdots, ?_, ?_⟩
          · intro hnot
            exact hnodots (hfirst.trans hnot)
          · rw [hsaid', hsaid]
            unfold ofSystem
            rw [filter_cons_of_neg (by simp [hrole])]
        · rw [if_neg hrole] at hsaid
          rw [decide_eq_false hrole, Bool.and_false] at hfirst
          refine ⟨dotsBefore w m.role, isDots_before w m.role, ?_, ?_⟩
          · intro hnot
            exact if_neg (fun h => by rw [hnot] at h; cases h.1)
          · rw [hsaid', hsaid, hnodots hfirst, append_nil]
            unfold ofSystem
            rw [filter_cons_of_pos (by simp [hrole]), flatMap_cons]
            simp only [append_assoc]
      · rw [hsystem', hsystem, append_assoc]
        unfold ofSystem
        by_cases hrole : m.role = "system"
        · rw [if_pos hrole, filter_cons_of_pos (by simp [hrole]), flatMap_cons]
        · rw [if_neg hrole, filter_cons_of_neg (by simp [hrole]), nil_append]
      · rw [hfirst', hfirst, Bool.and_eq_true, decide_eq_true_eq, forall_mem_cons, and_assoc]

/-! ## The request -/

/-- The parts of a request that was made. -/
theorem request_of_ok {req : GeneralOpenAIRequest Json} {claudeRequest : ClaudeRequest Json}
    (h : openAIChatRequestToClaudeMessages options req = .ok claudeRequest) :
    ∃ walk, claudeWalk options (formatMessages req.messages) {} = .ok walk ∧
      claudeRequest.messages = walk.claudeMessages ∧
      claudeRequest.system.said = walk.systemMessages.filterMap said? := by
  unfold openAIChatRequestToClaudeMessages at h
  cases hwalk : claudeWalk options (formatMessages req.messages) {} with
  | error =>
    rw [hwalk] at h
    cases h
  | ok walk =>
    rw [hwalk] at h
    cases hmax : (claudeModel options req).2 with
    | none =>
      simp only [hmax] at h
      cases h
    | some =>
      simp only [hmax] at h
      obtain rfl := ok.inj h
      refine ⟨walk, rfl, rfl, ?_⟩
      show (if walk.systemMessages = [] then ClaudeSystem.absent else .blocks walk.systemMessages).said = _
      by_cases hnone : walk.systemMessages = []
      · rw [if_pos hnone, hnone]
        rfl
      · rw [if_neg hnone]
        rfl

theorem weight_dots {dots : List Said} (h : IsDots dots) : weight dots = 0 := by
  rcases h with rfl | rfl
  · rfl
  · decide

theorem covers_dots {dots ins outs : List Said} (h : IsDots dots) (hcovers : Covers ins outs) :
    Covers ins (dots ++ outs) := by
  rcases h with rfl | rfl
  · exact hcovers
  · have hdots : Covers [] [Said.text "..."] := Covers.cons (fits_text (l := []) trivial) Covers.nil
    simpa using hdots.append hcovers

/-- The conversation begins with the user, exactly if there is one. -/
theorem first_iff (hw : w.Proper) :
    (∃ first ∈ w.claudeMessages.head?, first.role = "user") ↔ w.isFirstMessage = false := by
  constructor
  · rintro ⟨first, hfirst, _⟩
    by_contra hnot
    have htrue : w.isFirstMessage = true := Bool.eq_true_of_not_eq_false hnot
    have hnone : w.claudeMessages = [] := map_eq_nil_iff.mp (hw.first.mp htrue)
    rw [hnone] at hfirst
    cases hfirst
  · intro hfalse
    have hhead := hw.user hfalse
    unfold roles at hhead
    rw [head?_map] at hhead
    obtain ⟨first, hfirst, hrole⟩ := Option.map_eq_some_iff.mp hhead
    exact ⟨first, hfirst, hrole⟩

/-- The request says again what the messages say, if and only if there is a message besides those of the system and no
step of the first walk loses anything. -/
theorem saysAgain_iff {req : GeneralOpenAIRequest Json} {claudeRequest : ClaudeRequest Json}
    (hroles : ∀ m ∈ req.messages, IsRole m.role)
    (h : openAIChatRequestToClaudeMessages options req = .ok claudeRequest) :
    SaysAgain req.messages claudeRequest ↔
      (∃ m ∈ req.messages, m.role ≠ "system") ∧ FormatState.Lossless {} req.messages := by
  obtain ⟨walk, hwalk, hmessages, hsystem⟩ := request_of_ok h
  have hformatted : ∀ m ∈ formatMessages req.messages, Formatted m :=
    formatted_run req.messages hroles fun m hm => by cases hm
  obtain ⟨hproper, ⟨dots, hdots, _, hsaid⟩, hsystemSaid, hfirst⟩ := walk_run hformatted proper_start hwalk
  have hconversation : claudeRequest.messages.flatMap ClaudeMessage.said =
      dots ++ (ofSystem false (formatMessages req.messages)).flatMap Message.said := by
    rw [hmessages]
    exact hsaid
  have hprompt : claudeRequest.system.said = (ofSystem true (formatMessages req.messages)).flatMap Message.said := by
    rw [hsystem, hsystemSaid]
    rfl
  have hsome : walk.isFirstMessage = false ↔ ∃ m ∈ req.messages, m.role ≠ "system" := by
    have hrun := role_run req.messages (fun role => role ≠ "system") coherent_start
    have hnothing : ¬ ∃ m ∈ (({} : FormatState)).formatMessages, m.role ≠ "system" := by
      rintro ⟨m, hm, _⟩
      cases hm
    rw [or_iff_right hnothing] at hrun
    rw [← hrun, ← Bool.not_eq_true, hfirst]
    show ¬ (true = true ∧ ∀ m ∈ formatMessages req.messages, m.role = "system") ↔ _
    simp only [true_and, not_forall, exists_prop]
    rfl
  constructor
  · intro hagain
    constructor
    · apply hsome.mp
      apply (first_iff hproper).mp
      have hbegins := hagain.first
      rwa [hmessages] at hbegins
    · apply lossless_of_weight
      intro b
      cases b with
      | false =>
        have hle := hagain.conversation.weight_le
        rwa [hconversation, weight_append, weight_dots hdots, Nat.zero_add] at hle
      | true =>
        have hle := hagain.system.weight_le
        rwa [hprompt] at hle
  · rintro ⟨hother, hlossless⟩
    refine ⟨?_, ?_, ?_, ?_⟩
    · rw [hconversation]
      exact covers_dots hdots (kept_of_lossless hlossless false)
    · rw [hprompt]
      exact kept_of_lossless hlossless true
    · rw [hmessages]
      exact (first_iff hproper).mpr (hsome.mpr hother)
    · intro m hm
      rw [hmessages] at hm
      exact hproper.roles m.role (mem_map_of_mem hm)

/-- Options of which the conversions below use the limit of tokens. -/
def limitOptions : ChatToClaudeOptions where
  defaultMaxTokens := some fun _ => 8192
  thinkingAdapterEnabled := false
  preserveThinkingSuffix := fun _ => false
  resolveBase64Data := fun _ => .error "no file"
  parseJson := fun _ => none
  contentValue := fun _ => .null

/-- The assistant calls the weather, and says something more before the answer. -/
def weatherTwice (call : List (ToolCallRequest String)) (more : String) : GeneralOpenAIRequest Json where
  model := "claude-sonnet-4-5"
  messages :=
    [{ role := "user", content := .string "How is the weather?" },
     { role := "assistant", content := .string "I look.", toolCalls := some call },
     { role := "assistant", content := .string more },
     { role := "tool", content := .string "Rain.", toolCallId := "call_1" }]

def weatherCall : ToolCallRequest String :=
  { id := "call_1", type := "function", name := "weather", arguments := "", custom := "" }

/-- Without a call nothing is lost where the two messages are brought together. -/
theorem saysAgain_iff_weather :
    (∃ claudeRequest, openAIChatRequestToClaudeMessages limitOptions (weatherTwice [] "It rains.") = .ok claudeRequest ∧
      SaysAgain (weatherTwice [] "It rains.").messages claudeRequest) := by
  obtain ⟨claudeRequest, h⟩ : ∃ claudeRequest,
      openAIChatRequestToClaudeMessages limitOptions (weatherTwice [] "It rains.") = .ok claudeRequest := ⟨_, rfl⟩
  exact ⟨claudeRequest, h, (saysAgain_iff (by decide) h).mpr (by decide)⟩

/-- The call goes with the message it stood in, and its answer stays. -/
theorem call_not_said : (∃ claudeRequest,
      openAIChatRequestToClaudeMessages limitOptions (weatherTwice [weatherCall] "It rains.") = .ok claudeRequest ∧
      claudeRequest.messages.flatMap ClaudeMessage.said =
        [.text "How is the weather?", .text "I look. It rains.", .result "call_1"] ∧
      ¬ SaysAgain (weatherTwice [weatherCall] "It rains.").messages claudeRequest) := by
  obtain ⟨claudeRequest, h⟩ : ∃ claudeRequest,
      openAIChatRequestToClaudeMessages limitOptions (weatherTwice [weatherCall] "It rains.") = .ok claudeRequest :=
    ⟨_, rfl⟩
  have hsaid : claudeRequest.messages.flatMap ClaudeMessage.said =
      [.text "How is the weather?", .text "I look. It rains.", .result "call_1"] := by
    obtain rfl := ok.inj h
    decide +kernel
  refine ⟨claudeRequest, h, hsaid, ?_⟩
  intro hagain
  have hle := hagain.conversation.weight_le
  rw [hsaid] at hle
  exact absurd hle (by decide +kernel)

end NovaMaas.Convert
