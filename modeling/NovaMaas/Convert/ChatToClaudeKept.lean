/-
  What a conversation says is said again after its conversion to the Anthropic API, as long as nothing is lost where two
  messages of one role are brought together.

  What a message says is a list: its texts and calls, or the answer it gives.  What comes out is a list of the same
  kind, in which one text may stand for several that were joined, and the three dots for none (`Covers`).  Every step of
  the first walk covers the message it takes, unless the message before it had calls, which go with it, or a quotation
  mark stands at an end of the joined text, which is trimmed.

  For the converse the calls and the quotation marks are COUNTED: a list that covers another one has as many of them,
  and no step of the walk makes any.
-/
import NovaMaas.Convert.ChatToClaude

open List

namespace NovaMaas.Convert

open Message FormatState

/-! ## What is said -/

inductive Said where
  | text (text : String)
  | call (id name : String)
  | result (id : String)
  deriving DecidableEq

/-- The texts of a message that are not empty. -/
def Message.saidTexts (m : Message String) : List String :=
  (m.parseContent.filterMap MediaContent.text?).filter fun text => text ≠ ""

def ToolCallRequest.said (tc : ToolCallRequest String) : Said := .call tc.id tc.name

/-- What a message says: a tool message gives an answer, and only the assistant calls. -/
def Message.said (m : Message String) : List Said :=
  if m.role = "tool" then [.result m.toolCallId]
  else
    m.saidTexts.map Said.text ++ (if m.role = "assistant" then m.parseToolCalls.map ToolCallRequest.said else [])

/-- What a block says. -/
def ClaudeMediaMessage.said? (block : ClaudeMediaMessage Json) : Option Said :=
  match block.type with
  | .text => some (.text block.getText)
  | .toolUse => some (.call block.id block.name)
  | .toolResult => some (.result block.toolUseId)
  | _ => none

def ClaudeMessage.said (m : ClaudeMessage Json) : List Said :=
  match m.content with
  | .string text => [.text text]
  | .blocks content => content.filterMap ClaudeMediaMessage.said?
  | .unparsable _ => []

def ClaudeSystem.said : ClaudeSystem Json → List Said
  | .absent => []
  | .string text => [.text text]
  | .blocks content => content.filterMap ClaudeMediaMessage.said?

/-- Texts stand in a text, one behind the other. -/
def Within : List String → String → Prop
  | [], _ => True
  | a :: ts, t => ∃ before rest, t = before ++ a ++ rest ∧ Within ts rest

/-- What one thing that comes out stands for: texts that stand in it, or itself. -/
def Fits (part : List Said) (said : Said) : Prop :=
  match said with
  | .text t => ∃ ts, part = ts.map Said.text ∧ Within ts t
  | said => part = [said]

/-- All that was said, in order, and every call and every answer once. -/
inductive Covers : List Said → List Said → Prop
  | nil : Covers [] []
  | cons {part ins outs : List Said} {said : Said} (hfits : Fits part said) (hrest : Covers ins outs) :
    Covers (part ++ ins) (said :: outs)

/-- The messages of the system, and the others. -/
def ofSystem (system : Bool) (messages : List (Message String)) : List (Message String) :=
  messages.filter fun m => decide (m.role = "system") = system

/-- The request says what the messages say; it begins with the user, and nobody speaks in it but the user and the
assistant. -/
structure SaysAgain (messages : List (Message String)) (req : ClaudeRequest Json) : Prop where
  conversation : Covers ((ofSystem false messages).flatMap said) (req.messages.flatMap ClaudeMessage.said)
  system       : Covers ((ofSystem true messages).flatMap said) req.system.said
  first        : ∃ first ∈ req.messages.head?, first.role = "user"
  roles        : ∀ m ∈ req.messages, m.role = "user" ∨ m.role = "assistant"

/-! ## Where something is lost -/

/-- The text has a quotation mark at one of its ends. -/
def Quoted (text : String) : Prop := trimQuotes text ≠ text

instance (text : String) : Decidable (Quoted text) := inferInstanceAs (Decidable (_ ≠ _))

/-- The step brings two messages together of which the first has calls, or whose texts together have a quotation mark
at an end. -/
def FormatState.Loses (s : FormatState) (message : Message String) : Prop :=
  merges s.lastMessage message = true ∧
    (s.lastMessage.parseToolCalls ≠ [] ∨ Quoted (s.lastMessage.stringContent ++ " " ++ message.stringContent))

instance (s : FormatState) (message : Message String) : Decidable (s.Loses message) :=
  inferInstanceAs (Decidable (_ ∧ (_ ∨ _)))

/-- No step of the walk loses anything. -/
def FormatState.Lossless : FormatState → List (Message String) → Prop
  | _, [] => True
  | s, message :: rest => ¬ s.Loses message ∧ Lossless (s.step message) rest

instance FormatState.decidableLossless : ∀ (s : FormatState) (messages : List (Message String)),
    Decidable (s.Lossless messages)
  | _, [] => isTrue trivial
  | s, message :: rest =>
    have := decidableLossless (s.step message) rest
    inferInstanceAs (Decidable (¬ s.Loses message ∧ Lossless (s.step message) rest))

/-! ## Covering -/

variable {t : String}

variable {ts : List String}

theorem Within.append (h : Within ts t) (rest : String) : Within ts (t ++ rest) := by
  induction ts generalizing t with
  | nil => trivial
  | cons _ _ ih =>
    obtain ⟨before, after, rfl, hts⟩ := h
    exact ⟨before, after ++ rest, by rw [String.append_assoc], ih hts⟩

theorem Within.concat (h : Within ts t) (gap a : String) : Within (ts ++ [a]) (t ++ gap ++ a) := by
  induction ts generalizing t with
  | nil => exact ⟨t ++ gap, "", by rw [String.append_empty], trivial⟩
  | cons _ _ ih =>
    obtain ⟨before, after, rfl, hts⟩ := h
    refine ⟨before, after ++ gap ++ a, ?_, ih hts⟩
    simp only [String.append_assoc]

theorem Within.self (t : String) : Within [t] t := ⟨"", "", by rw [String.empty_append, String.append_empty], trivial⟩

theorem fits_text {l : List String} (h : Within l t) : Fits (l.map Said.text) (.text t) := ⟨l, rfl, h⟩

theorem fits_self (said : Said) : Fits [said] said := by
  cases said with
  | text t => exact fits_text (Within.self t)
  | call => rfl
  | result => rfl

theorem Covers.refl (l : List Said) : Covers l l := by
  induction l with
  | nil => exact Covers.nil
  | cons said _ ih => exact Covers.cons (fits_self said) ih

variable {ins outs : List Said}

theorem Covers.append {ins' outs' : List Said} (h : Covers ins outs) (h' : Covers ins' outs') :
    Covers (ins ++ ins') (outs ++ outs') := by
  induction h with
  | nil => exact h'
  | cons hfits _ ih =>
    rw [append_assoc, cons_append]
    exact Covers.cons hfits ih

/-- Something that comes out may stand for nothing. -/
theorem Covers.concat_text (h : Covers ins outs) (t : String) :
    Covers ins (outs ++ [.text t]) := by
  have hone : Covers [] [Said.text t] := Covers.cons (fits_text (l := []) trivial) Covers.nil
  simpa using h.append hone

theorem covers_text (h : Covers ins [.text t]) : ∃ ts, ins = ts.map Said.text ∧ Within ts t := by
  cases h with
  | cons hfits hrest =>
    cases hrest
    obtain ⟨ts, rfl, hts⟩ := hfits
    exact ⟨ts, append_nil _, hts⟩

theorem covers_append {outs' : List Said} (h : Covers ins (outs ++ outs')) :
    ∃ ins₁ ins₂, ins = ins₁ ++ ins₂ ∧ Covers ins₁ outs ∧ Covers ins₂ outs' := by
  induction outs generalizing ins with
  | nil => exact ⟨[], ins, rfl, Covers.nil, h⟩
  | cons _ _ ih =>
    cases h with
    | cons hfits hrest =>
      obtain ⟨ins₁, ins₂, rfl, h₁, h₂⟩ := ih hrest
      exact ⟨_, ins₂, (append_assoc _ _ _).symm, Covers.cons hfits h₁, h₂⟩

/-- Where the last thing that comes out is a text, one more text may be joined to it. -/
theorem Covers.join (h : Covers ins (outs ++ [.text t])) (gap a : String) :
    Covers (ins ++ [.text a]) (outs ++ [.text (t ++ gap ++ a)]) ∧ Covers ins (outs ++ [.text (t ++ gap ++ a)]) := by
  obtain ⟨ins₁, ins₂, rfl, h₁, h₂⟩ := covers_append h
  obtain ⟨ts, rfl, hts⟩ := covers_text h₂
  constructor
  · have hjoined : Covers (ts.map Said.text ++ [.text a]) [.text (t ++ gap ++ a)] := by
      have := Covers.cons (fits_text (hts.concat gap a)) Covers.nil
      simpa using this
    rw [append_assoc]
    exact h₁.append hjoined
  · have hjoined : Covers (ts.map Said.text) [.text (t ++ gap ++ a)] := by
      have hwithin : Within ts (t ++ gap ++ a) := (hts.append gap).append a
      have := Covers.cons (fits_text hwithin) Covers.nil
      simpa using this
    exact h₁.append hjoined

/-! ## The first walk -/

/-- What a message says in calls. -/
def Message.saidCalls (m : Message String) : List Said :=
  if m.role = "assistant" then m.parseToolCalls.map ToolCallRequest.said else []

variable {m : Message String}

theorem said_of_ne_tool (h : m.role ≠ "tool") : m.said = m.saidTexts.map Said.text ++ m.saidCalls := if_neg h

theorem saidTexts_absent (h : m.content = .absent) : m.saidTexts = [] := by
  unfold saidTexts parseContent
  rw [h]
  rfl

theorem saidTexts_string {text : String} (h : m.content = .string text) :
    m.saidTexts = if text = "" then [] else [text] := by
  unfold saidTexts parseContent
  rw [h]
  show [text].filter _ = _
  by_cases htext : text = ""
  · simp [htext]
  · simp [htext]

theorem saidCalls_fmtMessage (m : Message String) : (fmtMessage m).saidCalls = m.saidCalls := by
  unfold saidCalls
  by_cases hassistant : m.role = "assistant"
  · have hrole : (fmtMessage m).role = "assistant" := hassistant
    have hcalls : (fmtMessage m).parseToolCalls = m.parseToolCalls :=
      congrArg (fun calls => Option.getD calls []) (if_pos hassistant)
    rw [if_pos hassistant, if_pos hrole, hcalls]
  · have hrole : (fmtMessage m).role ≠ "assistant" := hassistant
    rw [if_neg hassistant, if_neg hrole]

/-- Taking a message over keeps what it says. -/
theorem said_fmtMessage (m : Message String) : (fmtMessage m).said = m.said := by
  by_cases htool : m.role = "tool"
  · have hrole : (fmtMessage m).role = "tool" := htool
    have hid : (fmtMessage m).toolCallId = m.toolCallId := if_pos htool
    unfold said
    rw [if_pos htool, if_pos hrole, hid]
  · rw [said_of_ne_tool htool, said_of_ne_tool (m := fmtMessage m) htool, saidCalls_fmtMessage]
    rfl

@[simp] theorem role_withDots (m : Message String) : (withDots m).role = m.role := by
  unfold withDots
  split <;> rfl

/-- What a message says with three dots: what it says without, and perhaps the dots. -/
theorem said_withDots (m : Message String) : (withDots m).said = m.said ∨
      (m.role ≠ "tool" ∧ m.saidTexts = [] ∧ (withDots m).said = [.text "..."] ++ m.saidCalls) := by
  by_cases htool : m.role = "tool"
  · left
    have hrole : (withDots m).role = "tool" := by rw [role_withDots, htool]
    have hid : (withDots m).toolCallId = m.toolCallId := by
      unfold withDots
      split <;> rfl
    unfold said
    rw [if_pos htool, if_pos hrole, hid]
  · by_cases hempty : m.content = .absent ∨ m.content = .string ""
    · right
      have hdots : withDots m = { m with content := .string "..." } := if_pos hempty
      refine ⟨htool, ?_, ?_⟩
      · rcases hempty with habsent | hstring
        · exact saidTexts_absent habsent
        · rw [saidTexts_string hstring]
          rfl
      · rw [hdots, said_of_ne_tool (show ({ m with content := .string "..." } : Message String).role ≠ "tool" from htool),
          saidTexts_string (show ({ m with content := .string "..." } : Message String).content = .string "..." from rfl)]
        rfl
    · left
      have hsame : withDots m = m := if_neg hempty
      rw [hsame]

theorem covers_withDots (m : Message String) : Covers m.said (withDots m).said := by
  rcases said_withDots m with hsame | ⟨htool, htexts, hdots⟩
  · rw [hsame]
    exact Covers.refl _
  · rw [hdots, said_of_ne_tool htool, htexts]
    exact (Covers.nil.concat_text "...").append (Covers.refl _)

/-- What is known of the walk: the last message is the last of the list, it has calls only if it is the assistant's, and
if it is a string, that is not empty. -/
structure FormatState.Coherent (s : FormatState) : Prop where
  last  : s.lastMessage.role ≠ "tool" → ∃ before, s.formatMessages = before ++ [s.lastMessage]
  calls : s.lastMessage.parseToolCalls ≠ [] → s.lastMessage.role = "assistant"
  text  : s.lastMessage.content ≠ .string ""

theorem coherent_start : FormatState.Coherent {} where
  last := fun h => absurd rfl h
  calls := fun h => absurd rfl h
  text := by
    intro h
    cases h

theorem content_withDots (m : Message String) : (withDots m).content ≠ .string "" := by
  unfold withDots
  by_cases hempty : m.content = .absent ∨ m.content = .string ""
  · rw [if_pos hempty]
    intro h
    have hdots : ("..." : String) = "" := MessageContent.string.inj h
    exact absurd hdots (by decide)
  · rw [if_neg hempty]
    exact fun h => hempty (Or.inr h)

theorem parseToolCalls_withDots (m : Message String) : (withDots m).parseToolCalls = m.parseToolCalls := by
  unfold withDots
  split <;> rfl

theorem parseToolCalls_fmtMessage (h : (fmtMessage m).parseToolCalls ≠ []) : m.role = "assistant" := by
  by_contra hrole
  apply h
  have hnone : (fmtMessage m).toolCalls = none := if_neg hrole
  unfold parseToolCalls
  rw [hnone]
  rfl

/-- The message a step ends the list with. -/
def FormatState.fmt (s : FormatState) (message : Message String) : Message String :=
  withDots (if merges s.lastMessage message then
    { fmtMessage message with content := .string (mergedText s.lastMessage message) } else fmtMessage message)

theorem step_eq (s : FormatState) (message : Message String) : s.step message =
      { formatMessages := (if merges s.lastMessage message then s.formatMessages.dropLast else s.formatMessages) ++
          [s.fmt message]
        lastMessage := s.fmt message } := by
  unfold step fmt
  by_cases hmerges : merges s.lastMessage message = true
  · rw [if_pos hmerges, if_pos hmerges, if_pos hmerges]
  · rw [if_neg hmerges, if_neg hmerges, if_neg hmerges]

theorem role_fmt (s : FormatState) (message : Message String) : (s.fmt message).role = message.role := by
  unfold fmt
  rw [role_withDots]
  split <;> rfl

variable {s : FormatState}

theorem FormatState.Coherent.step (message : Message String) : (s.step message).Coherent := by
  rw [step_eq]
  refine ⟨fun _ => ⟨_, rfl⟩, ?_, content_withDots _⟩
  intro hcalls
  show (s.fmt message).role = "assistant"
  rw [role_fmt]
  have hcalls : (s.fmt message).parseToolCalls ≠ [] := hcalls
  unfold fmt at hcalls
  rw [parseToolCalls_withDots] at hcalls
  by_cases hmerges : merges s.lastMessage message = true
  · rw [if_pos hmerges] at hcalls
    exact parseToolCalls_fmtMessage hcalls
  · rw [if_neg hmerges] at hcalls
    exact parseToolCalls_fmtMessage hcalls

/-! ## A step covers -/

theorem isStringContent_iff {content : MessageContent String} (h : content.isStringContent = true) :
    ∃ text, content = .string text := by
  cases content with
  | string text => exact ⟨text, rfl⟩
  | absent | list | media => cases h

/-- What is there where two messages are brought together. -/
theorem merges_iff {last message : Message String} (h : merges last message = true) :
    last.role = message.role ∧ last.role ≠ "tool" ∧ (∃ text, last.content = .string text) ∧
      ∃ text, message.content = .string text := by
  unfold merges at h
  simp only [Bool.and_eq_true, decide_eq_true_eq] at h
  obtain ⟨⟨⟨hrole, htool⟩, hlast⟩, hmessage⟩ := h
  exact ⟨hrole, htool, isStringContent_iff hlast, isStringContent_iff hmessage⟩

theorem flatMap_concat_said (messages : List (Message String)) (m : Message String) :
    (messages ++ [m]).flatMap said = messages.flatMap said ++ m.said := by
  rw [flatMap_append, flatMap_singleton]

theorem ofSystem_concat (b : Bool) (messages : List (Message String)) (m : Message String) :
    ofSystem b (messages ++ [m]) = ofSystem b messages ++ (if decide (m.role = "system") = b then [m] else []) := by
  unfold ofSystem
  rw [filter_append, filter_singleton]
  by_cases h : decide (m.role = "system") = b
  · simp [h]
  · simp [h]

/-- What the two messages have where they are brought together, and what comes out. -/
structure Brought (s : FormatState) (message : Message String) (before : List (Message String))
    (last text : String) : Prop where
  list    : s.formatMessages = before ++ [s.lastMessage]
  role    : s.lastMessage.role = message.role
  notTool : message.role ≠ "tool"
  first   : s.lastMessage.content = .string last
  second  : message.content = .string text
  notNone : last ≠ ""

variable {message : Message String}

theorem FormatState.Coherent.brought (hs : s.Coherent)
    (h : merges s.lastMessage message = true) : ∃ before last text, Brought s message before last text := by
  obtain ⟨hrole, htool, ⟨last, hlast⟩, text, htext⟩ := merges_iff h
  obtain ⟨before, hbefore⟩ := hs.last htool
  refine ⟨before, last, text, hbefore, hrole, ?_, hlast, htext, ?_⟩
  · rw [← hrole]
    exact htool
  · intro hnone
    exact hs.text (by rw [hlast, hnone])

variable {before : List (Message String)}

variable {last text : String}

theorem Brought.mergedText_eq (h : Brought s message before last text) :
    mergedText s.lastMessage message = trimQuotes (last ++ " " ++ text) := by
  unfold mergedText stringContent
  rw [h.first, h.second]
  rfl

theorem Brought.joined_eq (h : Brought s message before last text) :
    s.lastMessage.stringContent ++ " " ++ message.stringContent = last ++ " " ++ text := by
  unfold stringContent
  rw [h.first, h.second]
  rfl

/-- What the first of two messages says that are brought together. -/
theorem Brought.said_last (h : Brought s message before last text) :
    s.lastMessage.said = [.text last] ++ s.lastMessage.saidCalls := by
  have htool : s.lastMessage.role ≠ "tool" := by
    rw [h.role]
    exact h.notTool
  rw [said_of_ne_tool htool, saidTexts_string h.first, if_neg h.notNone]
  rfl

theorem Brought.said_message (h : Brought s message before last text) :
    message.said = (if text = "" then [] else [Said.text text]) ++ message.saidCalls := by
  rw [said_of_ne_tool h.notTool, saidTexts_string h.second]
  by_cases htext : text = ""
  · rw [if_pos htext, if_pos htext]
    rfl
  · rw [if_neg htext, if_neg htext]
    rfl

theorem said_with_text (h : m.role ≠ "tool") (t : String) :
    ({ fmtMessage m with content := .string t } : Message String).said =
      (if t = "" then [] else [Said.text t]) ++ m.saidCalls := by
  have hcalls : ({ fmtMessage m with content := .string t } : Message String).saidCalls = m.saidCalls :=
    saidCalls_fmtMessage m
  rw [said_of_ne_tool (show ({ fmtMessage m with content := .string t } : Message String).role ≠ "tool" from h),
    saidTexts_string (show ({ fmtMessage m with content := .string t } : Message String).content = .string t from rfl),
    hcalls]
  by_cases ht : t = ""
  · rw [if_pos ht, if_pos ht]
    rfl
  · rw [if_neg ht, if_neg ht]
    rfl

theorem append_space_ne_empty (a b : String) : a ++ " " ++ b ≠ "" := by
  intro h
  have hlist : (a ++ " " ++ b).toList = [] := by rw [h]; rfl
  rw [String.toList_append, String.toList_append] at hlist
  have hspace : (" " : String).toList = [' '] := rfl
  rw [hspace] at hlist
  simp at hlist

/-- Everything that was said in the messages of one kind is said in the list of the walk. -/
def FormatState.Kept (s : FormatState) (b : Bool) (done : List (Message String)) : Prop :=
  Covers ((ofSystem b done).flatMap said) ((ofSystem b s.formatMessages).flatMap said)

variable {done : List (Message String)}

/-- Where the two messages are not of the kind, the list of the kind stays as it is. -/
theorem kept_other {b : Bool} (hs : s.Coherent) (h : s.Kept b done) (hb : decide (message.role = "system") ≠ b) :
    (s.step message).Kept b (done ++ [message]) := by
  unfold FormatState.Kept at h ⊢
  have hfmt : decide ((s.fmt message).role = "system") ≠ b := by
    rw [role_fmt]
    exact hb
  rw [step_eq, ofSystem_concat, ofSystem_concat, if_neg hb, if_neg hfmt, append_nil, append_nil]
  by_cases hmerges : merges s.lastMessage message = true
  · obtain ⟨before, last, text, hbrought⟩ := hs.brought hmerges
    have hlast : decide (s.lastMessage.role = "system") ≠ b := by
      rw [hbrought.role]
      exact hb
    rw [if_pos hmerges, hbrought.list, dropLast_concat]
    rwa [hbrought.list, ofSystem_concat, if_neg hlast, append_nil] at h
  · rwa [if_neg hmerges]

/-- Two messages are brought together, and nothing is lost. -/
theorem kept_merged {b : Bool} (hs : s.Coherent) (h : s.Kept b done)
    (hb : decide (message.role = "system") = b) (hmerges : merges s.lastMessage message = true)
    (hloses : ¬ s.Loses message) :
    (s.step message).Kept b (done ++ [message]) := by
  obtain ⟨before, last, text, hbrought⟩ := hs.brought hmerges
  have hnocalls : s.lastMessage.parseToolCalls = [] := by
    by_contra hcalls
    exact hloses ⟨hmerges, Or.inl hcalls⟩
  have hnotquoted : trimQuotes (last ++ " " ++ text) = last ++ " " ++ text := by
    by_contra hquoted
    refine hloses ⟨hmerges, Or.inr ?_⟩
    rw [hbrought.joined_eq]
    exact hquoted
  have hlastsaid : s.lastMessage.said = [.text last] := by
    have hnone : s.lastMessage.saidCalls = [] := by
      unfold saidCalls
      rw [hnocalls]
      exact ite_self _
    rw [hbrought.said_last, hnone, append_nil]
  have hfmtsaid : (s.fmt message).said = [.text (last ++ " " ++ text)] ++ message.saidCalls := by
    have hne : last ++ " " ++ text ≠ "" := append_space_ne_empty last text
    have hfull : ({ fmtMessage message with content := .string (last ++ " " ++ text) } : Message String).content ≠
        .string "" := fun heq => hne (MessageContent.string.inj heq)
    have hnodots : withDots { fmtMessage message with content := .string (last ++ " " ++ text) } =
        { fmtMessage message with content := .string (last ++ " " ++ text) } := by
      unfold withDots
      refine if_neg ?_
      rintro (habsent | hempty)
      · cases habsent
      · exact hfull hempty
    unfold fmt
    rw [if_pos hmerges, hbrought.mergedText_eq, hnotquoted, hnodots, said_with_text hbrought.notTool, if_neg hne]
  have hlast : decide (s.lastMessage.role = "system") = b := by
    rw [hbrought.role]
    exact hb
  have hfmt : decide ((s.fmt message).role = "system") = b := by
    rw [role_fmt]
    exact hb
  unfold FormatState.Kept at h ⊢
  rw [hbrought.list, ofSystem_concat, if_pos hlast, flatMap_concat_said, hlastsaid] at h
  rw [step_eq, if_pos hmerges, hbrought.list, dropLast_concat, ofSystem_concat, ofSystem_concat, if_pos hb,
    if_pos hfmt, flatMap_concat_said, flatMap_concat_said, hfmtsaid, hbrought.said_message, ← append_assoc,
    ← append_assoc]
  obtain ⟨hwith, hwithout⟩ := h.join " " text
  by_cases htext : text = ""
  · rw [if_pos htext, append_nil]
    exact hwithout.append (Covers.refl _)
  · rw [if_neg htext]
    exact hwith.append (Covers.refl _)

/-- A step that loses nothing keeps all that was said. -/
theorem kept_step {b : Bool} (hs : s.Coherent) (h : s.Kept b done) (hloses : ¬ s.Loses message) :
    (s.step message).Kept b (done ++ [message]) := by
  by_cases hb : decide (message.role = "system") = b
  · by_cases hmerges : merges s.lastMessage message = true
    · exact kept_merged hs h hb hmerges hloses
    · have hfmt : s.fmt message = withDots (fmtMessage message) := by
        unfold fmt
        rw [if_neg hmerges]
      have hcovers : Covers message.said (s.fmt message).said := by
        rw [hfmt, ← said_fmtMessage message]
        exact covers_withDots (fmtMessage message)
      have hkind : decide ((s.fmt message).role = "system") = b := by
        rw [role_fmt]
        exact hb
      unfold FormatState.Kept at h ⊢
      rw [step_eq, if_neg hmerges, ofSystem_concat, ofSystem_concat, if_pos hb, if_pos hkind, flatMap_concat_said,
        flatMap_concat_said]
      exact h.append hcovers
  · exact kept_other hs h hb

theorem kept_run {b : Bool} (messages : List (Message String)) :
    ∀ {s : FormatState} {done : List (Message String)}, s.Coherent → s.Kept b done → s.Lossless messages →
      (messages.foldl step s).Kept b (done ++ messages) := by
  induction messages with
  | nil =>
    intro s done _ h _
    rwa [append_nil]
  | cons message _ ih =>
    intro s done hs h hlossless
    obtain ⟨hloses, hrest⟩ := hlossless
    have := ih (FormatState.Coherent.step message) (kept_step hs h hloses) hrest
    rwa [append_assoc] at this

/-! ## Counting -/

/-- The quotation marks of a text. -/
def quotes (text : String) : ℕ := text.toList.countP isQuote

/-- A call counts one, a text as many as it has quotation marks. -/
def Said.weight : Said → ℕ
  | .text t => quotes t
  | .call _ _ => 1
  | .result _ => 0

def weight (said : List Said) : ℕ := (said.map Said.weight).sum

theorem weight_append (a b : List Said) : weight (a ++ b) = weight a + weight b := by
  unfold weight
  rw [map_append, sum_append]

theorem weight_cons (said : Said) (l : List Said) : weight (said :: l) = said.weight + weight l := rfl

theorem weight_singleton (said : Said) : weight [said] = said.weight := Nat.add_zero _

theorem quotes_append (a b : String) : quotes (a ++ b) = quotes a + quotes b := by
  unfold quotes
  rw [String.toList_append, countP_append]

theorem weight_within (h : Within ts t) : weight (ts.map Said.text) ≤ quotes t := by
  induction ts generalizing t with
  | nil => exact Nat.zero_le _
  | cons a _ ih =>
    obtain ⟨before, rest, rfl, hts⟩ := h
    have hrest := ih hts
    rw [map_cons, weight_cons, quotes_append, quotes_append]
    have hweight : (Said.text a).weight = quotes a := rfl
    omega

theorem weight_fits {part : List Said} {said : Said} (h : Fits part said) : weight part ≤ said.weight := by
  cases said with
  | text =>
    obtain ⟨ts, rfl, hts⟩ := h
    exact weight_within hts
  | call id name =>
    have hpart : part = [.call id name] := h
    rw [hpart]
    exact le_refl _
  | result id =>
    have hpart : part = [.result id] := h
    rw [hpart]
    exact le_refl _

/-- What covers a list has at least its calls and its quotation marks. -/
theorem Covers.weight_le (h : Covers ins outs) : weight ins ≤ weight outs := by
  induction h with
  | nil => exact le_refl _
  | cons hfits =>
    have hpart := weight_fits hfits
    rw [weight_append, weight_cons]
    omega

theorem countP_dropWhile_le (p : Char → Bool) (l : List Char) : (l.dropWhile p).countP p ≤ l.countP p :=
  (dropWhile_sublist p).countP_le

theorem countP_dropWhile_lt {p : Char → Bool} {l : List Char} (h : l.dropWhile p ≠ l) :
    (l.dropWhile p).countP p < l.countP p := by
  cases l with
  | nil => exact absurd rfl h
  | cons c l =>
    by_cases hc : p c = true
    · rw [dropWhile_cons_of_pos hc, countP_cons_of_pos hc]
      exact Nat.lt_succ_of_le (countP_dropWhile_le p l)
    · exact absurd (dropWhile_cons_of_neg hc) h

theorem countP_trim (l : List Char) :
    (((l.dropWhile isQuote).reverse.dropWhile isQuote).reverse).countP isQuote ≤ l.countP isQuote := by
  rw [countP_reverse]
  calc ((l.dropWhile isQuote).reverse.dropWhile isQuote).countP isQuote
      ≤ ((l.dropWhile isQuote).reverse).countP isQuote := countP_dropWhile_le _ _
    _ = (l.dropWhile isQuote).countP isQuote := countP_reverse
    _ ≤ l.countP isQuote := countP_dropWhile_le _ _

theorem quotes_trimQuotes_le (text : String) : quotes (trimQuotes text) ≤ quotes text := by
  unfold quotes trimQuotes
  rw [String.toList_ofList]
  exact countP_trim _

/-- What is trimmed are quotation marks. -/
theorem quotes_trimQuotes_lt {text : String} (h : Quoted text) : quotes (trimQuotes text) < quotes text := by
  unfold quotes trimQuotes
  rw [String.toList_ofList, countP_reverse]
  by_cases hstart : text.toList.dropWhile isQuote = text.toList
  · have hend : text.toList.reverse.dropWhile isQuote ≠ text.toList.reverse := by
      intro hend
      apply h
      unfold trimQuotes
      rw [hstart, hend, reverse_reverse, String.ofList_toList]
    rw [hstart]
    have hlt := countP_dropWhile_lt hend
    rwa [countP_reverse (l := text.toList)] at hlt
  · have hlt := countP_dropWhile_lt hstart
    have hle := countP_dropWhile_le isQuote (text.toList.dropWhile isQuote).reverse
    rw [countP_reverse (l := text.toList.dropWhile isQuote)] at hle
    omega

theorem weight_withDots (m : Message String) : weight (withDots m).said = weight m.said := by
  rcases said_withDots m with hsame | ⟨htool, htexts, hdots⟩
  · rw [hsame]
  · have hnone : weight [Said.text "..."] = 0 := by decide
    rw [hdots, said_of_ne_tool htool, htexts, weight_append, hnone, Nat.zero_add]
    rfl

theorem weight_saidCalls (h : m.parseToolCalls ≠ []) (hrole : m.role = "assistant") : 0 < weight m.saidCalls := by
  unfold saidCalls
  rw [if_pos hrole]
  cases hcalls : m.parseToolCalls with
  | nil => exact absurd hcalls h
  | cons tc =>
    rw [map_cons, weight_cons]
    have hone : tc.said.weight = 1 := rfl
    omega

/-- What is counted of the list of the walk. -/
def FormatState.weight (s : FormatState) : ℕ := Convert.weight (s.formatMessages.flatMap said)

theorem weight_if_text (t : String) : weight (if t = "" then [] else [Said.text t]) = quotes t := by
  by_cases ht : t = ""
  · rw [if_pos ht, ht]
    rfl
  · rw [if_neg ht]
    exact weight_singleton _

/-- No step makes calls or quotation marks, and one that loses something has fewer. -/
theorem weight_step (hs : s.Coherent) (message : Message String) :
    (s.step message).weight ≤ s.weight + weight message.said ∧
      (s.Loses message → (s.step message).weight < s.weight + weight message.said) := by
  by_cases hmerges : merges s.lastMessage message = true
  · obtain ⟨before, last, text, hbrought⟩ := hs.brought hmerges
    have hnew : (s.step message).weight = weight (before.flatMap said) +
          (quotes (trimQuotes (last ++ " " ++ text)) + weight message.saidCalls) := by
      unfold FormatState.weight
      rw [step_eq, if_pos hmerges, hbrought.list, dropLast_concat, flatMap_concat_said, weight_append]
      unfold fmt
      rw [if_pos hmerges, weight_withDots, hbrought.mergedText_eq, said_with_text hbrought.notTool, weight_append,
        weight_if_text]
    have hold : s.weight = weight (before.flatMap said) + (quotes last + weight s.lastMessage.saidCalls) := by
      unfold FormatState.weight
      rw [hbrought.list, flatMap_concat_said, weight_append, hbrought.said_last, weight_append, weight_singleton]
      rfl
    have hmessage : weight message.said = quotes text + weight message.saidCalls := by
      rw [hbrought.said_message, weight_append, weight_if_text]
    have hspace : quotes " " = 0 := by decide
    have hjoined : quotes (last ++ " " ++ text) = quotes last + quotes text := by
      rw [quotes_append, quotes_append, hspace, Nat.add_zero]
    have htrim := quotes_trimQuotes_le (last ++ " " ++ text)
    rw [hnew, hold, hmessage]
    constructor
    · omega
    · rintro ⟨_, hcalls | hquoted⟩
      · have hpos := weight_saidCalls hcalls (hs.calls hcalls)
        omega
      · rw [hbrought.joined_eq] at hquoted
        have hlt := quotes_trimQuotes_lt hquoted
        omega
  · have hequal : (s.step message).weight = s.weight + weight message.said := by
      unfold FormatState.weight
      rw [step_eq, if_neg hmerges, flatMap_concat_said, weight_append]
      unfold fmt
      rw [if_neg hmerges, weight_withDots, said_fmtMessage]
    exact ⟨hequal.le, fun hloses => absurd hloses.1 hmerges⟩

/-- A walk that loses something ends with less than was there. -/
theorem weight_run (messages : List (Message String)) : ∀ {s : FormatState}, s.Coherent →
      (messages.foldl step s).weight ≤ s.weight + weight (messages.flatMap said) ∧ (¬ s.Lossless messages →
          (messages.foldl step s).weight < s.weight + weight (messages.flatMap said)) := by
  induction messages with
  | nil =>
    intro s _
    exact ⟨Nat.le_add_right _ _, fun h => absurd trivial h⟩
  | cons message rest ih =>
    intro s hs
    obtain ⟨hle, hlt⟩ := weight_step hs message
    obtain ⟨hrestle, hrestlt⟩ := ih (FormatState.Coherent.step (s := s) message)
    rw [flatMap_cons, weight_append, foldl_cons]
    constructor
    · omega
    · intro hlossy
      by_cases hloses : s.Loses message
      · have := hlt hloses
        omega
      · have hrest : ¬ (s.step message).Lossless rest := fun hrest => hlossy ⟨hloses, hrest⟩
        have := hrestlt hrest
        omega

theorem weight_ofSystem (messages : List (Message String)) :
    weight ((ofSystem false messages).flatMap said) + weight ((ofSystem true messages).flatMap said) =
      weight (messages.flatMap said) := by
  induction messages with
  | nil => rfl
  | cons m _ ih =>
    unfold ofSystem at ih ⊢
    rw [filter_cons, filter_cons, flatMap_cons, weight_append]
    by_cases h : m.role = "system"
    · simp only [h, decide_true, Bool.true_eq_false, decide_false, Bool.false_eq_true, if_false, if_true,
        flatMap_cons, weight_append]
      omega
    · simp only [h, decide_false, decide_true, Bool.false_eq_true, if_false, if_true, flatMap_cons, weight_append]
      omega

/-! ## What the first walk keeps -/

/-- All that was said is said in the list the walk makes, if no step loses anything. -/
theorem kept_of_lossless {messages : List (Message String)} (h : FormatState.Lossless {} messages) (b : Bool) :
    Covers ((ofSystem b messages).flatMap said) ((ofSystem b (formatMessages messages)).flatMap said) := by
  have hstart : FormatState.Kept {} b [] := Covers.nil
  exact kept_run messages coherent_start hstart h

/-- If a step loses something, it is missing among the messages of the system or among the others. -/
theorem lossless_of_weight {messages : List (Message String)} (h : ∀ b, weight ((ofSystem b messages).flatMap said) ≤
      weight ((ofSystem b (formatMessages messages)).flatMap said)) : FormatState.Lossless {} messages := by
  by_contra hlossy
  have hlt := (weight_run messages coherent_start).2 hlossy
  have hothers := h false
  have hsystem := h true
  have hin := weight_ofSystem messages
  have hout := weight_ofSystem (formatMessages messages)
  have hnothing : (({} : FormatState)).weight = 0 := rfl
  have hweight : (messages.foldl step {}).weight = weight ((formatMessages messages).flatMap said) := rfl
  omega

end NovaMaas.Convert
