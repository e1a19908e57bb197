/-
  A message of the Anthropic API, whole and streamed, as a chat completion.

  A message is a list of PIECES: texts, thoughts and calls of tools, each cut into the fragments in which it is streamed.
  `wholeAnswer` is the message as one answer, `answerEvents` the events of it.  What a client puts together from the
  chunks of the events has every fragment; the whole answer has the text of the last text block only, and the thinking
  of the last thinking block or, where that is empty, of the very first block.  So the two agree exactly when nothing
  else is there to be lost.
-/
import NovaMaas.Convert.ClaudeAnswer

open List Option

namespace NovaMaas.Convert

open Gather

variable {J : Type} [Inhabited J]

/-- A block of a message and the fragments in which it is streamed. -/
inductive ClaudePiece (J : Type) where
  | text (fragments : List String)
  | thinking (fragments : List String)
  | toolUse (id name : String) (input : J) (fragments : List String)

namespace ClaudePiece

/-- The block as a whole. -/
def block : ClaudePiece J → ClaudeMediaMessage J
  | .text fragments => { type := .text, text := some (joined fragments), input := default, content := .string "" }
  | .thinking fragments =>
    { type := .thinking, thinking := some (joined fragments), input := default, content := .string "" }
  | .toolUse id name input _ => { type := .toolUse, id := id, name := name, input := input, content := .string "" }

/-- The block as it is started. -/
def started : ClaudePiece J → ClaudeMediaMessage J
  | .text _ => { type := .text, text := some "", input := default, content := .string "" }
  | .thinking _ => { type := .thinking, thinking := some "", input := default, content := .string "" }
  | .toolUse id name _ _ => { type := .toolUse, id := id, name := name, input := default, content := .string "" }

def fragments : ClaudePiece J → List String
  | .text fragments => fragments
  | .thinking fragments => fragments
  | .toolUse _ _ _ fragments => fragments

/-- The delta of a fragment. -/
def delta (fragment : String) : ClaudePiece J → ClaudeMediaMessage J
  | .text _ => { type := .textDelta, text := some fragment, input := default, content := .string "" }
  | .thinking _ => { type := .thinkingDelta, thinking := some fragment, input := default, content := .string "" }
  | .toolUse _ _ _ _ => { type := .inputJsonDelta, partialJson := some fragment, input := default, content := .string "" }

/-- The texts of a piece, as a list of at most one. -/
def texts : ClaudePiece J → List String
  | .text fragments => [joined fragments]
  | _ => []

def thoughts : ClaudePiece J → List String
  | .thinking fragments => [joined fragments]
  | _ => []

/-- The fragments of a call are the JSON of its input. -/
def Coded (json : JsonCodec J) : ClaudePiece J → Prop
  | .toolUse _ _ input fragments => json.parse (joined fragments) = some input
  | _ => True

/-- The events of the block at an index. -/
def events (index : ℤ) (piece : ClaudePiece J) : List (ClaudeResponse J) :=
  { type := .contentBlockStart, index := some index, contentBlock := some piece.started } ::
    (piece.fragments.map fun fragment =>
      { type := .contentBlockDelta, index := some index, delta := some (piece.delta fragment) }) ++
    [{ type := .other "content_block_stop", index := some index }]

/-- The call that is put together from the events of the block at an index. -/
def calls (index : ℤ) : ClaudePiece J → List (ℤ × ToolCallResponse)
  | .toolUse id name _ fragments =>
    [(index, { index := some index, id := id, name := name, arguments := joined fragments })]
  | _ => []

end ClaudePiece

/-- The events of the blocks, the first of which has the index `n`. -/
def blockEvents (n : ℕ) : List (ClaudePiece J) → List (ClaudeResponse J)
  | [] => []
  | piece :: pieces => piece.events n ++ blockEvents (n + 1) pieces

section
variable (id model stopReason : String) (pieces : List (ClaudePiece J))

/-- The message as one answer. -/
def wholeAnswer : ClaudeResponse J :=
  { id := id, model := model, content := pieces.map ClaudePiece.block, stopReason := stopReason }

/-- The message as the events of a stream. -/
def answerEvents : List (ClaudeResponse J) :=
  { type := .messageStart
    message := some { type := .other "message", id := id, model := model, input := default, content := .string "" } } ::
    blockEvents 0 pieces ++
    [{ type := .messageDelta, delta := some { type := .other "", stopReason := some stopReason, input := default,
                                              content := .string "" } },
      { type := .messageStop }]

end

def textsOf (pieces : List (ClaudePiece J)) : List String := pieces.flatMap ClaudePiece.texts

def thoughtsOf (pieces : List (ClaudePiece J)) : List String := pieces.flatMap ClaudePiece.thoughts

/-- The calls that are put together, the first block having the index `n`. -/
def callsFrom (n : ℕ) : List (ClaudePiece J) → List (ℤ × ToolCallResponse)
  | [] => []
  | piece :: pieces => piece.calls n ++ callsFrom (n + 1) pieces

/-! ## The stream -/

/-- The events give chunks that take what was put together from `acc` to `acc'`. -/
def Yields (events : List (ClaudeResponse J)) (acc acc' : ChatAccumulated) : Prop :=
  ∃ chunks, claudeStreamChunks events = .ok chunks ∧ acc.addAll chunks = acc'

omit [Inhabited J] in
theorem Yields.nil (acc : ChatAccumulated) : Yields ([] : List (ClaudeResponse J)) acc acc := ⟨[], rfl, rfl⟩

open ChatAccumulated

omit [Inhabited J] in
theorem Yields.cons {event : ClaudeResponse J} {events : List (ClaudeResponse J)} {acc acc' : ChatAccumulated}
    {choice : Option Choice} (hchoice : claudeEventChoice event = .ok choice)
    (h : Yields events (choice.elim acc acc.addChoice) acc') : Yields (event :: events) acc acc' := by
  obtain ⟨chunks, hchunks, hacc⟩ := h
  unfold Yields
  simp only [claudeStreamChunks, streamResponseClaude2OpenAI, hchoice, hchunks]
  refine ⟨_, rfl, ?_⟩
  rw [addAll_append]
  cases choice with
  | none => exact hacc
  | some =>
    rw [← hacc]
    congr 1
    by_cases hstart : event.type = .messageStart <;> simp [hstart, addAll, add]

omit [Inhabited J] in
theorem Yields.append {es fs : List (ClaudeResponse J)} {acc acc' acc'' : ChatAccumulated} (h : Yields es acc acc')
    (h' : Yields fs acc' acc'') : Yields (es ++ fs) acc acc'' := by
  obtain ⟨chunks, hchunks, hacc⟩ := h
  obtain ⟨chunks', hchunks', hacc'⟩ := h'
  refine ⟨chunks ++ chunks', ?_, by rw [addAll_append, hacc, hacc']⟩
  clear hacc hacc'
  induction es generalizing chunks with
  | nil =>
    obtain rfl : [] = chunks := Except.ok.inj hchunks
    exact hchunks'
  | cons e es ih =>
    rw [cons_append]
    simp only [claudeStreamChunks] at hchunks ⊢
    cases he : streamResponseClaude2OpenAI e with
    | error =>
      rw [he] at hchunks
      cases hchunks
    | ok chunk =>
      rw [he] at hchunks
      cases hes : claudeStreamChunks es with
      | error =>
        rw [hes] at hchunks
        cases hchunks
      | ok rest =>
        rw [hes] at hchunks
        obtain rfl : chunk.toList ++ rest = chunks := Except.ok.inj hchunks
        rw [ih rest hes, append_assoc]
        rfl

/-- The deltas of a text block, or of a thinking block. -/
theorem yields_words (index : ℤ) (piece : ClaudePiece J) (hpiece : piece.calls index = []) (fragments : List String)
    (acc : ChatAccumulated) :
    Yields (fragments.map fun fragment =>
        { type := .contentBlockDelta, index := some index, delta := some (piece.delta fragment) }) acc
      { acc with
        text := acc.text ++ (if piece.texts ≠ [] then joined fragments else "")
        reasoning := acc.reasoning ++ (if piece.thoughts ≠ [] then joined fragments else "") } := by
  induction fragments generalizing acc with
  | nil =>
    refine ⟨[], rfl, ?_⟩
    simp [addAll]
  | cons fragment _ ih =>
    cases piece with
    | text =>
      refine Yields.cons (show claudeEventChoice _ = .ok (some { content := some fragment }) from rfl) ?_
      rw [elim_some, addChoice_words _ rfl]
      have := ih { acc with text := acc.text ++ fragment }
      simpa [ClaudePiece.texts, ClaudePiece.thoughts, Choice.getContentString, Choice.getReasoningContent,
        String.append_assoc] using this
    | thinking =>
      refine Yields.cons (show claudeEventChoice _ = .ok (some { reasoningContent := some fragment }) from rfl) ?_
      rw [elim_some, addChoice_words _ rfl]
      have := ih { acc with reasoning := acc.reasoning ++ fragment }
      simpa [ClaudePiece.texts, ClaudePiece.thoughts, Choice.getContentString, Choice.getReasoningContent,
        String.append_assoc] using this
    | toolUse => cases hpiece

/-- The deltas of a call go to the call that was opened last. -/
theorem yields_input (index : ℤ) (piece : ClaudePiece J) (hpiece : piece.calls index ≠ []) (fragments : List String)
    (call : ToolCallResponse) (calls : List (ℤ × ToolCallResponse)) (hcalls : ∀ p ∈ calls, p.1 ≠ index)
    (acc : ChatAccumulated) (hacc : acc.calls = calls ++ [(index, call)]) :
    Yields (fragments.map fun fragment =>
        { type := .contentBlockDelta, index := some index, delta := some (piece.delta fragment) }) acc
      { acc with calls := calls ++ [(index, { call with arguments := call.arguments ++ joined fragments })] } := by
  induction fragments generalizing acc call with
  | nil =>
    refine ⟨[], rfl, ?_⟩
    simp [addAll, ← hacc]
  | cons fragment _ ih =>
    cases piece with
    | text | thinking => exact absurd rfl hpiece
    | toolUse =>
      refine Yields.cons (show claudeEventChoice _ = .ok (some
        { toolCalls := [{ index := some index, arguments := fragment }] }) from rfl) ?_
      rw [elim_some, acc.addChoice_call index { arguments := fragment }, hacc, addFragment_last _ call hcalls]
      have hsame : ∀ s : String, (if s = "" then "" else s) = s := by
        intro s
        split
        · next h => exact h.symm
        · rfl
      have := ih { call with arguments := call.arguments ++ fragment }
        { acc with calls := calls ++ [(index, { call with arguments := call.arguments ++ fragment })] } rfl
      simpa [String.append_assoc, hsame] using this

/-- What the events of a block add. -/
theorem yields_events (index : ℤ) (piece : ClaudePiece J) (acc : ChatAccumulated)
    (hacc : ∀ p ∈ acc.calls, p.1 ≠ index) :
    Yields (piece.events index) acc
      { acc with
        text := acc.text ++ joined piece.texts
        reasoning := acc.reasoning ++ joined piece.thoughts
        calls := acc.calls ++ piece.calls index } := by
  have hstop : ∀ acc : ChatAccumulated,
      Yields [({ type := .other "content_block_stop", index := some index } : ClaudeResponse J)] acc acc := fun acc =>
    Yields.cons (show claudeEventChoice _ = .ok none from rfl) (Yields.nil acc)
  cases piece with
  | text fragments =>
    have hwords := yields_words index (ClaudePiece.text fragments : ClaudePiece J) rfl fragments acc
    refine Yields.cons (show claudeEventChoice _ = .ok (some { content := some "" }) from rfl) ?_
    rw [elim_some, addChoice_words _ rfl]
    simpa [ClaudePiece.texts, ClaudePiece.thoughts, ClaudePiece.calls, ClaudePiece.fragments,
      Choice.getContentString, Choice.getReasoningContent] using hwords.append (hstop _)
  | thinking fragments =>
    have hwords := yields_words index (ClaudePiece.thinking fragments : ClaudePiece J) rfl fragments acc
    refine Yields.cons (show claudeEventChoice _ = .ok (some {}) from rfl) ?_
    rw [elim_some, addChoice_words _ rfl]
    simpa [ClaudePiece.texts, ClaudePiece.thoughts, ClaudePiece.calls, ClaudePiece.fragments,
      Choice.getContentString, Choice.getReasoningContent] using hwords.append (hstop _)
  | toolUse id name input fragments =>
    refine Yields.cons (show claudeEventChoice _ = .ok (some
      { toolCalls := [{ index := some index, id := id, name := name, arguments := "" }] }) from rfl) ?_
    rw [elim_some, acc.addChoice_call index { id := id, name := name }, addFragment_new _ hacc]
    have hinput := yields_input index (.toolUse id name input fragments) (cons_ne_nil _ _) fragments
      { index := some index, id := id, name := name } acc.calls hacc
      { acc with calls := acc.calls ++ [(index, { index := some index, id := id, name := name })] } rfl
    simpa [ClaudePiece.texts, ClaudePiece.thoughts, ClaudePiece.calls, ClaudePiece.fragments] using hinput.append (hstop _)

omit [Inhabited J] in
theorem calls_index {index : ℤ} {piece : ClaudePiece J} {p : ℤ × ToolCallResponse} (h : p ∈ piece.calls index) :
    p.1 = index := by
  cases piece with
  | toolUse =>
    rw [ClaudePiece.calls, mem_singleton] at h
    rw [h]
  | text => cases h
  | thinking => cases h

/-- What the events of some blocks add, if the calls so far are of blocks before them. -/
theorem yields_blockEvents (pieces : List (ClaudePiece J)) (n : ℕ) (acc : ChatAccumulated)
    (hacc : ∀ p ∈ acc.calls, p.1 < n) :
    Yields (blockEvents n pieces) acc
      { acc with
        text := acc.text ++ joined (textsOf pieces)
        reasoning := acc.reasoning ++ joined (thoughtsOf pieces)
        calls := acc.calls ++ callsFrom n pieces } := by
  induction pieces generalizing n acc with
  | nil =>
    have := Yields.nil (J := J) acc
    simpa [blockEvents, textsOf, thoughtsOf, callsFrom] using this
  | cons piece _ ih =>
    have hone := yields_events n piece acc fun p hp => (hacc p hp).ne
    have hrest := ih (n + 1) { acc with
      text := acc.text ++ joined piece.texts
      reasoning := acc.reasoning ++ joined piece.thoughts
      calls := acc.calls ++ piece.calls n } (by
        intro p hp
        rcases mem_append.mp hp with hp | hp
        · have := hacc p hp
          push_cast
          omega
        · have := calls_index hp
          push_cast
          omega)
    have := hone.append hrest
    simpa [blockEvents, textsOf, thoughtsOf, callsFrom, joined_append, String.append_assoc] using this

/-- The finish reason that is sent for a stop reason. -/
def streamedFinish (stopReason : String) : Option String :=
  if stopReasonClaudeToOpenAI stopReason ≠ "null" then some (stopReasonClaudeToOpenAI stopReason) else none

/-- What a client puts together from the whole stream. -/
theorem yields_answerEvents (id model stopReason : String) (pieces : List (ClaudePiece J)) :
    Yields (answerEvents id model stopReason pieces) {}
      { text := joined (textsOf pieces)
        reasoning := joined (thoughtsOf pieces)
        calls := callsFrom 0 pieces
        finishReason := streamedFinish stopReason } := by
  have hblocks := yields_blockEvents pieces 0 {} (by intro p hp; cases hp)
  have hend : ∀ acc : ChatAccumulated, acc.finishReason = none → Yields (J := J)
      [{ type := .messageDelta, delta := some { type := .other "", stopReason := some stopReason, input := default,
                                                content := .string "" } },
        { type := .messageStop }] acc
      { acc with finishReason := streamedFinish stopReason } := by
    intro acc hnone
    refine Yields.cons (show claudeEventChoice _ = .ok (some (messageDeltaChoice _)) from rfl) ?_
    refine Yields.cons (show claudeEventChoice _ = .ok none from rfl) ?_
    have hadd : ∀ r : Option String, acc.addChoice { finishReason := r } = { acc with finishReason := r } := by
      intro r
      rw [addChoice_words _ rfl, hnone]
      simp [Choice.getContentString, Choice.getReasoningContent]
    have hchoice : messageDeltaChoice (J := J)
        { type := .messageDelta, delta := some { type := .other "", stopReason := some stopReason, input := default,
                                                 content := .string "" } } =
        { finishReason := streamedFinish stopReason } := by
      simp only [messageDeltaChoice, bind_some, streamedFinish]
      split <;> rfl
    rw [hchoice, elim_some, elim_none, hadd]
    exact Yields.nil _
  refine Yields.cons (show claudeEventChoice _ = .ok (some { content := some "" }) from rfl) ?_
  rw [elim_some, addChoice_words _ rfl]
  have := hblocks.append (hend _ rfl)
  simpa [Choice.getContentString, Choice.getReasoningContent] using this

/-! ## The whole answer -/

section
variable (json : JsonCodec J)

/-- The calls of the whole answer. -/
def wholeCalls (pieces : List (ClaudePiece J)) : List (ToolCallRequest String) :=
  pieces.filterMap fun piece => match piece with
    | .toolUse id name input _ =>
      some { id := id, type := "function", name := name, arguments := json.marshal input, custom := "" }
    | _ => none

/-- The walk keeps the last text and the last thought. -/
theorem walk_blocks (pieces : List (ClaudePiece J)) (walk : ClaudeWalk) :
    (pieces.map ClaudePiece.block).foldl (ClaudeWalk.step json) walk =
      { responseText := (textsOf pieces).getLastD walk.responseText
        thinkingContent := (thoughtsOf pieces).getLastD walk.thinkingContent
        tools := walk.tools ++ wholeCalls json pieces } := by
  induction pieces generalizing walk with
  | nil => simp [textsOf, thoughtsOf, wholeCalls]
  | cons piece _ ih =>
    rw [map_cons, foldl_cons, ih]
    cases piece <;>
      simp [textsOf, thoughtsOf, wholeCalls, ClaudePiece.texts, ClaudePiece.thoughts, ClaudePiece.block, ClaudeWalk.step,
        ClaudeMediaMessage.getText, getLast?_cons]

/-- The thinking of the first block, if it is a thinking block. -/
def firstThought (pieces : List (ClaudePiece J)) : String := joined (thoughtsOf pieces.head?.toList)

theorem getLastD_texts (pieces : List (ClaudePiece J)) :
    (textsOf pieces).getLastD (((pieces.map ClaudePiece.block).head?.map ClaudeMediaMessage.getText).getD "") =
      (textsOf pieces).getLastD "" := by
  cases pieces with
  | nil => rfl
  | cons piece =>
    cases piece <;>
      simp [textsOf, ClaudePiece.texts, ClaudePiece.block, ClaudeMediaMessage.getText, getLast?_cons]

theorem first_thinking (pieces : List (ClaudePiece J)) :
    ((pieces.map ClaudePiece.block).head?.bind ClaudeMediaMessage.thinking).getD "" = firstThought pieces := by
  cases pieces with
  | nil => rfl
  | cons piece => cases piece <;> simp [firstThought, thoughtsOf, ClaudePiece.thoughts, ClaudePiece.block]

/-- The thinking of the whole answer. -/
def wholeThinking (pieces : List (ClaudePiece J)) : String :=
  if (thoughtsOf pieces).getLastD "" ≠ "" then (thoughtsOf pieces).getLastD "" else firstThought pieces

/-- What the whole answer is converted to. -/
theorem responseClaude_wholeAnswer (created : ℤ) (id model stopReason : String) (pieces : List (ClaudePiece J)) :
    ∃ choice, (responseClaude2OpenAI json created (wholeAnswer id model stopReason pieces)).choices = [choice] ∧
      choice.message.stringContent = (textsOf pieces).getLastD "" ∧
      choice.message.getReasoningContent = wholeThinking pieces ∧
      choice.message.parseToolCalls = wholeCalls json pieces ∧
      choice.finishReason = stopReasonClaudeToOpenAI stopReason := by
  refine ⟨_, rfl, ?_, ?_, ?_, rfl⟩
  · show (ClaudeWalk.responseText _) = _
    unfold wholeAnswer
    rw [walk_blocks, ← getLastD_texts]
  · simp only [wholeAnswer, walk_blocks, first_thinking, Message.getReasoningContent]
    unfold wholeThinking
    generalize (thoughtsOf pieces).getLastD "" = last
    by_cases hlast : last = ""
    · by_cases hfirst : firstThought pieces = ""
      · simp [hlast, hfirst]
      · simp [hlast, hfirst]
    · simp [hlast]
  · simp only [wholeAnswer, walk_blocks, Message.parseToolCalls, nil_append]
    by_cases hnil : wholeCalls json pieces = []
    · simp [hnil]
    · simp [hnil]

end

/-! ## Agreement -/

theorem joined_eq_empty {l : List String} : joined l = "" ↔ ∀ s ∈ l, s = "" := by
  induction l with
  | nil => simp
  | cons _ _ ih => simp [ih]

/-- The last of some texts is all of them together exactly when the others are empty. -/
theorem joined_eq_getLastD (l : List String) : joined l = l.getLastD "" ↔ ∀ s ∈ l.dropLast, s = "" := by
  rcases eq_nil_or_concat l with rfl | ⟨init, last, rfl⟩
  · simp
  · rw [← joined_eq_empty]
    simp [joined_append]

/-- All thoughts but the last are empty; or the last is, and with it all that do not belong to the first block. -/
def ThoughtsKept (pieces : List (ClaudePiece J)) : Prop :=
  (∀ s ∈ (thoughtsOf pieces).dropLast, s = "") ∨
    ((thoughtsOf pieces).getLastD "" = "" ∧ ∀ s ∈ thoughtsOf pieces.tail, s = "")

omit [Inhabited J] in
theorem wholeThinking_iff (pieces : List (ClaudePiece J)) :
    wholeThinking pieces = joined (thoughtsOf pieces) ↔ ThoughtsKept pieces := by
  unfold wholeThinking ThoughtsKept
  rw [← joined_eq_getLastD]
  by_cases hlast : (thoughtsOf pieces).getLastD "" = ""
  · have hsplit : joined (thoughtsOf pieces) = firstThought pieces ++ joined (thoughtsOf pieces.tail) := by
      unfold firstThought
      rw [← joined_append]
      cases pieces <;> simp [thoughtsOf]
    rw [if_neg (not_not.2 hlast), hlast, ← joined_eq_empty, hsplit]
    constructor
    · intro h
      refine Or.inr ⟨rfl, ?_⟩
      have hlen := congrArg String.length h
      rw [String.length_append] at hlen
      exact String.length_eq_zero_iff.1 (by omega)
    · rintro (h | ⟨-, h⟩)
      · have hlen := congrArg String.length h
        rw [String.length_append, String.length_empty] at hlen
        have hfirst : firstThought pieces = "" := String.length_eq_zero_iff.1 (by omega)
        have hrest : joined (thoughtsOf pieces.tail) = "" := String.length_eq_zero_iff.1 (by omega)
        rw [hfirst, hrest]
        rfl
      · rw [h]
        simp
  · rw [if_pos hlast]
    constructor
    · intro h
      exact Or.inl h.symm
    · rintro (h | ⟨h, -⟩)
      · exact h.symm
      · exact absurd h hlast

/-- A call of the one has the id, the name and the arguments, as JSON values, of a call of the other. -/
def SameCall (json : JsonCodec J) (call : ToolCallRequest String) (p : ℤ × ToolCallResponse) : Prop :=
  call.id = p.2.id ∧ call.name = p.2.name ∧
    ∃ v, json.parse call.arguments = some v ∧ json.parse p.2.arguments = some v

/-- The choice of a whole answer says what was put together from a stream. -/
structure SameAnswer (json : JsonCodec J) (choice : OpenAITextResponseChoice String) (acc : ChatAccumulated) : Prop where
  text         : choice.message.stringContent = acc.text
  reasoning    : choice.message.getReasoningContent = acc.reasoning
  calls        : List.Forall₂ (SameCall json) choice.message.parseToolCalls acc.calls
  finishReason : some choice.finishReason = acc.finishReason

omit [Inhabited J] in
theorem sameCalls (json : JsonCodec J) {pieces : List (ClaudePiece J)} (h : ∀ piece ∈ pieces, piece.Coded json) (n : ℕ) :
    List.Forall₂ (SameCall json) (wholeCalls json pieces) (callsFrom n pieces) := by
  induction pieces generalizing n with
  | nil => exact .nil
  | cons piece _ ih =>
    have hpiece := h piece mem_cons_self
    have hrest := ih (fun piece hp => h piece (mem_cons_of_mem _ hp)) (n + 1)
    cases piece with
    | text => exact hrest
    | thinking => exact hrest
    | toolUse _ _ input =>
      exact .cons ⟨rfl, rfl, input, json.parse_marshal input, hpiece⟩ hrest

theorem stopReason_null (stopReason : String) : stopReasonClaudeToOpenAI stopReason = "null" ↔ stopReason = "null" := by
  constructor
  · intro h
    unfold stopReasonClaudeToOpenAI at h
    split at h
    all_goals first | exact absurd h (by decide) | exact h
  · rintro rfl
    decide +kernel

theorem streamedFinish_iff (stopReason : String) :
    some (stopReasonClaudeToOpenAI stopReason) = streamedFinish stopReason ↔ stopReason ≠ "null" := by
  rw [Ne, ← stopReason_null]
  unfold streamedFinish
  by_cases h : stopReasonClaudeToOpenAI stopReason = "null" <;> simp [h]

/-- The message that is put together from the stream is the one the whole answer is converted to exactly when every text
but the last is empty, no thought is lost, and the stop reason is not the word `null`. -/
theorem claude_stream_agrees_iff (json : JsonCodec J) (created : ℤ) (id model stopReason : String)
    {pieces : List (ClaudePiece J)} (hcoded : ∀ piece ∈ pieces, piece.Coded json) :
    (∃ choice acc, (responseClaude2OpenAI json created (wholeAnswer id model stopReason pieces)).choices = [choice] ∧
      Yields (answerEvents id model stopReason pieces) {} acc ∧ SameAnswer json choice acc) ↔
    (∀ s ∈ (textsOf pieces).dropLast, s = "") ∧ ThoughtsKept pieces ∧ stopReason ≠ "null" := by
  obtain ⟨choice, hchoice, htext, hreasoning, hcalls, hfinish⟩ :=
    responseClaude_wholeAnswer json created id model stopReason pieces
  obtain ⟨chunks, hchunks, hacc⟩ := yields_answerEvents id model stopReason pieces
  rw [← joined_eq_getLastD, ← wholeThinking_iff, ← streamedFinish_iff]
  constructor
  · rintro ⟨choice', acc, hchoice', ⟨chunks', hchunks', hacc'⟩, hsame⟩
    obtain rfl : choice = choice' := singleton_inj.1 (hchoice.symm.trans hchoice')
    obtain rfl : chunks = chunks' := Except.ok.inj (hchunks.symm.trans hchunks')
    obtain rfl := hacc'.symm.trans hacc
    refine ⟨?_, ?_, ?_⟩
    · rw [← htext]
      exact hsame.text.symm
    · rw [← hreasoning]
      exact hsame.reasoning
    · rw [← hfinish]
      exact hsame.finishReason
  · rintro ⟨h, h', h''⟩
    refine ⟨choice, _, hchoice, ⟨chunks, hchunks, hacc⟩, ?_, ?_, ?_, ?_⟩
    · rw [htext, h]
    · rw [hreasoning, h']
    · rw [hcalls]
      exact sameCalls json hcoded 0
    · rw [hfinish]
      exact h''

/-- A thought, a text and a call. -/
def thoughtTextCall : List (ClaudePiece String) :=
  [.thinking ["h", "m"], .text ["Hel", "lo"], .toolUse "toolu_1" "lookup" "\x7b\x7d" ["\x7b", "\x7d"]]

theorem claude_stream_agrees_thoughtTextCall : ∃ choice acc,
      (responseClaude2OpenAI compactJson 0 (wholeAnswer "msg_1" "claude" "tool_use" thoughtTextCall)).choices = [choice] ∧
        Yields (answerEvents "msg_1" "claude" "tool_use" thoughtTextCall) {} acc ∧ SameAnswer compactJson choice acc := by
  have hcoded : ∀ piece ∈ thoughtTextCall, piece.Coded compactJson := by
    intro piece hpiece
    simp only [thoughtTextCall, mem_cons, not_mem_nil, or_false] at hpiece
    rcases hpiece with rfl | rfl | rfl
    · trivial
    · trivial
    · rfl
  refine (claude_stream_agrees_iff compactJson 0 "msg_1" "claude" "tool_use" hcoded).2 ⟨?_, Or.inl ?_, by decide⟩
  · decide +kernel
  · decide +kernel

/-- Two texts, as they stand around the call of a server tool. -/
def twoTexts : List (ClaudePiece String) := [.text ["Let me look."], .text ["Here it is."]]

/-- The whole answer loses the first text. -/
theorem claude_stream_disagrees_twoTexts : (∀ piece ∈ twoTexts, piece.Coded compactJson) ∧ ¬ ∃ choice acc,
      (responseClaude2OpenAI compactJson 0 (wholeAnswer "msg_1" "claude" "end_turn" twoTexts)).choices = [choice] ∧
        Yields (answerEvents "msg_1" "claude" "end_turn" twoTexts) {} acc ∧ SameAnswer compactJson choice acc := by
  constructor
  · intro piece hpiece
    simp only [twoTexts, mem_cons, not_mem_nil, or_false] at hpiece
    rcases hpiece with rfl | rfl <;> trivial
  · rintro ⟨choice, acc, hchoice, ⟨chunks, hchunks, hacc⟩, hsame⟩
    obtain ⟨choice', hchoice', htext, -⟩ :=
      responseClaude_wholeAnswer compactJson 0 "msg_1" "claude" "end_turn" twoTexts
    obtain ⟨chunks', hchunks', hacc'⟩ := yields_answerEvents "msg_1" "claude" "end_turn" twoTexts
    obtain rfl : choice = choice' := singleton_inj.1 (hchoice.symm.trans hchoice')
    obtain rfl : chunks = chunks' := Except.ok.inj (hchunks.symm.trans hchunks')
    have hlost := hsame.text
    rw [htext, ← hacc, hacc'] at hlost
    exact absurd hlost (by decide +kernel)

end NovaMaas.Convert
