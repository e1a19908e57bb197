/-
  What the Claude converter reads of a chat stream.

  Of a stream the converter reads a sequence of PARTS: a fragment of the text, a fragment of the reasoning, or a few
  fragments of tool calls.  It does not read everything.  Of the first chunk it reads one tool call and either the
  reasoning or the text; of a later chunk the tool calls or, without any, the reasoning or, without that, the text;
  of a chunk with a finish reason that comes before the usage nothing, and of the chunks after the end nothing.
  `partsOf` says so on the chunks alone.

  `claudeStream_eq` then takes the converter apart: its stream is a message start, the parts fed one after the other,
  the stops of the blocks that are still open and the two events of the end.  What a stream is worth depends only on
  its parts from here on.
-/
import NovaMaas.Convert.ClaudeStream

open List

namespace NovaMaas.Convert

open ChatChunk

/-! ## Parts -/

inductive Part where
  /-- The tool call that the first chunk opens a block for. -/
  | firstTool (offset : ℤ) (call : ToolCallResponse)
  | tools (calls : List (ℤ × ToolCallResponse))
  | thinking (s : String)
  | text (s : String)

/-- Of the reasoning and the text the reasoning goes first, and alone. -/
def words (thinking text : String) : List Part :=
  if thinking ≠ "" then [.thinking thinking] else if text ≠ "" then [.text text] else []

namespace ChatChunk

/-- What is read of a first chunk. -/
def firstParts (c : ChatChunk) : List Part :=
  ((keyed c.toolCalls).head?.map fun (offset, call) => Part.firstTool offset call).toList ++ words c.thinking c.text

/-- What is read of another chunk, if it is read. -/
def laterParts (c : ChatChunk) : List Part :=
  if c.toolCalls ≠ [] then [.tools (keyed c.toolCalls)] else words c.thinking c.text

/-- A finish reason before the usage. -/
def deferred (c : ChatChunk) : Bool := c.finished && c.usage.isNone

/-- A first chunk that ends the stream; `preseeded` is the usage the converter was told beforehand. -/
def endsFirst (preseeded : Option Usage) (c : ChatChunk) : Bool :=
  c.finished && (c.usage <|> preseeded).isSome

/-- Another chunk that ends the stream: it has the finish reason and the usage, or only the usage. -/
def endsLater (preseeded : Option Usage) (c : ChatChunk) : Bool :=
  if c.choices = [] then (c.usage <|> preseeded).isSome else c.finished && c.usage.isSome

end ChatChunk

/-- The parts of the chunks after the first. -/
def laterPartsOf (preseeded : Option Usage) : List ChatChunk → List Part
  | [] => []
  | c :: chunks =>
    (if c.deferred then [] else c.laterParts) ++ if c.endsLater preseeded then [] else laterPartsOf preseeded chunks

/-- The parts of a stream. -/
def partsOf (preseeded : Option Usage) : List ChatChunk → List Part
  | [] => []
  | c :: chunks => c.firstParts ++ if c.endsFirst preseeded then [] else laterPartsOf preseeded chunks

/-! ## The tool calls of the parts -/

/-- All fragments of tool calls of a stream. -/
def callsOf (chunks : List ChatChunk) : List (ℤ × ToolCallResponse) := chunks.flatMap fun c => keyed c.toolCalls

/-- The calls of a part. -/
def Part.calls : Part → List (ℤ × ToolCallResponse)
  | .firstTool offset call => [(offset, call)]
  | .tools calls => calls
  | _ => []

/-- The calls of some parts. -/
def partCalls (parts : List Part) : List (ℤ × ToolCallResponse) := parts.flatMap Part.calls

variable (p : Part) (parts : List Part) (estimate : ℤ) (preseeded : Option Usage) (c : ChatChunk)
  (chunks : List ChatChunk) (n : ℕ)

theorem partCalls_cons : partCalls (p :: parts) = p.calls ++ partCalls parts :=
  flatMap_cons

/-- A part of a chunk after the first: no part has a tool call of a first chunk, and none has no tool calls. -/
def Part.Later : Part → Prop
  | .firstTool _ _ => False
  | .tools calls => calls ≠ []
  | _ => True

theorem words_later (thinking text : String) : ∀ p ∈ words thinking text, p.Later := by
  unfold words
  intro p hp
  split at hp
  · rw [mem_singleton.mp hp]
    trivial
  · split at hp
    · rw [mem_singleton.mp hp]
      trivial
    · cases hp

theorem keyed_ne_nil {calls : List ToolCallResponse} (h : calls ≠ []) : keyed calls ≠ [] := by
  cases calls with
  | nil => exact absurd rfl h
  | cons => simp [keyed, zipIdx_cons]

theorem laterParts_later : ∀ p ∈ c.laterParts, p.Later := by
  unfold laterParts
  split
  · rename_i hne
    intro p hp
    rw [mem_singleton.mp hp]
    exact keyed_ne_nil hne
  · exact words_later _ _

theorem laterPartsOf_later : ∀ p ∈ laterPartsOf preseeded chunks, p.Later := by
  induction chunks with
  | nil => simp [laterPartsOf]
  | cons c _ ih =>
    intro p hp
    rw [laterPartsOf] at hp
    rcases mem_append.mp hp with hp | hp
    · split at hp
      · cases hp
      · exact laterParts_later c p hp
    · split at hp
      · cases hp
      · exact ih p hp

/-- A stream's parts: perhaps the tool call of the first chunk, and parts like those of a later chunk. -/
theorem partsOf_cons : ∃ rest, (∀ p ∈ rest, p.Later) ∧ partsOf preseeded (c :: chunks) =
      ((keyed c.toolCalls).head?.map fun (offset, call) => Part.firstTool offset call).toList ++ rest := by
  refine ⟨words c.thinking c.text ++ if c.endsFirst preseeded then [] else laterPartsOf preseeded chunks, ?_, ?_⟩
  · intro p hp
    rcases mem_append.mp hp with hp | hp
    · exact words_later _ _ p hp
    · split at hp
      · cases hp
      · exact laterPartsOf_later _ _ p hp
  · rw [partsOf, firstParts, append_assoc]

theorem partCalls_append (ps qs : List Part) : partCalls (ps ++ qs) = partCalls ps ++ partCalls qs :=
  flatMap_append

theorem partCalls_words (thinking text : String) : partCalls (words thinking text) = [] := by
  unfold words
  split
  · rfl
  · split <;> rfl

theorem partCalls_laterParts : (partCalls c.laterParts).Sublist (keyed c.toolCalls) := by
  unfold laterParts
  split
  · show ([] ++ (keyed c.toolCalls ++ [])).Sublist _
    simp
  · rw [partCalls_words]
    exact nil_sublist _

theorem callsOf_cons : callsOf (c :: chunks) = keyed c.toolCalls ++ callsOf chunks :=
  flatMap_cons

theorem partCalls_laterPartsOf : (partCalls (laterPartsOf preseeded chunks)).Sublist (callsOf chunks) := by
  induction chunks with
  | nil => exact List.Sublist.refl _
  | cons c _ ih =>
    rw [laterPartsOf, partCalls_append, callsOf_cons]
    refine List.Sublist.append ?_ ?_
    · split
      · exact nil_sublist _
      · exact partCalls_laterParts c
    · split
      · exact nil_sublist _
      · exact ih

/-- The converter reads some of the calls, in their order. -/
theorem partCalls_partsOf : (partCalls (partsOf preseeded chunks)).Sublist (callsOf chunks) := by
  cases chunks with
  | nil => exact List.Sublist.refl _
  | cons c chunks =>
    rw [partsOf, partCalls_append, callsOf_cons]
    refine List.Sublist.append ?_ ?_
    · rw [firstParts, partCalls_append, partCalls_words, append_nil]
      cases keyed c.toolCalls with
      | nil => exact List.Sublist.refl _
      | cons a rest => exact List.Sublist.cons_cons a (nil_sublist rest)
    · split
      · exact nil_sublist _
      · exact partCalls_laterPartsOf preseeded chunks

/-! ## Feeding parts -/

def Part.feed : Part → ClaudeConvertInfo → List ClaudeEvent × ClaudeConvertInfo
  | .firstTool _ call, state => firstToolCall [call] state
  | .tools calls, state => toolCallChunk calls state
  | .thinking s, state => contentChunk .thinking .thinking (.thinkingDelta s) state
  | .text s, state => contentChunk .text .text (.textDelta s) state

def feedAll : List Part → ClaudeConvertInfo → List ClaudeEvent × ClaudeConvertInfo
  | [], state => ([], state)
  | p :: parts, state => ((p.feed state).1 ++ (feedAll parts (p.feed state).2).1, (feedAll parts (p.feed state).2).2)

theorem feedAll_append (ps qs : List Part) (state : ClaudeConvertInfo) : feedAll (ps ++ qs) state =
      ((feedAll ps state).1 ++ (feedAll qs (feedAll ps state).2).1, (feedAll qs (feedAll ps state).2).2) := by
  induction ps generalizing state with
  | nil => rfl
  | cons _ _ ih =>
    simp only [cons_append, feedAll]
    rw [ih]
    simp [append_assoc]

/-- Two states that stand at the same blocks. -/
structure SameBlocks (s t : ClaudeConvertInfo) : Prop where
  last : s.lastMessagesType = t.lastMessagesType
  index : s.index = t.index
  base : s.toolCallBaseIndex = t.toolCallBaseIndex
  offset : s.toolCallMaxIndexOffset = t.toolCallMaxIndexOffset

theorem SameBlocks.refl (s : ClaudeConvertInfo) : SameBlocks s s := ⟨rfl, rfl, rfl, rfl⟩

variable {s t : ClaudeConvertInfo}

theorem SameBlocks.stops (h : SameBlocks s t) : stopOpenBlocks s = stopOpenBlocks t := by
  unfold stopOpenBlocks
  rw [h.last, h.index, h.base, h.offset]

theorem SameBlocks.advance (h : SameBlocks s t) : SameBlocks s.advance t.advance := by
  obtain ⟨hlast, hindex, hbase, hoffset⟩ := h
  unfold ClaudeConvertInfo.advance
  rw [← hlast]
  cases hs : s.lastMessagesType with
  | none => exact ⟨hs.trans (hs.symm.trans hlast), hindex, hbase, hoffset⟩
  | text | thinking => exact ⟨rfl, by rw [hindex], hbase, hoffset⟩
  | tools => exact ⟨rfl, by rw [hbase, hoffset], rfl, rfl⟩

variable {state : ClaudeConvertInfo}

theorem contentChunk_same {type : LastMessageType} (h : state.lastMessagesType = type)
    (block : ContentBlock) (delta : BlockDelta) :
    contentChunk type block delta state =
      ([.contentBlockDelta state.index delta], { state with lastMessagesType := type }) := by
  simp [contentChunk, h]

theorem contentChunk_new {type : LastMessageType} (h : state.lastMessagesType ≠ type)
    (block : ContentBlock) (delta : BlockDelta) :
    contentChunk type block delta state =
      (stopOpenBlocks state ++ [.contentBlockStart state.advance.index block, .contentBlockDelta state.advance.index delta],
        { state.advance with lastMessagesType := type }) := by
  simp [contentChunk, stopOpenBlocksAndAdvance, h]

theorem toolCallChunk_same (h : state.lastMessagesType = .tools)
    (calls : List (ℤ × ToolCallResponse)) :
    toolCallChunk calls state = (toolCallEvents state.toolCallBaseIndex calls,
      { state with
        lastMessagesType := .tools
        toolCallMaxIndexOffset := largestOffset state.toolCallMaxIndexOffset calls
        index := state.toolCallBaseIndex + largestOffset state.toolCallMaxIndexOffset calls }) := by
  simp [toolCallChunk, h]

theorem toolCallChunk_new (h : state.lastMessagesType ≠ .tools)
    (calls : List (ℤ × ToolCallResponse)) :
    toolCallChunk calls state = (stopOpenBlocks state ++ toolCallEvents state.advance.index calls,
      { state.advance with
        lastMessagesType := .tools
        toolCallBaseIndex := state.advance.index
        toolCallMaxIndexOffset := largestOffset 0 calls
        index := state.advance.index + largestOffset 0 calls }) := by
  simp [toolCallChunk, stopOpenBlocksAndAdvance, h]

theorem SameBlocks.content (h : SameBlocks s t) (type : LastMessageType) (block : ContentBlock) (delta : BlockDelta) :
    (contentChunk type block delta s).1 = (contentChunk type block delta t).1 ∧
      SameBlocks (contentChunk type block delta s).2 (contentChunk type block delta t).2 := by
  by_cases hs : s.lastMessagesType = type
  · rw [contentChunk_same hs, contentChunk_same (h.last.symm.trans hs), h.index]
    exact ⟨rfl, rfl, rfl, h.base, h.offset⟩
  · have ht : t.lastMessagesType ≠ type := fun ht => hs (h.last.trans ht)
    have hadv := h.advance
    rw [contentChunk_new hs, contentChunk_new ht, h.stops, hadv.index]
    exact ⟨rfl, rfl, hadv.index, hadv.base, hadv.offset⟩

theorem SameBlocks.tools (h : SameBlocks s t) (calls : List (ℤ × ToolCallResponse)) :
    (toolCallChunk calls s).1 = (toolCallChunk calls t).1 ∧
      SameBlocks (toolCallChunk calls s).2 (toolCallChunk calls t).2 := by
  by_cases hs : s.lastMessagesType = .tools
  · rw [toolCallChunk_same hs, toolCallChunk_same (h.last.symm.trans hs), h.base, h.offset]
    exact ⟨rfl, rfl, rfl, rfl, rfl⟩
  · have ht : t.lastMessagesType ≠ .tools := fun ht => hs (h.last.trans ht)
    have hadv := h.advance
    rw [toolCallChunk_new hs, toolCallChunk_new ht, h.stops, hadv.index]
    exact ⟨rfl, rfl, rfl, rfl, rfl⟩

theorem SameBlocks.feed (h : SameBlocks s t) (p : Part) :
    (p.feed s).1 = (p.feed t).1 ∧ SameBlocks (p.feed s).2 (p.feed t).2 := by
  cases p with
  | firstTool => exact ⟨rfl, rfl, h.index, rfl, rfl⟩
  | tools calls => exact h.tools calls
  | thinking | text => exact h.content _ _ _

theorem SameBlocks.feedAll : ∀ {s t : ClaudeConvertInfo}, SameBlocks s t →
    (feedAll parts s).1 = (feedAll parts t).1 ∧ SameBlocks (feedAll parts s).2 (feedAll parts t).2 := by
  induction parts with
  | nil => exact fun h => ⟨rfl, h⟩
  | cons p parts ih =>
    intro s t h
    obtain ⟨hevents, hsame⟩ := h.feed p
    obtain ⟨hrest, hend⟩ := ih hsame
    refine ⟨?_, hend⟩
    show (p.feed s).1 ++ (Convert.feedAll parts (p.feed s).2).1 = (p.feed t).1 ++ (Convert.feedAll parts (p.feed t).2).1
    rw [hevents, hrest]

/-! ## The converter, taken apart -/

theorem advance_keeps (state : ClaudeConvertInfo) :
    state.advance.usage = state.usage ∧ state.advance.done = state.done := by
  unfold ClaudeConvertInfo.advance
  split <;> exact ⟨rfl, rfl⟩

theorem feed_keeps (state : ClaudeConvertInfo) :
    (p.feed state).2.usage = state.usage ∧ (p.feed state).2.done = state.done := by
  have hcontent : ∀ type block delta, (contentChunk type block delta state).2.usage = state.usage ∧
      (contentChunk type block delta state).2.done = state.done := by
    intro type block delta
    by_cases h : state.lastMessagesType = type
    · rw [contentChunk_same h]
      exact ⟨rfl, rfl⟩
    · rw [contentChunk_new h]
      exact advance_keeps state
  cases p with
  | firstTool => exact ⟨rfl, rfl⟩
  | thinking | text => exact hcontent _ _ _
  | tools calls =>
    show (toolCallChunk calls state).2.usage = state.usage ∧ (toolCallChunk calls state).2.done = state.done
    by_cases h : state.lastMessagesType = .tools
    · rw [toolCallChunk_same h]
      exact ⟨rfl, rfl⟩
    · rw [toolCallChunk_new h]
      exact advance_keeps state

theorem feedAll_keeps (state : ClaudeConvertInfo) :
    (feedAll parts state).2.usage = state.usage ∧ (feedAll parts state).2.done = state.done := by
  induction parts generalizing state with
  | nil => exact ⟨rfl, rfl⟩
  | cons p _ ih =>
    obtain ⟨husage, hdone⟩ := ih (p.feed state).2
    obtain ⟨husage', hdone'⟩ := feed_keeps p state
    exact ⟨husage.trans husage', hdone.trans hdone'⟩

/-- A chunk that is read is read as its parts. -/
theorem choiceChunk_eq (choice : Choice) (state : ClaudeConvertInfo) : choiceChunk choice state =
      feedAll (if choice.toolCalls ≠ [] then [.tools (keyed choice.toolCalls)]
        else words choice.getReasoningContent choice.getContentString) state := by
  have hone : ∀ p : Part, feedAll [p] state = p.feed state := by
    intro p
    simp [feedAll]
  unfold choiceChunk words
  by_cases htools : choice.toolCalls ≠ []
  · simp only [if_pos htools, hone]
    rfl
  simp only [if_neg htools]
  by_cases hreasoning : choice.getReasoningContent ≠ ""
  · simp only [if_pos hreasoning, hone]
    rfl
  simp only [if_neg hreasoning]
  by_cases htext : choice.getContentString ≠ ""
  · simp only [if_pos htext, hone]
    rfl
  · simp only [if_neg htext]
    rfl

theorem claudeStream_cons (s : ClaudeStreamState) (chunk : ChatChunk) (chunks : List ChatChunk) (n : ℕ) :
    claudeStream s (chunk :: chunks) n =
      (convertStreamResponseChunk chunk s).1 ++ claudeStream (convertStreamResponseChunk chunk s).2 chunks n := by
  unfold claudeStream
  rw [← append_assoc]
  rfl

theorem finalize_done {s : ClaudeStreamState} (h : s.claudeConvertInfo.done = true) :
    (finalizeStreamResponse s).1 = [] ∧ (finalizeStreamResponse s).2.claudeConvertInfo.done = true := by
  have hnone : finalizeStreamResponseOpenAI2Claude s.tellUsage = ([], s.tellUsage) := if_pos h
  unfold finalizeStreamResponse
  rw [hnone]
  exact ⟨rfl, h⟩

theorem finalizeTimes_done : ∀ {s : ClaudeStreamState}, s.claudeConvertInfo.done = true →
    (finalizeTimes n s).1 = [] := by
  induction n with
  | zero => exact fun _ => rfl
  | succ n ih =>
    intro s hs
    obtain ⟨hnone, hdone⟩ := finalize_done hs
    show (finalizeStreamResponse s).1 ++ (finalizeTimes n (finalizeStreamResponse s).2).1 = []
    rw [hnone, ih hdone]
    rfl

/-- After the end nothing comes. -/
theorem claudeStream_done : ∀ {s : ClaudeStreamState},
    s.claudeConvertInfo.done = true → claudeStream s chunks n = [] := by
  induction chunks with
  | nil => exact fun h => finalizeTimes_done n h
  | cons c _ ih =>
    intro s h
    have hnone : streamResponseOpenAI2Claude (s.sendResponseCount + 1) s.estimatePromptTokens c s.claudeConvertInfo =
        ([], s.claudeConvertInfo) := if_pos h
    rw [claudeStream_cons]
    unfold convertStreamResponseChunk
    rw [hnone]
    exact ih h

/-- The end of a stream that has not ended. -/
theorem claudeStream_nil {s : ClaudeStreamState} (h : s.claudeConvertInfo.done = false) (n : ℕ) :
    ∃ reason usage, claudeStream s [] (n + 1) = stopOpenBlocks s.claudeConvertInfo ++ endMessage reason usage := by
  refine ⟨stopReasonOrEndTurn s.claudeConvertInfo.finishReason, s.tellUsage.usage, ?_⟩
  have hsome : finalizeStreamResponseOpenAI2Claude s.tellUsage = (stopOpenBlocks s.claudeConvertInfo ++
      endMessage (stopReasonOrEndTurn s.claudeConvertInfo.finishReason) s.tellUsage.usage,
        { s.tellUsage with done := true }) := by
    have hnot : ¬ s.tellUsage.done = true := by
      show ¬ s.claudeConvertInfo.done = true
      simp [h]
    unfold finalizeStreamResponseOpenAI2Claude
    rw [if_neg hnot]
    rfl
  show (finalizeStreamResponse s).1 ++ (finalizeTimes n (finalizeStreamResponse s).2).1 = _
  unfold finalizeStreamResponse
  rw [hsome, finalizeTimes_done n rfl, append_nil]

/-- What is read of a chunk after the first. -/
def ChatChunk.readLater (c : ChatChunk) : List Part := if c.deferred then [] else c.laterParts

/-- What a chunk after the first does: it shows its parts, and ends the message or leaves it open. -/
theorem laterChunk_cases (state : ClaudeConvertInfo) :
    (c.endsLater state.usage = true ∧ ∃ reason usage state', state'.done = true ∧
      laterChunk c state = ((feedAll c.readLater state).1 ++ stopOpenBlocks (feedAll c.readLater state).2 ++
        endMessage reason usage, state')) ∨
    (c.endsLater state.usage = false ∧ ∃ state', SameBlocks (feedAll c.readLater state).2 state' ∧
      state'.done = state.done ∧ state'.usage = state.usage ∧
      laterChunk c state = ((feedAll c.readLater state).1, state')) := by
  obtain ⟨id, model, created, choices, usage⟩ := c
  cases choices with
  | nil =>
    -- no choice: nothing is read, and a usage ends the message
    have hread : readLater ⟨id, model, created, [], usage⟩ = [] := rfl
    rw [hread]
    cases hu : (usage <|> state.usage) with
    | none =>
      refine Or.inr ⟨?_, state, SameBlocks.refl _, rfl, rfl, ?_⟩
      · simp [endsLater, hu]
      · simp [laterChunk, hu, feedAll]
    | some oaiUsage =>
      refine Or.inl ⟨?_, stopReasonOrEndTurn state.finishReason, some oaiUsage, { state with done := true }, rfl, ?_⟩
      · simp [endsLater, hu]
      · simp [laterChunk, hu, feedAll]
  | cons choice choices =>
    let told := if choice.finished then { state with finishReason := choice.finishReason.getD "" } else state
    have hsame : SameBlocks state told ∧ told.done = state.done ∧ told.usage = state.usage := by
      show SameBlocks state (ite _ _ _) ∧ (ite _ _ _ : ClaudeConvertInfo).done = _ ∧ (ite _ _ _ : ClaudeConvertInfo).usage = _
      split <;> exact ⟨⟨rfl, rfl, rfl, rfl⟩, rfl, rfl⟩
    obtain ⟨hsame, hdone, husage⟩ := hsame
    by_cases hwait : choice.finished = true ∧ usage = none
    · -- the end waits for the usage
      have hread : readLater ⟨id, model, created, choice :: choices, usage⟩ = [] := by
        simp [readLater, deferred, finished, hwait]
      rw [hread]
      refine Or.inr ⟨?_, told, hsame, hdone, husage, ?_⟩
      · simp [endsLater, hwait]
      · simp [laterChunk, hwait, feedAll, told]
    · have hread : readLater ⟨id, model, created, choice :: choices, usage⟩ =
          laterParts ⟨id, model, created, choice :: choices, usage⟩ := by
        have hdeferred : deferred ⟨id, model, created, choice :: choices, usage⟩ = false := by
          cases usage with
          | none => simpa [deferred, finished] using hwait
          | some => simp [deferred]
        simp [readLater, hdeferred]
      have hfeed : choiceChunk choice told =
          feedAll (laterParts ⟨id, model, created, choice :: choices, usage⟩) told := choiceChunk_eq choice told
      obtain ⟨hevents, hblocks⟩ := hsame.feedAll (laterParts ⟨id, model, created, choice :: choices, usage⟩)
      obtain ⟨hkeeps, hkeeps'⟩ := feedAll_keeps (laterParts ⟨id, model, created, choice :: choices, usage⟩) told
      rw [hread]
      by_cases hfin : choice.finished = true
      · have hsome : usage.isSome = true := by
          cases usage with
          | none => exact absurd ⟨hfin, rfl⟩ hwait
          | some => rfl
        refine Or.inl ⟨?_, stopReasonOpenAI2Claude (choiceChunk choice told).2.finishReason,
          (usage <|> (choiceChunk choice told).2.usage), { (choiceChunk choice told).2 with done := true }, rfl, ?_⟩
        · simp [endsLater, finished, hfin, hsome]
        · rw [hevents, hblocks.stops, ← hfeed]
          show laterChunk _ _ = _
          unfold laterChunk
          simp only
          rw [if_neg hwait, if_pos hfin]
      · refine Or.inr ⟨?_, (choiceChunk choice told).2, ?_, ?_, ?_, ?_⟩
        · simp [endsLater, finished, hfin]
        · rw [hfeed]
          exact hblocks
        · rw [hfeed, hkeeps', hdone]
        · rw [hfeed, hkeeps, husage]
        · rw [hevents, ← hfeed]
          unfold laterChunk
          simp only
          rw [if_neg hwait, if_neg hfin]

/-- The chunks after the first. -/
theorem claudeStream_later : ∀ {s : ClaudeStreamState},
    1 ≤ s.sendResponseCount → s.claudeConvertInfo.done = false → s.claudeConvertInfo.usage = preseeded →
    ∃ reason usage, claudeStream s chunks (n + 1) = (feedAll (laterPartsOf preseeded chunks) s.claudeConvertInfo).1 ++
        stopOpenBlocks (feedAll (laterPartsOf preseeded chunks) s.claudeConvertInfo).2 ++ endMessage reason usage := by
  induction chunks with
  | nil =>
    intro s _ hdone _
    exact claudeStream_nil hdone n
  | cons c chunks ih =>
    intro s hcount hdone husage
    subst husage
    have hlater : streamResponseOpenAI2Claude (s.sendResponseCount + 1) s.estimatePromptTokens c s.claudeConvertInfo =
        laterChunk c s.claudeConvertInfo := by
      unfold streamResponseOpenAI2Claude
      rw [if_neg (by simp [hdone]), if_neg (by omega)]
    have hparts : laterPartsOf s.claudeConvertInfo.usage (c :: chunks) = c.readLater ++
        if c.endsLater s.claudeConvertInfo.usage then [] else laterPartsOf s.claudeConvertInfo.usage chunks := rfl
    rw [claudeStream_cons, hparts]
    unfold convertStreamResponseChunk
    rw [hlater]
    rcases laterChunk_cases c s.claudeConvertInfo with ⟨hends, reason, usage, state', hdone', heq⟩ |
      ⟨hends, state', hsame, hdone', husage', heq⟩
    · rw [heq, hends, if_pos rfl, append_nil]
      refine ⟨reason, usage, ?_⟩
      rw [claudeStream_done _ _ hdone', append_nil]
    · rw [heq, hends, if_neg (by simp), feedAll_append]
      obtain ⟨reason, usage, hrest⟩ := ih (s := { s with
        sendResponseCount := s.sendResponseCount + 1
        claudeConvertInfo := state'
        usage := c.usage.map usageFromChatUsage <|> s.usage }) (by simp) (hdone'.trans hdone) husage'
      obtain ⟨hevents, hblocks⟩ := hsame.feedAll (laterPartsOf s.claudeConvertInfo.usage chunks)
      refine ⟨reason, usage, ?_⟩
      rw [hrest, hevents, hblocks.stops]
      simp [append_assoc]

theorem feedAll_one (state : ClaudeConvertInfo) : feedAll [p] state = p.feed state := by
  simp [feedAll]

/-- The copy of the logic for a first chunk agrees with the rest, as no block of text or reasoning is open yet. -/
theorem firstContent_eq {choice : Choice} (hthinking : state.lastMessagesType ≠ .thinking)
    (htext : state.lastMessagesType ≠ .text) :
    firstContent choice state = feedAll (words choice.getReasoningContent choice.getContentString) state := by
  unfold firstContent words stopOpenBlocksAndAdvance
  by_cases hr : choice.getReasoningContent ≠ ""
  · simp only [if_pos hr, if_pos hthinking, feedAll_one]
    exact (contentChunk_new hthinking _ _).symm
  simp only [if_neg hr]
  by_cases hc : choice.getContentString ≠ ""
  · simp only [if_pos hc, if_pos htext, feedAll_one]
    exact (contentChunk_new htext _ _).symm
  · simp only [if_neg hc]
    rfl

theorem firstToolCall_eq (toolCalls : List ToolCallResponse) (state : ClaudeConvertInfo) :
    firstToolCall toolCalls state =
      feedAll ((keyed toolCalls).head?.map fun (offset, call) => Part.firstTool offset call).toList state := by
  cases toolCalls with
  | nil => rfl
  | cons => simp [firstToolCall, keyed, feedAll, Part.feed, zipIdx_cons]

/-- What a first chunk reads. -/
theorem feedAll_firstParts {choice : Choice} {choices : List Choice} {c : ChatChunk} (hc : c.choices = choice :: choices)
    (preseeded : Option Usage) :
    let tools := firstToolCall choice.toolCalls { usage := preseeded }
    feedAll c.firstParts { usage := preseeded } =
      (tools.1 ++ (firstContent choice tools.2).1, (firstContent choice tools.2).2) := by
  intro tools
  have hlast : tools.2.lastMessagesType ≠ .thinking ∧ tools.2.lastMessagesType ≠ .text := by
    cases hcalls : choice.toolCalls with
    | nil | cons => simp [tools, hcalls, firstToolCall]
  have hwords : words c.thinking c.text = words choice.getReasoningContent choice.getContentString := by
    simp [thinking, text, hc]
  have hcalls : c.toolCalls = choice.toolCalls := by
    simp [toolCalls, hc]
  unfold firstParts
  rw [feedAll_append, hwords, hcalls, ← firstToolCall_eq, firstContent_eq hlast.1 hlast.2]

/-- The first chunk starts the message, shows its parts, and ends the message or leaves it open. -/
theorem firstChunk_cases (preseeded : Option Usage) :
    let start := ClaudeEvent.messageStart c.id c.model { inputTokens := estimate, outputTokens := 0 }
    let fed := feedAll c.firstParts { usage := preseeded }
    (c.endsFirst preseeded = true ∧ ∃ reason usage state', state'.done = true ∧
      firstChunk estimate c { usage := preseeded } =
        (start :: (fed.1 ++ stopOpenBlocks fed.2 ++ endMessage reason usage), state')) ∨
    (c.endsFirst preseeded = false ∧ ∃ state', SameBlocks fed.2 state' ∧ state'.done = false ∧
      state'.usage = preseeded ∧ firstChunk estimate c { usage := preseeded } = (start :: fed.1, state')) := by
  intro start fed
  cases hc : c.choices with
  | nil =>
    have hfed : fed = ([], { usage := preseeded }) := by
      simp [fed, firstParts, toolCalls, thinking, text, hc, keyed, words, feedAll]
    refine Or.inr ⟨?_, { usage := preseeded }, ?_, rfl, rfl, ?_⟩
    · simp [endsFirst, finished, hc]
    · rw [hfed]
      exact SameBlocks.refl _
    · rw [hfed]
      simp [firstChunk, hc, start]
  | cons choice =>
    have hfed := feedAll_firstParts hc preseeded
    obtain ⟨hkeeps, hkeeps'⟩ := feedAll_keeps c.firstParts { usage := preseeded }
    have hfirst : firstChunk estimate c { usage := preseeded } =
        (start :: (fed.1 ++ (firstFinish c choice fed.2).1), (firstFinish c choice fed.2).2) := by
      unfold firstChunk
      rw [hc]
      simp only [fed, hfed]
      simp [start, append_assoc]
    have hfin : c.finished = choice.finished := by
      simp [finished, hc]
    rw [hfirst]
    unfold firstFinish endsFirst
    rw [hfin]
    by_cases hf : choice.finished = true
    · cases hu : (c.usage <|> preseeded) with
      | none =>
        have hu' : (c.usage <|> fed.2.usage) = none := by
          rw [hkeeps]
          exact hu
        refine Or.inr ⟨?_, { fed.2 with finishReason := choice.finishReason.getD "" }, ?_, hkeeps', hkeeps, ?_⟩
        · simp
        · exact ⟨rfl, rfl, rfl, rfl⟩
        · simp only [if_pos hf, hu']
          simp
      | some oaiUsage =>
        have hu' : (c.usage <|> fed.2.usage) = some oaiUsage := by
          rw [hkeeps]
          exact hu
        refine Or.inl ⟨?_, stopReasonOpenAI2Claude (choice.finishReason.getD ""), some oaiUsage,
          { fed.2 with finishReason := choice.finishReason.getD "", done := true }, rfl, ?_⟩
        · simp [hf]
        · simp only [if_pos hf, hu']
          simp [stopOpenBlocks]
    · refine Or.inr ⟨?_, fed.2, SameBlocks.refl _, hkeeps', hkeeps, ?_⟩
      · simp [hf]
      · simp only [if_neg hf]
        simp

/-- **The converter, taken apart**: a message start, the parts one after the other, the stops of the open blocks, the
two events of the end, however often the stream is finalized. -/
theorem claudeStream_eq :
    ∃ id model used reason usage, let fed := feedAll (partsOf preseeded (c :: chunks)) { usage := preseeded }
      claudeStream (.new estimate preseeded) (c :: chunks) (n + 1) =
        .messageStart id model used :: (fed.1 ++ stopOpenBlocks fed.2 ++ endMessage reason usage) := by
  refine ⟨c.id, c.model, { inputTokens := estimate, outputTokens := 0 }, ?_⟩
  have hparts : partsOf preseeded (c :: chunks) =
      c.firstParts ++ if c.endsFirst preseeded then [] else laterPartsOf preseeded chunks := rfl
  have hfirst : streamResponseOpenAI2Claude ((ClaudeStreamState.new estimate preseeded).sendResponseCount + 1)
      (ClaudeStreamState.new estimate preseeded).estimatePromptTokens c
        (ClaudeStreamState.new estimate preseeded).claudeConvertInfo = firstChunk estimate c { usage := preseeded } := rfl
  rw [claudeStream_cons, hparts]
  unfold convertStreamResponseChunk
  rw [hfirst]
  rcases firstChunk_cases estimate c preseeded with ⟨hends, reason, usage, state', hdone, heq⟩ |
    ⟨hends, state', hsame, hdone, husage, heq⟩
  · rw [heq, hends, if_pos rfl, append_nil]
    refine ⟨reason, usage, ?_⟩
    rw [claudeStream_done _ _ hdone, append_nil]
  · rw [heq, hends, if_neg (by simp), feedAll_append]
    obtain ⟨reason, usage, hrest⟩ := claudeStream_later preseeded chunks n (s := { ClaudeStreamState.new estimate preseeded with
      sendResponseCount := (ClaudeStreamState.new estimate preseeded).sendResponseCount + 1
      claudeConvertInfo := state'
      usage := c.usage.map usageFromChatUsage <|> (ClaudeStreamState.new estimate preseeded).usage }) (by simp) hdone husage
    obtain ⟨hevents, hblocks⟩ := hsame.feedAll (laterPartsOf preseeded chunks)
    refine ⟨reason, usage, ?_⟩
    rw [hrest, ← hevents, ← hblocks.stops]
    simp [append_assoc]

/-- A stream of no chunks has no message start. -/
theorem claudeStream_empty :
    ∃ reason usage, claudeStream (.new estimate preseeded) [] (n + 1) = endMessage reason usage :=
  claudeStream_nil rfl n

end NovaMaas.Convert
