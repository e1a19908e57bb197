/-
  What the Claude converter loses of a chat stream.

  A stream says a text, a reasoning and the arguments of some tool calls, each in fragments.  The Anthropic stream says
  as much when its text and its thinking deltas join to the same, and when the blocks that get arguments can be matched
  with the calls that have some, one to one and each with the same arguments (`Whole`).

  What is not read is lost, and `Kept` says on the chunks when nothing is: a second tool call of the first chunk, the
  text of a chunk with tool calls or reasoning, all of a chunk that has the finish reason but not the usage, and all
  that comes after the end.  That `Kept` is exact follows from lengths: nothing is shown that was not there.
-/
import NovaMaas.Convert.ClaudeLegal
import NovaMaas.Lib.Gather

open List

namespace NovaMaas.Convert

open Gather ClaudeEvent

/-! ## What is shown, and what came -/

def ClaudeEvent.text : ClaudeEvent → String
  | .contentBlockDelta _ (.textDelta s) => s
  | _ => ""

def ClaudeEvent.thinking : ClaudeEvent → String
  | .contentBlockDelta _ (.thinkingDelta s) => s
  | _ => ""

/-- The arguments an event shows, under the index of their block. -/
def ClaudeEvent.json : ClaudeEvent → List (ℤ × String)
  | .contentBlockDelta i (.inputJsonDelta s) => [(i, s)]
  | _ => []

def shownText (events : List ClaudeEvent) : String := joined (events.map text)

def shownThinking (events : List ClaudeEvent) : String := joined (events.map thinking)

def shownJson (events : List ClaudeEvent) : List (ℤ × String) := events.flatMap json

def textOf (chunks : List ChatChunk) : String := joined (chunks.map ChatChunk.text)

def thinkingOf (chunks : List ChatChunk) : String := joined (chunks.map ChatChunk.thinking)

/-- The arguments of some fragments, under the index of their call. -/
def arguments (calls : List (ℤ × ToolCallResponse)) : List (ℤ × String) := calls.map fun a => (a.1, a.2.arguments)

def argumentsOf (chunks : List ChatChunk) : List (ℤ × String) := arguments (callsOf chunks)

/-- The events show what the chunks say. -/
structure Whole (chunks : List ChatChunk) (events : List ClaudeEvent) : Prop where
  text : shownText events = textOf chunks
  thinking : shownThinking events = thinkingOf chunks
  arguments : Matched (argumentsOf chunks) (shownJson events)

/-! ## When nothing is lost -/

namespace ChatChunk

/-- A chunk that says nothing. -/
def Blank (c : ChatChunk) : Prop := c.text = "" ∧ c.thinking = "" ∧ ∀ call ∈ c.toolCalls, call.arguments = ""

/-- A first chunk of which everything is read. -/
def FirstKept (c : ChatChunk) : Prop :=
  (c.thinking = "" ∨ c.text = "") ∧ ∀ call ∈ c.toolCalls.tail, call.arguments = ""

/-- Another chunk of which everything is read: tool calls come without words, the reasoning without text.  A finish
reason that comes before the usage has nothing with it. -/
def LaterKept (c : ChatChunk) : Prop :=
  if c.deferred then c.Blank
  else if c.toolCalls ≠ [] then c.thinking = "" ∧ c.text = ""
  else c.thinking = "" ∨ c.text = ""

instance (c : ChatChunk) : Decidable c.Blank := inferInstanceAs (Decidable (_ ∧ _))
instance (c : ChatChunk) : Decidable c.FirstKept := inferInstanceAs (Decidable (_ ∧ _))
instance (c : ChatChunk) : Decidable c.LaterKept :=
  inferInstanceAs (Decidable (if c.deferred then c.Blank
    else if c.toolCalls ≠ [] then c.thinking = "" ∧ c.text = "" else c.thinking = "" ∨ c.text = ""))

end ChatChunk

def KeptLater (preseeded : Option Usage) : List ChatChunk → Prop
  | [] => True
  | c :: chunks => c.LaterKept ∧ if c.endsLater preseeded then ∀ d ∈ chunks, d.Blank else KeptLater preseeded chunks

/-- Everything is read. -/
def Kept (preseeded : Option Usage) : List ChatChunk → Prop
  | [] => True
  | c :: chunks => c.FirstKept ∧ if c.endsFirst preseeded then ∀ d ∈ chunks, d.Blank else KeptLater preseeded chunks

/-! ## The words of the parts -/

def Part.shownText : Part → String
  | .text s => s
  | _ => ""

def Part.shownThinking : Part → String
  | .thinking s => s
  | _ => ""

variable (estimate : ℤ) (preseeded : Option Usage) (es fs : List ClaudeEvent) (c : ChatChunk)

theorem shownText_append : shownText (es ++ fs) = shownText es ++ shownText fs := by
  rw [shownText, map_append, joined_append]
  rfl

theorem shownThinking_append : shownThinking (es ++ fs) = shownThinking es ++ shownThinking fs := by
  rw [shownThinking, map_append, joined_append]
  rfl

theorem shownJson_append : shownJson (es ++ fs) = shownJson es ++ shownJson fs :=
  flatMap_append

/-- Events that show nothing. -/
def Silent (events : List ClaudeEvent) : Prop :=
  shownText events = "" ∧ shownThinking events = "" ∧ shownJson events = []

theorem silent_stops (state : ClaudeConvertInfo) : Silent (stopOpenBlocks state) := by
  rw [stopOpenBlocks_eq]
  induction openIndexes state with
  | nil => exact ⟨rfl, rfl, rfl⟩
  | cons _ _ ih =>
    obtain ⟨htext, hthinking, hjson⟩ := ih
    refine ⟨?_, ?_, hjson⟩
    · show "" ++ shownText _ = ""
      rw [htext]
      rfl
    · show "" ++ shownThinking _ = ""
      rw [hthinking]
      rfl

theorem silent_end (reason : String) (usage : Option Usage) : Silent (endMessage reason usage) := ⟨rfl, rfl, rfl⟩

/-- The events of tool calls show their arguments, as far as there are any. -/
theorem shown_toolCallEvents (base : ℤ) (calls : List (ℤ × ToolCallResponse)) :
    shownText (toolCallEvents base calls) = "" ∧ shownThinking (toolCallEvents base calls) = "" ∧
      shownJson (toolCallEvents base calls) = dense (calls.map fun a => (base + a.1, a.2.arguments)) := by
  induction calls with
  | nil => exact ⟨rfl, rfl, rfl⟩
  | cons a _ ih =>
    obtain ⟨offset, call⟩ := a
    obtain ⟨htext, hthinking, hjson⟩ := ih
    have hone : shownText (callEvents base offset call) = "" ∧ shownThinking (callEvents base offset call) = "" ∧
        shownJson (callEvents base offset call) =
          if call.arguments ≠ "" then [(base + offset, call.arguments)] else [] := by
      unfold callEvents
      by_cases hname : call.name = ""
      · by_cases hargs : call.arguments = ""
        · simp [hname, hargs, shownText, shownThinking, shownJson]
        · simp [hname, hargs, shownText, shownThinking, shownJson, text, thinking, json]
      · by_cases hargs : call.arguments = ""
        · simp [hname, hargs, shownText, shownThinking, shownJson, text, thinking, json]
        · simp [hname, hargs, shownText, shownThinking, shownJson, text, thinking, json]
    rw [toolCallEvents_cons, shownText_append, shownThinking_append, shownJson_append, hone.1, hone.2.1, hone.2.2, htext,
      hthinking, hjson, map_cons, dense_cons]
    exact ⟨rfl, rfl, rfl⟩

/-- A chunk of content shows its own words and nothing else. -/
theorem shown_contentChunk (type : LastMessageType) (block : ContentBlock) (delta : BlockDelta) (state : ClaudeConvertInfo) :
    ∃ i, shownText (contentChunk type block delta state).1 = (contentBlockDelta i delta).text ∧
      shownThinking (contentChunk type block delta state).1 = (contentBlockDelta i delta).thinking ∧
      shownJson (contentChunk type block delta state).1 = (contentBlockDelta i delta).json := by
  by_cases h : state.lastMessagesType = type
  · rw [contentChunk_same h]
    refine ⟨state.index, ?_, ?_, ?_⟩
    · simp [shownText]
    · simp [shownThinking]
    · simp [shownJson]
  · obtain ⟨htext, hthinking, hjson⟩ := silent_stops state
    rw [contentChunk_new h]
    refine ⟨state.advance.index, ?_, ?_, ?_⟩
    · rw [shownText_append, htext]
      simp [shownText, text]
    · rw [shownThinking_append, hthinking]
      simp [shownThinking, thinking]
    · rw [shownJson_append, hjson]
      simp [shownJson, json]

theorem shown_firstToolCall (call : ToolCallResponse) (state : ClaudeConvertInfo) :
    shownText (firstToolCall [call] state).1 = "" ∧ shownThinking (firstToolCall [call] state).1 = "" ∧
      shownJson (firstToolCall [call] state).1 = dense [(0, call.arguments)] := by
  by_cases hargs : call.arguments = ""
  · simp [firstToolCall, hargs, shownText, shownThinking, shownJson, text, thinking, json, dense]
  · simp [firstToolCall, hargs, shownText, shownThinking, shownJson, text, thinking, json, dense]

/-- A chunk with calls shows their arguments, under the indexes of their blocks. -/
theorem shown_toolCallChunk (calls : List (ℤ × ToolCallResponse)) (state : ClaudeConvertInfo) :
    shownText (toolCallChunk calls state).1 = "" ∧ shownThinking (toolCallChunk calls state).1 = "" ∧
      shownJson (toolCallChunk calls state).1 =
        dense (calls.map fun a => ((toolCallChunk calls state).2.toolCallBaseIndex + a.1, a.2.arguments)) := by
  by_cases h : state.lastMessagesType = .tools
  · rw [toolCallChunk_same h]
    exact shown_toolCallEvents _ _
  · obtain ⟨htext, hthinking, hjson⟩ := silent_stops state
    obtain ⟨htext', hthinking', hjson'⟩ := shown_toolCallEvents state.advance.index calls
    rw [toolCallChunk_new h]
    show shownText (stopOpenBlocks state ++ _) = "" ∧ shownThinking (stopOpenBlocks state ++ _) = "" ∧
      shownJson (stopOpenBlocks state ++ _) = _
    rw [shownText_append, shownThinking_append, shownJson_append, htext, hthinking, hjson, htext', hthinking', hjson']
    exact ⟨rfl, rfl, rfl⟩

/-- So does each part. -/
theorem shown_feed (p : Part) (state : ClaudeConvertInfo) :
    shownText (p.feed state).1 = p.shownText ∧ shownThinking (p.feed state).1 = p.shownThinking ∧
      size (shownJson (p.feed state).1) = size (arguments p.calls) := by
  cases p with
  | firstTool offset call =>
    obtain ⟨htext, hthinking, hjson⟩ := shown_firstToolCall call state
    refine ⟨htext, hthinking, ?_⟩
    show size (shownJson (firstToolCall [call] state).1) = size [(offset, call.arguments)]
    rw [hjson, size_dense]
    rfl
  | tools calls =>
    obtain ⟨htext, hthinking, hjson⟩ := shown_toolCallChunk calls state
    refine ⟨htext, hthinking, ?_⟩
    show size (shownJson (toolCallChunk calls state).1) = size (arguments calls)
    rw [hjson, size_dense, arguments]
    exact size_map _ _ (fun a => a.2.arguments) calls
  | thinking x =>
    obtain ⟨i, htext, hthinking, hjson⟩ := shown_contentChunk .thinking .thinking (.thinkingDelta x) state
    refine ⟨htext, hthinking, ?_⟩
    show size (shownJson (contentChunk .thinking .thinking (.thinkingDelta x) state).1) = _
    rw [hjson]
    rfl
  | text x =>
    obtain ⟨i, htext, hthinking, hjson⟩ := shown_contentChunk .text .text (.textDelta x) state
    refine ⟨htext, hthinking, ?_⟩
    show size (shownJson (contentChunk .text .text (.textDelta x) state).1) = _
    rw [hjson]
    rfl

theorem arguments_append (as bs : List (ℤ × ToolCallResponse)) :
    arguments (as ++ bs) = arguments as ++ arguments bs :=
  map_append

/-- The parts show their words, and no argument is longer or shorter. -/
theorem shown_feedAll (parts : List Part) : ∀ state : ClaudeConvertInfo,
    shownText (feedAll parts state).1 = joined (parts.map Part.shownText) ∧
      shownThinking (feedAll parts state).1 = joined (parts.map Part.shownThinking) ∧
      size (shownJson (feedAll parts state).1) = size (arguments (partCalls parts)) := by
  induction parts with
  | nil => exact fun state => ⟨rfl, rfl, rfl⟩
  | cons p parts ih =>
    intro state
    obtain ⟨htext, hthinking, hjson⟩ := shown_feed p state
    obtain ⟨htext', hthinking', hjson'⟩ := ih (p.feed state).2
    have hfeed : (feedAll (p :: parts) state).1 = (p.feed state).1 ++ (feedAll parts (p.feed state).2).1 := rfl
    rw [hfeed, shownText_append, shownThinking_append, shownJson_append, size_append, htext, htext', hthinking,
      hthinking', hjson, hjson', partCalls_cons, arguments_append, size_append]
    exact ⟨rfl, rfl, rfl⟩

/-- What a stream shows is what its parts show. -/
theorem shown_claudeStream (chunks : List ChatChunk) (n : ℕ) :
    let events := claudeStream (.new estimate preseeded) chunks (n + 1)
    let fed := (feedAll (partsOf preseeded chunks) { usage := preseeded }).1
    shownText events = shownText fed ∧ shownThinking events = shownThinking fed ∧ shownJson events = shownJson fed := by
  intro events fed
  cases chunks with
  | nil =>
    obtain ⟨reason, usage, heq⟩ := claudeStream_empty estimate preseeded n
    have heq : events = endMessage reason usage := heq
    rw [heq]
    exact ⟨rfl, rfl, rfl⟩
  | cons c chunks =>
    obtain ⟨id, model, used, reason, usage, heq⟩ := claudeStream_eq estimate preseeded c chunks n
    obtain ⟨htext, hthinking, hjson⟩ :=
      silent_stops (feedAll (partsOf preseeded (c :: chunks)) { usage := preseeded }).2
    obtain ⟨htext', hthinking', hjson'⟩ := silent_end reason usage
    have heq : events = [.messageStart id model used] ++ (fed ++
        stopOpenBlocks (feedAll (partsOf preseeded (c :: chunks)) { usage := preseeded }).2 ++ endMessage reason usage) := heq
    rw [heq]
    refine ⟨?_, ?_, ?_⟩
    · rw [shownText_append, shownText_append, shownText_append, htext, htext']
      simp [shownText, text]
    · rw [shownThinking_append, shownThinking_append, shownThinking_append, hthinking, hthinking']
      simp [shownThinking, thinking]
    · rw [shownJson_append, shownJson_append, shownJson_append, hjson, hjson']
      simp [shownJson, json]

/-! ## What is not read -/

/-- The length of all words and arguments of a chunk. -/
def ChatChunk.size (c : ChatChunk) : ℕ := c.text.length + c.thinking.length + Gather.size (arguments (keyed c.toolCalls))

def sizeOf (chunks : List ChatChunk) : ℕ := (chunks.map ChatChunk.size).sum

/-- The length of all words and arguments of some parts. -/
def partsSize (parts : List Part) : ℕ :=
  (joined (parts.map Part.shownText)).length + (joined (parts.map Part.shownThinking)).length +
    size (arguments (partCalls parts))

theorem partsSize_append (ps qs : List Part) : partsSize (ps ++ qs) = partsSize ps + partsSize qs := by
  unfold partsSize
  rw [map_append, map_append, joined_append, joined_append, partCalls_append, arguments_append, size_append,
    String.length_append, String.length_append]
  omega

theorem size_keyed (calls : List ToolCallResponse) :
    size (arguments (keyed calls)) = (calls.map fun call => call.arguments.length).sum := by
  unfold arguments keyed
  rw [map_map]
  generalize 0 = k
  induction calls generalizing k with
  | nil => rfl
  | cons _ _ ih =>
    rw [zipIdx_cons, map_cons, map_cons, sum_cons, ← ih (k + 1)]
    rfl

theorem size_keyed_eq_zero {calls : List ToolCallResponse} :
    size (arguments (keyed calls)) = 0 ↔ ∀ call ∈ calls, call.arguments = "" := by
  rw [size_keyed, List.sum_eq_zero_iff_forall_eq_nat, List.forall_mem_map]
  exact forall₂_congr fun call _ => String.length_eq_zero_iff

theorem partsSize_words (thinking text : String) : partsSize (words thinking text) ≤ text.length + thinking.length ∧
      (partsSize (words thinking text) = text.length + thinking.length ↔ thinking = "" ∨ text = "") := by
  unfold words
  by_cases hthinking : thinking = ""
  · by_cases htext : text = ""
    · simp [hthinking, htext, partsSize, partCalls, arguments, size]
    · simp [hthinking, htext, partsSize, partCalls, arguments, size, Part.shownText, Part.shownThinking, Part.calls]
  · have hone : partsSize [.thinking thinking] = thinking.length := by
      simp [partsSize, partCalls, arguments, size, Part.shownText, Part.shownThinking, Part.calls]
    have hlength : thinking.length ≠ 0 := fun h => hthinking (String.length_eq_zero_iff.mp h)
    rw [if_pos hthinking, hone, ← String.length_eq_zero_iff, ← String.length_eq_zero_iff]
    omega

theorem chunk_size_eq_zero : c.size = 0 ↔ c.Blank := by
  unfold ChatChunk.size ChatChunk.Blank
  rw [Nat.add_eq_zero_iff, Nat.add_eq_zero_iff, size_keyed_eq_zero]
  simp [and_assoc]

/-- The first chunk: what is read of it is not longer, and as long only if everything is read. -/
theorem partsSize_firstParts : partsSize c.firstParts ≤ c.size ∧ (partsSize c.firstParts = c.size ↔ c.FirstKept) := by
  obtain ⟨hle, hiff⟩ := partsSize_words c.thinking c.text
  unfold ChatChunk.firstParts ChatChunk.FirstKept ChatChunk.size
  rw [partsSize_append]
  cases hcalls : c.toolCalls with
  | nil =>
    rw [← hiff]
    simp [keyed, partsSize, arguments, size, partCalls] at hle ⊢
    omega
  | cons call calls =>
    have hone : ∀ f : ℤ × ToolCallResponse → Part, (∀ p, f p = Part.firstTool p.1 p.2) →
        partsSize ((keyed (call :: calls)).head?.map f).toList = call.arguments.length := by
      intro f hf
      simp [keyed, zipIdx_cons, hf, partsSize, arguments, size, partCalls, Part.calls, Part.shownText,
        Part.shownThinking]
    rw [hone _ (fun _ => rfl), size_keyed, map_cons, sum_cons, tail_cons, ← hiff, ← size_keyed_eq_zero, size_keyed]
    constructor
    · omega
    · constructor
      · intro h
        constructor <;> omega
      · rintro ⟨h, h'⟩
        omega

/-- The same for a chunk that follows. -/
theorem partsSize_readLater : partsSize c.readLater ≤ c.size ∧ (partsSize c.readLater = c.size ↔ c.LaterKept) := by
  obtain ⟨hle, hiff⟩ := partsSize_words c.thinking c.text
  unfold ChatChunk.readLater ChatChunk.LaterKept
  by_cases hdeferred : c.deferred = true
  · rw [if_pos hdeferred, if_pos hdeferred, ← chunk_size_eq_zero]
    show 0 ≤ c.size ∧ (0 = c.size ↔ c.size = 0)
    omega
  · rw [if_neg hdeferred, if_neg hdeferred]
    unfold ChatChunk.laterParts ChatChunk.size
    by_cases hcalls : c.toolCalls ≠ []
    · have hone : partsSize [.tools (keyed c.toolCalls)] = size (arguments (keyed c.toolCalls)) := by
        simp [partsSize, partCalls, Part.calls, Part.shownText, Part.shownThinking]
      rw [if_pos hcalls, if_pos hcalls, hone]
      constructor
      · omega
      · rw [← String.length_eq_zero_iff, ← String.length_eq_zero_iff (s := c.text)]
        omega
    · have hnil : c.toolCalls = [] := not_not.mp hcalls
      have hzero : size (arguments (keyed c.toolCalls)) = 0 := by
        rw [hnil]
        rfl
      rw [if_neg hcalls, if_neg hcalls, hzero, ← hiff]
      omega

theorem sizeOf_cons (chunks : List ChatChunk) : sizeOf (c :: chunks) = c.size + sizeOf chunks := by
  simp [sizeOf]

variable {chunks : List ChatChunk}

theorem sizeOf_eq_zero : sizeOf chunks = 0 ↔ ∀ d ∈ chunks, d.Blank := by
  rw [sizeOf, List.sum_eq_zero_iff_forall_eq_nat, List.forall_mem_map]
  exact forall₂_congr fun c _ => chunk_size_eq_zero c

theorem partsSize_laterPartsOf (chunks : List ChatChunk) : partsSize (laterPartsOf preseeded chunks) ≤ sizeOf chunks ∧
      (partsSize (laterPartsOf preseeded chunks) = sizeOf chunks ↔ KeptLater preseeded chunks) := by
  induction chunks with
  | nil => simp [laterPartsOf, sizeOf, partsSize, partCalls, arguments, size, KeptLater]
  | cons c chunks ih =>
    obtain ⟨hle, hiff⟩ := partsSize_readLater c
    have hparts : laterPartsOf preseeded (c :: chunks) =
        c.readLater ++ if c.endsLater preseeded then [] else laterPartsOf preseeded chunks := rfl
    rw [hparts, partsSize_append, sizeOf_cons, KeptLater, ← hiff]
    by_cases hends : c.endsLater preseeded = true
    · rw [if_pos hends, if_pos hends, ← sizeOf_eq_zero]
      have hnil : partsSize [] = 0 := rfl
      omega
    · rw [if_neg hends, if_neg hends, ← ih.2]
      have hle' := ih.1
      omega

/-- Nothing is read that is not there, and exactly if everything is kept nothing is left. -/
theorem partsSize_partsOf (chunks : List ChatChunk) :
    partsSize (partsOf preseeded chunks) = sizeOf chunks ↔ Kept preseeded chunks := by
  cases chunks with
  | nil => simp [partsOf, sizeOf, partsSize, partCalls, arguments, size, Kept]
  | cons c chunks =>
    obtain ⟨hle, hiff⟩ := partsSize_firstParts c
    obtain ⟨hle', hiff'⟩ := partsSize_laterPartsOf preseeded chunks
    rw [partsOf, partsSize_append, sizeOf_cons, Kept, ← hiff]
    by_cases hends : c.endsFirst preseeded = true
    · rw [if_pos hends, if_pos hends, ← sizeOf_eq_zero]
      have hnil : partsSize [] = 0 := rfl
      omega
    · rw [if_neg hends, if_neg hends, ← hiff']
      omega

/-- The size of a stream is that of its words and arguments. -/
theorem sizeOf_eq (chunks : List ChatChunk) :
    sizeOf chunks = (textOf chunks).length + (thinkingOf chunks).length + size (argumentsOf chunks) := by
  unfold textOf thinkingOf argumentsOf
  induction chunks with
  | nil => rfl
  | cons _ _ ih =>
    rw [sizeOf_cons, ih, callsOf_cons, arguments_append, size_append, map_cons, map_cons, joined_cons,
      joined_cons, String.length_append, String.length_append, ChatChunk.size]
    omega

/-- What is shown as a whole was kept. -/
theorem Whole.kept {estimate : ℤ} {preseeded : Option Usage} {n : ℕ}
    (h : Whole chunks (claudeStream (.new estimate preseeded) chunks (n + 1))) : Kept preseeded chunks := by
  obtain ⟨htext, hthinking, hjson⟩ := shown_claudeStream estimate preseeded chunks n
  obtain ⟨htext', hthinking', hjson'⟩ := shown_feedAll (partsOf preseeded chunks) { usage := preseeded }
  rw [← partsSize_partsOf, partsSize, sizeOf_eq, ← htext', ← htext, h.text, ← hthinking', ← hthinking, h.thinking,
    ← hjson', ← hjson, ← h.arguments.size]

/-! ## What is kept is shown -/

theorem shown_words {thinking text : String} (h : thinking = "" ∨ text = "") :
    joined ((words thinking text).map Part.shownText) = text ∧
      joined ((words thinking text).map Part.shownThinking) = thinking := by
  unfold words
  rcases h with rfl | rfl
  · by_cases htext : text = ""
    · simp [htext]
    · simp [htext, Part.shownText, Part.shownThinking]
  · by_cases hthinking : thinking = ""
    · simp [hthinking]
    · simp [hthinking, Part.shownText, Part.shownThinking]

/-- The parts say the same as some chunks. -/
structure Says (parts : List Part) (chunks : List ChatChunk) : Prop where
  text : joined (parts.map Part.shownText) = textOf chunks
  thinking : joined (parts.map Part.shownThinking) = thinkingOf chunks
  arguments : ∀ k, gather k (arguments (partCalls parts)) = gather k (argumentsOf chunks)

theorem Says.append {ps qs : List Part} {cs ds : List ChatChunk} (h : Says ps cs) (h' : Says qs ds) :
    Says (ps ++ qs) (cs ++ ds) := by
  refine ⟨?_, ?_, ?_⟩
  · unfold textOf
    rw [map_append, joined_append, map_append, joined_append, h.text, h'.text]
    rfl
  · unfold thinkingOf
    rw [map_append, joined_append, map_append, joined_append, h.thinking, h'.thinking]
    rfl
  · intro k
    have hcalls : argumentsOf (cs ++ ds) = argumentsOf cs ++ argumentsOf ds := by
      unfold argumentsOf callsOf
      rw [flatMap_append, arguments_append]
    rw [partCalls_append, arguments_append, gather_append, h.arguments k, h'.arguments k, hcalls, gather_append]

theorem gather_blank {calls : List (ℤ × ToolCallResponse)} (h : ∀ a ∈ calls, a.2.arguments = "") (k : ℤ) :
    gather k (arguments calls) = "" := by
  induction calls with
  | nil => rfl
  | cons a calls ih =>
    show gather k ((a.1, a.2.arguments) :: arguments calls) = ""
    rw [gather_cons, ih fun b hb => h b (mem_cons_of_mem _ hb), h a mem_cons_self]
    simp

theorem keyed_calls {calls : List ToolCallResponse} {a : ℤ × ToolCallResponse} (ha : a ∈ keyed calls) : a.2 ∈ calls := by
  obtain ⟨⟨call, i⟩, hmem, rfl⟩ := mem_map.mp ha
  exact (mem_zipIdx hmem).2.2 ▸ getElem_mem _

theorem argumentsOf_one : argumentsOf [c] = arguments (keyed c.toolCalls) := by
  simp [argumentsOf, callsOf]

theorem says_blank (h : ∀ d ∈ chunks, d.Blank) : Says [] chunks := by
  induction chunks with
  | nil => exact ⟨rfl, rfl, fun k => rfl⟩
  | cons c _ ih =>
    obtain ⟨htext, hthinking, hcalls⟩ := h c mem_cons_self
    have hone : Says [] [c] := by
      refine ⟨?_, ?_, ?_⟩
      · simp [textOf, htext]
      · simp [thinkingOf, hthinking]
      · intro k
        rw [argumentsOf_one, gather_blank fun a ha => hcalls a.2 (keyed_calls ha)]
        rfl
    exact hone.append (ih fun d hd => h d (mem_cons_of_mem _ hd))

/-- A first chunk that is kept says what its parts say. -/
theorem says_firstParts {c : ChatChunk} (h : c.FirstKept) : Says c.firstParts [c] := by
  obtain ⟨hwords, hcalls⟩ := h
  obtain ⟨htext, hthinking⟩ := shown_words hwords
  unfold ChatChunk.firstParts
  cases hc : c.toolCalls with
  | nil =>
    refine ⟨?_, ?_, ?_⟩
    · simpa [textOf, keyed] using htext
    · simpa [thinkingOf, keyed] using hthinking
    · intro k
      rw [argumentsOf_one, hc, partCalls_append, partCalls_words]
      rfl
  | cons call calls =>
    rw [hc] at hcalls
    have hkeyed : ∃ offset rest, keyed (call :: calls) = (offset, call) :: rest ∧ ∀ a ∈ rest, a.2 ∈ calls := by
      refine ⟨call.index.getD 0, (calls.zipIdx 1).map fun p => (p.1.index.getD p.2, p.1), ?_, ?_⟩
      · simp [keyed, zipIdx_cons]
      · intro a ha
        obtain ⟨⟨call', i⟩, hmem, rfl⟩ := mem_map.mp ha
        exact (mem_zipIdx hmem).2.2 ▸ getElem_mem _
    obtain ⟨offset, rest, hkeyed, hrest⟩ := hkeyed
    rw [hkeyed]
    refine ⟨?_, ?_, ?_⟩
    · simpa [textOf, Part.shownText] using htext
    · simpa [thinkingOf, Part.shownThinking] using hthinking
    · intro k
      have hblank : gather k (arguments rest) = "" := gather_blank (fun a ha => hcalls a.2 (hrest a ha)) k
      rw [argumentsOf_one, hc, hkeyed, partCalls_append, partCalls_words]
      show gather k [(offset, call.arguments)] = gather k ((offset, call.arguments) :: arguments rest)
      rw [gather_cons, gather_cons, hblank]
      rfl

/-- And so does one that follows. -/
theorem says_readLater {c : ChatChunk} (h : c.LaterKept) : Says c.readLater [c] := by
  unfold ChatChunk.LaterKept at h
  unfold ChatChunk.readLater
  by_cases hdeferred : c.deferred = true
  · rw [if_pos hdeferred] at h ⊢
    refine says_blank ?_
    intro d hd
    rw [mem_singleton.mp hd]
    exact h
  · rw [if_neg hdeferred] at h ⊢
    unfold ChatChunk.laterParts
    by_cases hcalls : c.toolCalls ≠ []
    · rw [if_pos hcalls] at h ⊢
      refine ⟨?_, ?_, ?_⟩
      · simp [textOf, h.2, Part.shownText]
      · simp [thinkingOf, h.1, Part.shownThinking]
      · intro k
        rw [argumentsOf_one]
        simp [partCalls, Part.calls]
    · rw [if_neg hcalls] at h ⊢
      obtain ⟨htext, hthinking⟩ := shown_words h
      refine ⟨?_, ?_, ?_⟩
      · simpa [textOf] using htext
      · simpa [thinkingOf] using hthinking
      · intro k
        rw [argumentsOf_one, not_not.mp hcalls, partCalls_words]
        rfl

theorem says_laterPartsOf {preseeded : Option Usage} (h : KeptLater preseeded chunks) :
    Says (laterPartsOf preseeded chunks) chunks := by
  induction chunks with
  | nil => exact ⟨rfl, rfl, fun k => rfl⟩
  | cons c chunks ih =>
    obtain ⟨hc, hrest⟩ := h
    show Says _ ([c] ++ chunks)
    refine (says_readLater hc).append ?_
    by_cases hends : c.endsLater preseeded = true
    · rw [if_pos hends] at hrest ⊢
      exact says_blank hrest
    · rw [if_neg hends] at hrest ⊢
      exact ih hrest

/-- So a stream that is kept is said as a whole. -/
theorem says_partsOf {preseeded : Option Usage} (h : Kept preseeded chunks) :
    Says (partsOf preseeded chunks) chunks := by
  cases chunks with
  | nil => exact ⟨rfl, rfl, fun k => rfl⟩
  | cons c chunks =>
    obtain ⟨hc, hrest⟩ := h
    show Says _ ([c] ++ chunks)
    refine (says_firstParts hc).append ?_
    by_cases hends : c.endsFirst preseeded = true
    · rw [if_pos hends] at hrest ⊢
      exact says_blank hrest
    · rw [if_neg hends] at hrest ⊢
      exact says_laterPartsOf hrest

end NovaMaas.Convert
