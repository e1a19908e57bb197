/-
  From a chat stream to a Gemini stream (relaykit/relayconvert/internal/oai_chat/to_gemini_chat_resp.go).

  The converter keeps no state: every chunk is converted by itself.  A chunk with nothing to show and no finish reason is
  skipped, and its usage with it.  A fragment of a tool call becomes a call of a function of its own, whatever it has of
  the arguments; and beside tool calls, even an empty list of them, the text of a chunk is not looked at.

  So everything arrives exactly when there was nothing to put together: each call in one fragment, no text beside calls,
  and the last usage on a chunk that is not skipped.  A usage may bring a Gemini usage along: then that one is shown, and
  the counts beside it are not.
-/
import NovaMaas.Convert.ChatAccumulate
import NovaMaas.Convert.GeminiMessage

open List

namespace NovaMaas.Convert

open Gather

/-- JSON objects as they are read from arguments: what cannot be read is wrapped, and nothing at all is not an object. -/
structure ObjectCodec (J : Type) where
  parse       : String → Option J
  wrap        : String → J
  empty       : J
  parse_empty : parse "" = none

variable {J : Type}

/-! ## The converter -/

/-- The finish reason a candidate gets. -/
def geminiFinishReason (finishReason : String) : String :=
  match finishReason with
  | "stop" => "STOP"
  | "length" => "MAX_TOKENS"
  | "content_filter" => "SAFETY"
  | "tool_calls" => "STOP"
  | _ => "STOP"

/-- The list of tool calls is not nil. -/
def Choice.toolCallsSet (choice : Choice) : Bool := choice.toolCalls ≠ [] || choice.noToolCalls

section
variable (codec : ObjectCodec J)

/-- The part of a fragment of a tool call. -/
def toolCallPart (toolCall : ToolCallResponse) : GeminiPart J :=
  { functionCall := some
      { functionName := toolCall.name
        arguments := if toolCall.arguments ≠ "" then (codec.parse toolCall.arguments).getD (codec.wrap toolCall.arguments)
          else codec.empty } }

def choiceParts (choice : Choice) : List (GeminiPart J) :=
  if choice.toolCallsSet then choice.toolCalls.map (toolCallPart codec)
  else if choice.getContentString ≠ "" then [{ text := choice.getContentString }] else []

def geminiBillingMetadataFromOpenAIUsage (usage : Usage) : Option GeminiUsageMetadata :=
  usage.billingUsage.bind fun billingUsage =>
    if billingUsage.source ≠ "gemini_chat" ∧ billingUsage.semantic ≠ "gemini" then none
    else billingUsage.geminiUsageMetadata

/-- The counts of a usage, under Gemini's names. -/
def usageCounts (usage : Usage) : GeminiUsageMetadata where
  promptTokenCount := usage.promptTokens
  candidatesTokenCount := usage.completionTokens
  totalTokenCount := usage.totalTokens

def geminiUsageOf (estimatePromptTokens : ℤ) (usage : Option Usage) : GeminiUsageMetadata :=
  match usage with
  | none => { promptTokenCount := estimatePromptTokens, totalTokenCount := estimatePromptTokens }
  | some usage => (geminiBillingMetadataFromOpenAIUsage usage).getD (usageCounts usage)

/-- A chunk that has nothing to show and no finish reason. -/
def ChatChunk.skipped (chunk : ChatChunk) : Bool :=
  !(chunk.choices.any fun choice => choice.getContentString ≠ "" || choice.toolCalls ≠ []) &&
    !(chunk.choices.any fun choice => choice.finishReason.isSome)

/-- `StreamResponseOpenAI2Gemini`. -/
def streamResponseOpenAI2Gemini (estimatePromptTokens : ℤ) (chunk : ChatChunk) : Option (GeminiChatResponse J) :=
  if chunk.skipped then none
  else some
    { candidates := chunk.choices.map fun choice =>
        { parts := choiceParts codec choice, finishReason := choice.finishReason.map geminiFinishReason }
      usageMetadata := geminiUsageOf estimatePromptTokens chunk.usage }

/-- The Gemini chunks of a stream. -/
def geminiChunks (estimatePromptTokens : ℤ) (chunks : List ChatChunk) : List (GeminiChatResponse J) :=
  chunks.filterMap (streamResponseOpenAI2Gemini codec estimatePromptTokens)

end

/-! ## What is read -/

def GeminiChatResponse.parts (response : GeminiChatResponse J) : List (GeminiPart J) :=
  response.candidates.flatMap GeminiChatCandidate.parts

/-- The text of all chunks. -/
def geminiText (responses : List (GeminiChatResponse J)) : String :=
  joined ((responses.flatMap GeminiChatResponse.parts).map GeminiPart.text)

/-- The calls of all chunks. -/
def geminiCalls (responses : List (GeminiChatResponse J)) : List (String × J) :=
  (responses.flatMap GeminiChatResponse.parts).filterMap fun part =>
    part.functionCall.map fun call => (call.functionName, call.arguments)

/-- The last usage of a stream. -/
def lastUsage (chunks : List ChatChunk) : Option Usage := (chunks.filterMap ChatChunk.usage).getLast?

/-- The Gemini chunks say what is put together from the chat stream: the text, each call once with its name and all of its
arguments, and the last usage. -/
structure GeminiKept (codec : ObjectCodec J) (estimatePromptTokens : ℤ) (chunks : List ChatChunk)
    (responses : List (GeminiChatResponse J)) : Prop where
  text  : geminiText responses = (({} : ChatAccumulated).addAll chunks).text
  calls : ((geminiCalls responses).map fun call => (call.1, some call.2)).Perm
    ((({} : ChatAccumulated).addAll chunks).calls.map fun p => (p.2.name, codec.parse p.2.arguments))
  usage : ∀ usage, lastUsage chunks = some usage → ∃ response ∈ responses, response.usageMetadata = usageCounts usage

/-- The calls of a stream are whole: none is cut into fragments. -/
def WholeCalls (chunks : List ChatChunk) : Prop := ((fragmentsOf chunks).map Prod.fst).Nodup

instance (chunks : List ChatChunk) : Decidable (WholeCalls chunks) := inferInstanceAs (Decidable (List.Nodup _))

/-- No text stands beside tool calls. -/
def TextApart (chunks : List ChatChunk) : Prop :=
  ∀ c ∈ chunks, ∀ choice ∈ c.choices, choice.toolCallsSet = true → choice.getContentString = ""

instance (chunks : List ChatChunk) : Decidable (TextApart chunks) :=
  inferInstanceAs (Decidable (∀ c ∈ chunks, ∀ choice ∈ c.choices, choice.toolCallsSet = true → _ = ""))

/-- The counts of the last usage are those of a chunk that is not skipped: of the Gemini usage it brings along, else of
its own usage, or of the estimate where it has none. -/
def UsageShown (estimatePromptTokens : ℤ) (chunks : List ChatChunk) : Prop :=
  ∀ usage, lastUsage chunks = some usage → ∃ c ∈ chunks, c.skipped = false ∧
    geminiUsageOf estimatePromptTokens c.usage = usageCounts usage

/-! ## The parts -/

section
variable (codec : ObjectCodec J)

variable (estimatePromptTokens : ℤ) (chunks : List ChatChunk)

/-- The parts of all chunks; a chunk that is skipped has none. -/
theorem parts_geminiChunks : (geminiChunks codec estimatePromptTokens chunks).flatMap GeminiChatResponse.parts =
      chunks.flatMap fun c => c.choices.flatMap (choiceParts codec) := by
  induction chunks with
  | nil => rfl
  | cons c _ ih =>
    rw [geminiChunks, filterMap_cons, flatMap_cons, ← ih]
    unfold streamResponseOpenAI2Gemini
    by_cases hskipped : c.skipped = true
    · have hnone : c.choices.flatMap (choiceParts codec) = [] := by
        rw [flatMap_eq_nil_iff]
        intro choice hchoice
        simp only [ChatChunk.skipped, Bool.and_eq_true, Bool.not_eq_true', any_eq_false] at hskipped
        have hempty := hskipped.1 choice hchoice
        simp only [Bool.or_eq_true, decide_eq_true_eq, not_or, not_not] at hempty
        simp [choiceParts, hempty.1, hempty.2]
      rw [if_pos hskipped, hnone, nil_append]
      rfl
    · rw [if_neg hskipped, flatMap_cons]
      congr 1
      simp [GeminiChatResponse.parts, flatMap_map]

/-- The text of the parts of a chunk. -/
def shownContent (c : ChatChunk) : String :=
  joined (c.choices.map fun choice => if choice.toolCallsSet then "" else choice.getContentString)

theorem text_choiceParts (choice : Choice) : joined ((choiceParts codec choice).map GeminiPart.text) =
      if choice.toolCallsSet then "" else choice.getContentString := by
  unfold choiceParts
  by_cases hset : choice.toolCallsSet = true
  · rw [if_pos hset, if_pos hset]
    have hempty : ∀ calls : List ToolCallResponse,
        joined ((calls.map (toolCallPart codec)).map GeminiPart.text) = "" := by
      intro calls
      induction calls with
      | nil => rfl
      | cons _ _ ih =>
        rw [map_cons, map_cons, joined_cons, ih]
        rfl
    exact hempty choice.toolCalls
  · rw [if_neg hset, if_neg hset]
    by_cases htext : choice.getContentString = ""
    · simp [htext]
    · simp [htext]

theorem geminiText_geminiChunks :
    geminiText (geminiChunks codec estimatePromptTokens chunks) = joined (chunks.map shownContent) := by
  have hchoices : ∀ choices : List Choice, joined ((choices.flatMap (choiceParts codec)).map GeminiPart.text) =
      joined (choices.map fun choice => if choice.toolCallsSet then "" else choice.getContentString) := by
    intro choices
    induction choices with
    | nil => rfl
    | cons _ _ ih =>
      rw [flatMap_cons, map_append, joined_append, ih, text_choiceParts, map_cons, joined_cons]
  unfold geminiText
  rw [parts_geminiChunks]
  induction chunks with
  | nil => rfl
  | cons _ _ ih =>
    rw [flatMap_cons, map_append, joined_append, ih, hchoices, map_cons, joined_cons]
    rfl

/-- A chunk with one choice shows its text or nothing. -/
theorem shownContent_single {c : ChatChunk} (h : c.Single) : (shownContent c = c.text ∨ shownContent c = "") ∧
      (shownContent c = c.text ↔ ∀ choice ∈ c.choices, choice.toolCallsSet = true → choice.getContentString = "") := by
  unfold shownContent ChatChunk.text
  rcases h.cases with hc | ⟨choice, hc⟩
  · simp [hc]
  · by_cases hset : choice.toolCallsSet = true
    · constructor
      · exact Or.inr (by simp [hc, hset])
      · rw [hc]
        simp [hset]
    · simp [hc, hset]

/-- What a fragment becomes a call with. -/
def callOfFragment (call : ToolCallResponse) : String × J :=
  (call.name, if call.arguments ≠ "" then (codec.parse call.arguments).getD (codec.wrap call.arguments) else codec.empty)

/-- Every fragment becomes a call. -/
theorem geminiCalls_geminiChunks {chunks : List ChatChunk} (h : ∀ c ∈ chunks, c.Single) :
    geminiCalls (geminiChunks codec estimatePromptTokens chunks) =
      (fragmentsOf chunks).map fun p => callOfFragment codec p.2 := by
  have hchoice : ∀ choice : Choice, (choiceParts codec choice).filterMap (fun part =>
      part.functionCall.map fun call => (call.functionName, call.arguments)) =
        choice.toolCalls.map (callOfFragment codec) := by
    intro choice
    unfold choiceParts
    by_cases hset : choice.toolCallsSet = true
    · rw [if_pos hset, filterMap_map, ← filterMap_eq_map]
      rfl
    · have hnil : choice.toolCalls = [] := by
        unfold Choice.toolCallsSet at hset
        simp only [Bool.or_eq_true, decide_eq_true_eq, not_or, not_not] at hset
        exact hset.1
      rw [if_neg hset, hnil]
      split <;> rfl
  unfold geminiCalls
  rw [parts_geminiChunks]
  induction chunks with
  | nil => rfl
  | cons c _ ih =>
    have hc := h c mem_cons_self
    rw [flatMap_cons, filterMap_append, ih fun c hc => h c (mem_cons_of_mem _ hc), fragmentsOf_cons, map_append]
    congr 1
    have hkeyed : (keyed c.toolCalls).map (fun p => callOfFragment codec p.2) =
        c.toolCalls.map (callOfFragment codec) := by
      conv_rhs => rw [← keyed_snd c.toolCalls, map_map]
      rfl
    rw [hkeyed]
    unfold ChatChunk.toolCalls
    rcases hc.cases with hcs | ⟨choice, hcs⟩
    · simp [hcs]
    · simp [hcs, hchoice]

end

/-! ## What arrives -/

/-- Everything arrives exactly when no text stands beside tool calls, no call is cut into fragments, and the last usage is
shown. -/
theorem gemini_stream_kept_iff (codec : ObjectCodec J) (estimatePromptTokens : ℤ) {chunks : List ChatChunk}
    (hsingle : ∀ c ∈ chunks, c.Single)
    (hargs : ∀ p ∈ (({} : ChatAccumulated).addAll chunks).calls, (codec.parse p.2.arguments).isSome) :
    GeminiKept codec estimatePromptTokens chunks (geminiChunks codec estimatePromptTokens chunks) ↔
      TextApart chunks ∧ WholeCalls chunks ∧ UsageShown estimatePromptTokens chunks := by
  have htext : geminiText (geminiChunks codec estimatePromptTokens chunks) =
      (({} : ChatAccumulated).addAll chunks).text ↔ TextApart chunks := by
    rw [geminiText_geminiChunks, ChatAccumulated.addAll_text, String.empty_append, joined_eq_iff_of_eq_or_empty]
    · exact forall₂_congr fun c hc => (shownContent_single (hsingle c hc)).2
    · exact fun c hc => (shownContent_single (hsingle c hc)).1
  have husage : (∀ usage, lastUsage chunks = some usage → ∃ response ∈ geminiChunks codec estimatePromptTokens chunks,
        response.usageMetadata = usageCounts usage) ↔
      UsageShown estimatePromptTokens chunks := by
    refine forall₂_congr fun usage _ => ?_
    unfold geminiChunks
    constructor
    · rintro ⟨response, hresponse, heq⟩
      obtain ⟨c, hc, hconvert⟩ := mem_filterMap.1 hresponse
      unfold streamResponseOpenAI2Gemini at hconvert
      split at hconvert
      · cases hconvert
      · rename_i hskipped
        obtain rfl := Option.some.inj hconvert
        exact ⟨c, hc, by simpa using hskipped, heq⟩
    · rintro ⟨c, hc, hskipped, heq⟩
      refine ⟨_, mem_filterMap.2 ⟨c, hc, if_neg (by simp [hskipped])⟩, heq⟩
  rw [← htext, ← husage]
  constructor
  · intro h
    refine ⟨h.text, ?_, h.usage⟩
    have hlen := h.calls.length_eq
    rw [geminiCalls_geminiChunks codec estimatePromptTokens hsingle, ChatAccumulated.addAll_calls] at hlen
    simp only [length_map] at hlen
    exact nodup_of_length_addFragments hlen.symm
  · rintro ⟨h, hwhole, h'⟩
    refine ⟨h, ?_, h'⟩
    have hcalls : (({} : ChatAccumulated).addAll chunks).calls = fragmentsOf chunks := by
      rw [ChatAccumulated.addAll_calls, addFragments_nodup (by simpa [WholeCalls] using hwhole)]
      rfl
    rw [hcalls] at hargs ⊢
    rw [geminiCalls_geminiChunks codec estimatePromptTokens hsingle, map_map]
    refine List.Perm.of_eq (map_congr_left fun p hp => ?_)
    obtain ⟨v, hv⟩ := Option.isSome_iff_exists.1 (hargs p hp)
    have hne : p.2.arguments ≠ "" := by
      intro hempty
      rw [hempty, codec.parse_empty] at hv
      cases hv
    simp [callOfFragment, hne, hv]

/-- Objects, as their texts: what stands between braces. -/
def objectTexts : ObjectCodec String where
  parse := fun s =>
    if s.toList.head? = some (Char.ofNat 0x7B) ∧ s.toList.getLast? = some (Char.ofNat 0x7D) then some s else none
  wrap := fun s => s
  empty := "\x7b\x7d"
  parse_empty := by decide

/-- A text, a whole call, and the end with the usage. -/
def wholeCallStream : List ChatChunk :=
  [{ choices := [{ content := some "One moment." }] },
    { choices := [{ toolCalls := [{ index := some 0, id := "call_1", name := "lookup", arguments := "\x7b\x7d" }] }] },
    { choices := [{ finishReason := some "tool_calls" }], usage := some { promptTokens := 3, completionTokens := 5 } }]

theorem gemini_stream_kept_wholeCall :
    GeminiKept objectTexts 0 wholeCallStream (geminiChunks objectTexts 0 wholeCallStream) := by
  have hsingle : ∀ c ∈ wholeCallStream, c.Single := by decide
  have hargs : ∀ p ∈ (({} : ChatAccumulated).addAll wholeCallStream).calls,
      (objectTexts.parse p.2.arguments).isSome := by decide +kernel
  refine (gemini_stream_kept_iff objectTexts 0 hsingle hargs).2 ⟨by decide, by decide, ?_⟩
  intro usage husage
  obtain rfl : ({ promptTokens := 3, completionTokens := 5 } : Usage) = usage := Option.some.inj husage
  decide

/-- A call cut into two fragments. -/
def cutCallStream : List ChatChunk :=
  [{ choices := [{ toolCalls := [{ index := some 0, id := "call_1", name := "lookup", arguments := "\x7b" }] }] },
    { choices := [{ toolCalls := [{ index := some 0, arguments := "\x7d" }] }] },
    { choices := [{ finishReason := some "tool_calls" }] }]

/-- It becomes two calls. -/
theorem gemini_stream_not_kept_cutCall : (∀ c ∈ cutCallStream, c.Single) ∧
    (∀ p ∈ (({} : ChatAccumulated).addAll cutCallStream).calls, (objectTexts.parse p.2.arguments).isSome) ∧
    ¬ GeminiKept objectTexts 0 cutCallStream (geminiChunks objectTexts 0 cutCallStream) := by
  refine ⟨by decide, by decide +kernel, fun h => ?_⟩
  have hlen := h.calls.length_eq
  exact absurd hlen (by decide +kernel)

end NovaMaas.Convert
