/-
  A streamed Gemini answer as a chat stream, compared with the whole answer made of the same parts.

  The converters put line breaks between the texts of parts, but not in the same places: a chunk knows only its own
  parts, and code has one more behind it in a stream.  So texts are compared by what they READ (`Separated.Reads`): the
  texts of the parts in their order, with line breaks between them.

  Where the stream and the whole answer part is seen by COUNTING the characters that are no line breaks: those of what a
  chunk writes as reasoning beside its thoughts, of media that no chunk writes, and of thoughts that the whole answer does
  not keep.
-/
import NovaMaas.Convert.GeminiToChat
import NovaMaas.Convert.ChatAccumulate
import NovaMaas.Lib.Separated

open Option hiding map_map

open List

namespace NovaMaas.Convert

open GeminiChunkInput ToolCallResponse

open ChatChunk hiding text

open Separated Gather GeminiPart
open GeminiToChatStreamState (run finalize)

variable {J : Type}

/-! ## Lines -/

def isLineBreak (c : Char) : Bool := c = '\n'

theorem blank_break : Blank isLineBreak "\n" := rfl

/-- Behind the first text there are line breaks and then the others. -/
theorem joinLines_cons (t : String) (ts : List String) :
    ∃ gap, Blank isLineBreak gap ∧ joinLines (t :: ts) = t ++ (gap ++ joinLines ts) := by
  cases ts with
  | nil => exact ⟨"", blank_empty, by rw [joinLines, joinLines, String.append_empty, String.append_empty]⟩
  | cons => exact ⟨"\n", blank_break, rfl⟩

theorem marks_joinLines (ts : List String) :
    Separated.marks isLineBreak (joinLines ts) = (ts.map (Separated.marks isLineBreak)).sum := by
  induction ts with
  | nil => rfl
  | cons t ts ih =>
    obtain ⟨gap, hgap, heq⟩ := joinLines_cons t ts
    rw [heq, Separated.marks_append, Separated.marks_append, Separated.marks_eq_zero.2 hgap, ih, map_cons,
      sum_cons, Nat.zero_add]

/-- What is written for a text: the text and line breaks, or nothing that counts where there is nothing that counts. -/
def Line (text written : Option String) : Prop :=
  (∃ t gap, text = some t ∧ written = some (t ++ gap) ∧ Blank isLineBreak gap) ∨
    ((∀ t ∈ text, Blank isLineBreak t) ∧ ∀ t ∈ written, Blank isLineBreak t)

theorem line_refl (text : Option String) : Line text text := by
  cases text with
  | none => exact Or.inr ⟨fun t ht => (by cases ht), fun t ht => (by cases ht)⟩
  | some t => exact Or.inl ⟨t, "", rfl, by rw [String.append_empty], blank_empty⟩

/-- The lines of some parts read the texts of the parts. -/
theorem reads_lines {α : Type} {text written : α → Option String} {parts : List α}
    (h : ∀ part ∈ parts, Line (text part) (written part)) :
    Reads isLineBreak (parts.filterMap text) (joinLines (parts.filterMap written)) := by
  induction parts with
  | nil => exact blank_empty
  | cons part rest ih =>
    have hrest := ih fun part hp => h part (mem_cons_of_mem _ hp)
    rcases h part mem_cons_self with ⟨t, gap, htext, hwritten, hgap⟩ | ⟨htext, hwritten⟩
    · rw [filterMap_cons_some htext, filterMap_cons_some hwritten]
      obtain ⟨gap', hgap', heq⟩ := joinLines_cons (t ++ gap) (rest.filterMap written)
      rw [heq, String.append_assoc]
      exact reads_cons t (Reads.blank_append hgap (Reads.blank_append hgap' hrest))
    · have hlines : ∃ gap, Blank isLineBreak gap ∧
          joinLines ((part :: rest).filterMap written) = gap ++ joinLines (rest.filterMap written) := by
        cases hw : written part with
        | none =>
          rw [filterMap_cons_none hw]
          exact ⟨"", blank_empty, String.empty_append.symm⟩
        | some t =>
          obtain ⟨gap, hgap, heq⟩ := joinLines_cons t (rest.filterMap written)
          rw [filterMap_cons_some hw, heq]
          exact ⟨t ++ gap, (hwritten t hw).append hgap, String.append_assoc.symm⟩
      obtain ⟨gap, hgap, heq⟩ := hlines
      rw [heq]
      have hafter := Reads.blank_append hgap hrest
      cases ht : text part with
      | none => rwa [filterMap_cons_none ht]
      | some t =>
        rw [filterMap_cons_some ht]
        exact Or.inl ⟨htext t ht, hafter⟩

/-- Texts that are all blank are read in every blank text. -/
theorem reads_blank {ts : List String} {s : String} (hts : ∀ t ∈ ts, Blank isLineBreak t) (hs : Blank isLineBreak s) :
    Reads isLineBreak ts s := by
  induction ts with
  | nil => exact hs
  | cons t _ ih =>
    exact Or.inl ⟨hts t mem_cons_self, ih fun t ht => hts t (mem_cons_of_mem _ ht)⟩

/-! ## Parts -/

/-- Inline data that is no image. -/
def GeminiPart.isMedia (part : GeminiPart J) : Bool := part.inlineData.any fun d => !d.isImage

theorem marks_markdown (label : String) (d : GeminiInlineData) : 0 < Separated.marks isLineBreak (d.markdown label) := by
  unfold GeminiInlineData.markdown
  rw [Separated.marks_append, Separated.marks_append]
  have hopen : Separated.marks isLineBreak "(data:" = 6 := by decide
  omega

/-- Code has a line break more in a chunk. -/
theorem plainText_line (part : GeminiPart J) : Line (part.plainText? "") (part.plainText? "\n") := by
  unfold plainText?
  cases part.executableCode with
  | some =>
    refine Or.inl ⟨_, "\n", rfl, ?_, blank_break⟩
    simp only [String.append_assoc, String.append_empty]
  | none =>
    cases part.codeExecutionResult with
    | some =>
      refine Or.inl ⟨_, "\n", rfl, ?_, blank_break⟩
      simp only [String.append_assoc, String.append_empty]
    | none => exact line_refl _

variable {part : GeminiPart J}

/-- A thought is written as it is, and to the content of a whole answer it writes nothing. -/
theorem texts_of_thought {t : String} (h : part.thoughtText? = some t) :
    part.chunkText? = some t ∧ part.wholeText? = none := by
  unfold thoughtText? at h
  unfold chunkText? wholeText?
  cases hinline : part.inlineData with
  | some =>
    rw [hinline] at h
    cases h
  | none =>
    cases hcall : part.functionCall with
    | some =>
      rw [hinline, hcall] at h
      cases h
    | none =>
      rw [hinline, hcall] at h
      by_cases hthought : part.thought = true
      · simp only [hthought, if_true] at h ⊢
        exact ⟨h, trivial⟩
      · simp only [hthought, if_false, Bool.false_eq_true] at h
        cases h

/-- Any other part that is not media is written to a chunk as to a whole answer. -/
theorem texts_of_other (h : part.thoughtText? = none) (hmedia : part.isMedia = false) :
    Line part.wholeText? part.chunkText? := by
  unfold thoughtText? at h
  unfold isMedia at hmedia
  unfold chunkText? wholeText?
  cases hinline : part.inlineData with
  | some =>
    rw [hinline, any_some, Bool.not_eq_false'] at hmedia
    simp only [hmedia, if_true]
    exact line_refl _
  | none =>
    cases hcall : part.functionCall with
    | some => exact line_refl _
    | none =>
      rw [hinline, hcall] at h
      by_cases hthought : part.thought = true
      · simp only [hthought, if_true] at h
        cases h
      · simp only [hthought, if_false, Bool.false_eq_true]
        exact plainText_line part

/-- Media are written to a whole answer only. -/
theorem texts_of_media (hmedia : part.isMedia = true) : part.thoughtText? = none ∧ part.chunkText? = none ∧
      ∃ t, part.wholeText? = some t ∧ 0 < Separated.marks isLineBreak t := by
  unfold isMedia at hmedia
  unfold thoughtText? chunkText? wholeText?
  cases hinline : part.inlineData with
  | some d =>
    rw [hinline, any_some, Bool.not_eq_true'] at hmedia
    simp only [hmedia, if_false, Bool.false_eq_true]
    exact ⟨trivial, trivial, _, rfl, marks_markdown _ d⟩
  | none =>
    rw [hinline] at hmedia
    cases hmedia

/-! ## The marks of some parts -/

/-- The marks of what is written for some parts. -/
def marksOf (text : GeminiPart J → Option String) (parts : List (GeminiPart J)) : ℕ :=
  ((parts.filterMap text).map (Separated.marks isLineBreak)).sum

/-- What a part writes to a chunk that is no thought. -/
def GeminiPart.besideText? (part : GeminiPart J) : Option String :=
  if part.thoughtText? = none then part.chunkText? else none

/-- What a part of media writes to a whole answer. -/
def GeminiPart.mediaText? (part : GeminiPart J) : Option String :=
  if part.isMedia then part.wholeText? else none

theorem marksOf_cons (text : GeminiPart J → Option String) (part : GeminiPart J) (parts : List (GeminiPart J)) :
    marksOf text (part :: parts) = (text part).elim 0 (Separated.marks isLineBreak) + marksOf text parts := by
  unfold marksOf
  cases htext : text part with
  | none => rw [filterMap_cons_none htext, elim_none, Nat.zero_add]
  | some => rw [filterMap_cons_some htext, elim_some, map_cons, sum_cons]

theorem marks_line {text written : Option String} (h : Line text written) :
    written.elim 0 (Separated.marks isLineBreak) = text.elim 0 (Separated.marks isLineBreak) := by
  rcases h with ⟨t, gap, rfl, rfl, hgap⟩ | ⟨htext, hwritten⟩
  · rw [elim_some, elim_some, Separated.marks_append, Separated.marks_eq_zero.2 hgap, Nat.add_zero]
  · have hzero : ∀ text : Option String, (∀ t ∈ text, Blank isLineBreak t) →
        text.elim 0 (Separated.marks isLineBreak) = 0 := by
      intro text h
      cases text with
      | none => rfl
      | some t => exact Separated.marks_eq_zero.2 (h t rfl)
    rw [hzero text htext, hzero written hwritten]

/-- A chunk writes the thoughts and what is beside them. -/
theorem marksOf_chunk (parts : List (GeminiPart J)) : marksOf chunkText? parts =
      marksOf thoughtText? parts + marksOf besideText? parts := by
  induction parts with
  | nil => rfl
  | cons part _ ih =>
    rw [marksOf_cons, marksOf_cons, marksOf_cons, ih]
    unfold besideText?
    cases hthought : part.thoughtText? with
    | none =>
      rw [if_pos rfl, elim_none]
      omega
    | some =>
      rw [if_neg (by simp), (texts_of_thought hthought).1, elim_none]
      omega

/-- A whole answer writes what is beside the thoughts, and the media. -/
theorem marksOf_whole (parts : List (GeminiPart J)) : marksOf wholeText? parts =
      marksOf besideText? parts + marksOf mediaText? parts := by
  induction parts with
  | nil => rfl
  | cons part _ ih =>
    rw [marksOf_cons, marksOf_cons, marksOf_cons, ih]
    unfold besideText? mediaText?
    by_cases hmedia : part.isMedia = true
    · obtain ⟨hthought, hchunk, _⟩ := texts_of_media hmedia
      rw [if_pos hthought, if_pos hmedia, hchunk, elim_none]
      omega
    · rw [if_neg hmedia, elim_none]
      cases hthought : part.thoughtText? with
      | none =>
        have hline := marks_line (texts_of_other hthought (Bool.eq_false_iff.2 hmedia))
        rw [if_pos rfl, hline]
        omega
      | some =>
        rw [if_neg (by simp), (texts_of_thought hthought).2, elim_none]
        omega

theorem marksOf_eq_zero {text : GeminiPart J → Option String} {parts : List (GeminiPart J)} :
    marksOf text parts = 0 ↔ ∀ part ∈ parts, ∀ t ∈ text part, Blank isLineBreak t := by
  induction parts with
  | nil => exact ⟨fun _ part hp => (by cases hp), fun _ => rfl⟩
  | cons part _ ih =>
    rw [marksOf_cons, Nat.add_eq_zero_iff, ih, forall_mem_cons]
    refine and_congr_left fun _ => ?_
    cases htext : text part with
    | none => exact ⟨fun _ t ht => (by cases ht), fun _ => rfl⟩
    | some t =>
      rw [elim_some, Separated.marks_eq_zero]
      constructor
      · intro h u hu
        rwa [← some_inj.1 hu]
      · intro h
        exact h t rfl

theorem media_of_marks {parts : List (GeminiPart J)} :
    marksOf mediaText? parts = 0 ↔ ∀ part ∈ parts, part.isMedia = false := by
  rw [marksOf_eq_zero]
  refine forall_congr' fun part => forall_congr' fun _ => ?_
  unfold mediaText?
  by_cases hmedia : part.isMedia = true
  · obtain ⟨_, _, t, ht, hpos⟩ := texts_of_media hmedia
    rw [if_pos hmedia, hmedia]
    constructor
    · intro h
      have hzero := Separated.marks_eq_zero.2 (h t ht)
      omega
    · intro h
      cases h
  · rw [if_neg hmedia]
    exact ⟨fun _ => Bool.eq_false_iff.2 hmedia, fun _ t ht => by cases ht⟩

/-! ## One call of the converter -/

namespace GeminiChunkInput

variable (input : GeminiChunkInput J)

/-- The chunk has one candidate. -/
def Single : Prop := input.response.candidates.length = 1

instance : Decidable input.Single := inferInstanceAs (Decidable (_ = _))

def parts : List (GeminiPart J) := input.response.candidates.flatMap GeminiChatCandidate.parts

def calls : List (GeminiFunctionCall J) := input.parts.filterMap call?

/-- The candidate stops. -/
def stops : Bool := input.response.candidates.any fun candidate => candidate.finishReason = some "STOP"

/-- The chunk shows a finish reason of its own: not for `STOP`, and not for an empty reason beside calls. -/
def finishes : Bool :=
  input.response.candidates.any fun candidate =>
    candidate.finishReason.any fun reason => reason ≠ "STOP" && (reason ≠ "" || input.calls = [])

end GeminiChunkInput

theorem parts_of_single {input : GeminiChunkInput J} {candidate : GeminiChatCandidate J}
    (h : input.response.candidates = [candidate]) : input.parts = candidate.parts := by
  unfold parts
  rw [h, flatMap_singleton]

theorem finishReasonOfGemini_ne (reason : String) : finishReasonOfGemini reason ≠ "" := by
  unfold finishReasonOfGemini
  split <;> decide

section
variable (marshal : J → String)

theorem candidateCalls_eq_nil (uuid : ℕ → String) (parts : List (GeminiPart J)) :
    candidateCalls marshal uuid parts = [] ↔ parts.filterMap call? = [] := by
  unfold candidateCalls
  rw [map_eq_nil_iff, zipIdx_eq_nil_iff]

theorem toolCalls_chunkChoice (uuid : ℕ → String) (candidate : GeminiChatCandidate J) :
    (chunkChoice marshal uuid candidate).toolCalls = [] ↔ candidate.parts.filterMap call? = [] := by
  show map _ _ = [] ↔ _
  rw [map_eq_nil_iff, zipIdx_eq_nil_iff, candidateCalls_eq_nil]

/-- The chunk a call sends first, and what becomes of the state. -/
structure Sent (s s' : GeminiToChatStreamState) (input : GeminiChunkInput J) (candidate : GeminiChatCandidate J)
    (chunk : ChatChunk) (more : List ChatChunk) : Prop where
  choice   : ∃ finishReason,
    chunk.choices = [{ chunkChoice marshal (input.uuid 0) candidate with finishReason := finishReason }]
  finished : chunk.finished = input.finishes
  more     : more = if input.stops && !(s.finishEmitted || input.finishes) then [s'.terminalChunk input.model] else []
  emitted  : s'.finishEmitted = (s.finishEmitted || input.finishes || input.stops)

variable {input : GeminiChunkInput J}

/-- The finish reason that is left of a choice. -/
theorem finished_chunkChoice {candidate : GeminiChatCandidate J} (h : input.response.candidates = [candidate]) :
    (if (chunkChoice marshal (input.uuid 0) candidate).toolCalls ≠ [] ∧ hasNonStopFinish input.response = false
      then (chunkChoice marshal (input.uuid 0) candidate).withoutToolCallsFinish
      else chunkChoice marshal (input.uuid 0) candidate).finished = input.finishes := by
  have hfinishes : input.finishes = candidate.finishReason.any fun reason =>
      reason ≠ "STOP" && (reason ≠ "" || input.calls = []) := by
    unfold finishes
    rw [h, any_cons, any_nil, Bool.or_false]
  have hnonstop : hasNonStopFinish input.response =
      candidate.finishReason.any fun reason => reason ≠ "" && reason ≠ "STOP" := by
    unfold hasNonStopFinish
    rw [h, any_cons, any_nil, Bool.or_false]
  have hcalls : input.calls = candidate.parts.filterMap call? := by
    unfold calls
    rw [parts_of_single h]
  rw [hfinishes, hnonstop, hcalls]
  by_cases hnone : candidate.parts.filterMap call? = []
  · -- no calls: the reason of the candidate, unless it is `STOP`
    have hnotools := (toolCalls_chunkChoice marshal (input.uuid 0) candidate).2 hnone
    rw [if_neg (fun hboth => hboth.1 hnotools)]
    have hreason : (chunkChoice marshal (input.uuid 0) candidate).finishReason =
        if candidate.finishReason = some "STOP" then none else candidate.finishReason.map finishReasonOfGemini :=
      if_neg (fun hsome => hsome hnone)
    unfold Choice.finished
    rw [hreason]
    cases hfinish : candidate.finishReason with
    | none => rfl
    | some reason =>
      by_cases hstop : reason = "STOP"
      · rw [hstop, if_pos rfl]
        rfl
      · rw [if_neg fun heq => hstop (some.inj heq)]
        simp [hstop, hnone, finishReasonOfGemini_ne]
  · -- calls: `tool_calls`, which stays only beside another finish reason
    have htools : (chunkChoice marshal (input.uuid 0) candidate).toolCalls ≠ [] := fun heq =>
      hnone ((toolCalls_chunkChoice marshal (input.uuid 0) candidate).1 heq)
    have hreason : (chunkChoice marshal (input.uuid 0) candidate).finishReason = some finishReasonToolCalls :=
      if_pos hnone
    have hwithout : (chunkChoice marshal (input.uuid 0) candidate).withoutToolCallsFinish.finishReason = none :=
      if_pos hreason
    have htoolCalls : (finishReasonToolCalls ≠ "") = True := eq_true (by decide)
    cases hfinish : candidate.finishReason with
    | none =>
      rw [if_pos ⟨htools, rfl⟩]
      unfold Choice.finished
      rw [hwithout]
      rfl
    | some reason =>
      by_cases hnot : reason ≠ "" ∧ reason ≠ "STOP"
      · have hyes : ((some reason).any fun reason => reason ≠ "" && reason ≠ "STOP") = true := by simp [hnot.1, hnot.2]
        rw [if_neg (fun hboth => by rw [hyes] at hboth; cases hboth.2)]
        unfold Choice.finished
        rw [hreason]
        simp [hnot.1, hnot.2, htoolCalls]
      · have hno : ((some reason).any fun reason => reason ≠ "" && reason ≠ "STOP") = false := by
          simpa using hnot
        rw [if_pos ⟨htools, hno⟩]
        unfold Choice.finished
        rw [hwithout]
        have hempty : ¬ reason = "STOP" → reason = "" := fun hstop => by_contra fun hne => hnot ⟨hne, hstop⟩
        symm
        simpa [hnone] using hempty

theorem convertChunk_sent (s : GeminiToChatStreamState)
    {candidate : GeminiChatCandidate J} (h : input.response.candidates = [candidate]) :
    ∃ s' chunk more, s.convertChunk marshal input = (s', chunk :: more) ∧
      Sent marshal s s' input candidate chunk more := by
  have hconverted : streamResponseGeminiChat2OpenAI marshal input.uuid input.response =
      ([chunkChoice marshal (input.uuid 0) candidate], input.stops) := by
    unfold streamResponseGeminiChat2OpenAI stops
    rw [h]
    rfl
  have hfinished := finished_chunkChoice marshal h
  obtain ⟨choice, hchoice⟩ : ∃ choice, choice =
      if (chunkChoice marshal (input.uuid 0) candidate).toolCalls ≠ [] ∧ hasNonStopFinish input.response = false
        then (chunkChoice marshal (input.uuid 0) candidate).withoutToolCallsFinish
        else chunkChoice marshal (input.uuid 0) candidate := ⟨_, rfl⟩
  rw [← hchoice] at hfinished
  have hreason : ∃ finishReason,
      choice = { chunkChoice marshal (input.uuid 0) candidate with finishReason := finishReason } := by
    rw [hchoice]
    split
    · exact ⟨_, rfl⟩
    · exact ⟨_, rfl⟩
  have hchoices : (if (([chunkChoice marshal (input.uuid 0) candidate].head?.any fun choice => choice.toolCalls ≠ []) &&
        !hasNonStopFinish input.response) = true
      then [chunkChoice marshal (input.uuid 0) candidate].map Choice.withoutToolCallsFinish
      else [chunkChoice marshal (input.uuid 0) candidate]) = [choice] := by
    rw [hchoice]
    by_cases hboth : (chunkChoice marshal (input.uuid 0) candidate).toolCalls ≠ [] ∧
        hasNonStopFinish input.response = false
    · rw [if_pos hboth, if_pos (by simpa using hboth)]
      rfl
    · rw [if_neg hboth, if_neg (by simpa using hboth)]
  have hany : [choice].any Choice.finished = input.finishes := by
    rw [any_cons, any_nil, Bool.or_false, hfinished]
  unfold GeminiToChatStreamState.convertChunk
  simp only [hconverted, hchoices, hany]
  have hshow : ∀ id created, finished
      { id := id, model := input.model, created := created, choices := [choice], usage := input.usage } =
        input.finishes := fun _ _ => hfinished
  by_cases hstop : (input.stops && !(s.finishEmitted || input.finishes)) = true
  · rw [if_pos hstop]
    refine ⟨_, _, _, rfl, ?_, hshow _ _, ?_, ?_⟩
    · obtain ⟨finishReason, hreason⟩ := hreason
      exact ⟨finishReason, by rw [hreason]⟩
    · rw [if_pos hstop]
      rfl
    · simp only [Bool.and_eq_true] at hstop
      rw [hstop.1, Bool.or_true]
  · rw [if_neg hstop]
    refine ⟨_, _, _, rfl, ?_, hshow _ _, ?_, ?_⟩
    · obtain ⟨finishReason, hreason⟩ := hreason
      exact ⟨finishReason, by rw [hreason]⟩
    · rw [if_neg hstop]
    · show (s.finishEmitted || input.finishes) = _
      cases hstops : input.stops with
      | false => rw [Bool.or_false]
      | true =>
        rw [hstops, Bool.true_and, Bool.not_eq_true', Bool.not_eq_false] at hstop
        rw [hstop, Bool.true_or]

/-! ## A whole stream -/

theorem finished_terminalChunk (s : GeminiToChatStreamState) (model : String) :
    (s.terminalChunk model).finished = true := by
  unfold GeminiToChatStreamState.terminalChunk
  cases s.sawToolCall
  · rfl
  · rfl

/-- A candidate ends the stream for the converter. -/
def GeminiChunkInput.ends (input : GeminiChunkInput J) : Bool := input.finishes || input.stops

/-- No chunk shows a finish reason of its own after one that ended the stream. -/
def EndsOnce (inputs : List (GeminiChunkInput J)) : Prop :=
  inputs.Pairwise fun input later => input.ends = true → later.finishes = false

instance (inputs : List (GeminiChunkInput J)) : Decidable (EndsOnce inputs) :=
  inferInstanceAs (Decidable (List.Pairwise _ _))

theorem single_iff : input.Single ↔ ∃ candidate, input.response.candidates = [candidate] := length_eq_one_iff

variable {inputs : List (GeminiChunkInput J)}

/-- Once the finish reason is out, every chunk with one of its own shows one more. -/
theorem count_emitted (model : String) :
    ∀ {s : GeminiToChatStreamState}, (∀ input ∈ inputs, input.Single) → s.finishEmitted = true →
      ((run marshal model s inputs).countP finished = 0 ↔ ∀ input ∈ inputs, input.finishes = false) := by
  induction inputs with
  | nil =>
    intro s _ hs
    rw [run, finalize, if_pos hs]
    simp
  | cons input rest ih =>
    intro s hsingle hs
    obtain ⟨candidate, hcandidate⟩ := single_iff.1 (hsingle input mem_cons_self)
    obtain ⟨s', chunk, more, heq, hsent⟩ := convertChunk_sent marshal s hcandidate
    have hmore : more = [] := by
      rw [hsent.more, hs, Bool.true_or, Bool.not_true, Bool.and_false]
      rfl
    have hs' : s'.finishEmitted = true := by
      rw [hsent.emitted, hs, Bool.true_or, Bool.true_or]
    have hrest := ih (fun input hi => hsingle input (mem_cons_of_mem _ hi)) hs'
    have hrun : run marshal model s (input :: rest) = chunk :: run marshal model s' rest := by
      rw [run, heq, hmore]
      rfl
    rw [hrun, countP_cons, Nat.add_eq_zero_iff, hrest, hsent.finished, forall_mem_cons, and_comm]
    refine and_congr_left fun _ => ?_
    cases input.finishes <;> simp

/-- Until then, it comes out exactly once if no chunk shows one after the stream has ended. -/
theorem count_open (model : String) :
    ∀ {s : GeminiToChatStreamState}, (∀ input ∈ inputs, input.Single) → s.finishEmitted = false →
      ((run marshal model s inputs).countP finished = 1 ↔ EndsOnce inputs) := by
  induction inputs with
  | nil =>
    intro s _ hs
    rw [run, finalize, if_neg (by rw [hs]; decide)]
    show countP finished [s.terminalChunk model] = 1 ↔ _
    rw [countP_cons, finished_terminalChunk]
    exact iff_of_true rfl List.Pairwise.nil
  | cons input rest ih =>
    intro s hsingle hs
    have hrestsingle : ∀ input ∈ rest, input.Single := fun input hi => hsingle input (mem_cons_of_mem _ hi)
    obtain ⟨candidate, hcandidate⟩ := single_iff.1 (hsingle input mem_cons_self)
    obtain ⟨s', chunk, more, heq, hsent⟩ := convertChunk_sent marshal s hcandidate
    have hrun : run marshal model s (input :: rest) = chunk :: (more ++ run marshal model s' rest) := by
      rw [run, heq]
      rfl
    have hemitted : s'.finishEmitted = input.ends := by
      rw [hsent.emitted, hs, Bool.false_or]
      rfl
    rw [hrun, countP_cons, countP_append, hsent.finished]
    unfold EndsOnce at ih ⊢
    rw [pairwise_cons]
    cases hends : input.ends with
    | false =>
      have hboth : input.finishes = false ∧ input.stops = false := Bool.or_eq_false_iff.1 hends
      have hmore : more = [] := by
        rw [hsent.more, hboth.2, Bool.false_and]
        rfl
      have hrest := ih hrestsingle (hemitted.trans hends)
      rw [hmore, countP_nil, hboth.1]
      simp [hrest]
    | true =>
      -- one finish reason comes out here, so there may be no other
      have hone : countP finished more + (if input.finishes = true then 1 else 0) = 1 := by
        cases hfinishes : input.finishes with
        | true =>
          have hmore : more = [] := by
            rw [hsent.more, hfinishes, Bool.or_true, Bool.not_true, Bool.and_false]
            rfl
          rw [hmore]
          rfl
        | false =>
          have hstops : input.stops = true := by
            unfold ends at hends
            rwa [hfinishes, Bool.false_or] at hends
          have hmore : more = [s'.terminalChunk input.model] := by
            rw [hsent.more, hstops, hs, hfinishes]
            rfl
          rw [hmore, countP_cons, finished_terminalChunk]
          rfl
      have hrest := count_emitted marshal model hrestsingle (hemitted.trans hends)
      have hpairs : rest.Pairwise (fun input later => input.ends = true → later.finishes = false) ∧
          (∀ later ∈ rest, later.finishes = false) ↔ ∀ later ∈ rest, later.finishes = false := by
        refine and_iff_right_of_imp fun h => ?_
        rw [pairwise_iff_forall_sublist]
        intro a b hab _
        exact h b (hab.subset (by simp))
      simp only [forall_const]
      rw [and_comm, hpairs, ← hrest]
      omega

/-- What is read of every chunk of a stream comes from the candidates. -/
theorem run_flatMap {β : Type} (read : ChatChunk → List β) (wrote : GeminiChunkInput J → List β) (model : String)
    (hterminal : ∀ (s : GeminiToChatStreamState) model, read (s.terminalChunk model) = [])
    (hwrote : ∀ (chunk : ChatChunk) (input : GeminiChunkInput J) candidate finishReason,
      input.response.candidates = [candidate] →
      chunk.choices = [{ chunkChoice marshal (input.uuid 0) candidate with finishReason := finishReason }] →
      read chunk = wrote input)
    :
    ∀ {s : GeminiToChatStreamState}, (∀ input ∈ inputs, input.Single) →
      (run marshal model s inputs).flatMap read = inputs.flatMap wrote := by
  induction inputs with
  | nil =>
    intro s _
    rw [run, finalize]
    by_cases hs : s.finishEmitted = true
    · rw [if_pos hs]
      rfl
    · rw [if_neg hs]
      show [s.terminalChunk model].flatMap read = []
      rw [flatMap_singleton, hterminal]
  | cons input rest ih =>
    intro s hsingle
    obtain ⟨candidate, hcandidate⟩ := single_iff.1 (hsingle input mem_cons_self)
    obtain ⟨s', chunk, more, heq, hsent⟩ := convertChunk_sent marshal s hcandidate
    obtain ⟨finishReason, hchoice⟩ := hsent.choice
    have hmore : more.flatMap read = [] := by
      rw [hsent.more]
      split
      · rw [flatMap_singleton, hterminal]
      · rfl
    have hrun : run marshal model s (input :: rest) = chunk :: (more ++ run marshal model s' rest) := by
      rw [run, heq]
      rfl
    rw [hrun, flatMap_cons, flatMap_append, hmore, nil_append,
      ih fun input hi => hsingle input (mem_cons_of_mem _ hi), hwrote chunk input candidate _ hcandidate hchoice,
      flatMap_cons]

end

/-! ## What a stream keeps -/

section
variable (marshal : J → String)

/-- The calls a chunk gives, with their indexes. -/
def chunkCalls (input : GeminiChunkInput J) : List ToolCallResponse :=
  (candidateCalls marshal (input.uuid 0) input.parts).zipIdx.map fun p => { p.1 with index := some (p.2 : ℤ) }

/-- A call without its id, which is a new one on every conversion. -/
def callSaid (call : GeminiFunctionCall J) : String × String := (call.functionName, marshal call.arguments)

def ToolCallResponse.said (call : ToolCallResponse) : String × String := (call.name, call.arguments)

theorem said_candidateCalls (uuid : ℕ → String) (parts : List (GeminiPart J)) :
    (candidateCalls marshal uuid parts).map said = (parts.filterMap call?).map (callSaid marshal) := by
  unfold candidateCalls
  rw [map_map]
  have hfun : (said ∘ fun p : GeminiFunctionCall J × ℕ =>
      geminiResponseToolCall marshal (uuid p.2) p.1) = callSaid marshal ∘ Prod.fst := rfl
  rw [hfun, ← map_map, zipIdx_map_fst]

theorem said_chunkCalls (input : GeminiChunkInput J) :
    (chunkCalls marshal input).map said = input.calls.map (callSaid marshal) := by
  unfold chunkCalls calls
  rw [map_map, ← said_candidateCalls marshal (input.uuid 0)]
  have hfun : (said ∘ fun p : ToolCallResponse × ℕ => { p.1 with index := some (p.2 : ℤ) }) = said ∘ Prod.fst := rfl
  rw [hfun, ← map_map, zipIdx_map_fst]

theorem length_candidateCalls (uuid : ℕ → String) (parts : List (GeminiPart J)) :
    (candidateCalls marshal uuid parts).length = (parts.filterMap call?).length := by
  unfold candidateCalls
  rw [length_map, length_zipIdx]

/-- The indexes of a chunk count from zero. -/
theorem index_chunkCalls (input : GeminiChunkInput J) : (chunkCalls marshal input).map index =
      (range input.calls.length).map fun i : ℕ => some (i : ℤ) := by
  unfold chunkCalls calls
  rw [map_map]
  have hfun : (index ∘ fun p : ToolCallResponse × ℕ => { p.1 with index := some (p.2 : ℤ) }) =
      (fun i : ℕ => some (i : ℤ)) ∘ Prod.snd := rfl
  rw [hfun, ← map_map, zipIdx_map_snd, length_candidateCalls, range_eq_range']

theorem keyed_chunkCalls (input : GeminiChunkInput J) : (keyed (chunkCalls marshal input)).map (fun p => some p.1) =
      (chunkCalls marshal input).map index := by
  rw [index_chunkCalls]
  unfold keyed
  rw [map_map]
  have hindex : ∀ p ∈ (chunkCalls marshal input).zipIdx, some (p.1.index.getD (p.2 : ℤ)) = some (p.2 : ℤ) := by
    intro p hp
    have hget : (chunkCalls marshal input)[p.2]? = some p.1 := mem_zipIdx_iff_getElem?.1 hp
    have hsome : p.1.index = some (p.2 : ℤ) := by
      have hmap := congrArg (fun l => l[p.2]?) (index_chunkCalls marshal input)
      simp only [getElem?_map, hget, map_some] at hmap
      cases hrange : (range input.calls.length)[p.2]? with
      | none =>
        rw [hrange] at hmap
        cases hmap
      | some i =>
        rw [hrange, map_some] at hmap
        have hi : i = p.2 := by
          rw [getElem?_range] at hrange
          · exact (some.inj hrange).symm
          · by_contra hlarge
            rw [getElem?_eq_none (by simpa using hlarge)] at hrange
            cases hrange
        rw [some.inj hmap, hi]
    rw [hsome, getD_some]
  have hlength : (chunkCalls marshal input).length = input.calls.length := by
    unfold chunkCalls calls
    rw [length_map, length_zipIdx, length_candidateCalls]
  rw [range_eq_range', ← hlength, ← zipIdx_map_snd, map_map]
  exact map_congr_left hindex

/-- What a chunk writes: reasoning if it has a thought, and content otherwise. -/
def chunkLines (input : GeminiChunkInput J) : String := joinLines (input.parts.filterMap chunkText?)

def GeminiChunkInput.thinks (input : GeminiChunkInput J) : Prop := input.parts.filterMap thoughtText? ≠ []

instance (input : GeminiChunkInput J) : Decidable input.thinks := inferInstanceAs (Decidable (¬ _ = []))

variable (model : String) {s : GeminiToChatStreamState} {inputs : List (GeminiChunkInput J)}

theorem toolCalls_run (h : ∀ input ∈ inputs, input.Single) :
    (run marshal model s inputs).flatMap toolCalls = inputs.flatMap (chunkCalls marshal) := by
  refine run_flatMap marshal _ _ model (fun _ _ => rfl) ?_ h
  intro chunk input candidate finishReason hcandidate hchoice
  unfold toolCalls chunkCalls
  rw [hchoice, parts_of_single hcandidate]
  rfl

theorem fragments_run (h : ∀ input ∈ inputs, input.Single) :
    fragmentsOf (run marshal model s inputs) = inputs.flatMap fun input => keyed (chunkCalls marshal input) := by
  refine run_flatMap marshal _ _ model (fun _ _ => rfl) ?_ h
  intro chunk input candidate finishReason hcandidate hchoice
  unfold toolCalls chunkCalls
  rw [hchoice, parts_of_single hcandidate]
  rfl

theorem text_run (h : ∀ input ∈ inputs, input.Single) : joined ((run marshal model s inputs).map ChatChunk.text) =
      joined (inputs.map fun input => if input.thinks then "" else chunkLines input) := by
  rw [String.ext_iff, toList_joined, toList_joined, flatMap_map, flatMap_map]
  refine run_flatMap marshal _ _ model (fun _ _ => rfl) ?_ h
  intro chunk input candidate finishReason hcandidate hchoice
  have hparts := parts_of_single hcandidate
  unfold ChatChunk.text
  rw [hchoice]
  show (getD (if _ then none else some _) "").toList = _
  by_cases hthinks : input.thinks
  · have hthoughts : candidate.parts.filterMap thoughtText? ≠ [] := hparts ▸ hthinks
    rw [if_pos hthinks, if_pos hthoughts]
    rfl
  · have hthoughts : ¬ candidate.parts.filterMap thoughtText? ≠ [] := hparts ▸ hthinks
    rw [if_neg hthinks, if_neg hthoughts]
    unfold chunkLines
    rw [hparts]
    rfl

theorem thinking_run (h : ∀ input ∈ inputs, input.Single) : joined ((run marshal model s inputs).map thinking) =
      joined (inputs.map fun input => if input.thinks then chunkLines input else "") := by
  rw [String.ext_iff, toList_joined, toList_joined, flatMap_map, flatMap_map]
  refine run_flatMap marshal _ _ model (fun _ _ => rfl) ?_ h
  intro chunk input candidate finishReason hcandidate hchoice
  have hparts := parts_of_single hcandidate
  unfold thinking
  rw [hchoice]
  show (getD ((if _ then some _ else none) <|> none) "").toList = _
  by_cases hthinks : input.thinks
  · have hthoughts : candidate.parts.filterMap thoughtText? ≠ [] := hparts ▸ hthinks
    rw [if_pos hthinks, if_pos hthoughts]
    unfold chunkLines
    rw [hparts]
    rfl
  · have hthoughts : ¬ candidate.parts.filterMap thoughtText? ≠ [] := hparts ▸ hthinks
    rw [if_neg hthinks, if_neg hthoughts]
    rfl

/-- The stream keeps what the candidates say, and the message put together from it says what the whole answer says. -/
structure GeminiStreamKept (inputs : List (GeminiChunkInput J)) (out : List ChatChunk) (message : Message String) :
    Prop where
  finish        : out.countP finished = 1
  indexes       : ((out.flatMap toolCalls).map index).Nodup
  calls         : (out.flatMap toolCalls).map said = (inputs.flatMap calls).map (callSaid marshal)
  reasoning     : Reads isLineBreak ((inputs.flatMap parts).filterMap thoughtText?)
    (({} : ChatAccumulated).addAll out).reasoning
  text          : Reads isLineBreak ((inputs.flatMap parts).filterMap wholeText?)
    (({} : ChatAccumulated).addAll out).text
  sameReasoning : Reads isLineBreak ((inputs.flatMap parts).filterMap thoughtText?)
    message.getReasoningContent
  sameText      : Reads isLineBreak ((inputs.flatMap parts).filterMap wholeText?)
    message.stringContent
  sameCalls     : (({} : ChatAccumulated).addAll out).calls.map (fun p => p.2.said) =
    message.parseToolCalls.map fun call => (call.name, call.arguments)

/-- Nothing comes where the converters part. -/
structure GeminiStreamPlain (inputs : List (GeminiChunkInput J)) : Prop where
  ends     : EndsOnce inputs
  calls    : inputs.Pairwise fun input later => input.calls = [] ∨ later.calls = []
  media    : ∀ input ∈ inputs, ∀ part ∈ input.parts, part.isMedia = false
  beside   : ∀ input ∈ inputs, input.thinks → ∀ part ∈ input.parts, ∀ t ∈ part.besideText?, Blank isLineBreak t
  thoughts : ∀ t ∈ ((inputs.flatMap parts).filterMap thoughtText?).dropLast, Blank isLineBreak t

/-! ### Indexes -/

omit marshal in
theorem disjoint_range (m n : ℕ) :
    List.Disjoint ((range m).map fun i : ℕ => some (i : ℤ)) ((range n).map fun i : ℕ => some (i : ℤ)) ↔
      m = 0 ∨ n = 0 := by
  constructor
  · intro h
    by_contra hboth
    have hm : 0 < m := by omega
    have hn : 0 < n := by omega
    exact h (mem_map.2 ⟨0, mem_range.2 hm, rfl⟩) (mem_map.2 ⟨0, mem_range.2 hn, rfl⟩)
  · rintro (rfl | rfl)
    · exact disjoint_nil_left _
    · exact disjoint_nil_right _

/-- Every call has an index of its own exactly if not more than one chunk has calls. -/
theorem nodup_indexes : ((inputs.flatMap (chunkCalls marshal)).map index).Nodup ↔
      inputs.Pairwise fun input later => input.calls = [] ∨ later.calls = [] := by
  rw [map_flatMap]
  simp only [index_chunkCalls]
  rw [nodup_flatMap]
  have hone : ∀ input ∈ inputs, ((range input.calls.length).map fun i : ℕ => some (i : ℤ)).Nodup := by
    intro input _
    refine List.Nodup.map ?_ nodup_range
    intro i j hij
    exact Int.ofNat.inj (some.inj hij)
  rw [and_iff_right hone]
  refine iff_of_eq (congrArg (fun r => List.Pairwise r inputs) ?_)
  funext input later
  rw [Function.onFun, disjoint_range, length_eq_zero_iff, length_eq_zero_iff]

/-- With indexes of their own the calls are put together as they came. -/
theorem calls_run (h : ∀ input ∈ inputs, input.Single)
    (hcalls : inputs.Pairwise fun input later => input.calls = [] ∨ later.calls = []) :
    (({} : ChatAccumulated).addAll (run marshal model s inputs)).calls.map (fun p => p.2.said) =
      (inputs.flatMap calls).map (callSaid marshal) := by
  have hnodup : ((fragmentsOf (run marshal model s inputs)).map Prod.fst).Nodup := by
    have hindexes := (nodup_indexes marshal).2 hcalls
    have hsame : ((fragmentsOf (run marshal model s inputs)).map Prod.fst).map some =
        (inputs.flatMap (chunkCalls marshal)).map index := by
      rw [fragments_run marshal model h, map_flatMap, map_flatMap, map_flatMap]
      refine flatMap_congr fun input _ => ?_
      rw [map_map]
      exact keyed_chunkCalls marshal input
    rw [← hsame] at hindexes
    exact List.Nodup.of_map _ hindexes
  rw [ChatAccumulated.addAll_calls, addFragments_nodup (by simpa using hnodup), fragments_run marshal model h]
  show map _ ([] ++ _) = _
  rw [nil_append, map_flatMap, map_flatMap]
  refine flatMap_congr fun input _ => ?_
  rw [← said_chunkCalls]
  have hsnd := keyed_snd (chunkCalls marshal input)
  rw [← hsnd, map_map]
  rw [hsnd]
  rfl

end

/-! ### Words -/

section
variable {inputs : List (GeminiChunkInput J)}

variable (text : GeminiPart J → Option String)

theorem texts_flatMap (inputs : List (GeminiChunkInput J)) :
    (inputs.flatMap parts).filterMap text = inputs.flatMap fun input => input.parts.filterMap text :=
  filterMap_flatMap

/-- What is read chunk by chunk is read of the whole. -/
theorem reads_joined {texts : GeminiChunkInput J → List String} {line : GeminiChunkInput J → String}
    (h : ∀ input ∈ inputs, Reads isLineBreak (texts input) (line input)) :
    Reads isLineBreak (inputs.flatMap texts) (joined (inputs.map line)) := by
  induction inputs with
  | nil => exact blank_empty
  | cons input _ ih =>
    rw [flatMap_cons, map_cons, joined_cons]
    exact (h input mem_cons_self).append (ih fun input hi => h input (mem_cons_of_mem _ hi))

theorem marks_joined (line : GeminiChunkInput J → String) (inputs : List (GeminiChunkInput J)) :
    Separated.marks isLineBreak (joined (inputs.map line)) =
      (inputs.map fun input => Separated.marks isLineBreak (line input)).sum := by
  induction inputs with
  | nil => rfl
  | cons _ _ ih => rw [map_cons, joined_cons, Separated.marks_append, ih, map_cons, sum_cons]

theorem marksOf_flatMap (inputs : List (GeminiChunkInput J)) :
    ((inputs.flatMap fun input => input.parts.filterMap text).map (Separated.marks isLineBreak)).sum =
      (inputs.map fun input => marksOf text input.parts).sum := by
  induction inputs with
  | nil => rfl
  | cons _ _ ih =>
    rw [flatMap_cons, map_append, sum_append, ih, map_cons, sum_cons]
    rfl

/-- Sums with a part more are the same only if the part is nothing. -/
theorem sum_part_zero {α : Type} {f g : α → ℕ} {l : List α} (h : (l.map fun a => f a + g a).sum = (l.map f).sum) :
    ∀ a ∈ l, g a = 0 := by
  rw [sum_map_add, Nat.add_eq_left] at h
  exact fun a ha => sum_eq_zero_iff.1 h _ (mem_map_of_mem ha)

theorem marks_chunkLines (input : GeminiChunkInput J) : Separated.marks isLineBreak (chunkLines input) =
      marksOf thoughtText? input.parts + marksOf besideText? input.parts := by
  rw [← marksOf_chunk]
  exact marks_joinLines _

theorem thoughts_of_not_thinks {input : GeminiChunkInput J} (h : ¬ input.thinks) :
    input.parts.filterMap thoughtText? = [] := not_not.1 h

/-- The reasoning reads the thoughts exactly if nothing that counts stands beside them in a chunk. -/
theorem reasoning_iff : Reads isLineBreak (inputs.flatMap fun input => input.parts.filterMap thoughtText?)
        (joined (inputs.map fun input => if input.thinks then chunkLines input else "")) ↔
      ∀ input ∈ inputs, input.thinks → ∀ part ∈ input.parts, ∀ t ∈ part.besideText?, Blank isLineBreak t := by
  constructor
  · intro h
    have hmarks := h.marks_eq
    rw [marks_joined, marksOf_flatMap] at hmarks
    have hsplit :
        (inputs.map fun input => Separated.marks isLineBreak (if input.thinks then chunkLines input else "")) =
        inputs.map fun input => marksOf thoughtText? input.parts +
          if input.thinks then marksOf besideText? input.parts else 0 := by
      refine map_congr_left fun input _ => ?_
      by_cases hthinks : input.thinks
      · rw [if_pos hthinks, if_pos hthinks, marks_chunkLines]
      · rw [if_neg hthinks, if_neg hthinks]
        unfold marksOf
        rw [thoughts_of_not_thinks hthinks]
        rfl
    rw [hsplit] at hmarks
    intro input hinput hthinks
    have hzero := sum_part_zero hmarks input hinput
    rw [if_pos hthinks] at hzero
    exact marksOf_eq_zero.1 hzero
  · intro h
    refine reads_joined fun input hinput => ?_
    by_cases hthinks : input.thinks
    · rw [if_pos hthinks]
      refine reads_lines fun part hpart => ?_
      cases hthought : part.thoughtText? with
      | some =>
        rw [(texts_of_thought hthought).1]
        exact line_refl _
      | none =>
        have hbeside : part.besideText? = part.chunkText? := if_pos hthought
        refine Or.inr ⟨fun t ht => (by cases ht), ?_⟩
        rw [← hbeside]
        exact h input hinput hthinks part hpart
    · rw [if_neg hthinks, thoughts_of_not_thinks hthinks]
      exact blank_empty

/-- If nothing stands beside thoughts, the content reads the other texts exactly if there are no media. -/
theorem text_iff
    (hbeside : ∀ input ∈ inputs, input.thinks → ∀ part ∈ input.parts, ∀ t ∈ part.besideText?, Blank isLineBreak t) :
    Reads isLineBreak (inputs.flatMap fun input => input.parts.filterMap wholeText?)
        (joined (inputs.map fun input => if input.thinks then "" else chunkLines input)) ↔
      ∀ input ∈ inputs, ∀ part ∈ input.parts, part.isMedia = false := by
  constructor
  · intro h
    have hmarks := h.marks_eq
    rw [marks_joined, marksOf_flatMap] at hmarks
    have hwritten :
        (inputs.map fun input => Separated.marks isLineBreak (if input.thinks then "" else chunkLines input)) =
        inputs.map fun input => marksOf besideText? input.parts := by
      refine map_congr_left fun input hinput => ?_
      by_cases hthinks : input.thinks
      · rw [if_pos hthinks, marksOf_eq_zero.2 (hbeside input hinput hthinks)]
        rfl
      · rw [if_neg hthinks, marks_chunkLines]
        unfold marksOf
        rw [thoughts_of_not_thinks hthinks]
        exact Nat.zero_add _
    have hwhole : (inputs.map fun input => marksOf wholeText? input.parts) =
        inputs.map fun input => marksOf besideText? input.parts + marksOf mediaText? input.parts :=
      map_congr_left fun input _ => marksOf_whole input.parts
    rw [hwritten, hwhole] at hmarks
    intro input hinput
    exact media_of_marks.1 (sum_part_zero hmarks.symm input hinput)
  · intro h
    refine reads_joined fun input hinput => ?_
    by_cases hthinks : input.thinks
    · rw [if_pos hthinks]
      refine reads_blank ?_ blank_empty
      intro t ht
      obtain ⟨part, hpart, htext⟩ := mem_filterMap.1 ht
      cases hthought : part.thoughtText? with
      | some =>
        rw [(texts_of_thought hthought).2] at htext
        cases htext
      | none =>
        have hblank := hbeside input hinput hthinks part hpart
        have hsame : part.besideText? = part.chunkText? := if_pos hthought
        rw [hsame] at hblank
        rcases texts_of_other hthought (h input hinput part hpart) with ⟨u, gap, hu, hwritten, _⟩ | ⟨hall, _⟩
        · obtain rfl : u = t := some.inj (hu.symm.trans htext)
          have hboth : Blank isLineBreak (u ++ gap) := hblank _ hwritten
          have hzero := Separated.marks_eq_zero.2 hboth
          rw [Separated.marks_append] at hzero
          exact Separated.marks_eq_zero.1 (by omega)
        · exact hall t htext
    · rw [if_neg hthinks]
      refine reads_lines fun part hpart => ?_
      have hthought : part.thoughtText? = none := by
        by_contra hsome
        obtain ⟨t, ht⟩ := ne_none_iff_exists'.1 hsome
        have hmem : t ∈ input.parts.filterMap thoughtText? := mem_filterMap.2 ⟨part, hpart, ht⟩
        rw [thoughts_of_not_thinks hthinks] at hmem
        cases hmem
      exact texts_of_other hthought (h input hinput part hpart)

end

/-- The last of some texts reads them all exactly if the others are blank. -/
theorem last_iff (ts : List String) :
    Reads isLineBreak ts (ts.getLast?.getD "") ↔ ∀ t ∈ ts.dropLast, Blank isLineBreak t := by
  rcases eq_nil_or_concat ts with rfl | ⟨before, last, rfl⟩
  · exact iff_of_true blank_empty fun t ht => by cases ht
  · rw [concat_eq_append, getLast?_concat, dropLast_concat, getD_some]
    constructor
    · intro h
      have hmarks := h.marks_eq
      rw [map_append, sum_append, map_singleton, sum_singleton] at hmarks
      have hzero : (before.map (Separated.marks isLineBreak)).sum = 0 := by omega
      intro t ht
      exact Separated.marks_eq_zero.1 (sum_eq_zero_iff.1 hzero _ (mem_map_of_mem ht))
    · exact reads_single

/-! ### The claim of a stream -/

section
variable (marshal : J → String)

/-- The answer with all parts in one candidate. -/
def wholeGeminiResponse (index : ℤ) (finishReason : Option String) (inputs : List (GeminiChunkInput J)) :
    GeminiChatResponse J :=
  { candidates := [{ index := index, parts := inputs.flatMap parts, finishReason := finishReason }] }

theorem message_whole (uuid : ℕ → ℕ → String) (id : String) (created index : ℤ) (finishReason : Option String)
    (inputs : List (GeminiChunkInput J)) :
    ∃ choice, (responseGeminiChat2OpenAI marshal uuid id created
        (wholeGeminiResponse index finishReason inputs)).choices = [choice] ∧
      choice.message = wholeMessage marshal (uuid 0) (inputs.flatMap parts) := ⟨_, rfl, rfl⟩

theorem calls_wholeMessage (uuid : ℕ → String) (parts : List (GeminiPart J)) :
    ((wholeMessage marshal uuid parts).parseToolCalls.map fun call => (call.name, call.arguments)) =
      (parts.filterMap call?).map (callSaid marshal) := by
  rw [← said_candidateCalls marshal uuid]
  unfold Message.parseToolCalls wholeMessage
  by_cases hnone : candidateCalls marshal uuid parts = []
  · rw [hnone]
    rfl
  · simp only [if_neg hnone, getD_some, map_map]
    rfl

/-- A stream keeps what its candidates say, and says it as one answer made of all their parts does, exactly if nothing
comes where the two converters part. -/
theorem geminiStream_kept_iff (uuid : ℕ → ℕ → String) (newId id id' model : String)
    (now created created' index : ℤ) (finishReason : Option String) {inputs : List (GeminiChunkInput J)}
    (hsingle : ∀ input ∈ inputs, input.Single) :
    (∃ choice, (responseGeminiChat2OpenAI marshal uuid id created
        (wholeGeminiResponse index finishReason inputs)).choices = [choice] ∧
      GeminiStreamKept marshal inputs
        (run marshal model (newGeminiToChatStreamState newId now id' created') inputs) choice.message) ↔
      GeminiStreamPlain inputs := by
  obtain ⟨choice, hchoice, hmessage⟩ := message_whole marshal uuid id created index finishReason inputs
  obtain ⟨s, hs⟩ : ∃ s, newGeminiToChatStreamState newId now id' created' = s := ⟨_, rfl⟩
  have hopen : s.finishEmitted = false := by rw [← hs]; rfl
  rw [hs]
  have htext : (({} : ChatAccumulated).addAll (run marshal model s inputs)).text =
      joined (inputs.map fun input => if input.thinks then "" else chunkLines input) := by
    rw [ChatAccumulated.addAll_text, text_run marshal model hsingle]
    exact String.empty_append
  have hreasoning : (({} : ChatAccumulated).addAll (run marshal model s inputs)).reasoning =
      joined (inputs.map fun input => if input.thinks then chunkLines input else "") := by
    rw [ChatAccumulated.addAll_reasoning, thinking_run marshal model hsingle]
    exact String.empty_append
  have hlast : choice.message.getReasoningContent =
      (((inputs.flatMap parts).filterMap thoughtText?).getLast?).getD "" := by
    rw [hmessage]
    show ((wholeReasoning (inputs.flatMap parts)) <|> none).getD "" = _
    unfold wholeReasoning
    cases ((inputs.flatMap parts).filterMap thoughtText?).getLast?
    · rfl
    · rfl
  constructor
  · rintro ⟨choice', hchoice', hkept⟩
    obtain rfl : choice = choice' := singleton_inj.1 (hchoice.symm.trans hchoice')
    have hindexes := hkept.indexes
    rw [toolCalls_run marshal model hsingle] at hindexes
    have hread := hkept.reasoning
    rw [hreasoning, texts_flatMap] at hread
    have hbeside := reasoning_iff.1 hread
    have hwords := hkept.text
    rw [htext, texts_flatMap] at hwords
    have hthoughts := hkept.sameReasoning
    rw [hlast] at hthoughts
    exact
      { ends := (count_open marshal model hsingle hopen).1 hkept.finish
        calls := (nodup_indexes marshal).1 hindexes
        media := (text_iff hbeside).1 hwords
        beside := hbeside
        thoughts := (last_iff _).1 hthoughts }
  · intro hplain
    refine ⟨choice, hchoice, ?_⟩
    constructor
    · exact (count_open marshal model hsingle hopen).2 hplain.ends
    · rw [toolCalls_run marshal model hsingle]
      exact (nodup_indexes marshal).2 hplain.calls
    · rw [toolCalls_run marshal model hsingle, map_flatMap, map_flatMap]
      exact flatMap_congr fun input _ => said_chunkCalls marshal input
    · rw [hreasoning, texts_flatMap]
      exact reasoning_iff.2 hplain.beside
    · rw [htext, texts_flatMap]
      exact (text_iff hplain.beside).2 hplain.media
    · rw [hlast]
      exact (last_iff _).2 hplain.thoughts
    · rw [hmessage]
      exact reads_lines fun part _ => line_refl _
    · rw [calls_run marshal model hsingle hplain.calls, hmessage, calls_wholeMessage]
      congr 1
      exact (filterMap_flatMap).symm

end

/-- A chunk with one candidate. -/
def oneCandidate (parts : List (GeminiPart String)) (finishReason : Option String) : GeminiChunkInput String where
  response := { candidates := [{ parts := parts, finishReason := finishReason }] }
  uuid := fun _ n => if n = 0 then "a" else "b"

/-- A thought, a text, and a call with which the candidate stops. -/
def thoughtThenCall : List (GeminiChunkInput String) :=
  [oneCandidate [{ text := "Which city?", thought := true }] none, oneCandidate [{ text := "I look." }] none,
   oneCandidate [{ functionCall := some { functionName := "weather", arguments := "\x7b\x7d" } }] (some "STOP")]

theorem geminiStream_kept_iff_thoughtThenCall :
    (∃ choice, (responseGeminiChat2OpenAI (fun v : String => v) (fun _ _ => "a") "" 0
        (wholeGeminiResponse 0 none thoughtThenCall)).choices = [choice] ∧
      GeminiStreamKept (fun v : String => v) thoughtThenCall
        (run (fun v : String => v) "gemini" (newGeminiToChatStreamState "a" 0 "" 0) thoughtThenCall) choice.message) :=
  (geminiStream_kept_iff (fun v : String => v) (fun _ _ => "a") "a" "" "" "gemini" 0 0 0 0 none (by decide)).2
    { ends := by decide
      calls := by decide
      media := by decide
      beside := by decide +kernel
      thoughts := by decide +kernel }

/-- Two calls in two chunks. -/
def callsApart : List (GeminiChunkInput String) :=
  [oneCandidate [{ functionCall := some { functionName := "weather", arguments := "\x7b\x7d" } }] none,
   oneCandidate [{ functionCall := some { functionName := "time", arguments := "\x7b\x7d" } }] (some "STOP")]

/-- Both calls have the index 0, and the client puts one call together from them. -/
theorem indexes_restart :
    ((run (fun v : String => v) "gemini" (newGeminiToChatStreamState "a" 0 "" 0) callsApart).flatMap
        toolCalls).map index = [some 0, some 0] ∧
      ¬ ∃ choice, (responseGeminiChat2OpenAI (fun v : String => v) (fun _ _ => "a") "" 0
          (wholeGeminiResponse 0 none callsApart)).choices = [choice] ∧
        GeminiStreamKept (fun v : String => v) callsApart
          (run (fun v : String => v) "gemini" (newGeminiToChatStreamState "a" 0 "" 0) callsApart) choice.message := by
  have hindexes : ((run (fun v : String => v) "gemini" (newGeminiToChatStreamState "a" 0 "" 0) callsApart).flatMap
      toolCalls).map index = [some 0, some 0] := by decide +kernel
  refine ⟨hindexes, ?_⟩
  rintro ⟨choice, _, hkept⟩
  have hnodup := hkept.indexes
  rw [hindexes] at hnodup
  exact absurd hnodup (by decide)

end NovaMaas.Convert
