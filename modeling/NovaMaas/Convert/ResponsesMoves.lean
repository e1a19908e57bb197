/-
  A chat stream as a sequence of moves.

  For the converter to the Responses API a chunk is a head, which may name the answer, and then a few moves: a fragment
  of the reasoning, a fragment of the text, fragments of tool calls, a finish reason.  `responsesStream_cons` takes the
  stream apart accordingly: the created event, the moves, the end.

  An output item is then looked at by itself (`view`).  What one move does to an item depends on that item alone
  (`Item.step`), and `Sound` says how the items and the output order hang together; the two are kept by every move
  (`move_spec`), which is all the proofs about whole streams use.
-/
import NovaMaas.Convert.ChatToResponses
import NovaMaas.Lib.Gather

namespace NovaMaas.Convert

open ChatToResponsesStreamState Gather

/-! ## Moves -/

inductive Move where
  | head (chunk : ChatChunk)
  | reasoning (s : String)
  | text (s : String)
  | tool (call : ToolCallResponse)
  | finish (reason : String)

/-- A finish reason that is more than white space. -/
def Choice.finish (c : Choice) : List Move :=
  match c.finishReason with
  | none => []
  | some reason => if trimSpace reason ≠ "" then [.finish reason] else []

def Choice.moves (c : Choice) : List Move :=
  (if c.getReasoningContent ≠ "" then [.reasoning c.getReasoningContent] else []) ++
    (if c.getContentString ≠ "" then [.text c.getContentString] else []) ++ c.toolCalls.map .tool ++ c.finish

def ChatChunk.moves (c : ChatChunk) : List Move := .head c :: c.choices.flatMap Choice.moves

def movesOf (chunks : List ChatChunk) : List Move := chunks.flatMap ChatChunk.moves

/-- A move of the converter.  With the head of a chunk the created event is sent, if it was not; here it is only noted
that it was. -/
def Move.apply : Move → ChatToResponsesStreamState → List ResponsesEvent × ChatToResponsesStreamState
  | .head chunk, s => ([], { s.readChunk chunk with sentCreated := true })
  | .reasoning x, s => s.appendReasoningDelta x
  | .text x, s => s.appendTextDelta x
  | .tool call, s => s.appendToolCallDelta call
  | .finish reason, s => (s.applyFinishReason reason).doneDeltaEvents

def runMoves : List Move → ChatToResponsesStreamState → List ResponsesEvent × ChatToResponsesStreamState
  | [], s => ([], s)
  | m :: ms, s => ((m.apply s).1 ++ (runMoves ms (m.apply s).2).1, (runMoves ms (m.apply s).2).2)

theorem runMoves_append (ms ns : List Move) (s : ChatToResponsesStreamState) : runMoves (ms ++ ns) s =
      ((runMoves ms s).1 ++ (runMoves ns (runMoves ms s).2).1, (runMoves ns (runMoves ms s).2).2) := by
  induction ms generalizing s with
  | nil => rfl
  | cons _ _ ih =>
    simp only [List.cons_append, runMoves]
    rw [ih]
    simp [List.append_assoc]

theorem runMoves_one (m : Move) (s : ChatToResponsesStreamState) : runMoves [m] s = m.apply s := by
  simp [runMoves]

theorem appendToolCalls_eq (calls : List ToolCallResponse) : ∀ s : ChatToResponsesStreamState,
    appendToolCalls calls s = runMoves (calls.map .tool) s := by
  induction calls with
  | nil => exact fun s => rfl
  | cons _ _ ih =>
    intro s
    rw [appendToolCalls, ih]
    rfl

theorem appendChoice_eq (choice : Choice) (s : ChatToResponsesStreamState) :
    s.appendChoice choice = runMoves choice.moves s := by
  have hreasoning : (if choice.getReasoningContent ≠ "" then s.appendReasoningDelta choice.getReasoningContent
      else ([], s)) =
        runMoves (if choice.getReasoningContent ≠ "" then [.reasoning choice.getReasoningContent] else []) s := by
    split
    · exact (runMoves_one (.reasoning _) _).symm
    · rfl
  have htext : ∀ t : ChatToResponsesStreamState,
      (if choice.getContentString ≠ "" then t.appendTextDelta choice.getContentString else ([], t)) =
        runMoves (if choice.getContentString ≠ "" then [.text choice.getContentString] else []) t := by
    intro t
    split
    · exact (runMoves_one (.text _) _).symm
    · rfl
  have hfinish : ∀ t : ChatToResponsesStreamState, t.finishChoice choice = runMoves choice.finish t := by
    intro t
    unfold finishChoice Choice.finish
    cases choice.finishReason with
    | none => rfl
    | some =>
      simp only
      split
      · exact (runMoves_one (.finish _) _).symm
      · rfl
  unfold appendChoice Choice.moves
  simp only [hreasoning, htext, appendToolCalls_eq, hfinish, runMoves_append]

theorem appendChoices_eq (choices : List Choice) : ∀ s : ChatToResponsesStreamState,
    appendChoices choices s = runMoves (choices.flatMap Choice.moves) s := by
  induction choices with
  | nil => exact fun s => rfl
  | cons _ _ ih =>
    intro s
    rw [appendChoices, List.flatMap_cons, runMoves_append, ih, appendChoice_eq]

/-- A chunk after the first is its moves. -/
theorem chunk_eq {s : ChatToResponsesStreamState} (h : s.sentCreated = true) (chunk : ChatChunk) :
    chatCompletionsStreamChunkToResponsesEvents chunk s = runMoves chunk.moves s := by
  have hcreated : (s.readChunk chunk).ensureCreated = ([], s.readChunk chunk) := if_pos h
  have hnoted : { s.readChunk chunk with sentCreated := true } = s.readChunk chunk := by
    unfold readChunk
    rw [h]
  unfold chatCompletionsStreamChunkToResponsesEvents
  simp only [hcreated, appendChoices_eq]
  show _ = runMoves (.head chunk :: chunk.choices.flatMap Choice.moves) s
  rw [runMoves]
  show _ = ([] ++ (runMoves _ { s.readChunk chunk with sentCreated := true }).1,
    (runMoves _ { s.readChunk chunk with sentCreated := true }).2)
  rw [hnoted]

/-- A move keeps what only the beginning and the end of a stream change. -/
theorem apply_keeps (m : Move) (s : ChatToResponsesStreamState) :
    (s.sentCreated = true → (m.apply s).2.sentCreated = true) ∧ (m.apply s).2.finalized = s.finalized := by
  cases m with
  | head => exact ⟨fun _ => rfl, rfl⟩
  | finish => simp [Move.apply, doneDeltaEvents, applyFinishReason]
  | reasoning =>
    have hstart : s.startReasoning.2.sentCreated = s.sentCreated ∧ s.startReasoning.2.finalized = s.finalized := by
      unfold startReasoning
      split <;> exact ⟨rfl, rfl⟩
    show (s.sentCreated = true → s.startReasoning.2.sentCreated = true) ∧ s.startReasoning.2.finalized = s.finalized
    exact ⟨fun h => hstart.1.trans h, hstart.2⟩
  | text =>
    have hstart : s.startText.2.sentCreated = s.sentCreated ∧ s.startText.2.finalized = s.finalized := by
      unfold startText
      split <;> exact ⟨rfl, rfl⟩
    show (s.sentCreated = true → s.startText.2.sentCreated = true) ∧ s.startText.2.finalized = s.finalized
    exact ⟨fun h => hstart.1.trans h, hstart.2⟩
  | tool call =>
    have hstart : (s.startTool call).2.sentCreated = s.sentCreated ∧ (s.startTool call).2.finalized = s.finalized := by
      unfold startTool
      split <;> exact ⟨rfl, rfl⟩
    have hwrite : ∀ t : ChatToResponsesStreamState,
        (t.writeTool call).2.sentCreated = t.sentCreated ∧ (t.writeTool call).2.finalized = t.finalized := by
      intro t
      unfold writeTool
      split <;> exact ⟨rfl, rfl⟩
    obtain ⟨hcreated, hfinalized⟩ := hwrite (s.startTool call).2
    exact ⟨fun h => hcreated.trans (hstart.1.trans h), hfinalized.trans hstart.2⟩

theorem runMoves_sentCreated (ms : List Move) : ∀ {s : ChatToResponsesStreamState}, s.sentCreated = true →
    (runMoves ms s).2.sentCreated = true := by
  induction ms with
  | nil => exact fun h => h
  | cons m _ ih => exact fun h => ih ((apply_keeps m _).1 h)

theorem runMoves_finalized (ms : List Move) (s : ChatToResponsesStreamState) :
    (runMoves ms s).2.finalized = s.finalized := by
  induction ms generalizing s with
  | nil => rfl
  | cons m _ ih => exact (ih _).trans (apply_keeps m s).2

theorem chunks_eq (chunks : List ChatChunk) : ∀ {s : ChatToResponsesStreamState}, s.sentCreated = true →
    responsesEventsOfChunks chunks s = runMoves (movesOf chunks) s := by
  induction chunks with
  | nil => exact fun _ => rfl
  | cons chunk chunks ih =>
    intro s h
    have hnext := runMoves_sentCreated chunk.moves h
    rw [responsesEventsOfChunks, chunk_eq h, ih hnext]
    show _ = runMoves (chunk.moves ++ movesOf chunks) s
    rw [runMoves_append]

/-- The end of a stream. -/
def endEvents (s : ChatToResponsesStreamState) : List ResponsesEvent :=
  s.doneDeltaEvents.1 ++ [{ type := if s.status = "incomplete" then .incomplete else .completed, delta := "",
                            response := some s.doneDeltaEvents.2.finalResponse }]

/-- **The stream, taken apart**: the created event, the moves, the end. -/
theorem responsesStream_cons {s : ChatToResponsesStreamState} (hcreated : s.sentCreated = false)
    (hfinalized : s.finalized = false) (chunk : ChatChunk) (chunks : List ChatChunk) :
    ∃ response, responsesStream s (chunk :: chunks) = { type := .created, delta := "", response := some response } ::
        ((runMoves (movesOf (chunk :: chunks)) s).1 ++ endEvents (runMoves (movesOf (chunk :: chunks)) s).2) := by
  refine ⟨(s.readChunk chunk).createdResponse, ?_⟩
  let noted := { s.readChunk chunk with sentCreated := true }
  have hensure : (s.readChunk chunk).ensureCreated =
      ([{ type := .created, delta := "", response := some (s.readChunk chunk).createdResponse }], noted) :=
    if_neg (by rw [show (s.readChunk chunk).sentCreated = s.sentCreated from rfl, hcreated]; simp)
  have hsent : (runMoves (chunk.choices.flatMap Choice.moves) noted).2.sentCreated = true := runMoves_sentCreated _ rfl
  have hall : responsesEventsOfChunks (chunk :: chunks) s =
      ({ type := .created, delta := "", response := some (s.readChunk chunk).createdResponse } ::
        (runMoves (movesOf (chunk :: chunks)) s).1, (runMoves (movesOf (chunk :: chunks)) s).2) := by
    rw [responsesEventsOfChunks]
    unfold chatCompletionsStreamChunkToResponsesEvents
    simp only [hensure, appendChoices_eq]
    rw [chunks_eq chunks hsent]
    show _ = (_ :: (runMoves (chunk.moves ++ movesOf chunks) s).1, (runMoves (chunk.moves ++ movesOf chunks) s).2)
    rw [runMoves_append]
    rfl
  have hopen : (runMoves (movesOf (chunk :: chunks)) s).2.finalized = false := by
    rw [runMoves_finalized, hfinalized]
  unfold responsesStream
  rw [hall]
  unfold finalizeChatCompletionsStreamToResponses
  rw [if_neg (by rw [hopen]; simp)]
  rfl

end NovaMaas.Convert
