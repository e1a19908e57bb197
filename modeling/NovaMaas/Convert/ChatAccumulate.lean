/-
  What a client of a chat stream puts together from the chunks: the text, the reasoning, the tool calls by their index in
  the order of their first fragments, and the last finish reason.
-/
import NovaMaas.Convert.ChatStream
import NovaMaas.Lib.Gather

open List

namespace NovaMaas.Convert

/-- A fragment added to the calls; the first fragment of an index opens a call. -/
def addFragment (k : ℤ) (fragment : ToolCallResponse) : List (ℤ × ToolCallResponse) → List (ℤ × ToolCallResponse)
  | [] => [(k, fragment)]
  | (k', call) :: calls =>
    if k' = k then
      (k', { call with
             id := if call.id = "" then fragment.id else call.id
             name := if call.name = "" then fragment.name else call.name
             arguments := call.arguments ++ fragment.arguments }) :: calls
    else (k', call) :: addFragment k fragment calls

/-- What was put together so far. -/
structure ChatAccumulated where
  text         : String := ""
  reasoning    : String := ""
  calls        : List (ℤ × ToolCallResponse) := []
  finishReason : Option String := none

namespace ChatAccumulated

variable (acc : ChatAccumulated)

def addChoice (choice : Choice) : ChatAccumulated where
  text := acc.text ++ choice.getContentString
  reasoning := acc.reasoning ++ choice.getReasoningContent
  calls := (keyed choice.toolCalls).foldl (fun calls p => addFragment p.1 p.2 calls) acc.calls
  finishReason := choice.finishReason <|> acc.finishReason

/-- The first choice of a chunk is added. -/
def add (chunk : ChatChunk) : ChatAccumulated :=
  match chunk.choices.head? with
  | none => acc
  | some choice => acc.addChoice choice

/-- All chunks are added, one after the other. -/
def addAll (chunks : List ChatChunk) : ChatAccumulated := chunks.foldl add acc

theorem addAll_append (cs ds : List ChatChunk) : acc.addAll (cs ++ ds) = (acc.addAll cs).addAll ds :=
  foldl_append

/-- A choice without tool calls. -/
theorem addChoice_words {choice : Choice} (h : choice.toolCalls = []) : acc.addChoice choice = { acc with
        text := acc.text ++ choice.getContentString
        reasoning := acc.reasoning ++ choice.getReasoningContent
        finishReason := choice.finishReason <|> acc.finishReason } := by
  unfold addChoice keyed
  rw [h]
  rfl

/-- A choice with one tool call and nothing else. -/
theorem addChoice_call (k : ℤ) (call : ToolCallResponse) :
    acc.addChoice { toolCalls := [{ call with index := some k }] } =
      { acc with calls := addFragment k { call with index := some k } acc.calls } := by
  unfold addChoice keyed Choice.getContentString Choice.getReasoningContent
  simp

end ChatAccumulated

/-! ## Calls -/

variable {calls : List (ℤ × ToolCallResponse)}

theorem addFragment_new {k : ℤ} (fragment : ToolCallResponse)
    (h : ∀ p ∈ calls, p.1 ≠ k) : addFragment k fragment calls = calls ++ [(k, fragment)] := by
  induction calls with
  | nil => rfl
  | cons p _ ih =>
    obtain ⟨k', call⟩ := p
    have hne : k' ≠ k := h (k', call) mem_cons_self
    rw [addFragment, if_neg hne, ih fun p hp => h p (mem_cons_of_mem _ hp)]
    rfl

/-- A fragment goes to the call that was opened last, if it has its index. -/
theorem addFragment_last {k : ℤ} (fragment call : ToolCallResponse) (h : ∀ p ∈ calls, p.1 ≠ k) :
    addFragment k fragment (calls ++ [(k, call)]) = calls ++ [(k, { call with
                      id := if call.id = "" then fragment.id else call.id
                      name := if call.name = "" then fragment.name else call.name
                      arguments := call.arguments ++ fragment.arguments })] := by
  induction calls with
  | nil => exact if_pos rfl
  | cons p _ ih =>
    obtain ⟨k', other⟩ := p
    have hne : k' ≠ k := h (k', other) mem_cons_self
    rw [cons_append, addFragment, if_neg hne, ih fun p hp => h p (mem_cons_of_mem _ hp)]
    rfl

/-- All fragments added, one after the other. -/
def addFragments (fragments calls : List (ℤ × ToolCallResponse)) : List (ℤ × ToolCallResponse) :=
  fragments.foldl (fun calls p => addFragment p.1 p.2 calls) calls

/-- The fragments of all tool calls, with their indexes. -/
def fragmentsOf (chunks : List ChatChunk) : List (ℤ × ToolCallResponse) := chunks.flatMap fun c => keyed c.toolCalls

theorem fragmentsOf_cons (chunk : ChatChunk) (chunks : List ChatChunk) :
    fragmentsOf (chunk :: chunks) = keyed chunk.toolCalls ++ fragmentsOf chunks := flatMap_cons

theorem keyed_snd (toolCalls : List ToolCallResponse) : (keyed toolCalls).map Prod.snd = toolCalls := by
  have hfun : (Prod.snd ∘ fun p : ToolCallResponse × ℕ => (p.1.index.getD (p.2 : ℤ), p.1)) = Prod.fst := rfl
  unfold keyed
  rw [map_map]
  exact (congrArg (fun f => map f toolCalls.zipIdx) hfun).trans (zipIdx_map_fst 0 toolCalls)

/-- A chunk of a stream with one choice has that choice or none. -/
theorem ChatChunk.Single.cases {c : ChatChunk} (h : c.Single) : c.choices = [] ∨ ∃ choice, c.choices = [choice] := by
  unfold ChatChunk.Single at h
  cases hc : c.choices with
  | nil => exact Or.inl rfl
  | cons choice rest =>
    rw [hc, length_cons] at h
    have hrest : rest = [] := length_eq_zero_iff.1 (by omega)
    exact Or.inr ⟨choice, by rw [hrest]⟩

theorem keys_addFragment (k : ℤ) (fragment : ToolCallResponse) (calls : List (ℤ × ToolCallResponse)) :
    (addFragment k fragment calls).map Prod.fst =
      if k ∈ calls.map Prod.fst then calls.map Prod.fst else calls.map Prod.fst ++ [k] := by
  induction calls with
  | nil => rfl
  | cons p calls ih =>
    obtain ⟨k', call⟩ := p
    by_cases hk : k' = k
    · simp [addFragment, hk]
    · have hcons : k ∈ ((k', call) :: calls).map Prod.fst ↔ k ∈ calls.map Prod.fst := by
        rw [map_cons, mem_cons]
        exact or_iff_right fun h => hk h.symm
      rw [addFragment, if_neg hk, map_cons, ih]
      by_cases hmem : k ∈ calls.map Prod.fst
      · rw [if_pos hmem, if_pos (hcons.2 hmem)]
        rfl
      · rw [if_neg hmem, if_neg fun h => hmem (hcons.1 h)]
        rfl

/-- A call is opened for every index that occurs, and once. -/
theorem keys_addFragments (fragments calls : List (ℤ × ToolCallResponse)) (h : (calls.map Prod.fst).Nodup) :
    ((addFragments fragments calls).map Prod.fst).Nodup ∧
      ∀ k, k ∈ (addFragments fragments calls).map Prod.fst ↔ k ∈ calls.map Prod.fst ∨ k ∈ fragments.map Prod.fst := by
  induction fragments generalizing calls with
  | nil => exact ⟨h, by simp [addFragments]⟩
  | cons p _ ih =>
    have hkeys := keys_addFragment p.1 p.2 calls
    have hone : ((addFragment p.1 p.2 calls).map Prod.fst).Nodup := by
      rw [hkeys]
      split
      · exact h
      · rename_i hmem
        exact nodup_append.2 ⟨h, nodup_singleton _, by
          rintro a ha b hb rfl
          exact hmem (mem_singleton.1 hb ▸ ha)⟩
    obtain ⟨hnodup, hmem⟩ := ih (addFragment p.1 p.2 calls) hone
    refine ⟨hnodup, fun k => ?_⟩
    rw [addFragments, foldl_cons, ← addFragments, hmem, hkeys, map_cons, mem_cons]
    by_cases hp : p.1 ∈ calls.map Prod.fst
    · rw [if_pos hp]
      constructor
      · rintro (h | h)
        · exact Or.inl h
        · exact Or.inr (Or.inr h)
      · rintro (h | rfl | h)
        · exact Or.inl h
        · exact Or.inl hp
        · exact Or.inr h
    · rw [if_neg hp, mem_append, mem_singleton]
      tauto

/-- As many calls as fragments there are only if no two fragments have one index. -/
theorem nodup_of_length_addFragments {fragments : List (ℤ × ToolCallResponse)}
    (h : (addFragments fragments []).length = fragments.length) : (fragments.map Prod.fst).Nodup := by
  obtain ⟨hnodup, hmem⟩ := keys_addFragments fragments [] nodup_nil
  have hsame : ((addFragments fragments []).map Prod.fst).toFinset = (fragments.map Prod.fst).toFinset := by
    ext k
    rw [mem_toFinset, mem_toFinset, hmem]
    simp
  have hcard : (fragments.map Prod.fst).toFinset.card = (fragments.map Prod.fst).length := by
    rw [← hsame, toFinset_card_of_nodup hnodup, length_map, length_map, h]
  exact Multiset.toFinset_card_eq_card_iff_nodup.1 hcard

/-- Fragments with indexes of their own are the calls. -/
theorem addFragments_nodup {fragments : List (ℤ × ToolCallResponse)}
    (h : ((calls ++ fragments).map Prod.fst).Nodup) : addFragments fragments calls = calls ++ fragments := by
  induction fragments generalizing calls with
  | nil => simp [addFragments]
  | cons p _ ih =>
    have hnew : ∀ q ∈ calls, q.1 ≠ p.1 := by
      intro q hq hqp
      rw [map_append, map_cons, nodup_append] at h
      exact h.2.2 q.1 (mem_map_of_mem hq) p.1 mem_cons_self hqp
    rw [addFragments, foldl_cons, ← addFragments, addFragment_new p.2 hnew, ih]
    · simp
    · simpa using h

/-! ## A whole stream -/

namespace ChatAccumulated

variable (chunks : List ChatChunk) (acc : ChatAccumulated)

theorem addAll_text : (acc.addAll chunks).text = acc.text ++ Gather.joined (chunks.map ChatChunk.text) := by
  induction chunks generalizing acc with
  | nil => simp [addAll]
  | cons chunk _ ih =>
    rw [addAll, foldl_cons, ← addAll, ih, map_cons, Gather.joined_cons, ← String.append_assoc]
    congr 1
    unfold add addChoice ChatChunk.text
    cases chunk.choices.head? <;> simp

theorem addAll_reasoning :
    (acc.addAll chunks).reasoning = acc.reasoning ++ Gather.joined (chunks.map ChatChunk.thinking) := by
  induction chunks generalizing acc with
  | nil => simp [addAll]
  | cons chunk _ ih =>
    rw [addAll, foldl_cons, ← addAll, ih, map_cons, Gather.joined_cons, ← String.append_assoc]
    congr 1
    unfold add addChoice ChatChunk.thinking
    cases chunk.choices.head? <;> simp

theorem addAll_calls : (acc.addAll chunks).calls = addFragments (fragmentsOf chunks) acc.calls := by
  induction chunks generalizing acc with
  | nil => rfl
  | cons chunk _ ih =>
    rw [addAll, foldl_cons, ← addAll, ih, fragmentsOf_cons, addFragments, addFragments, foldl_append]
    unfold add addChoice ChatChunk.toolCalls
    cases chunk.choices.head? <;> rfl

end ChatAccumulated

end NovaMaas.Convert
