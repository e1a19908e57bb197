/-
  The output items of a Responses stream, one by one.

  What is seen of an item in a stream is a list of marks: it is added, written to, done.  On the side of the converter
  an item is what the state gathers of it (`ChatToResponsesStreamState.item`): its id, its content, and whether it is
  done.  What a move does to an item depends on that item alone (`Item.step`), and `Sound` says how the items and the
  output order hang together.  `move_spec` puts it together: it is all that the proofs about whole streams use.
-/
import NovaMaas.Convert.ResponsesMoves

open List

namespace NovaMaas.Convert

open ResponsesStreamResponse hiding item

open ChatToResponsesStreamState Gather

/-! ## Marks -/

/-- What an output item shows: the arguments of a tool call, the text of another item. -/
def ResponsesOutput.shown (o : ResponsesOutput String) : String :=
  match o.type with
  | .functionCall => o.arguments
  | .customToolCall => o.arguments
  | _ => joined (o.content.map ResponsesOutputContent.text)

inductive Mark where
  | added (type : ResponsesOutputType) (id : String)
  | delta (type : ResponsesOutputType) (id text : String)
  | partDone (type : ResponsesOutputType) (id : String)
  | done (type : ResponsesOutputType) (id content : String)
  | other
  deriving DecidableEq

/-- What an event says about its item. -/
def ResponsesStreamResponse.mark (e : ResponsesEvent) : Mark :=
  match e.type, e.item with
  | .outputItemAdded, some item => .added item.type item.id
  | .outputItemDone, some item => .done item.type item.id item.shown
  | .outputTextDelta, _ => .delta .message e.itemID e.delta
  | .reasoningSummaryDelta, _ => .delta .reasoning e.itemID e.delta
  | .functionArgsDelta, _ => .delta .functionCall e.itemID e.delta
  | .outputTextDone, _ => .partDone .message e.itemID
  | .reasoningSummaryDone, _ => .partDone .reasoning e.itemID
  | .functionArgsDone, _ => .partDone .functionCall e.itemID
  | _, _ => .other

/-- The marks of the item at an output index. -/
def marks (i : ℤ) (events : List ResponsesEvent) : List Mark :=
  (events.filter fun e => e.outputIndex = some i).map mark

@[simp] theorem marks_nil (i : ℤ) : marks i [] = [] := rfl

theorem marks_append (i : ℤ) (es fs : List ResponsesEvent) : marks i (es ++ fs) = marks i es ++ marks i fs := by
  unfold marks
  rw [filter_append, map_append]

/-- All events are about the item at `j`. -/
def About (j : ℤ) (events : List ResponsesEvent) : Prop := ∀ e ∈ events, e.outputIndex = some j

theorem About.marks_self {j : ℤ} {events : List ResponsesEvent} (h : About j events) :
    marks j events = events.map mark := by
  unfold marks
  rw [filter_eq_self.mpr]
  intro e he
  simp [h e he]

theorem About.marks_ne {i j : ℤ} {events : List ResponsesEvent} (h : About j events) (hne : j ≠ i) :
    marks i events = [] := by
  unfold marks
  rw [filter_eq_nil_iff.mpr]
  · rfl
  · intro e he
    simp [h e he, hne]

/-! ## Items -/

def OutputRef.type : OutputRef → ResponsesOutputType
  | .message => .message
  | .reasoning => .reasoning
  | .tool _ => .functionCall

/-- The id of an item when the answer is named `rid`.  A tool call keeps its own. -/
def OutputRef.idIn (rid own : String) : OutputRef → String
  | .message => rid ++ "_msg_0"
  | .reasoning => rid ++ "_reasoning_0"
  | .tool _ => own

/-- What is gathered of an item; `rid` is the name of the whole answer. -/
structure Item where
  rid     : String
  id      : String
  content : String := ""
  done    : Bool := false

/-- The two marks of an item that is done. -/
def Item.doneMarks (r : OutputRef) (it : Item) : List Mark :=
  if it.done then [] else [.partDone r.type it.id, .done r.type it.id it.content]

/-- The id of a tool call after a fragment. -/
def ToolCallResponse.newID (call : ToolCallResponse) (old : String) : String :=
  if trimSpace call.id ≠ "" then trimSpace call.id else old

/-- The name of the answer after a chunk. -/
def ChatChunk.newID (chunk : ChatChunk) (rid : String) : String := if rid = "" then chunk.id else rid

/-- What a move does to an item that was added. -/
def Item.step (r : OutputRef) (it : Item) : Move → List Mark × Item
  | .head chunk => ([], { it with rid := chunk.newID it.rid, id := r.idIn (chunk.newID it.rid) it.id })
  | .reasoning x =>
    if r = .reasoning then ([.delta .reasoning it.id x], { it with content := it.content ++ x }) else ([], it)
  | .text x =>
    if r = .message then ([.delta .message it.id x], { it with content := it.content ++ x }) else ([], it)
  | .tool call =>
    if r = .tool call.chatIndex then
      (if call.arguments ≠ "" then [.delta .functionCall (call.newID it.id) call.arguments] else [],
        { it with id := call.newID it.id, content := it.content ++ call.arguments })
    else ([], it)
  | .finish _ => (it.doneMarks r, { it with done := true })

/-- A move that adds an item, if it was not added. -/
def Move.begins (r : OutputRef) : Move → Bool
  | .reasoning _ => r = .reasoning
  | .text _ => r = .message
  | .tool call => r = .tool call.chatIndex
  | _ => false

/-- The id an item is added with, by the move `m`. -/
def OutputRef.firstID (rid : String) : OutputRef → Move → String
  | .message, _ => rid ++ "_msg_0"
  | .reasoning, _ => rid ++ "_reasoning_0"
  | .tool _, .tool call =>
    if trimSpace call.id = "" then rid ++ "_call_" ++ toString call.chatIndex else trimSpace call.id
  | .tool _, _ => ""

/-- An item that was just added. -/
def OutputRef.fresh (r : OutputRef) (rid : String) (m : Move) : Item := { rid := rid, id := r.firstID rid m }

def ChatToResponsesStreamTool.item (rid : String) (tool : ChatToResponsesStreamTool) : Item :=
  ⟨rid, tool.id, tool.arguments, tool.done⟩

namespace ChatToResponsesStreamState

variable (s : ChatToResponsesStreamState)

/-- The output index of an item, if it was added. -/
def index : OutputRef → Option ℤ
  | .message => if s.textStarted then some s.textOutputIndex else none
  | .reasoning => if s.reasoningStarted then some s.reasoningIndex else none
  | .tool k => (s.findTool k).map ChatToResponsesStreamTool.outputIndex

/-- What is gathered of an item. -/
def item : OutputRef → Item
  | .message => ⟨s.id, s.messageID, s.text, s.textDone⟩
  | .reasoning => ⟨s.id, s.reasoningID, s.reasoning, s.reasoningDone⟩
  | .tool k => ((s.findTool k).map (ChatToResponsesStreamTool.item s.id)).getD { rid := s.id, id := "" }

/-- The items stand in the output order at their index, and nothing else does. -/
structure Sound : Prop where
  next : s.nextOutputIndex = s.outputOrder.length
  order : ∀ (r : OutputRef) (j : ℤ), s.index r = some j ↔ ∃ i : ℕ, j = i ∧ s.outputOrder[i]? = some r
  tools : (s.toolsByIndex.map ChatToResponsesStreamTool.chatIndex).Nodup
  /-- Nothing is gathered of an item that was not added. -/
  text : s.textStarted = false → s.text = "" ∧ s.textDone = false
  reasoning : s.reasoningStarted = false → s.reasoning = "" ∧ s.reasoningDone = false

end ChatToResponsesStreamState

section
variable {s : ChatToResponsesStreamState}

variable {j : ℤ}

variable {r : OutputRef}

theorem ChatToResponsesStreamState.Sound.lt_next (h : s.Sound) (hr : s.index r = some j) :
    j < s.nextOutputIndex := by
  obtain ⟨i, rfl, hi⟩ := (h.order r j).mp hr
  have hlt := (List.getElem?_eq_some_iff.mp hi).1
  rw [h.next]
  omega

theorem ChatToResponsesStreamState.Sound.index_inj (h : s.Sound) {r' : OutputRef} (hr : s.index r = some j)
    (hr' : s.index r' = some j) : r = r' := by
  obtain ⟨i, rfl, hi⟩ := (h.order r j).mp hr
  obtain ⟨i', heq, hi'⟩ := (h.order r' i).mp hr'
  obtain rfl : i = i' := by omega
  rw [hi] at hi'
  exact Option.some.inj hi'

theorem findTool_some {k : ℤ} {tool : ChatToResponsesStreamTool} (h : s.Sound) :
    s.findTool k = some tool ↔ tool ∈ s.toolsByIndex ∧ tool.chatIndex = k := by
  unfold findTool
  constructor
  · intro hfind
    exact ⟨mem_of_find?_eq_some hfind, by simpa using find?_some hfind⟩
  · rintro ⟨hmem, hk⟩
    cases hfind : s.toolsByIndex.find? fun t => t.chatIndex = k with
    | none =>
      have hnone := find?_eq_none.mp hfind tool hmem
      simp [hk] at hnone
    | some tool' =>
      have hmem' := mem_of_find?_eq_some hfind
      have hk' : tool'.chatIndex = k := by simpa using find?_some hfind
      rw [inj_on_of_nodup_map h.tools hmem' hmem (hk'.trans hk.symm)]

theorem index_message (h : s.index .message = some j) : s.textStarted = true := by
  by_contra hnot
  rw [show s.index .message = none from if_neg hnot] at h
  cases h

theorem index_reasoning (h : s.index .reasoning = some j) : s.reasoningStarted = true := by
  by_contra hnot
  rw [show s.index .reasoning = none from if_neg hnot] at h
  cases h

theorem index_tool {k j : ℤ} (h : s.index (.tool k) = some j) :
    ∃ tool, s.findTool k = some tool ∧ tool.outputIndex = j := Option.map_eq_some_iff.1 h

/-! ## Adding an item -/

/-- The item `r₀` is added to the output, as `it`, and the other items stay as they are. -/
structure Adds (r₀ : OutputRef) (it : Item) (s : ChatToResponsesStreamState) (events : List ResponsesEvent)
    (s' : ChatToResponsesStreamState) : Prop where
  sound : s'.Sound
  rid : s'.id = s.id
  order : s'.outputOrder = s.outputOrder ++ [r₀]
  index : ∀ r, s'.index r = if r = r₀ then some s.nextOutputIndex else s.index r
  item : ∀ r, s'.item r = if r = r₀ then it else s.item r
  about : About s.nextOutputIndex events
  marked : events.map mark = [.added r₀.type it.id]

variable {r₀ : OutputRef} (s' : ChatToResponsesStreamState) (t : ChatToResponsesStreamTool)

theorem sound_add (h : s.Sound) (hnone : s.index r₀ = none)
    (hnext : s'.nextOutputIndex = s.nextOutputIndex + 1) (horder : s'.outputOrder = s.outputOrder ++ [r₀])
    (hindex : ∀ r, s'.index r = if r = r₀ then some s.nextOutputIndex else s.index r) :
    s'.nextOutputIndex = s'.outputOrder.length ∧
      ∀ (r : OutputRef) (j : ℤ), s'.index r = some j ↔ ∃ i : ℕ, j = i ∧ s'.outputOrder[i]? = some r := by
  refine ⟨?_, ?_⟩
  · rw [hnext, horder, h.next]
    simp
  · intro r j
    rw [hindex, horder, h.next]
    by_cases hr : r = r₀
    · subst hr
      rw [if_pos rfl]
      constructor
      · intro heq
        refine ⟨s.outputOrder.length, (Option.some.inj heq).symm, ?_⟩
        simp
      · rintro ⟨i, rfl, hi⟩
        rw [getElem?_append] at hi
        split at hi
        · have hold := (h.order r i).mpr ⟨i, rfl, hi⟩
          rw [hnone] at hold
          cases hold
        · have hlt := (List.getElem?_eq_some_iff.mp hi).1
          simp only [length_singleton] at hlt
          have : i = s.outputOrder.length := by omega
          rw [this]
    · rw [if_neg hr, h.order r j]
      constructor
      · rintro ⟨i, rfl, hi⟩
        refine ⟨i, rfl, ?_⟩
        rw [getElem?_append_left (List.getElem?_eq_some_iff.mp hi).1]
        exact hi
      · rintro ⟨i, rfl, hi⟩
        refine ⟨i, rfl, ?_⟩
        rw [getElem?_append] at hi
        split at hi
        · exact hi
        · have hmem := mem_of_getElem? hi
          exact absurd (mem_singleton.mp hmem) hr

variable {events : List ResponsesEvent}

theorem adds_of {s' : ChatToResponsesStreamState} {it : Item}
    (h : s.Sound) (hnone : s.index r₀ = none) (hnext : s'.nextOutputIndex = s.nextOutputIndex + 1)
    (horder : s'.outputOrder = s.outputOrder ++ [r₀])
    (hindex : ∀ r, s'.index r = if r = r₀ then some s.nextOutputIndex else s.index r)
    (htools : (s'.toolsByIndex.map ChatToResponsesStreamTool.chatIndex).Nodup)
    (htext : s'.textStarted = false → s'.text = "" ∧ s'.textDone = false)
    (hreasoning : s'.reasoningStarted = false → s'.reasoning = "" ∧ s'.reasoningDone = false) (hrid : s'.id = s.id)
    (hitem : ∀ r, s'.item r = if r = r₀ then it else s.item r) (habout : About s.nextOutputIndex events)
    (hmarked : events.map mark = [.added r₀.type it.id]) : Adds r₀ it s events s' := by
  obtain ⟨hnext', horder'⟩ := sound_add s' h hnone hnext horder hindex
  exact ⟨⟨hnext', horder', htools, htext, hreasoning⟩, hrid, horder, hindex, hitem, habout, hmarked⟩

open Item

theorem startText_adds (h : s.Sound) (hnot : s.textStarted = false) :
    Adds .message { rid := s.id, id := s.messageID } s s.startText.1 s.startText.2 := by
  obtain ⟨htext, hdone⟩ := h.text hnot
  rw [show s.startText = _ from if_neg (by simp [hnot])]
  refine adds_of h (if_neg (by simp [hnot])) rfl rfl (fun r => by cases r <;> rfl) h.tools nofun h.reasoning rfl ?_ ?_ rfl
  · intro r
    cases r with
    | message =>
      show mk s.id s.messageID s.text s.textDone = _
      rw [htext, hdone]
      rfl
    | reasoning => rfl
    | tool k => rfl
  · intro e he
    rw [mem_singleton.mp he]

theorem startReasoning_adds (h : s.Sound) (hnot : s.reasoningStarted = false) :
    Adds .reasoning { rid := s.id, id := s.reasoningID } s s.startReasoning.1 s.startReasoning.2 := by
  obtain ⟨htext, hdone⟩ := h.reasoning hnot
  rw [show s.startReasoning = _ from if_neg (by simp [hnot])]
  refine adds_of h (if_neg (by simp [hnot])) rfl rfl (fun r => by cases r <;> rfl) h.tools h.text nofun rfl ?_ ?_ rfl
  · intro r
    cases r with
    | message => rfl
    | reasoning =>
      show mk s.id s.reasoningID s.reasoning s.reasoningDone = _
      rw [htext, hdone]
      rfl
    | tool k => rfl
  · intro e he
    rw [mem_singleton.mp he]

theorem startTool_adds (h : s.Sound) {call : ToolCallResponse} (hnot : s.findTool call.chatIndex = none) :
    Adds (.tool call.chatIndex) { rid := s.id, id := (s.newTool call).id } s (s.startTool call).1 (s.startTool call).2 := by
  have hindex : s.index (.tool call.chatIndex) = none := by
    show (s.findTool call.chatIndex).map _ = none
    rw [hnot]
    rfl
  have hfind : ∀ k, (s.toolsByIndex ++ [s.newTool call]).find? (fun t => t.chatIndex = k) =
      if k = call.chatIndex then some (s.newTool call) else s.findTool k := by
    intro k
    have hold : s.toolsByIndex.find? (fun t => t.chatIndex = k) = s.findTool k := rfl
    rw [find?_append, hold]
    by_cases hk : k = call.chatIndex
    · subst hk
      rw [hnot, if_pos rfl]
      simp [newTool]
    · rw [if_neg hk]
      have hne : ¬ (s.newTool call).chatIndex = k := fun heq => hk heq.symm
      simp [hne]
  unfold startTool
  rw [hnot]
  refine adds_of h hindex rfl rfl ?_ ?_ h.text h.reasoning rfl ?_ ?_ rfl
  · intro r
    cases r with
    | message => rfl
    | reasoning => rfl
    | tool k =>
      show ((s.toolsByIndex ++ [s.newTool call]).find? fun t => t.chatIndex = k).map _ = _
      rw [hfind]
      by_cases hk : k = call.chatIndex
      · simp [hk, newTool]
      · simp [hk, index]
  · show ((s.toolsByIndex ++ [s.newTool call]).map ChatToResponsesStreamTool.chatIndex).Nodup
    rw [map_append, nodup_append]
    refine ⟨h.tools, by simp, ?_⟩
    intro a ha b hb heq
    obtain ⟨t, ht, rfl⟩ := mem_map.mp ha
    have hb : b = call.chatIndex := by simpa [newTool] using hb
    have hfound := (findTool_some h).mpr ⟨ht, heq.trans hb⟩
    rw [hnot] at hfound
    cases hfound
  · intro r
    cases r with
    | message => rfl
    | reasoning => rfl
    | tool k =>
      show (((s.toolsByIndex ++ [s.newTool call]).find? fun t => t.chatIndex = k).map
        (ChatToResponsesStreamTool.item s.id)).getD { rid := s.id, id := "" } = _
      rw [hfind]
      by_cases hk : k = call.chatIndex
      · simp [hk, newTool, ChatToResponsesStreamTool.item]
      · simp [hk, item]
  · intro e he
    rw [mem_singleton.mp he]
    rfl

/-! ## Changing items -/

/-- No item is added; each is changed as `f` says. -/
structure Changes (f : OutputRef → Item → List Mark × Item) (s : ChatToResponsesStreamState)
    (events : List ResponsesEvent) (s' : ChatToResponsesStreamState) : Prop where
  sound : s'.Sound
  order : s'.outputOrder = s.outputOrder
  index : ∀ r, s'.index r = s.index r
  item : ∀ {r j}, s.index r = some j → s'.item r = (f r (s.item r)).2
  marks : ∀ {r j}, s.index r = some j → marks j events = (f r (s.item r)).1
  about : ∀ e ∈ events, e.mark ≠ .other ∧ ∃ r j, s.index r = some j ∧ e.outputIndex = some j

theorem sound_keep (h : s.Sound) (hnext : s'.nextOutputIndex = s.nextOutputIndex)
    (horder : s'.outputOrder = s.outputOrder) (hindex : ∀ r, s'.index r = s.index r) :
    s'.nextOutputIndex = s'.outputOrder.length ∧
      ∀ (r : OutputRef) (j : ℤ), s'.index r = some j ↔ ∃ i : ℕ, j = i ∧ s'.outputOrder[i]? = some r := by
  rw [hnext, horder]
  refine ⟨h.next, ?_⟩
  intro r j
  rw [hindex]
  exact h.order r j

/-- The events are about one item. -/
theorem marks_one (h : s.Sound) {j₀ j : ℤ} (hr₀ : s.index r₀ = some j₀)
    (habout : About j₀ events) (hr : s.index r = some j) :
    marks j events = if r = r₀ then events.map mark else [] := by
  by_cases heq : r = r₀
  · subst heq
    rw [hr₀] at hr
    cases hr
    rw [if_pos rfl, habout.marks_self]
  · rw [if_neg heq]
    refine habout.marks_ne ?_
    rintro rfl
    exact heq (h.index_inj hr hr₀)

/-- One item is changed, and the events are about it. -/
theorem changes_one {s' : ChatToResponsesStreamState} {f : OutputRef → Item → List Mark × Item} {r₀ : OutputRef} {j₀ : ℤ}
    {events : List ResponsesEvent} (h : s.Sound) (hr₀ : s.index r₀ = some j₀)
    (hnext : s'.nextOutputIndex = s.nextOutputIndex) (horder : s'.outputOrder = s.outputOrder)
    (hindex : ∀ r, s'.index r = s.index r) (htools : (s'.toolsByIndex.map ChatToResponsesStreamTool.chatIndex).Nodup)
    (htext : s'.textStarted = false → s'.text = "" ∧ s'.textDone = false)
    (hreasoning : s'.reasoningStarted = false → s'.reasoning = "" ∧ s'.reasoningDone = false)
    (hitem : ∀ r, s'.item r = (f r (s.item r)).2) (habout : About j₀ events)
    (hmarks : ∀ r, (if r = r₀ then events.map mark else []) = (f r (s.item r)).1)
    (hmark : ∀ e ∈ events, e.mark ≠ .other) : Changes f s events s' := by
  obtain ⟨hnext', horder'⟩ := sound_keep s' h hnext horder hindex
  exact ⟨⟨hnext', horder', htools, htext, hreasoning⟩, horder, hindex, fun _ => hitem _,
    fun hr => (marks_one h hr₀ habout hr).trans (hmarks _), fun e he => ⟨hmark e he, r₀, j₀, hr₀, habout e he⟩⟩

theorem writeText_changes (h : s.Sound) (hstarted : s.textStarted = true) (x : String) :
    Changes (fun r it => it.step r (.text x)) s (s.writeText x).1 (s.writeText x).2 := by
  refine @changes_one s _ _ .message _ _ h (if_pos hstarted) rfl rfl (fun r => by cases r <;> rfl) h.tools (fun hnot => ?_)
    h.reasoning (fun r => by cases r <;> rfl) ?_ (fun r => by cases r <;> rfl) ?_
  · exact absurd (hstarted.symm.trans hnot) nofun
  · intro e he
    rw [mem_singleton.mp he]
  · intro e he
    rw [mem_singleton.mp he]
    simp [mark]

theorem writeReasoning_changes (h : s.Sound) (hstarted : s.reasoningStarted = true) (x : String) :
    Changes (fun r it => it.step r (.reasoning x)) s (s.writeReasoning x).1 (s.writeReasoning x).2 := by
  refine @changes_one s _ _ .reasoning _ _ h (if_pos hstarted) rfl rfl (fun r => by cases r <;> rfl) h.tools h.text
    (fun hnot => ?_) (fun r => by cases r <;> rfl) ?_ (fun r => by cases r <;> rfl) ?_
  · exact absurd (hstarted.symm.trans hnot) nofun
  · intro e he
    rw [mem_singleton.mp he]
  · intro e he
    rw [mem_singleton.mp he]
    simp [mark]

/-- A change of the tools that keeps their indexes. -/
theorem findTool_map {g : ChatToResponsesStreamTool → ChatToResponsesStreamTool}
    (hg : ∀ t ∈ s.toolsByIndex, (g t).chatIndex = t.chatIndex) (k : ℤ) :
    (s.toolsByIndex.map g).find? (fun t => t.chatIndex = k) = (s.findTool k).map g := by
  unfold findTool
  rw [find?_map]
  congr 1
  refine find?_congr ?_
  intro t ht
  simp [hg t ht]

theorem chatIndex_map {g : ChatToResponsesStreamTool → ChatToResponsesStreamTool} {l : List ChatToResponsesStreamTool}
    (hg : ∀ t ∈ l, (g t).chatIndex = t.chatIndex) :
    (l.map g).map ChatToResponsesStreamTool.chatIndex = l.map ChatToResponsesStreamTool.chatIndex := by
  rw [map_map]
  exact map_congr_left hg

theorem writeTool_changes (h : s.Sound) {call : ToolCallResponse} {tool : ChatToResponsesStreamTool}
    (hfound : s.findTool call.chatIndex = some tool) :
    Changes (fun r it => it.step r (.tool call)) s (s.writeTool call).1 (s.writeTool call).2 := by
  let g : ChatToResponsesStreamTool → ChatToResponsesStreamTool := fun t =>
    if t.chatIndex = call.chatIndex then tool.write call else t
  have hwrite : s.writeTool call = (if call.arguments ≠ "" then
      [{ type := .functionArgsDelta, delta := call.arguments, outputIndex := some tool.outputIndex,
         itemID := call.newID tool.id }] else [], { s with toolsByIndex := s.toolsByIndex.map g }) := by
    unfold writeTool
    rw [hfound]
    rfl
  have hkey : tool.chatIndex = call.chatIndex := ((findTool_some h).mp hfound).2
  have hg : ∀ t ∈ s.toolsByIndex, (g t).chatIndex = t.chatIndex := by
    intro t _
    show (if t.chatIndex = call.chatIndex then tool.write call else t).chatIndex = t.chatIndex
    split
    · rename_i heq
      exact hkey.trans heq.symm
    · rfl
  -- the tool itself, and any other
  have hself : (s.findTool call.chatIndex).map g = some (tool.write call) := by
    rw [hfound]
    show some (if tool.chatIndex = call.chatIndex then tool.write call else tool) = _
    rw [if_pos hkey]
  have hother : ∀ {k}, k ≠ call.chatIndex → (s.findTool k).map g = s.findTool k := by
    intro k hk
    cases ht : s.findTool k with
    | none => rfl
    | some t =>
      have hk' := ((findTool_some h).mp ht).2
      show some (if t.chatIndex = call.chatIndex then tool.write call else t) = some t
      rw [if_neg (by rw [hk']; exact hk)]
  have hindex : s.index (.tool call.chatIndex) = some tool.outputIndex := by
    show (s.findTool call.chatIndex).map _ = _
    rw [hfound]
    rfl
  rw [hwrite]
  refine changes_one h hindex rfl rfl ?_ ?_ h.text h.reasoning ?_ ?_ ?_ ?_
  · intro r
    cases r with
    | message => rfl
    | reasoning => rfl
    | tool k =>
      show ((s.toolsByIndex.map g).find? fun t => t.chatIndex = k).map _ = (s.findTool k).map _
      rw [findTool_map hg]
      by_cases hk : k = call.chatIndex
      · rw [hk, hself, hfound]
        rfl
      · rw [hother hk]
  · show ((s.toolsByIndex.map g).map ChatToResponsesStreamTool.chatIndex).Nodup
    rw [chatIndex_map hg]
    exact h.tools
  · intro r
    cases r with
    | message => rfl
    | reasoning => rfl
    | tool k =>
      show (((s.toolsByIndex.map g).find? fun t => t.chatIndex = k).map (ChatToResponsesStreamTool.item s.id)).getD
        { rid := s.id, id := "" } = (step (.tool k)
          (((s.findTool k).map (ChatToResponsesStreamTool.item s.id)).getD { rid := s.id, id := "" }) (.tool call)).2
      rw [findTool_map hg]
      by_cases hk : k = call.chatIndex
      · subst hk
        rw [hself, hfound]
        simp [step, ChatToResponsesStreamTool.item, ChatToResponsesStreamTool.write, ToolCallResponse.newID]
      · rw [hother hk]
        simp [step, hk]
  · intro e he
    obtain ⟨-, he⟩ := mem_ite_nil_right.1 he
    rw [mem_singleton.mp he]
  · intro r
    by_cases hr' : r = .tool call.chatIndex
    · subst hr'
      rw [if_pos rfl]
      have hitem : s.item (.tool call.chatIndex) = tool.item s.id := by
        show ((s.findTool call.chatIndex).map _).getD _ = _
        rw [hfound]
        rfl
      rw [hitem]
      by_cases hargs : call.arguments = ""
      · simp [step, hargs]
      · simp [step, hargs, mark, ChatToResponsesStreamTool.item]
    · rw [if_neg hr']
      simp [step, hr']
  · intro e he
    obtain ⟨-, he⟩ := mem_ite_nil_right.1 he
    rw [mem_singleton.mp he]
    simp [mark]

/-! ## Items that are done -/

theorem marks_flatMap {α : Type} {l : List α} {f : α → List ResponsesEvent} (place : α → ℤ)
    (h : ∀ a ∈ l, About (place a) (f a)) (j : ℤ) :
    marks j (l.flatMap f) = (l.filter fun a => place a = j).flatMap fun a => (f a).map mark := by
  induction l with
  | nil => rfl
  | cons a l ih =>
    have habout := h a mem_cons_self
    rw [flatMap_cons, marks_append, ih fun b hb => h b (mem_cons_of_mem _ hb), filter_cons]
    by_cases hplace : place a = j
    · subst hplace
      rw [habout.marks_self]
      simp
    · rw [habout.marks_ne hplace]
      simp [hplace]

theorem filter_eq_singleton {α : Type} {l : List α} {a : α} {p : α → Bool} (hnodup : l.Nodup) (ha : a ∈ l)
    (hp : ∀ b ∈ l, p b = true ↔ b = a) : l.filter p = [a] := by
  refine perm_singleton.1 ((perm_ext_iff_of_nodup (hnodup.filter p) (nodup_singleton a)).2 fun b => ?_)
  rw [mem_filter, mem_singleton]
  constructor
  · exact fun h => (hp b h.1).1 h.2
  · rintro rfl
    exact ⟨ha, (hp _ ha).2 rfl⟩

theorem mem_sortedTools : t ∈ s.sortedTools ↔ t ∈ s.toolsByIndex :=
  (perm_insertionSort _ _).mem_iff

theorem ChatToResponsesStreamState.Sound.index_tool (h : s.Sound) {t : ChatToResponsesStreamTool} (ht : t ∈ s.toolsByIndex) :
    s.index (.tool t.chatIndex) = some t.outputIndex := by
  show (s.findTool t.chatIndex).map _ = _
  rw [(findTool_some h).mpr ⟨ht, rfl⟩]
  rfl

theorem toolDoneEvents_about : About t.outputIndex (s.toolDoneEvents t) := by
  intro e he
  simp only [toolDoneEvents, mem_cons, not_mem_nil, or_false] at he
  rcases he with rfl | rfl <;> rfl

/-- The events of the tools that are done now. -/
theorem marks_toolsDone (h : s.Sound) (hr : s.index r = some j) :
    marks j ((s.sortedTools.filter fun t => !t.done).flatMap s.toolDoneEvents) = match r with
      | .tool _ => (s.item r).doneMarks r
      | _ => [] := by
  rw [marks_flatMap ChatToResponsesStreamTool.outputIndex fun t _ => toolDoneEvents_about t, filter_filter]
  -- a tool of the list that stands at `j` is the item itself
  have hplace : ∀ t ∈ s.toolsByIndex, t.outputIndex = j → r = .tool t.chatIndex := by
    rintro t ht rfl
    exact h.index_inj hr (h.index_tool ht)
  have hnone : (∀ k, r ≠ .tool k) → (s.sortedTools.filter fun t => decide (t.outputIndex = j) && !t.done) = [] := by
    intro hno
    rw [filter_eq_nil_iff]
    intro t ht hfilter
    simp only [Bool.and_eq_true, decide_eq_true_eq] at hfilter
    exact hno _ (hplace t ((mem_sortedTools t).mp ht) hfilter.1)
  cases r with
  | message | reasoning =>
    rw [hnone (by simp)]
    rfl
  | tool k =>
    obtain ⟨tool, hfound, hj⟩ := index_tool hr
    obtain ⟨hmem, rfl⟩ := (findTool_some h).mp hfound
    have hitem : s.item (.tool tool.chatIndex) = tool.item s.id := by
      show ((s.findTool tool.chatIndex).map _).getD _ = _
      rw [hfound]
      rfl
    have honly : ∀ t ∈ s.toolsByIndex, t.outputIndex = j → t = tool := by
      intro t ht htj
      have hkey : OutputRef.tool tool.chatIndex = .tool t.chatIndex := hplace t ht htj
      exact inj_on_of_nodup_map h.tools ht hmem (OutputRef.tool.inj hkey).symm
    simp only
    rw [hitem]
    by_cases hdone : tool.done = true
    · rw [filter_eq_nil_iff.mpr]
      · simp [doneMarks, ChatToResponsesStreamTool.item, hdone]
      · intro t ht hfilter
        simp only [Bool.and_eq_true, decide_eq_true_eq] at hfilter
        rw [honly t ((mem_sortedTools t).mp ht) hfilter.1, hdone] at hfilter
        simp at hfilter
    · have hnodup : s.sortedTools.Nodup :=
        (perm_insertionSort _ _).nodup_iff.mpr (List.Nodup.of_map _ h.tools)
      rw [filter_eq_singleton hnodup ((mem_sortedTools tool).mpr hmem)]
      · simp [doneMarks, ChatToResponsesStreamTool.item, hdone, toolDoneEvents, mark,
          toolOutput, ResponsesOutput.shown, OutputRef.type]
      · intro t ht
        simp only [Bool.and_eq_true, decide_eq_true_eq]
        constructor
        · rintro ⟨htj, -⟩
          exact honly t ((mem_sortedTools t).mp ht) htj
        · rintro rfl
          exact ⟨hj, by simp [hdone]⟩

/-- What being done does to an item. -/
def Item.finish (r : OutputRef) (it : Item) : List Mark × Item := (it.doneMarks r, { it with done := true })

theorem textDone_about : About s.textOutputIndex (if s.textStarted && !s.textDone then s.textDoneEvents else []) := by
  intro e he
  obtain ⟨-, he⟩ := mem_ite_nil_right.1 he
  simp only [textDoneEvents, mem_cons, not_mem_nil, or_false] at he
  rcases he with rfl | rfl <;> rfl

theorem reasoningDone_about :
    About s.reasoningIndex (if s.reasoningStarted && !s.reasoningDone then s.reasoningDoneEvents else []) := by
  intro e he
  obtain ⟨-, he⟩ := mem_ite_nil_right.1 he
  simp only [reasoningDoneEvents, mem_cons, not_mem_nil, or_false] at he
  rcases he with rfl | rfl <;> rfl

theorem marks_textDone (h : s.Sound) (hr : s.index r = some j) :
    marks j (if s.textStarted && !s.textDone then s.textDoneEvents else []) =
      if r = .message then (s.item r).doneMarks r else [] := by
  by_cases hstarted : s.textStarted = true
  · have hindex : s.index .message = some s.textOutputIndex := if_pos hstarted
    rw [marks_one h hindex textDone_about hr]
    by_cases hr' : r = .message
    · subst hr'
      rw [if_pos rfl, if_pos rfl, hstarted]
      cases hdone : s.textDone with
      | true => simp [item, doneMarks, hdone]
      | false =>
        simp [item, doneMarks, hdone, textDoneEvents, mark, messageOutput, ResponsesOutput.shown, OutputRef.type]
    · rw [if_neg hr', if_neg hr']
  · have hnot : r ≠ .message := by
      rintro rfl
      exact hstarted (index_message hr)
    simp [hstarted, hnot]

theorem marks_reasoningDone (h : s.Sound) (hr : s.index r = some j) :
    marks j (if s.reasoningStarted && !s.reasoningDone then s.reasoningDoneEvents else []) =
      if r = .reasoning then (s.item r).doneMarks r else [] := by
  by_cases hstarted : s.reasoningStarted = true
  · have hindex : s.index .reasoning = some s.reasoningIndex := if_pos hstarted
    rw [marks_one h hindex reasoningDone_about hr]
    by_cases hr' : r = .reasoning
    · subst hr'
      rw [if_pos rfl, if_pos rfl, hstarted]
      cases hdone : s.reasoningDone with
      | true => simp [item, doneMarks, hdone]
      | false =>
        simp [item, doneMarks, hdone, reasoningDoneEvents, mark, reasoningOutput,
          ResponsesOutput.shown, OutputRef.type]
    · rw [if_neg hr', if_neg hr']
  · have hnot : r ≠ .reasoning := by
      rintro rfl
      exact hstarted (index_reasoning hr)
    simp [hstarted, hnot]

theorem doneDelta_marked {e : ResponsesEvent} (h : s.Sound) (he : e ∈ s.doneDeltaEvents.1) :
    e.mark ≠ .other ∧ ∃ r j, s.index r = some j ∧ e.outputIndex = some j := by
  rcases mem_append.mp he with he | he
  · rcases mem_append.mp he with he | he
    · have habout := textDone_about e he
      obtain ⟨hstarted, he⟩ := mem_ite_nil_right.1 he
      rw [Bool.and_eq_true] at hstarted
      refine ⟨?_, .message, s.textOutputIndex, if_pos hstarted.1, habout⟩
      simp only [textDoneEvents, mem_cons, not_mem_nil, or_false] at he
      rcases he with rfl | rfl <;> simp [mark]
    · have habout := reasoningDone_about e he
      obtain ⟨hstarted, he⟩ := mem_ite_nil_right.1 he
      rw [Bool.and_eq_true] at hstarted
      refine ⟨?_, .reasoning, s.reasoningIndex, if_pos hstarted.1, habout⟩
      simp only [reasoningDoneEvents, mem_cons, not_mem_nil, or_false] at he
      rcases he with rfl | rfl <;> simp [mark]
  · obtain ⟨t, ht, he⟩ := mem_flatMap.mp he
    have ht := (mem_sortedTools t).mp (mem_filter.mp ht).1
    refine ⟨?_, .tool t.chatIndex, t.outputIndex, h.index_tool ht, toolDoneEvents_about t e he⟩
    simp only [toolDoneEvents, mem_cons, not_mem_nil, or_false] at he
    rcases he with rfl | rfl <;> simp [mark]

theorem doneDelta_changes (h : s.Sound) : Changes finish s s.doneDeltaEvents.1 s.doneDeltaEvents.2 := by
  let g : ChatToResponsesStreamTool → ChatToResponsesStreamTool := fun t => { t with done := true }
  have hg : ∀ t ∈ s.toolsByIndex, (g t).chatIndex = t.chatIndex := fun _ _ => rfl
  have hfind : ∀ k, s.doneDeltaEvents.2.findTool k = (s.findTool k).map g := fun k => findTool_map hg k
  have hsame : ∀ r, s.doneDeltaEvents.2.index r = s.index r := by
    intro r
    cases r with
    | message => rfl
    | reasoning => rfl
    | tool k =>
      show (s.doneDeltaEvents.2.findTool k).map _ = (s.findTool k).map _
      rw [hfind, Option.map_map]
      rfl
  obtain ⟨hnext, horder⟩ := sound_keep s.doneDeltaEvents.2 h rfl rfl hsame
  refine ⟨⟨hnext, horder, ?_, ?_, ?_⟩, rfl, hsame, ?_, ?_, fun e he => doneDelta_marked h he⟩
  · show ((s.toolsByIndex.map g).map ChatToResponsesStreamTool.chatIndex).Nodup
    rw [chatIndex_map hg]
    exact h.tools
  · intro hnot
    have hnot : s.textStarted = false := hnot
    obtain ⟨htext, hdone⟩ := h.text hnot
    refine ⟨htext, ?_⟩
    show (s.textDone || s.textStarted) = false
    rw [hdone, hnot]
    rfl
  · intro hnot
    have hnot : s.reasoningStarted = false := hnot
    obtain ⟨htext, hdone⟩ := h.reasoning hnot
    refine ⟨htext, ?_⟩
    show (s.reasoningDone || s.reasoningStarted) = false
    rw [hdone, hnot]
    rfl
  · intro r j hr
    cases r with
    | message =>
      show mk s.id s.messageID s.text (s.textDone || s.textStarted) = mk s.id s.messageID s.text true
      rw [index_message hr, Bool.or_true]
    | reasoning =>
      show mk s.id s.reasoningID s.reasoning (s.reasoningDone || s.reasoningStarted) =
        mk s.id s.reasoningID s.reasoning true
      rw [index_reasoning hr, Bool.or_true]
    | tool k =>
      show ((s.doneDeltaEvents.2.findTool k).map (ChatToResponsesStreamTool.item s.id)).getD _ =
        (finish (.tool k) (((s.findTool k).map (ChatToResponsesStreamTool.item s.id)).getD _)).2
      obtain ⟨tool, hfound, -⟩ := index_tool hr
      rw [hfind, hfound]
      rfl
  · intro r j hr
    show marks j (_ ++ _ ++ _) = (s.item r).doneMarks r
    rw [marks_append, marks_append, marks_textDone h hr, marks_reasoningDone h hr, marks_toolsDone h hr]
    cases r <;> simp

/-! ## Moves -/

/-- The name of the answer after a move. -/
def Move.newID (m : Move) (rid : String) : String :=
  match m with
  | .head chunk => chunk.newID rid
  | _ => rid

/-- What a move does: to the items that were added, and to the item it adds. -/
structure MoveSpec (m : Move) (s : ChatToResponsesStreamState) (events : List ResponsesEvent)
    (s' : ChatToResponsesStreamState) : Prop where
  sound : s'.Sound
  grows : s.nextOutputIndex ≤ s'.nextOutputIndex
  rid : s'.id = m.newID s.id
  old : ∀ {r j}, s.index r = some j →
    s'.index r = some j ∧ s'.item r = ((s.item r).step r m).2 ∧ marks j events = ((s.item r).step r m).1
  fresh : ∀ {r}, s.index r = none → m.begins r = true →
    s'.index r = some s.nextOutputIndex ∧ s'.item r = ((r.fresh s.id m).step r m).2 ∧
      marks s.nextOutputIndex events = .added r.type (r.firstID s.id m) :: ((r.fresh s.id m).step r m).1
  none : ∀ {r}, s.index r = none → m.begins r = false → s'.index r = none
  about : ∀ e ∈ events, e.mark ≠ .other ∧ ∃ r j, s'.index r = some j ∧ e.outputIndex = some j

/-- A move that adds nothing. -/
theorem Changes.spec {m : Move} {s' : ChatToResponsesStreamState}
    (h : Changes (fun r it => it.step r m) s events s') (hs : s.Sound) (hrid : s'.id = m.newID s.id)
    (hold : ∀ r, m.begins r = true → s.index r ≠ none) : MoveSpec m s events s' where
  sound := h.sound
  grows := by rw [hs.next, h.sound.next, h.order]
  rid := hrid
  old := fun {r j} hr => ⟨(h.index r).trans hr, h.item hr, h.marks hr⟩
  fresh := fun {r} hr hbegins => absurd hr (hold r hbegins)
  none := fun {r} hr _ => (h.index r).trans hr
  about := by
    intro e he
    obtain ⟨hmark, r, j, hr, hindex⟩ := h.about e he
    exact ⟨hmark, r, j, (h.index r).trans hr, hindex⟩

/-- A move that adds an item and writes to it. -/
theorem Adds.spec {m : Move} {s₁ s' : ChatToResponsesStreamState} {es fs : List ResponsesEvent}
    (h : s.Sound) (hadds : Adds r₀ (r₀.fresh s.id m) s es s₁) (hnone : s.index r₀ = none)
    (hchanges : Changes (fun r it => it.step r m) s₁ fs s') (hrid : s'.id = m.newID s.id)
    (hbegins : ∀ r, m.begins r = true ↔ r = r₀) : MoveSpec m s (es ++ fs) s' where
  sound := hchanges.sound
  grows := by
    rw [h.next, hchanges.sound.next, hchanges.order, hadds.order, length_append]
    omega
  rid := hrid
  old := by
    intro r j hr
    have hne : r ≠ r₀ := by
      rintro rfl
      rw [hnone] at hr
      cases hr
    have hindex : s₁.index r = some j := by
      rw [hadds.index, if_neg hne]
      exact hr
    have hitem : s₁.item r = s.item r := by
      rw [hadds.item, if_neg hne]
    have hlt := h.lt_next hr
    refine ⟨(hchanges.index r).trans hindex, ?_, ?_⟩
    · rw [hchanges.item hindex, hitem]
    · rw [marks_append, hadds.about.marks_ne (by omega), hchanges.marks hindex, hitem]
      rfl
  fresh := by
    intro r hr hbegin
    obtain rfl := (hbegins r).mp hbegin
    have hindex : s₁.index r = some s.nextOutputIndex := by
      rw [hadds.index, if_pos rfl]
    have hitem : s₁.item r = r.fresh s.id m := by
      rw [hadds.item, if_pos rfl]
    refine ⟨(hchanges.index r).trans hindex, ?_, ?_⟩
    · rw [hchanges.item hindex, hitem]
    · rw [marks_append, hadds.about.marks_self, hadds.marked, hchanges.marks hindex, hitem]
      rfl
  none := by
    intro r hr hbegin
    have hne : r ≠ r₀ := by
      intro heq
      rw [(hbegins r).mpr heq] at hbegin
      cases hbegin
    rw [hchanges.index, hadds.index, if_neg hne]
    exact hr
  about := by
    intro e he
    rcases mem_append.mp he with he | he
    · refine ⟨?_, r₀, s.nextOutputIndex, ?_, hadds.about e he⟩
      · have hmem : e.mark ∈ es.map mark := mem_map_of_mem he
        rw [hadds.marked, mem_singleton] at hmem
        rw [hmem]
        simp
      · rw [hchanges.index, hadds.index, if_pos rfl]
    · obtain ⟨hmark, r, j, hr, hindex⟩ := hchanges.about e he
      exact ⟨hmark, r, j, (hchanges.index r).trans hr, hindex⟩

theorem head_changes (h : s.Sound) (chunk : ChatChunk) :
    Changes (fun r it => it.step r (.head chunk)) s [] { s.readChunk chunk with sentCreated := true } := by
  have hsame : ∀ r, { s.readChunk chunk with sentCreated := true }.index r = s.index r := by
    intro r
    cases r <;> rfl
  obtain ⟨hnext, horder⟩ := sound_keep { s.readChunk chunk with sentCreated := true } h rfl rfl hsame
  refine ⟨⟨hnext, horder, h.tools, h.text, h.reasoning⟩, rfl, hsame, ?_, ?_, ?_⟩
  · intro r j hr
    cases r with
    | message => rfl
    | reasoning => rfl
    | tool k =>
      obtain ⟨tool, hfound, -⟩ := index_tool hr
      show ((s.findTool k).map (ChatToResponsesStreamTool.item (chunk.newID s.id))).getD
        { rid := chunk.newID s.id, id := "" } =
          (step (.tool k) (((s.findTool k).map (ChatToResponsesStreamTool.item s.id)).getD
            { rid := s.id, id := "" }) (.head chunk)).2
      rw [hfound]
      rfl
  · intro r j hr
    rfl
  · intro e he
    cases he

theorem finish_changes (h : s.Sound) (reason : String) :
    Changes finish s (s.applyFinishReason reason).doneDeltaEvents.1 (s.applyFinishReason reason).doneDeltaEvents.2 := by
  -- the status is no item's
  have hindex : ∀ r, (s.applyFinishReason reason).index r = s.index r := by
    intro r
    cases r <;> rfl
  have hitem : ∀ r, (s.applyFinishReason reason).item r = s.item r := by
    intro r
    cases r <;> rfl
  obtain ⟨hnext, horder⟩ := sound_keep (s.applyFinishReason reason) h rfl rfl hindex
  have hdone := doneDelta_changes (s := s.applyFinishReason reason) ⟨hnext, horder, h.tools, h.text, h.reasoning⟩
  refine ⟨hdone.sound, hdone.order, ?_, ?_, ?_, ?_⟩
  · intro r
    rw [hdone.index, hindex]
  · intro r j hr
    rw [hdone.item ((hindex r).trans hr), hitem]
  · intro r j hr
    rw [hdone.marks ((hindex r).trans hr), hitem]
  · intro e he
    obtain ⟨hmark, r, j, hr, hout⟩ := hdone.about e he
    exact ⟨hmark, r, j, (hindex r).symm.trans hr, hout⟩

/-- **One move**, on every item. -/
theorem move_spec (h : s.Sound) (m : Move) : MoveSpec m s (m.apply s).1 (m.apply s).2 := by
  cases m with
  | head chunk => exact (head_changes h chunk).spec h rfl fun r hr => by cases hr
  | finish reason =>
    have hdone : Changes (fun r it => it.step r (.finish reason)) s _ _ := finish_changes h reason
    exact hdone.spec h rfl fun r hr => by cases hr
  | reasoning x =>
    by_cases hstarted : s.reasoningStarted = true
    · have hstart : s.startReasoning = ([], s) := if_pos hstarted
      have hwrite := writeReasoning_changes h hstarted x
      have happly : Move.apply (.reasoning x) s = s.writeReasoning x := by
        show (s.startReasoning.1 ++ _, _) = _
        rw [hstart]
        rfl
      rw [happly]
      refine hwrite.spec h rfl ?_
      intro r hr hnone
      have hr : r = .reasoning := by simpa [Move.begins] using hr
      subst hr
      rw [show s.index .reasoning = some s.reasoningIndex from if_pos hstarted] at hnone
      cases hnone
    · have hnot : s.reasoningStarted = false := by simpa using hstarted
      have hadds := startReasoning_adds h hnot
      have hbegun : s.startReasoning.2.reasoningStarted = true := by
        unfold startReasoning
        rw [if_neg hstarted]
      refine Adds.spec h hadds (if_neg hstarted) (writeReasoning_changes hadds.sound hbegun x) hadds.rid ?_
      intro r
      simp [Move.begins]
  | text x =>
    by_cases hstarted : s.textStarted = true
    · have hstart : s.startText = ([], s) := if_pos hstarted
      have hwrite := writeText_changes h hstarted x
      have happly : Move.apply (.text x) s = s.writeText x := by
        show (s.startText.1 ++ _, _) = _
        rw [hstart]
        rfl
      rw [happly]
      refine hwrite.spec h rfl ?_
      intro r hr hnone
      have hr : r = .message := by simpa [Move.begins] using hr
      subst hr
      rw [show s.index .message = some s.textOutputIndex from if_pos hstarted] at hnone
      cases hnone
    · have hnot : s.textStarted = false := by simpa using hstarted
      have hadds := startText_adds h hnot
      have hbegun : s.startText.2.textStarted = true := by
        unfold startText
        rw [if_neg hstarted]
      refine Adds.spec h hadds (if_neg hstarted) (writeText_changes hadds.sound hbegun x) hadds.rid ?_
      intro r
      simp [Move.begins]
  | tool call =>
    have hrid : ∀ t : ChatToResponsesStreamState, (t.writeTool call).2.id = t.id := by
      intro t
      unfold writeTool
      split <;> rfl
    cases hfound : s.findTool call.chatIndex with
    | some tool =>
      have hstart : s.startTool call = ([], s) := by
        unfold startTool
        rw [hfound]
      have happly : Move.apply (.tool call) s = s.writeTool call := by
        show ((s.startTool call).1 ++ _, _) = _
        rw [hstart]
        rfl
      rw [happly]
      refine (writeTool_changes h hfound).spec h (hrid s) ?_
      intro r hr hnone
      have hr : r = .tool call.chatIndex := by simpa [Move.begins] using hr
      subst hr
      have hindex : s.index (.tool call.chatIndex) = some tool.outputIndex := by
        show (s.findTool call.chatIndex).map _ = _
        rw [hfound]
        rfl
      rw [hindex] at hnone
      cases hnone
    | none =>
      have hadds := startTool_adds h hfound
      have hbegun : (s.startTool call).2.findTool call.chatIndex = some (s.newTool call) := by
        have hmem : s.newTool call ∈ (s.startTool call).2.toolsByIndex := by
          unfold startTool
          rw [hfound]
          exact mem_append_right _ (mem_singleton_self _)
        exact (findTool_some hadds.sound).mpr ⟨hmem, rfl⟩
      have hindex : s.index (.tool call.chatIndex) = none := by
        show (s.findTool call.chatIndex).map _ = none
        rw [hfound]
        rfl
      refine Adds.spec h hadds hindex (writeTool_changes hadds.sound hbegun) ((hrid _).trans hadds.rid) ?_
      intro r
      simp [Move.begins]

end

end NovaMaas.Convert
