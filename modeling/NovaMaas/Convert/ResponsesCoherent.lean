/-
  When a Responses stream that was made from a chat stream is coherent.

  `Coherent` is what a client relies on: a created event first and a final event last; between them events about the
  items of the final response, each of which is added once, then written to, then done once, all under one id; what was
  written is what the done event and the final response show; and the items stand in the final response in the order
  of their output indexes.

  The converter keeps to it as long as an item is `Fine` from its first fragment on: nothing is written to it after a
  finish reason, and whenever its id is shown it is the one it was added with.  The id of a tool call may change with
  every fragment, and that of the message and of the reasoning once, when a chunk names the answer.
-/
import NovaMaas.Convert.ResponsesItems

open List

namespace NovaMaas.Convert

open ChatToResponsesStreamState Gather Item

/-! ## Coherence -/

/-- The marks of an item that the final response shows as `o`: added, written to, done, and with one content. -/
def ItemCoherent (ms : List Mark) (o : ResponsesOutput String) : Prop :=
  ∃ texts : List String, ms = .added o.type o.id ::
      (texts.map (.delta o.type o.id) ++ [.partDone o.type o.id, .done o.type o.id (joined texts)]) ∧
    o.shown = joined texts

/-- A coherent stream, with its final response. -/
def CoherentWith (events : List ResponsesEvent) (response : OpenAIResponsesResponse String) : Prop :=
  ∃ first middle last, events = first :: (middle ++ [last]) ∧ first.type = .created ∧
    (last.type = .completed ∨ last.type = .incomplete) ∧ last.response = some response ∧
    (∀ e ∈ middle, e.mark ≠ .other ∧ ∃ i : ℕ, i < response.output.length ∧ e.outputIndex = some (i : ℤ)) ∧
    ∀ (i : ℕ) (o : ResponsesOutput String), response.output[i]? = some o → ItemCoherent (marks i middle) o

def Coherent (events : List ResponsesEvent) : Prop := ∃ response, CoherentWith events response

/-! ## The condition -/

/-- An item that was added as `id₀`, and is now called `id`, goes on well: it is written to, closed and left only under
its first id, and not written to once it is done. -/
def Fine (r : OutputRef) (id₀ : String) (rid id : String) (done : Bool) : List Move → Prop
  | [] => id = id₀
  | .head chunk :: ms => Fine r id₀ (chunk.newID rid) (r.idIn (chunk.newID rid) id) done ms
  | .reasoning _ :: ms => (r = .reasoning → id = id₀ ∧ done = false) ∧ Fine r id₀ rid id done ms
  | .text _ :: ms => (r = .message → id = id₀ ∧ done = false) ∧ Fine r id₀ rid id done ms
  | .tool call :: ms =>
    if r = .tool call.chatIndex then
      (call.arguments ≠ "" → call.newID id = id₀ ∧ done = false) ∧ Fine r id₀ rid (call.newID id) done ms
    else Fine r id₀ rid id done ms
  | .finish _ :: ms => (done = false → id = id₀) ∧ Fine r id₀ rid id true ms

/-- The item is fine from its first fragment on. -/
def Orderly (r : OutputRef) (rid : String) : List Move → Prop
  | [] => True
  | m :: ms =>
    if m.begins r then Fine r (r.firstID rid m) rid (r.firstID rid m) false (m :: ms)
    else Orderly r (m.newID rid) ms

/-! ## One item -/

/-- What the moves do to an item. -/
def Item.run (r : OutputRef) (it : Item) : List Move → List Mark × Item
  | [] => ([], it)
  | m :: ms => ((it.step r m).1 ++ (run r (it.step r m).2 ms).1, (run r (it.step r m).2 ms).2)

/-- All marks of an item from here to the end of the stream. -/
def Item.marks (r : OutputRef) (it : Item) (ms : List Move) : List Mark :=
  (it.run r ms).1 ++ (it.run r ms).2.doneMarks r

/-- What is left of the life of an item: it is written to, and done with all that was written; nothing, if it is done. -/
def Item.Ends (r : OutputRef) (id₀ : String) (it : Item) (ms : List Move) : Prop :=
  ∃ texts : List String, it.marks r ms = texts.map (.delta r.type id₀) ++
      (if it.done then [] else [.partDone r.type id₀, .done r.type id₀ (it.content ++ joined texts)]) ∧
    (it.done = true → texts = []) ∧ (it.run r ms).2.id = id₀ ∧ (it.run r ms).2.content = it.content ++ joined texts

theorem Item.marks_cons (r : OutputRef) (it : Item) (m : Move) (ms : List Move) :
    it.marks r (m :: ms) = (it.step r m).1 ++ (it.step r m).2.marks r ms :=
  append_assoc _ _ _

variable {r : OutputRef} {ms : List Move} {it : Item} {id₀ : String} {m : Move}

/-- A move that says nothing of the item and leaves its content. -/
theorem Item.ends_cons (hmarks : (it.step r m).1 = []) (hdone : (it.step r m).2.done = it.done)
    (hcontent : (it.step r m).2.content = it.content) : it.Ends r id₀ (m :: ms) ↔ (it.step r m).2.Ends r id₀ ms := by
  unfold Ends
  rw [marks_cons, hmarks, nil_append, hdone, hcontent]
  rfl

/-- A fragment is written under the first id, and only to an item that is not done. -/
theorem Item.ends_write (id x : String) (hmarks : (it.step r m).1 = [.delta r.type id x])
    (hdone : (it.step r m).2.done = it.done) (hcontent : (it.step r m).2.content = it.content ++ x) :
    it.Ends r id₀ (m :: ms) ↔ (id = id₀ ∧ it.done = false) ∧ (it.step r m).2.Ends r id₀ ms := by
  unfold Ends
  rw [marks_cons, hmarks, hdone, hcontent]
  constructor
  · rintro ⟨texts, heq, hnone, hid, htext⟩
    cases texts with
    | nil =>
      split at heq
      · cases heq
      · cases heq
    | cons _ texts =>
      have hopen : it.done = false := Bool.eq_false_iff.mpr fun h => nomatch hnone h
      obtain ⟨hhead, htail⟩ := cons.inj heq
      cases hhead
      refine ⟨⟨rfl, hopen⟩, texts, ?_, fun h => absurd (hopen.symm.trans h) Bool.false_ne_true, hid, ?_⟩
      · rw [String.append_assoc]
        exact htail
      · rw [String.append_assoc]
        exact htext
  · rintro ⟨⟨rfl, hopen⟩, texts, heq, -, hid, htext⟩
    refine ⟨x :: texts, ?_, fun h => absurd (hopen.symm.trans h) Bool.false_ne_true, hid, ?_⟩
    · rw [singleton_append, heq, String.append_assoc]
      rfl
    · rw [joined_cons, ← String.append_assoc]
      exact htext

/-- After a finish reason the item is done, and nothing may follow. -/
theorem Item.ends_finish (reason : String) :
    it.Ends r id₀ (.finish reason :: ms) ↔
      (it.done = false → it.id = id₀) ∧ { it with done := true }.Ends r id₀ ms := by
  cases hdone : it.done with
  | true =>
    have hmarks : (it.step r (.finish reason)).1 = [] := if_pos hdone
    rw [ends_cons hmarks hdone.symm rfl]
    exact ⟨fun h => ⟨nofun, h⟩, And.right⟩
  | false =>
    have hmarks : (it.step r (.finish reason)).1 = [.partDone r.type it.id, .done r.type it.id it.content] := by
      simp [step, doneMarks, hdone]
    unfold Ends
    rw [marks_cons, hmarks, hdone]
    constructor
    · rintro ⟨texts, heq, -, hid, htext⟩
      cases texts with
      | cons => cases heq
      | nil =>
        obtain ⟨hpart, htail⟩ := cons.inj heq
        cases hpart
        exact ⟨fun _ => rfl, [], (cons.inj htail).2, fun _ => rfl, hid, htext⟩
    · rintro ⟨hid₀, texts, hmarks, hnone, hid, htext⟩
      obtain rfl := hid₀ rfl
      obtain rfl := hnone rfl
      refine ⟨[], ?_, fun _ => rfl, hid, htext⟩
      have hmarks : (it.step r (.finish reason)).2.marks r ms = [] := hmarks
      rw [hmarks]
      simp

/-- An item ends well exactly if it goes on well. -/
theorem ends_iff (r : OutputRef) (id₀ : String) (ms : List Move) : ∀ it : Item,
    it.Ends r id₀ ms ↔ Fine r id₀ it.rid it.id it.done ms := by
  induction ms with
  | nil =>
    intro it
    constructor
    · rintro ⟨texts, -, -, hid, -⟩
      exact hid
    · intro hid
      have hid : it.id = id₀ := hid
      subst hid
      have hmarks : it.marks r [] = it.doneMarks r := rfl
      exact ⟨[], by simp [hmarks, doneMarks], fun _ => rfl, rfl, by simp [run]⟩
  | cons m ms ih =>
    intro it
    cases m with
    | head =>
      rw [ends_cons rfl rfl rfl]
      exact ih _
    | reasoning x =>
      by_cases hr : r = .reasoning
      · subst hr
        have hwrite : it.Ends .reasoning id₀ (.reasoning x :: ms) ↔ _ := ends_write it.id x rfl rfl rfl
        rw [hwrite, ih]
        simp [Fine, step]
      · have hstep : it.step r (.reasoning x) = ([], it) := if_neg hr
        rw [ends_cons (by rw [hstep]) (by rw [hstep]) (by rw [hstep]), hstep, ih]
        simp [Fine, hr]
    | text x =>
      by_cases hr : r = .message
      · subst hr
        have hwrite : it.Ends .message id₀ (.text x :: ms) ↔ _ := ends_write it.id x rfl rfl rfl
        rw [hwrite, ih]
        simp [Fine, step]
      · have hstep : it.step r (.text x) = ([], it) := if_neg hr
        rw [ends_cons (by rw [hstep]) (by rw [hstep]) (by rw [hstep]), hstep, ih]
        simp [Fine, hr]
    | tool call =>
      rw [Fine]
      by_cases hr : r = .tool call.chatIndex
      · rw [if_pos hr]
        subst hr
        have hstep : (it.step (.tool call.chatIndex) (.tool call)).2 =
            { it with id := call.newID it.id, content := it.content ++ call.arguments } := by
          simp [step]
        by_cases hargs : call.arguments = ""
        · rw [ends_cons (by simp [step, hargs]) (by rw [hstep]) (by simp [hstep, hargs]), hstep, ih]
          simp [hargs]
        · have hwrite : it.Ends (.tool call.chatIndex) id₀ (.tool call :: ms) ↔ _ :=
            ends_write (call.newID it.id) call.arguments (by simp [step, hargs]; rfl) (by rw [hstep]) (by rw [hstep])
          rw [hwrite, hstep, ih]
          simp [hargs]
      · have hstep : it.step r (.tool call) = ([], it) := if_neg hr
        rw [if_neg hr, ends_cons (by rw [hstep]) (by rw [hstep]) (by rw [hstep]), hstep]
        exact ih _
    | finish reason =>
      rw [ends_finish, ih]
      rfl

/-! ## Whole streams -/

/-- The items after some moves, and their marks. -/
theorem run_old {j : ℤ} (ms : List Move) : ∀ {s : ChatToResponsesStreamState}, s.Sound → s.index r = some j →
    (runMoves ms s).2.index r = some j ∧ (runMoves ms s).2.item r = ((s.item r).run r ms).2 ∧
      marks j (runMoves ms s).1 = ((s.item r).run r ms).1 := by
  induction ms with
  | nil => exact fun _ hr => ⟨hr, rfl, rfl⟩
  | cons m ms ih =>
    intro s h hr
    have hmove := move_spec h m
    obtain ⟨hindex, hitem, hmarks⟩ := hmove.old hr
    obtain ⟨hindex', hitem', hmarks'⟩ := ih hmove.sound hindex
    refine ⟨hindex', ?_, ?_⟩
    · show (runMoves ms (m.apply s).2).2.item r = _
      rw [hitem', hitem]
      rfl
    · show marks j ((m.apply s).1 ++ (runMoves ms (m.apply s).2).1) = _
      rw [marks_append, hmarks, hmarks', hitem]
      rfl

theorem run_sound (ms : List Move) : ∀ {s : ChatToResponsesStreamState}, s.Sound → (runMoves ms s).2.Sound ∧
    (∀ e ∈ (runMoves ms s).1, e.mark ≠ .other ∧ ∃ r j, (runMoves ms s).2.index r = some j ∧ e.outputIndex = some j) := by
  induction ms with
  | nil =>
    intro s h
    refine ⟨h, ?_⟩
    intro e he
    cases he
  | cons m ms ih =>
    intro s h
    have hmove := move_spec h m
    obtain ⟨hsound, habout⟩ := ih hmove.sound
    refine ⟨hsound, ?_⟩
    intro e he
    rcases mem_append.mp he with he | he
    · obtain ⟨hmark, r, j, hr, hout⟩ := hmove.about e he
      exact ⟨hmark, r, j, (run_old ms hmove.sound hr).1, hout⟩
    · exact habout e he

variable {s : ChatToResponsesStreamState}

/-- No event is about an item that is still to come. -/
theorem marks_ahead {events : List ResponsesEvent} (h : s.Sound)
    (habout : ∀ e ∈ events, e.mark ≠ .other ∧ ∃ r j, s.index r = some j ∧ e.outputIndex = some j) {j : ℤ}
    (hj : s.nextOutputIndex ≤ j) : marks j events = [] := by
  unfold marks
  rw [filter_eq_nil_iff.mpr]
  · rfl
  · intro e he heq
    obtain ⟨-, r, j', hr, hout⟩ := habout e he
    have hlt := h.lt_next hr
    rw [hout] at heq
    have heq : j' = j := by simpa using heq
    omega

/-- The life of an item that was not added yet. -/
theorem run_new (ms : List Move) : ∀ {s : ChatToResponsesStreamState}, s.Sound → s.index r = none →
    ((runMoves ms s).2.index r = none ∧ Orderly r s.id ms) ∨
    ∃ (j : ℤ) (id₀ : String) (it : Item) (ms' : List Move), s.nextOutputIndex ≤ j ∧
      (runMoves ms s).2.index r = some j ∧ it.done = false ∧ it.content = "" ∧
      it.id = id₀ ∧ (runMoves ms s).2.item r = (it.run r ms').2 ∧
      marks j (runMoves ms s).1 = .added r.type id₀ :: (it.run r ms').1 ∧
      (Orderly r s.id ms ↔ Fine r id₀ it.rid it.id false ms') := by
  induction ms with
  | nil => exact fun _ hr => Or.inl ⟨hr, trivial⟩
  | cons m ms ih =>
    intro s h hr
    have hmove := move_spec h m
    by_cases hbegins : m.begins r = true
    · -- the item is added here
      obtain ⟨hindex, hitem, hmarks⟩ := hmove.fresh hr hbegins
      obtain ⟨hindex', hitem', hmarks'⟩ := run_old ms hmove.sound hindex
      refine Or.inr ⟨s.nextOutputIndex, r.firstID s.id m, r.fresh s.id m, m :: ms, le_refl _, hindex', rfl, rfl, rfl, ?_, ?_, ?_⟩
      · show (runMoves ms (m.apply s).2).2.item r = _
        rw [hitem', hitem]
        rfl
      · show marks _ ((m.apply s).1 ++ (runMoves ms (m.apply s).2).1) = _
        rw [marks_append, hmarks, hmarks', hitem]
        rfl
      · rw [Orderly, if_pos hbegins]
        rfl
    · have hbegins : m.begins r = false := by simpa using hbegins
      have hord : Orderly r s.id (m :: ms) ↔ Orderly r (m.apply s).2.id ms := by
        rw [Orderly, if_neg (by rw [hbegins]; simp), hmove.rid]
      rw [hord]
      rcases ih hmove.sound (hmove.none hr hbegins) with
        hnone | ⟨j, id₀, it, ms', hj, hindex, hdone, hcontent, hid, hitem, hmarks, hiff⟩
      · exact Or.inl hnone
      · refine Or.inr ⟨j, id₀, it, ms', le_trans hmove.grows hj, hindex, hdone, hcontent, hid, hitem, ?_, hiff⟩
        show marks _ ((m.apply s).1 ++ (runMoves ms (m.apply s).2).1) = _
        rw [marks_append, marks_ahead hmove.sound hmove.about hj, hmarks]
        rfl

/-! ## The end -/

/-- An item of the output order, as the final response shows it. -/
theorem outputOf_eq {j : ℤ} (hr : s.index r = some j) (status : String) :
    ∃ o, s.outputOf status r = [o] ∧ o.type = r.type ∧ o.id = (s.item r).id ∧ o.shown = (s.item r).content := by
  cases r with
  | message =>
    refine ⟨s.messageOutput status, rfl, rfl, rfl, ?_⟩
    simp [ResponsesOutput.shown, messageOutput, item]
  | reasoning =>
    refine ⟨s.reasoningOutput status, rfl, rfl, rfl, ?_⟩
    simp [ResponsesOutput.shown, reasoningOutput, item]
  | tool k =>
    cases hfound : s.findTool k with
    | none =>
      have hnone : s.index (.tool k) = none := by
        show (s.findTool k).map _ = none
        rw [hfound]
        rfl
      rw [hnone] at hr
      cases hr
    | some tool =>
      have hitem : s.item (.tool k) = tool.item s.id := by
        show ((s.findTool k).map _).getD _ = _
        rw [hfound]
        rfl
      refine ⟨toolOutput tool status, ?_, rfl, ?_, ?_⟩
      · show ((s.findTool k).map _).toList = _
        rw [hfound]
        rfl
      · rw [hitem]
        rfl
      · rw [hitem]
        rfl

/-- The final response shows the items in the output order. -/
theorem finalResponse_output (h : s.Sound) : s.finalResponse.output.length = s.outputOrder.length ∧
    ∀ (i : ℕ) (r : OutputRef), s.outputOrder[i]? = some r → ∃ o, s.finalResponse.output[i]? = some o ∧
      o.type = r.type ∧ o.id = (s.item r).id ∧ o.shown = (s.item r).content := by
  -- each item of the order gives one item of the output
  have hone : ∀ r ∈ s.outputOrder, ∃ o, s.outputOf s.outputStatus r = [o] ∧ o.type = r.type ∧ o.id = (s.item r).id ∧
      o.shown = (s.item r).content := by
    intro r hr
    obtain ⟨i, hi, rfl⟩ := getElem_of_mem hr
    exact outputOf_eq ((h.order _ i).mpr ⟨i, rfl, getElem?_eq_getElem hi⟩) _
  show (s.outputOrder.flatMap (s.outputOf s.outputStatus)).length = s.outputOrder.length ∧
    ∀ (i : ℕ) (r : OutputRef), s.outputOrder[i]? = some r →
      ∃ o, (s.outputOrder.flatMap (s.outputOf s.outputStatus))[i]? = some o ∧
        o.type = r.type ∧ o.id = (s.item r).id ∧ o.shown = (s.item r).content
  generalize s.outputOrder = order at hone
  induction order with
  | nil =>
    refine ⟨rfl, ?_⟩
    intro i r hr
    cases hr
  | cons r₀ _ ih =>
    obtain ⟨o, hout, hspec⟩ := hone r₀ mem_cons_self
    obtain ⟨hlength, hget⟩ := ih fun r hr => hone r (mem_cons_of_mem _ hr)
    rw [flatMap_cons, hout]
    refine ⟨?_, ?_⟩
    · rw [length_append, hlength, length_cons]
      simp [Nat.add_comm]
    · intro i r hr
      cases i with
      | zero =>
        obtain rfl := Option.some.inj hr
        exact ⟨o, rfl, hspec⟩
      | succ i => exact hget i r hr

/-- The events between the first and the last. -/
def middleEvents (s : ChatToResponsesStreamState) (ms : List Move) : List ResponsesEvent :=
  (runMoves ms s).1 ++ (runMoves ms s).2.doneDeltaEvents.1

/-- The state at the end. -/
def endState (s : ChatToResponsesStreamState) (ms : List Move) : ChatToResponsesStreamState :=
  (runMoves ms s).2.doneDeltaEvents.2

/-- **One item**: it is coherent exactly if it is orderly. -/
theorem item_coherent_iff {i : ℕ} (h : s.Sound)
    (hnone : s.index r = none) (horder : (endState s ms).outputOrder[i]? = some r) :
    ∃ o, (endState s ms).finalResponse.output[i]? = some o ∧
      (ItemCoherent (marks i (middleEvents s ms)) o ↔ Orderly r s.id ms) := by
  have hsound := (run_sound ms h).1
  have hdone := doneDelta_changes hsound
  have hindex : (endState s ms).index r = some (i : ℤ) := (hdone.sound.order r i).mpr ⟨i, rfl, horder⟩
  have hindex : (runMoves ms s).2.index r = some (i : ℤ) := (hdone.index r).symm.trans hindex
  rcases run_new ms h hnone with ⟨hnot, -⟩ | ⟨j, id₀, it, ms', -, hj, hopen, hcontent, hid, hitem, hmarks, hiff⟩
  · rw [hnot] at hindex
    cases hindex
  · obtain rfl : j = i := by
      rw [hj] at hindex
      exact Option.some.inj hindex
    obtain ⟨o, hout, htype, hoid, hshown⟩ := (finalResponse_output hdone.sound).2 i r horder
    -- the end leaves the id and the content
    have hlast : ((runMoves ms s).2.doneDeltaEvents.2.item r).id = (it.run r ms').2.id ∧
        ((runMoves ms s).2.doneDeltaEvents.2.item r).content = (it.run r ms').2.content := by
      rw [hdone.item hj, hitem]
      exact ⟨rfl, rfl⟩
    have hall : marks i (middleEvents s ms) = .added r.type id₀ :: it.marks r ms' := by
      unfold middleEvents
      rw [marks_append, hmarks, hdone.marks hj, hitem]
      rfl
    refine ⟨o, hout, ?_⟩
    rw [hiff, ← hopen, ← ends_iff r id₀ ms' it]
    unfold ItemCoherent Item.Ends
    rw [hall, htype, hoid, hshown, hlast.1, hlast.2, hcontent, hopen]
    constructor
    · rintro ⟨texts, heq, htext⟩
      obtain ⟨hadded, hrest⟩ := cons.inj heq
      have hid' : id₀ = (it.run r ms').2.id := (Mark.added.inj hadded).2
      refine ⟨texts, ?_, nofun, hid'.symm, ?_⟩
      · rw [hrest, ← hid', String.empty_append]
        rfl
      · rw [htext, String.empty_append]
    · rintro ⟨texts, heq, -, hid', htext⟩
      refine ⟨texts, ?_, ?_⟩
      · rw [heq, hid', String.empty_append]
        rfl
      · rw [htext, String.empty_append]

/-! ## When the stream is coherent -/

theorem sound_new (id model : String) (created : ℤ) : (newChatToResponsesStreamState id model created).Sound := by
  refine ⟨rfl, ?_, nodup_nil, fun _ => ⟨rfl, rfl⟩, fun _ => ⟨rfl, rfl⟩⟩
  intro r j
  constructor
  · intro hr
    cases r <;> cases hr
  · rintro ⟨i, -, hi⟩
    cases hi

/-- **The stream is coherent exactly where a chunk came and every item is orderly.** -/
theorem responses_stream_coherent_iff (id model : String) (created : ℤ) (chunks : List ChatChunk) :
    Coherent (responsesStream (newChatToResponsesStreamState id model created) chunks) ↔
      chunks ≠ [] ∧ ∀ r, Orderly r id (movesOf chunks) := by
  cases chunks with
  | nil =>
    -- no created event
    refine iff_of_false ?_ fun hne => hne.1 rfl
    rintro ⟨response, first, middle, last, heq, -⟩
    have hlength := congrArg length heq
    simp [responsesStream, responsesEventsOfChunks, finalizeChatCompletionsStreamToResponses,
      newChatToResponsesStreamState, doneDeltaEvents, sortedTools] at hlength
  | cons chunk chunks =>
    let s := newChatToResponsesStreamState id model created
    have hs : s.Sound := sound_new id model created
    have hnone : ∀ r, s.index r = none := by
      intro r
      cases r <;> rfl
    obtain ⟨first, hstream⟩ := responsesStream_cons (s := s) rfl rfl chunk chunks
    obtain ⟨hsound, habout⟩ := run_sound (movesOf (chunk :: chunks)) hs
    have hdone := doneDelta_changes hsound
    have hlength : (endState s (movesOf (chunk :: chunks))).finalResponse.output.length =
        (endState s (movesOf (chunk :: chunks))).outputOrder.length := (finalResponse_output hdone.sound).1
    have hstream : responsesStream s (chunk :: chunks) = { type := .created, delta := "", response := some first } ::
        (middleEvents s (movesOf (chunk :: chunks)) ++
          [{ type := if (runMoves (movesOf (chunk :: chunks)) s).2.status = "incomplete" then .incomplete else .completed,
             delta := "", response := some (endState s (movesOf (chunk :: chunks))).finalResponse }]) := by
      rw [hstream]
      unfold endEvents middleEvents endState
      rw [append_assoc]
    constructor
    · rintro ⟨response, first', middle, last, heq, -, -, hlast, -, hitems⟩
      refine ⟨cons_ne_nil _ _, ?_⟩
      intro r
      have heq := hstream.symm.trans heq
      obtain ⟨-, htail⟩ := cons.inj heq
      obtain ⟨hmiddle, hlast'⟩ := append_inj' htail rfl
      obtain rfl := (cons.inj hlast').1
      obtain rfl := Option.some.inj hlast
      rcases run_new (movesOf (chunk :: chunks)) hs (hnone r) with ⟨-, hord⟩ | ⟨j, -, -, -, -, hj, -⟩
      · exact hord
      · -- the item stands in the output
        have hj' : (endState s (movesOf (chunk :: chunks))).index r = some j := (hdone.index r).trans hj
        obtain ⟨i, rfl, hi⟩ := (hdone.sound.order r j).mp hj'
        obtain ⟨o, hout, hiff⟩ := item_coherent_iff hs (hnone r) hi
        have hcoherent := hitems i o hout
        rw [← hmiddle] at hcoherent
        exact hiff.mp hcoherent
    · rintro ⟨-, hord⟩
      refine ⟨(endState s (movesOf (chunk :: chunks))).finalResponse, _, _, _, hstream, rfl, ?_, rfl, ?_, ?_⟩
      · by_cases hstatus : (runMoves (movesOf (chunk :: chunks)) s).2.status = "incomplete"
        · exact Or.inr (if_pos hstatus)
        · exact Or.inl (if_neg hstatus)
      · intro e he
        have hindexed : e.mark ≠ .other ∧
            ∃ r j, (endState s (movesOf (chunk :: chunks))).index r = some j ∧ e.outputIndex = some j := by
          rcases mem_append.mp he with he | he
          · obtain ⟨hmark, r, j, hr, hout⟩ := habout e he
            exact ⟨hmark, r, j, (hdone.index r).trans hr, hout⟩
          · obtain ⟨hmark, r, j, hr, hout⟩ := hdone.about e he
            exact ⟨hmark, r, j, (hdone.index r).trans hr, hout⟩
        obtain ⟨hmark, r, j, hr, hout⟩ := hindexed
        obtain ⟨i, rfl, hi⟩ := (hdone.sound.order r j).mp hr
        refine ⟨hmark, i, ?_, hout⟩
        rw [hlength]
        exact (List.getElem?_eq_some_iff.mp hi).1
      · intro i o hout
        have hlt : i < (endState s (movesOf (chunk :: chunks))).outputOrder.length := by
          rw [← hlength]
          exact (List.getElem?_eq_some_iff.mp hout).1
        obtain ⟨o', hout', hiff⟩ := item_coherent_iff hs (hnone _) (getElem?_eq_getElem hlt)
        rw [hout] at hout'
        obtain rfl := Option.some.inj hout'
        exact hiff.mpr (hord _)

/-- A word after the finish reason. -/
def lateWord : List ChatChunk :=
  [{ choices := [{ content := some "a", finishReason := some "stop" }] }, { choices := [{ content := some "b" }] }]

/-- The message is done with "a", and the final response shows "ab". -/
theorem responses_stream_incoherent_lateWord :
    (∀ c ∈ lateWord, c.Single) ∧ ¬ Coherent (responsesStream (newChatToResponsesStreamState "resp" "m" 1) lateWord) := by
  refine ⟨by decide, ?_⟩
  rintro ⟨response, first, middle, last, heq, -, -, hlast, -, hitems⟩
  have hmiddle : middle = (responsesStream (newChatToResponsesStreamState "resp" "m" 1) lateWord).tail.dropLast := by
    rw [heq]
    simp
  have hresponse : ((responsesStream (newChatToResponsesStreamState "resp" "m" 1) lateWord).getLast?.bind fun e =>
      e.response) = some response := by
    rw [heq, ← cons_append, getLast?_concat]
    exact hlast
  have hitem : (((responsesStream (newChatToResponsesStreamState "resp" "m" 1) lateWord).getLast?.bind fun e =>
      e.response).bind fun r => r.output[0]?).isSome = true := by decide +kernel
  rw [hresponse] at hitem
  obtain ⟨o, ho⟩ := Option.isSome_iff_exists.mp hitem
  obtain ⟨texts, hmarks, -⟩ := hitems 0 o ho
  -- the last that is seen of the message is a delta
  have hend := congrArg getLast? hmarks
  have hseen : (marks (0 : ℕ) (responsesStream (newChatToResponsesStreamState "resp" "m" 1) lateWord).tail.dropLast).getLast? =
      some (.delta .message "resp_msg_0" "b") := by decide +kernel
  rw [hmiddle, hseen] at hend
  simp [getLast?_cons] at hend

end NovaMaas.Convert
