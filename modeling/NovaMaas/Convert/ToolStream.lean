/-
  Tool calls in whole streams, from the Responses API to a chat stream.

  `Fold` says that some inputs take the routes and what was said of every call from one state to another.  Reading the
  inputs of an event, or of the final response, keeps the invariant along a fold (`Good.plainEvent`, `Good.terminalOutputs`),
  so the events of a stream do (`Good.events`).  At the end every call of which something is kept gets its number
  (`GoodRest.flushKeys`), and each call that occurred has one number, under which its arguments were sent
  (`chatStream_calls`).
-/
import NovaMaas.Convert.ToolFlush

open List Option

namespace NovaMaas.Convert

open ResponsesToChatStreamState Route

/-! ## Inputs in a row -/

/-- The input gives the call the label, if it gives any. -/
def ToolInput.Fits (l : ToolLabel) (x : ToolInput) : Prop :=
  ∀ a callID name, x.news = .item a callID name → callID = l.callID ∧ name = l.name

def ToolInput.isItem (x : ToolInput) : Bool :=
  match x.news with
  | .item _ _ _ => true
  | _ => false

/-- The inputs give the call the label, beginning with the first one. -/
structure LabelFits (l : ToolLabel) (r : Route) (xs : List ToolInput) : Prop where
  plain : l.Plain
  fits  : ∀ x ∈ xs, x.Fits l
  first : r.known ≠ [] ∨ ∀ x, xs.head? = some x → x.isItem = true

section
variable {C : Type} [DecidableEq C] (owner : ToolKey → C) (label : C → Option ToolLabel)

/-- The inputs lead from the routes `R` and what was said, `S`, to `R'` and `S'`. -/
structure Fold (xs : List ToolInput) (R : C → Route) (S : C → Bytes) (R' : C → Route) (S' : C → Bytes) : Prop where
  single : ∀ x ∈ xs, x.Single owner
  route  : ∀ c, (inputsOf owner c xs).foldlM step (R c) = some (R' c)
  said   : ∀ c, (inputsOf owner c xs).foldlM ToolInput.tells (S c) = some (S' c)
  labels : ∀ c l, label c = some l → LabelFits l (R c) (inputsOf owner c xs)

end

theorem foldlM_append_some {α β : Type} {f : β → α → Option β} {xs ys : List α} {b b' : β}
    (h : (xs ++ ys).foldlM f b = some b') : ∃ m, xs.foldlM f b = some m ∧ ys.foldlM f m = some b' := by
  rw [foldlM_append] at h
  exact bind_eq_some_iff.1 h

/-! ### What a route has seen -/

theorem Route.known_of_knows {r : Route} {given : List ToolKey} (h : r.knows given = true) : r.known ≠ [] := by
  intro hnil
  simp [knows, hnil] at h

variable {r r' : Route}

/-- A step of a route forgets nothing. -/
theorem Route.step_known {x : ToolInput} (h : r.step x = some r') : r.known <+: r'.known := by
  obtain ⟨given, news⟩ := x
  cases news with
  | delta =>
    rcases step_delta h with ⟨-, -, rfl⟩ | ⟨-, -, rfl⟩
    · exact prefix_refl _
    · exact prefix_refl _
  | argumentsDone =>
    rcases step_argumentsDone h with ⟨-, rfl⟩ | ⟨-, -, rfl⟩
    · exact prefix_refl _
    · exact prefix_append _ _
  | item =>
    obtain ⟨-, -, rfl⟩ := step_item h
    exact prefix_append _ _

variable {xs : List ToolInput}

theorem Route.run_known (h : xs.foldlM step r = some r') : r.known <+: r'.known := by
  induction xs generalizing r with
  | nil =>
    cases h
    exact prefix_refl _
  | cons _ _ ih =>
    rw [foldlM_cons] at h
    obtain ⟨m, hm, hrest⟩ := bind_eq_some_iff.1 h
    exact (step_known hm).trans (ih hrest)

theorem Route.run_known_ne_nil (h : xs.foldlM step r = some r') (hr : r.known ≠ []) : r'.known ≠ [] := by
  intro hnil
  have hpre := run_known h
  rw [hnil, prefix_nil] at hpre
  exact hr hpre

theorem Route.step_isItem {x : ToolInput} (h : r.step x = some r') (hg : x.given ≠ [])
    (hx : x.isItem = true) : r'.known ≠ [] := by
  obtain ⟨given, news⟩ := x
  cases news with
  | delta | argumentsDone => simp [ToolInput.isItem] at hx
  | item =>
    obtain ⟨-, -, rfl⟩ := step_item h
    simp only [learn, ne_eq, append_eq_nil_iff, not_and]
    intro _
    exact hg

/-- The route has seen an input. -/
def Route.Seen (r : Route) : Prop := r.known ≠ [] ∨ r.kept ≠ none

theorem Route.step_seen {x : ToolInput} (h : r.step x = some r') (hg : x.given ≠ []) : r'.Seen := by
  obtain ⟨given, news⟩ := x
  cases news with
  | delta =>
    rcases step_delta h with ⟨hk, -, rfl⟩ | ⟨-, -, rfl⟩
    · exact Or.inl (known_of_knows hk)
    · right
      simpa using hg
  | argumentsDone =>
    rcases step_argumentsDone h with ⟨hk, rfl⟩ | ⟨-, -, rfl⟩
    · exact Or.inl (known_of_knows hk)
    · left
      simp only [learn, ne_eq, append_eq_nil_iff, not_and]
      intro _
      exact hg
  | item => exact Or.inl (step_isItem h hg rfl)

theorem Route.run_seen (h : xs.foldlM step r = some r') (hg : ∀ x ∈ xs, x.given ≠ []) (hxs : xs ≠ []) : r'.Seen := by
  induction xs generalizing r with
  | nil => exact absurd rfl hxs
  | cons x xs ih =>
    rw [foldlM_cons] at h
    obtain ⟨m, hm, hrest⟩ := bind_eq_some_iff.1 h
    have hseen := step_seen hm (hg x (by simp))
    cases xs with
    | nil =>
      cases hrest
      exact hseen
    | cons => exact ih hrest (fun z hz => hg z (mem_cons_of_mem _ hz)) (by simp)

section
variable {C : Type} [DecidableEq C] {owner : ToolKey → C} {label : C → Option ToolLabel}

omit [DecidableEq C] in
theorem ToolInput.Single.given_ne_nil {x : ToolInput} (h : x.Single owner) : x.given ≠ [] := by
  obtain ⟨c, hc, -⟩ := h
  intro hnil
  simp [ToolInput.call, hnil] at hc

@[simp] theorem inputsOf_append (c : C) (xs ys : List ToolInput) :
    inputsOf owner c (xs ++ ys) = inputsOf owner c xs ++ inputsOf owner c ys := by
  simp [inputsOf]

theorem mem_inputsOf {c : C} {xs : List ToolInput} {x : ToolInput} (h : x ∈ inputsOf owner c xs) : x ∈ xs :=
  (mem_filter.1 h).1

variable {R R' : C → Route} {S S' : C → Bytes} {xs ys : List ToolInput}

/-- A fold over inputs in a row is one fold after another. -/
theorem Fold.split (h : Fold owner label (xs ++ ys) R S R' S') :
    ∃ R₁ S₁, Fold owner label xs R S R₁ S₁ ∧ Fold owner label ys R₁ S₁ R' S' := by
  have hroute : ∀ c, ∃ m, (inputsOf owner c xs).foldlM step (R c) = some m ∧
      (inputsOf owner c ys).foldlM step m = some (R' c) := fun c =>
    foldlM_append_some (by rw [← inputsOf_append]; exact h.route c)
  have hsaid : ∀ c, ∃ m, (inputsOf owner c xs).foldlM ToolInput.tells (S c) = some m ∧
      (inputsOf owner c ys).foldlM ToolInput.tells m = some (S' c) := fun c =>
    foldlM_append_some (by rw [← inputsOf_append]; exact h.said c)
  choose R₁ hR₁ hR₂ using hroute
  choose S₁ hS₁ hS₂ using hsaid
  refine ⟨R₁, S₁, ⟨fun x hx => h.single x (mem_append_left _ hx), hR₁, hS₁, ?_⟩,
    ⟨fun x hx => h.single x (mem_append_right _ hx), hR₂, hS₂, ?_⟩⟩
  · intro c l hl
    have hlab := h.labels c l hl
    rw [inputsOf_append] at hlab
    refine ⟨hlab.plain, fun x hx => hlab.fits x (mem_append_left _ hx), ?_⟩
    rcases hlab.first with hf | hf
    · exact Or.inl hf
    · refine Or.inr fun x hx => hf x ?_
      rw [head?_append, hx]
      rfl
  · intro c l hl
    have hlab := h.labels c l hl
    rw [inputsOf_append] at hlab
    refine ⟨hlab.plain, fun x hx => hlab.fits x (mem_append_right _ hx), ?_⟩
    rcases hlab.first with hf | hf
    · exact Or.inl (run_known_ne_nil (hR₁ c) hf)
    · cases hxs : inputsOf owner c xs with
      | nil =>
        right
        intro x hx
        refine hf x ?_
        rw [hxs]
        exact hx
      | cons x =>
        -- the first input is an item, and makes the call known
        left
        have hx : x.isItem = true := hf x (by rw [hxs]; rfl)
        have hmem : x ∈ inputsOf owner c xs := by rw [hxs]; simp
        have hg : x.given ≠ [] := (h.single x (mem_append_left _ (mem_inputsOf hmem))).given_ne_nil
        have hrun := hR₁ c
        rw [hxs, foldlM_cons] at hrun
        obtain ⟨m, hm, hrest⟩ := bind_eq_some_iff.1 hrun
        exact run_known_ne_nil hrest (step_isItem hm hg hx)

theorem Fold.nil (h : Fold owner label [] R S R' S') : R' = R ∧ S' = S := by
  constructor
  · funext c
    exact (some.inj (h.route c)).symm
  · funext c
    exact (some.inj (h.said c)).symm

/-- One input changes the route of its call, and what was said of it. -/
theorem Fold.one {x : ToolInput} (h : Fold owner label [x] R S R' S') :
    ∃ c r said, (∀ id ∈ x.given, owner id = c) ∧ x.given ≠ [] ∧ (R c).step x = some r ∧ x.tells (S c) = some said ∧
      R' = Function.update R c r ∧ S' = Function.update S c said ∧
      ∀ l, label c = some l → l.Plain ∧ x.Fits l ∧ ((R c).known ≠ [] ∨ x.isItem = true) := by
  have hsingle := h.single x (by simp)
  obtain ⟨c, hcall, hown⟩ := hsingle
  have hc : inputsOf owner c [x] = [x] := by simp [inputsOf, hcall]
  have hother : ∀ c', c' ≠ c → inputsOf owner c' [x] = [] := by
    intro c' hne
    simp [inputsOf, hcall, Ne.symm hne]
  have hr := h.route c
  have hs := h.said c
  rw [hc, foldlM_cons] at hr hs
  obtain ⟨r, hr, hr'⟩ := bind_eq_some_iff.1 hr
  obtain ⟨said, hs, hs'⟩ := bind_eq_some_iff.1 hs
  refine ⟨c, r, said, hown, (h.single x (by simp)).given_ne_nil, hr, hs, ?_, ?_, ?_⟩
  · funext c'
    by_cases he : c' = c
    · subst he
      rw [Function.update_self]
      exact (some.inj hr').symm
    · have h' := h.route c'
      rw [hother c' he] at h'
      rw [Function.update_of_ne he]
      exact (some.inj h').symm
  · funext c'
    by_cases he : c' = c
    · subst he
      rw [Function.update_self]
      exact (some.inj hs').symm
    · have h' := h.said c'
      rw [hother c' he] at h'
      rw [Function.update_of_ne he]
      exact (some.inj h').symm
  · intro l hl
    have hlab := h.labels c l hl
    rw [hc] at hlab
    refine ⟨hlab.plain, hlab.fits x (by simp), ?_⟩
    rcases hlab.first with hf | hf
    · exact Or.inl hf
    · exact Or.inr (hf x rfl)

end

/-! ## What is not about tool calls -/

/-- An operation that has nothing to do with tool calls. -/
structure Aside (s : ResponsesToChatStreamState) (r : List ChatDelta × ResponsesToChatStreamState) : Prop where
  same : SameTools s r.2
  none : toolDeltas r.1 = []

theorem ResponsesToChatStreamState.SameTools.refl (s : ResponsesToChatStreamState) : SameTools s s :=
  ⟨fun _ => rfl, fun _ => rfl, rfl, rfl⟩

theorem ResponsesToChatStreamState.SameTools.trans {s s' s'' : ResponsesToChatStreamState} (h : SameTools s s')
    (k : SameTools s' s'') :
    SameTools s s'' :=
  ⟨fun id => (k.aim id).trans (h.aim id), fun id => (k.pending id).trans (h.pending id), k.byKey.trans h.byKey,
    k.tools.trans h.tools⟩

/-- States with the same maps, buffers and calls. -/
theorem sameTools_of_eq {s s' : ResponsesToChatStreamState} (h₁ : s'.outputIndexToKey = s.outputIndexToKey)
    (h₂ : s'.itemIDToKey = s.itemIDToKey) (h₃ : s'.callIDToKey = s.callIDToKey)
    (h₄ : s'.pendingArgsByOutputIndex = s.pendingArgsByOutputIndex)
    (h₅ : s'.pendingArgsByItemID = s.pendingArgsByItemID) (h₆ : s'.toolByKey = s.toolByKey) (h₇ : s'.tools = s.tools) :
    SameTools s s' := by
  refine ⟨?_, ?_, h₆, h₇⟩
  · intro id
    cases id <;> simp [aim, h₁, h₂, h₃]
  · intro id
    cases id <;> simp [pending, h₄, h₅]

section
variable (s : ResponsesToChatStreamState)

theorem applyResponseMetadata_sameTools (response : Option (OpenAIResponsesResponse Bytes)) :
    SameTools s (s.applyResponseMetadata response) := by
  cases response with
  | none => exact SameTools.refl s
  | some => exact sameTools_of_eq rfl rfl rfl rfl rfl rfl rfl

theorem textDelta_aside (d : Bytes) : Aside s (s.textDelta d) := by
  unfold textDelta
  split
  · exact ⟨SameTools.refl s, rfl⟩
  · have h₁ : SameTools s { s with hasSentText := true } := sameTools_of_eq rfl rfl rfl rfl rfl rfl rfl
    refine ⟨h₁.trans (ensureStart_sameTools _), ?_⟩
    rw [toolDeltas_append, toolDeltas_ensureStart]
    rfl

theorem reasoningDelta_aside (d : Bytes) : Aside s (s.reasoningDelta d) := by
  unfold reasoningDelta
  split
  · exact ⟨SameTools.refl s, rfl⟩
  · have h₁ : SameTools s { s with needsReasoningSummaryBreak := false } :=
      sameTools_of_eq rfl rfl rfl rfl rfl rfl rfl
    have h₂ := h₁.trans (ensureStart_sameTools _)
    refine ⟨h₂.trans (sameTools_of_eq rfl rfl rfl rfl rfl rfl rfl), ?_⟩
    rw [toolDeltas_append, toolDeltas_ensureStart]
    rfl

theorem summaryDone_aside (b : Bool) : Aside s ([], { s with needsReasoningSummaryBreak := b }) :=
  ⟨sameTools_of_eq rfl rfl rfl rfl rfl rfl rfl, rfl⟩

end

/-! ## Events -/

section
variable {C : Type} [DecidableEq C] {owner : ToolKey → C} {label : C → Option ToolLabel}
  {s : ResponsesToChatStreamState} {out : List ChatDelta} {R R' : C → Route} {S S' : C → Bytes}
  {number : C → Option ℕ} {event : WireEvent}

omit [DecidableEq C] in
theorem Good.same (h : Good owner label s out R S number) {r : List ChatDelta × ResponsesToChatStreamState}
    (ha : Aside s r) : Good owner label r.2 (out ++ r.1) R S number := by
  have hnone := ha.none
  refine ⟨?_, h.inj, ?_, ?_⟩
  · intro c
    have hc := h.holds c
    have hpend : r.2.pending = s.pending := funext ha.same.pending
    refine ⟨hc.linked, hc.owned, ?_, ?_, ?_, ?_, ?_, ?_, ?_, ?_⟩
    · intro id hid hu
      rw [ha.same.aim, ha.same.byKey]
      exact hc.unknown id hid hu
    · intro id hid
      rw [ha.same.aim, ha.same.byKey]
      exact hc.known id hid
    · intro i hi
      rw [ha.same.byKey]
      exact hc.byOutput i hi
    · intro id hid
      rw [ha.same.byKey]
      exact hc.byKey id hid
    · rw [hpend]
      exact hc.kept
    · rw [hpend]
      exact hc.notKept
    · rw [hpend]
      exact hc.waiting
    · intro n hn
      obtain ⟨tool, htool, hsent, hsaid⟩ := hc.tool n hn
      exact ⟨tool, by rw [ha.same.tools]; exact htool, hsent.frame (by simp [hnone]), by rw [hpend]; exact hsaid⟩
  · rw [ha.same.tools]
    exact h.onto
  · rw [toolDeltas_append, hnone, append_nil, ha.same.tools]
    exact h.frags

/-- An event with an item, of a tool call or of something else. -/
theorem Good.itemEvent (h : Good owner label s out R S number) (hf : Fold owner label (itemInputs event) R S R' S') :
    ∃ number', Good owner label
      (if event.item.any fun item => isResponsesToolOutputType item.type then s.toolItem event else ([], s)).2
      (out ++ (if event.item.any fun item => isResponsesToolOutputType item.type then s.toolItem event else ([], s)).1)
      R' S' number' := by
  cases hi : event.item with
  | none =>
    rw [itemInputs, hi] at hf
    obtain ⟨rfl, rfl⟩ := hf.nil
    simpa using ⟨number, h⟩
  | some item =>
    rw [itemInputs, hi] at hf
    by_cases ht : isResponsesToolOutputType item.type = true
    · simp only [ht, if_true] at hf
      obtain ⟨c, r, said, hown, hg, hr, hs, rfl, rfl, hl⟩ := hf.one
      have hlab : ItemLabel (label c) item := by
        intro l hlc
        obtain ⟨hp, hfit, -⟩ := hl l hlc
        exact ⟨hp, hfit _ _ _ rfl⟩
      have hgood := h.toolItem hi hg hown hr hs hlab
      simpa [ht] using hgood
    · simp only [ht, Bool.false_eq_true, if_false] at hf
      obtain ⟨rfl, rfl⟩ := hf.nil
      simpa [ht] using ⟨number, h⟩

/-- One item of the final response. -/
theorem Good.terminalOutput (h : Good owner label s out R S number) {item : ResponsesOutput Bytes}
    (hf : Fold owner label (itemInputs (terminalEvent item)) R S R' S') :
    ∃ number', Good owner label (s.terminalOutput item).2 (out ++ (s.terminalOutput item).1) R' S' number' := by
  unfold ResponsesToChatStreamState.terminalOutput
  by_cases ht : isResponsesToolOutputType item.type = true
  · have h₁ : item.type ≠ .message := by
      intro he
      rw [he] at ht
      simp [isResponsesToolOutputType] at ht
    have h₂ : item.type ≠ .reasoning := by
      intro he
      rw [he] at ht
      simp [isResponsesToolOutputType] at ht
    rw [if_neg (by simp [h₁]), if_neg (by simp [h₂]), if_pos ht]
    have hg := h.itemEvent hf
    have hany : ((terminalEvent item).item.any fun item => isResponsesToolOutputType item.type) = true := by
      simp [terminalEvent, ht]
    rw [if_pos hany] at hg
    exact hg
  · have hnil : itemInputs (terminalEvent item) = [] := by simp [itemInputs, terminalEvent, ht]
    rw [hnil] at hf
    obtain ⟨rfl, rfl⟩ := hf.nil
    split
    · exact ⟨number, h.same (textDelta_aside s _)⟩
    · split
      · exact ⟨number, h.same (reasoningDelta_aside s _)⟩
      · exact ⟨number, by simpa using h⟩

theorem Good.terminalOutputs (items : List (ResponsesOutput Bytes)) (h : Good owner label s out R S number)
    (hf : Fold owner label (items.flatMap fun item => itemInputs (terminalEvent item)) R S R' S') :
    ∃ number', Good owner label (terminalOutputs items s).2 (out ++ (terminalOutputs items s).1) R' S' number' := by
  induction items generalizing s out R S number with
  | nil =>
    obtain ⟨rfl, rfl⟩ := hf.nil
    exact ⟨number, by simpa [ResponsesToChatStreamState.terminalOutputs] using h⟩
  | cons _ _ ih =>
    rw [flatMap_cons] at hf
    obtain ⟨R₁, S₁, hf₁, hf₂⟩ := hf.split
    obtain ⟨number₁, h₁⟩ := h.terminalOutput hf₁
    obtain ⟨number₂, h₂⟩ := ih h₁ hf₂
    refine ⟨number₂, ?_⟩
    rw [append_assoc] at h₂
    exact h₂

/-- An event with a delta of the arguments. -/
theorem Good.deltaEvent (h : Good owner label s out R S number) (hi : event.item = none)
    (hf : Fold owner label (if event.delta = [] then [] else [⟨argumentsGiven event, .delta event.delta⟩]) R S R' S') :
    ∃ number', Good owner label (s.toolArgumentsDelta event).2 (out ++ (s.toolArgumentsDelta event).1) R' S'
      number' := by
  by_cases hd : event.delta = []
  · rw [if_pos hd] at hf
    obtain ⟨rfl, rfl⟩ := hf.nil
    refine ⟨number, ?_⟩
    rw [ResponsesToChatStreamState.toolArgumentsDelta, if_pos hd, append_nil]
    exact h
  · rw [if_neg hd] at hf
    obtain ⟨c, r, said, hown, hg, hr, hs, rfl, rfl, hl⟩ := hf.one
    cases hs
    exact h.toolArgumentsDelta hi hd hown hg hr (fun l hlc => (hl l hlc).1)

/-- An event that ends the arguments. -/
theorem Good.doneEvent (h : Good owner label s out R S number) (hi : event.item = none)
    (hf : Fold owner label [⟨argumentsGiven event, .argumentsDone⟩] R S R' S') :
    ∃ number', Good owner label (s.flushPendingTool event).2 (out ++ (s.flushPendingTool event).1) R' S' number' := by
  obtain ⟨c, r, said, hown, hg, hr, hs, rfl, rfl, hl⟩ := hf.one
  cases hs
  refine h.flushPendingTool hi hown hg hr ?_
  cases hlc : label c with
  | none => exact Or.inl rfl
  | some l =>
    obtain ⟨-, -, hfirst⟩ := hl l hlc
    rcases hfirst with hfirst | hfirst
    · exact Or.inr hfirst
    · simp [ToolInput.isItem] at hfirst

/-- An event that is not the end of the answer. -/
theorem Good.plainEvent (h : Good owner label s out R S number) (hfail : event.type.isFailure = false)
    (hitem : event.type.isArguments = true → event.item = none) (hterm : event.type.isTerminal = false)
    (hf : Fold owner label (toolInputs event) R S R' S') :
    ∃ one number', responsesStreamEventToChatChunks event s = .ok one ∧
      Good owner label one.2 (out ++ one.1) R' S' number' := by
  unfold toolInputs at hf
  unfold responsesStreamEventToChatChunks
  cases ht : event.type with
  | created =>
    rw [ht] at hf
    obtain ⟨rfl, rfl⟩ := hf.nil
    have ha : Aside s (s.applyResponseMetadata event.response).ensureStart :=
      ⟨(applyResponseMetadata_sameTools s _).trans (ensureStart_sameTools _), toolDeltas_ensureStart _⟩
    exact ⟨_, number, rfl, h.same ha⟩
  | completed | done | incomplete => simp [ht, ResponsesEventType.isTerminal] at hterm
  | failed | error => simp [ht, ResponsesEventType.isFailure] at hfail
  | outputTextDelta =>
    rw [ht] at hf
    obtain ⟨rfl, rfl⟩ := hf.nil
    exact ⟨_, number, rfl, h.same (textDelta_aside s _)⟩
  | outputTextDone | other =>
    rw [ht] at hf
    obtain ⟨rfl, rfl⟩ := hf.nil
    exact ⟨([], s), number, rfl, by simpa using h⟩
  | outputItemAdded | outputItemDone =>
    rw [ht] at hf
    obtain ⟨number', h'⟩ := h.itemEvent hf
    exact ⟨_, number', rfl, h'⟩
  | functionArgsDelta | customToolInputDelta =>
    rw [ht] at hf hitem
    obtain ⟨number', h'⟩ := h.deltaEvent (hitem rfl) hf
    exact ⟨_, number', rfl, h'⟩
  | functionArgsDone | customToolInputDone =>
    rw [ht] at hf hitem
    obtain ⟨number', h'⟩ := h.doneEvent (hitem rfl) hf
    exact ⟨_, number', rfl, h'⟩
  | reasoningSummaryDelta | reasoningTextDelta =>
    rw [ht] at hf
    obtain ⟨rfl, rfl⟩ := hf.nil
    exact ⟨_, number, rfl, h.same (reasoningDelta_aside s _)⟩
  | reasoningSummaryDone | reasoningTextDone =>
    rw [ht] at hf
    obtain ⟨rfl, rfl⟩ := hf.nil
    exact ⟨_, number, rfl, h.same (summaryDone_aside s _)⟩

end

/-! ## What the operations on tool calls leave alone -/

/-- The part of the state that is about text, reasoning and the end. -/
structure Talk where
  finalized                  : Bool
  hasSentText                : Bool
  hasSentReasoning           : Bool
  needsReasoningSummaryBreak : Bool

def ResponsesToChatStreamState.talk (s : ResponsesToChatStreamState) : Talk :=
  ⟨s.finalized, s.hasSentText, s.hasSentReasoning, s.needsReasoningSummaryBreak⟩

section
variable (s : ResponsesToChatStreamState)

variable (event : WireEvent) (n : ℕ) (key : ToolKey)

@[simp] theorem modifyTool_talk (f : ResponsesStreamTool → ResponsesStreamTool) :
    (s.modifyTool n f).talk = s.talk := rfl

@[simp] theorem ensureStart_talk : s.ensureStart.2.talk = s.talk := by
  unfold ensureStart
  split <;> rfl

@[simp] theorem linkOutputIndex_talk (o : Option ℤ) : (s.linkOutputIndex n key o).talk = s.talk := by
  cases o <;> rfl

@[simp] theorem linkItemID_talk (x : String) : (s.linkItemID n key x).talk = s.talk := by
  unfold linkItemID
  split <;> rfl

@[simp] theorem linkCallID_talk (x y : String) : (s.linkCallID n key x y).talk = s.talk := by
  unfold linkCallID
  split <;> rfl

@[simp] theorem toolDelta_talk (d : Bytes) : (s.toolDelta n d).2.talk = s.talk := by
  unfold toolDelta
  cases s.tools[n]? with
  | none => rfl
  | some =>
    simp only
    split
    · rfl
    · exact ensureStart_talk s

theorem ensureToolForEvent_talk {event : WireEvent} {found : ℕ × ResponsesToChatStreamState}
    (h : s.ensureToolForEvent event = some found) : found.2.talk = s.talk := by
  unfold ensureToolForEvent at h
  obtain ⟨item, -, h⟩ := bind_eq_some_iff.1 h
  obtain ⟨key, -, rfl⟩ := map_eq_some_iff.1 h
  simp only [modifyTool_talk, linkCallID_talk, linkItemID_talk, linkOutputIndex_talk]
  split <;> rfl

theorem ensureFallbackToolForEvent_talk {event : WireEvent} {found : ℕ × ResponsesToChatStreamState}
    (h : s.ensureFallbackToolForEvent event = some found) : found.2.talk = s.talk := by
  unfold ensureFallbackToolForEvent at h
  obtain ⟨key, -, rfl⟩ := map_eq_some_iff.1 h
  simp only [linkItemID_talk, linkOutputIndex_talk]
  split <;> rfl

theorem toolItem_talk : (s.toolItem event).2.talk = s.talk := by
  unfold toolItem
  cases he : s.ensureToolForEvent event with
  | none => rfl
  | some =>
    cases event.item with
    | none => rfl
    | some =>
      simp only [toolDelta_talk, modifyTool_talk]
      exact ensureToolForEvent_talk s he

theorem toolArgumentsDelta_talk : (s.toolArgumentsDelta event).2.talk = s.talk := by
  unfold toolArgumentsDelta
  split
  · rfl
  · cases s.findToolForEvent event with
    | some => simp
    | none =>
      cases event.outputIndex with
      | some => rfl
      | none =>
        simp only
        split <;> rfl

theorem flushPendingTool_talk : (s.flushPendingTool event).2.talk = s.talk := by
  unfold flushPendingTool
  cases s.findToolForEvent event with
  | some => simp
  | none =>
    cases he : s.ensureFallbackToolForEvent event with
    | none => rfl
    | some =>
      simp only [toolDelta_talk]
      exact ensureFallbackToolForEvent_talk s he

end

variable (keys : List ToolKey) (s : ResponsesToChatStreamState)

theorem takePending_talk (n : ℕ) (key : ToolKey) : (s.takePending n key).talk = s.talk := by
  cases key <;> rfl

theorem flushedTool_talk (key : ToolKey) : (s.flushedTool key).2.talk = s.talk := by
  unfold flushedTool
  cases s.toolByKey.lookup key <;> rfl

theorem flushKeys_talk : (flushKeys keys s).2.talk = s.talk := by
  induction keys generalizing s with
  | nil => rfl
  | cons _ keys ih =>
    rw [flushKeys_cons]
    show (flushKeys keys _).2.talk = s.talk
    rw [ih, toolDelta_talk, keyTaken, takePending_talk, flushedTool_talk]

/-! ## Whole streams -/

section
variable {C : Type} [DecidableEq C] {owner : ToolKey → C} {label : C → Option ToolLabel}
  {s : ResponsesToChatStreamState} {out : List ChatDelta} {R R' : C → Route} {S S' : C → Bytes}
  {number : C → Option ℕ}

theorem reasoningDelta_finalized (s : ResponsesToChatStreamState) (d : Bytes) :
    (s.reasoningDelta d).2.finalized = s.finalized := by
  unfold reasoningDelta
  split
  · rfl
  · exact congrArg Talk.finalized (ensureStart_talk { s with needsReasoningSummaryBreak := false })

theorem textDelta_finalized (s : ResponsesToChatStreamState) (d : Bytes) :
    (s.textDelta d).2.finalized = s.finalized := by
  unfold textDelta
  split
  · rfl
  · exact congrArg Talk.finalized (ensureStart_talk { s with hasSentText := true })

/-- An event that is not the end of the answer does not end it. -/
theorem plainEvent_finalized {event : WireEvent} {one : List ChatDelta × ResponsesToChatStreamState}
    (hterm : event.type.isTerminal = false) (h : responsesStreamEventToChatChunks event s = .ok one) :
    one.2.finalized = s.finalized := by
  have key : ∀ {a b : ResponsesToChatStreamState}, a.talk = b.talk → a.finalized = b.finalized := by
    intro a b hab
    exact congrArg Talk.finalized hab
  have hr := reasoningDelta_finalized s event.delta
  have ht := textDelta_finalized s event.delta
  have hi : (if event.item.any fun item => isResponsesToolOutputType item.type then s.toolItem event
      else ([], s)).2.finalized = s.finalized := by
    split
    · exact key (toolItem_talk s event)
    · rfl
  have hc : (s.applyResponseMetadata event.response).ensureStart.2.finalized = s.finalized := by
    rw [key (ensureStart_talk _)]
    cases event.response <;> rfl
  have hdelta := key (toolArgumentsDelta_talk s event)
  have hflush := key (flushPendingTool_talk s event)
  unfold responsesStreamEventToChatChunks at h
  cases hty : event.type <;> rw [hty] at h hterm <;> cases hterm <;> cases h
  all_goals first | rfl | assumption

theorem terminalOutputs_finalized (items : List (ResponsesOutput Bytes)) (s : ResponsesToChatStreamState) :
    (terminalOutputs items s).2.finalized = s.finalized := by
  induction items generalizing s with
  | nil => rfl
  | cons item items ih =>
    show (terminalOutputs items (s.terminalOutput item).2).2.finalized = s.finalized
    rw [ih]
    unfold terminalOutput
    split
    · exact textDelta_finalized s _
    · split
      · exact reasoningDelta_finalized s _
      · split
        · exact congrArg Talk.finalized (toolItem_talk s _)
        · rfl

/-- The response that the end of the answer is made of. -/
theorem terminalEvent_response {event : WireEvent} (h : event.type.isTerminal = true) (s : ResponsesToChatStreamState) :
    ∃ response, responsesStreamEventToChatChunks event s = .ok (s.terminal response) ∧
      toolInputs event = ((response.map OpenAIResponsesResponse.output).getD []).flatMap fun item =>
        itemInputs (terminalEvent item) := by
  unfold responsesStreamEventToChatChunks toolInputs
  cases ht : event.type with
  | completed | done => exact ⟨event.response, rfl, rfl⟩
  | incomplete =>
    refine ⟨some (ensureIncompleteResponse event.response), rfl, ?_⟩
    have hout : (ensureIncompleteResponse event.response).output =
        (event.response.map OpenAIResponsesResponse.output).getD [] := by
      unfold ensureIncompleteResponse
      cases event.response with
      | none => rfl
      | some =>
        simp only [getD_some, map_some]
        split <;> rfl
    simp only [map_some, getD_some, hout]
  | _ => simp [ht, ResponsesEventType.isTerminal] at h

theorem Good.events (events : List WireEvent) (h : Good owner label s out R S number)
    (hfail : ∀ event ∈ events, event.type.isFailure = false)
    (hitem : ∀ event ∈ events, event.type.isArguments = true → event.item = none)
    (hterm : ∀ event ∈ events, event.type.isTerminal = false)
    (hf : Fold owner label (toolInputsOf events) R S R' S') :
    ∃ all number', chatDeltasOfEvents events s = .ok all ∧ Good owner label all.2 (out ++ all.1) R' S' number' ∧
      all.2.finalized = s.finalized := by
  induction events generalizing s out R S number with
  | nil =>
    obtain ⟨rfl, rfl⟩ := hf.nil
    exact ⟨([], s), number, rfl, by simpa using h, rfl⟩
  | cons event events ih =>
    have hcons : toolInputsOf (event :: events) = toolInputs event ++ toolInputsOf events := rfl
    rw [hcons] at hf
    obtain ⟨R₁, S₁, hf₁, hf₂⟩ := hf.split
    obtain ⟨one, number₁, hone, h₁⟩ :=
      h.plainEvent (hfail event (by simp)) (hitem event (by simp)) (hterm event (by simp)) hf₁
    obtain ⟨all, number₂, hall, h₂, hfin⟩ := ih h₁ (fun e he => hfail e (mem_cons_of_mem _ he))
      (fun e he => hitem e (mem_cons_of_mem _ he)) (fun e he => hterm e (mem_cons_of_mem _ he)) hf₂
    refine ⟨(one.1 ++ all.1, all.2), number₂, ?_, ?_, ?_⟩
    · simp only [chatDeltasOfEvents, hone, hall]
    · rw [append_assoc] at h₂
      exact h₂
    · exact hfin.trans (plainEvent_finalized (hterm event (by simp)) hone)

/-- What the chat deltas of a stream are, for the tool calls in it. -/
structure CallsSent (label : C → Option ToolLabel) (S : C → Bytes) (number : C → Option ℕ) (out : List ChatDelta) :
    Prop where
  inj  : ∀ c c' n, number c = some n → number c' = some n → c = c'
  sent : ∀ c n, number c = some n → ∃ tool, ToolSent (label c) tool n out ∧ S c = tool.arguments
  all  : ∀ t ∈ toolDeltas out, ∃ c, number c = some t.index

/-- The end of the stream. -/
theorem Good.finalize (h : Good owner label s out R S number) (hr : ∀ c, (R c).Complete)
    (hl : ∀ c, (R c).known = [] → label c = none ∨ (R c).kept = none) (hfin : s.finalized = false)
    (response : Option (OpenAIResponsesResponse Bytes)) :
    (∃ number', CallsSent label S number' (out ++ (s.finalize response).1) ∧
      ∀ c, number' c ≠ none ↔ number c ≠ none ∨ (R c).kept ≠ none) ∧
      (s.finalize response).2.finalized = true := by
  have ha : Aside s ([], { s with finalized := true }) := ⟨sameTools_of_eq rfl rfl rfl rfl rfl rfl rfl, rfl⟩
  have h₁ := h.same ha
  rw [append_nil] at h₁
  have h₂ := h₁.goodRest hr hl
  obtain ⟨hnd, hkeys, hall⟩ := h₂.pendingKeys
  obtain ⟨number', h₃, hnum⟩ := h₂.flushKeys hnd hkeys hall
  set flushed := ResponsesToChatStreamState.flushAllPendingTools { s with finalized := true } with hflushed
  have hflushed' : flushed = ResponsesToChatStreamState.flushKeys
      (ResponsesToChatStreamState.pendingKeys { s with finalized := true }) { s with finalized := true } := rfl
  rw [← hflushed'] at h₃
  obtain ⟨last, hlast, hnone, hstate⟩ : ∃ last, (s.finalize response).1 = flushed.1 ++ last ∧ toolDeltas last = [] ∧
      (s.finalize response).2 = flushed.2.ensureStart.2 := by
    unfold ResponsesToChatStreamState.finalize
    rw [if_neg (by simp [hfin])]
    refine ⟨_, append_assoc _ _ _, ?_, rfl⟩
    rw [toolDeltas_append, toolDeltas_ensureStart]
    rfl
  refine ⟨⟨number', ⟨h₃.inj, ?_, ?_⟩, hnum⟩, ?_⟩
  · intro c n hn
    obtain ⟨tool, -, hsent, hsaid⟩ := (h₃.rest c).tool n hn
    refine ⟨tool, ?_, hsaid⟩
    rw [hlast, ← append_assoc]
    exact hsent.frame (by simp [hnone])
  · intro t ht
    rw [hlast, ← append_assoc, toolDeltas_append, hnone, append_nil] at ht
    exact (h₃.onto t.index).1 (h₃.frags t ht)
  · have hk : (s.finalize response).2.talk = flushed.2.talk := by rw [hstate, ensureStart_talk]
    have hk' : flushed.2.talk = ({ s with finalized := true } : ResponsesToChatStreamState).talk := flushKeys_talk _ _
    exact congrArg Talk.finalized (hk.trans hk')

omit [DecidableEq C] in
theorem good_new (owner : ToolKey → C) (label : C → Option ToolLabel) (model : String) (created : ℤ) :
    Good owner label (newResponsesToChatStreamState model created) [] (fun _ => {}) (fun _ => []) fun _ => none := by
  refine ⟨?_, by simp, ?_, by simp [toolDeltas]⟩
  · intro c
    refine ⟨by simp, by simp, ?_, by simp, by simp, ?_, by simp, ?_, by simp, by simp⟩
    · intro id _ _
      cases id <;> exact ⟨rfl, rfl⟩
    · intro id _
      exact Or.inl rfl
    · intro id _ _
      cases id <;> rfl
  · intro n
    simp [newResponsesToChatStreamState]

omit [DecidableEq C] in
theorem chatDeltasOfEvents_append (events more : List WireEvent) {all : List ChatDelta × ResponsesToChatStreamState}
    (h : chatDeltasOfEvents events s = .ok all) {rest : List ChatDelta × ResponsesToChatStreamState}
    (hm : chatDeltasOfEvents more all.2 = .ok rest) :
    chatDeltasOfEvents (events ++ more) s = .ok (all.1 ++ rest.1, rest.2) := by
  induction events generalizing s all with
  | nil =>
    cases h
    exact hm
  | cons event events ih =>
    simp only [chatDeltasOfEvents] at h
    cases hone : responsesStreamEventToChatChunks event s with
    | error => simp [hone] at h
    | ok one =>
      cases htail : chatDeltasOfEvents events one.2 with
      | error => simp [hone, htail] at h
      | ok =>
        simp only [hone, htail, Except.ok.injEq] at h
        subst h
        have := ih htail hm
        simp only [cons_append, chatDeltasOfEvents, hone, this, append_assoc]

/-- The event that ends the answer is the final response, and the end. -/
theorem Good.terminal (h : Good owner label s out R S number) {response : Option (OpenAIResponsesResponse Bytes)}
    (hf : Fold owner label (((response.map OpenAIResponsesResponse.output).getD []).flatMap fun item =>
      itemInputs (terminalEvent item)) R S R' S') (hr : ∀ c, (R' c).Complete)
    (hl : ∀ c, (R' c).known = [] → label c = none ∨ (R' c).kept = none) (hfin : s.finalized = false) :
    (∃ number' : C → Option ℕ, CallsSent label S' number' (out ++ (s.terminal response).1) ∧
      ∀ c, number' c ≠ none ↔ (R' c).Seen) ∧ (s.terminal response).2.finalized = true := by
  have ha : Aside s ([], s.applyResponseMetadata response) := ⟨applyResponseMetadata_sameTools s _, rfl⟩
  have h₁ := h.same ha
  rw [append_nil] at h₁
  obtain ⟨number₁, h₂⟩ := h₁.terminalOutputs _ hf
  have hfin₂ : (ResponsesToChatStreamState.terminalOutputs ((response.map OpenAIResponsesResponse.output).getD [])
      (s.applyResponseMetadata response)).2.finalized = false := by
    rw [terminalOutputs_finalized]
    cases response with
    | none => exact hfin
    | some => exact hfin
  obtain ⟨⟨number', hsent, hnum⟩, hdone⟩ := h₂.finalize hr hl hfin₂ response
  refine ⟨⟨number', ?_, ?_⟩, hdone⟩
  · rw [append_assoc] at hsent
    exact hsent
  · intro c
    rw [hnum c, Route.Seen, ne_eq, (h₂.holds c).linked]

/-- The tool calls of a stream, when the routes are complete: each call that was seen has a number, under which all
that was said of it was sent. -/
theorem chatStream_calls (model : String) (created : ℤ) {events : List WireEvent} (hp : ProperStream events)
    (hf : Fold owner label (toolInputsOf events) (fun _ => {}) (fun _ => []) R' S') (hr : ∀ c, (R' c).Complete) :
    ∃ out number, chatStream (newResponsesToChatStreamState model created) events = .ok out ∧
      CallsSent label S' number out ∧ ∀ c, number c ≠ none ↔ (R' c).Seen := by
  -- a call with a label was known from its first input on
  have hl : ∀ c, (R' c).known = [] → label c = none ∨ (R' c).kept = none := by
    intro c hnil
    cases hlc : label c with
    | none => exact Or.inl rfl
    | some l =>
      right
      have hlab := hf.labels c l hlc
      have hrun := hf.route c
      cases hxs : inputsOf owner c (toolInputsOf events) with
      | nil =>
        rw [hxs] at hrun
        rw [← some.inj hrun]
      | cons x =>
        exfalso
        have hmem : x ∈ inputsOf owner c (toolInputsOf events) := by rw [hxs]; simp
        have hg := (hf.single x (mem_inputsOf hmem)).given_ne_nil
        have hx : x.isItem = true := by
          rcases hlab.first with hfirst | hfirst
          · exact absurd rfl hfirst
          · exact hfirst x (by rw [hxs]; rfl)
        rw [hxs, foldlM_cons] at hrun
        obtain ⟨m, hm, hrest⟩ := bind_eq_some_iff.1 hrun
        exact run_known_ne_nil hrest (step_isItem hm hg hx) hnil
  rcases eq_nil_or_concat events with rfl | ⟨body, event, rfl⟩
  · -- no event at all
    obtain ⟨⟨number, hsent, hnum⟩, -⟩ := (good_new owner label model created).finalize
      (by intro c; exact Or.inl rfl) (by intro c _; exact Or.inr rfl) rfl none
    obtain ⟨rfl, rfl⟩ := hf.nil
    refine ⟨_, number, rfl, hsent, ?_⟩
    intro c
    rw [hnum c, Route.Seen]
    simp
  · rw [concat_eq_append] at hp hf ⊢
    have hsplit : toolInputsOf (body ++ [event]) = toolInputsOf body ++ toolInputs event := by
      simp [toolInputsOf]
    rw [hsplit] at hf
    obtain ⟨R₁, S₁, hf₁, hf₂⟩ := hf.split
    have hbody : ∀ e ∈ body, e.type.isTerminal = false := by
      intro e he
      exact hp.lastOnly e (by simpa using he)
    obtain ⟨all, number₁, hall, h₁, hfin₁⟩ := (good_new owner label model created).events body
      (fun e he => hp.noFailure e (mem_append_left _ he)) (fun e he => hp.noItem e (mem_append_left _ he))
      hbody hf₁
    rw [nil_append] at h₁
    have hfin : all.2.finalized = false := hfin₁
    cases hterm : event.type.isTerminal with
    | false =>
      obtain ⟨one, number₂, hone, h₂⟩ := h₁.plainEvent (hp.noFailure event (by simp)) (hp.noItem event (by simp))
        hterm hf₂
      obtain ⟨⟨number, hsent, hnum⟩, -⟩ := h₂.finalize hr hl ((plainEvent_finalized hterm hone).trans hfin) none
      refine ⟨_, number, ?_, hsent, ?_⟩
      · have hlast : chatDeltasOfEvents [event] all.2 = .ok (one.1 ++ [], one.2) := by
          simp only [chatDeltasOfEvents, hone]
        have := chatDeltasOfEvents_append body [event] hall hlast
        simp only [chatStream, this, append_nil]
        rfl
      · intro c
        rw [hnum c, Route.Seen, ne_eq, (h₂.holds c).linked]
    | true =>
      -- the response that the event ends the answer with
      obtain ⟨response, hresp, hout⟩ : ∃ response, responsesStreamEventToChatChunks event all.2 =
          .ok (all.2.terminal response) ∧
          toolInputs event = ((response.map OpenAIResponsesResponse.output).getD []).flatMap fun item =>
            itemInputs (terminalEvent item) := terminalEvent_response hterm all.2
      rw [hout] at hf₂
      obtain ⟨⟨number, hsent, hnum⟩, hdone⟩ := h₁.terminal hf₂ hr hl hfin
      refine ⟨_, number, ?_, hsent, hnum⟩
      have hlast : chatDeltasOfEvents [event] all.2 =
          .ok ((all.2.terminal response).1 ++ [], (all.2.terminal response).2) := by
        simp only [chatDeltasOfEvents, hresp]
      have := chatDeltasOfEvents_append body [event] hall hlast
      simp only [chatStream, this, append_nil]
      have hno : (finalizeResponsesToChatStream (all.2.terminal response).2).1 = [] := by
        simp [finalizeResponsesToChatStream, ResponsesToChatStreamState.finalize, hdone]
      rw [hno, append_nil]

end

end NovaMaas.Convert
