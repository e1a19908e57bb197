/-
  When the Claude converter writes a legal stream.

  `Phase` is a client that reads an Anthropic stream: one message start first; blocks that are started at growing
  indexes, get deltas of their own type while they are open and are stopped once; then, with no block open, one message
  delta and one message stop.

  The converter keeps to it as long as the tool calls it READS still make sense to it (`Flows`): they are numbered from
  zero, each call is named by its first fragment and not again, and they come in one run, with no text or reasoning
  between them.  The stops at the end of a run go from the first block of the run to the largest offset seen, so a call
  that is missing, whether its name was not read or was read in an earlier run, is stopped without being open.
-/
import NovaMaas.Convert.ClaudeParts

open Option hiding map_id mem_map

open List

namespace NovaMaas.Convert

/-! ## A client -/

inductive BlockType where
  | text
  | thinking
  | toolUse
  deriving DecidableEq

def ContentBlock.type : ContentBlock → BlockType
  | .text => .text
  | .thinking => .thinking
  | .toolUse _ _ => .toolUse

def BlockDelta.type : BlockDelta → BlockType
  | .textDelta _ => .text
  | .thinkingDelta _ => .thinking
  | .inputJsonDelta _ => .toolUse

/-- Where a client stands.  In a message it knows the last index that was started and the blocks that are open. -/
inductive Phase where
  | idle
  | message (last : ℤ) (opened : List (ℤ × BlockType))
  | ending
  | stopped
  deriving DecidableEq

/-- The client reads an event, or refuses it. -/
def Phase.step : Phase → ClaudeEvent → Option Phase
  | .idle, .messageStart _ _ _ => some (.message (-1) [])
  | .message last opened, .contentBlockStart i block =>
    if last < i then some (.message i ((i, block.type) :: opened)) else none
  | .message last opened, .contentBlockDelta i delta =>
    if (i, delta.type) ∈ opened then some (.message last opened) else none
  | .message last opened, .contentBlockStop i =>
    if i ∈ opened.map Prod.fst then some (.message last (opened.filter fun b => b.1 ≠ i)) else none
  | .message _ opened, .messageDelta _ _ => if opened = [] then some .ending else none
  | .ending, .messageStop => some .stopped
  | _, _ => none

open Phase

def Phase.run (p : Phase) (events : List ClaudeEvent) : Option Phase := events.foldlM step p

/-- A legal stream takes a client from the start to the end. -/
def Legal (events : List ClaudeEvent) : Prop := idle.run events = some .stopped

instance (events : List ClaudeEvent) : Decidable (Legal events) := inferInstanceAs (Decidable (_ = _))

theorem Phase.run_cons (p : Phase) (e : ClaudeEvent) (events : List ClaudeEvent) :
    p.run (e :: events) = (p.step e).bind fun q => q.run events := rfl

theorem Phase.run_append (p : Phase) (es fs : List ClaudeEvent) :
    p.run (es ++ fs) = (p.run es).bind fun q => q.run fs :=
  foldlM_append

/-! ## The calls a stream reads -/

/-- The calls are numbered from `k` on: a named fragment is the next call, one without a name belongs to a call that
was named.  The number after the last. -/
def number : ℕ → List (ℤ × ToolCallResponse) → Option ℕ
  | k, [] => some k
  | k, (offset, call) :: rest =>
    if call.name ≠ "" then if offset = k then number (k + 1) rest else none
    else if 0 ≤ offset ∧ offset < k then number k rest else none

/-- Every call's first fragment carries its name, later ones carry none, and the indexes start at 0 and increase by
one. -/
def Numbered (chunks : List ChatChunk) : Prop := (number 0 (callsOf chunks)).isSome

instance (chunks : List ChatChunk) : Decidable (Numbered chunks) := inferInstanceAs (Decidable (_ = true))

/-- Where a stream stands with its tool calls: before them, after `k` of them, or past them. -/
inductive Run where
  | before
  | during (k : ℕ)
  | past

/-- Text or reasoning ends the run of the tool calls. -/
def Run.leave : Run → Run
  | .before => .before
  | _ => .past

/-- Tool calls go on with the run, or begin it. -/
def Run.enter (calls : List (ℤ × ToolCallResponse)) : Run → Option Run
  | .before => (number 0 calls).map .during
  | .during k => (number k calls).map .during
  | .past => none

def Run.next (r : Run) : Part → Option Run
  | .firstTool offset call => r.enter [(offset, call)]
  | .tools calls => r.enter calls
  | .thinking _ => some r.leave
  | .text _ => some r.leave

/-- The calls that are read are numbered from zero, and come in one run. -/
def Flows (parts : List Part) : Prop := (parts.foldlM Run.next .before).isSome

instance (parts : List Part) : Decidable (Flows parts) := inferInstanceAs (Decidable (_ = true))

/-! ## Stops -/

/-- A block that is not open cannot be stopped. -/
theorem run_stops_of_closed {i : ℤ} (indexes : List ℤ) (hi : i ∈ indexes) (last : ℤ) (events : List ClaudeEvent) :
    ∀ {opened : List (ℤ × BlockType)}, (∀ t, (i, t) ∉ opened) →
      (message last opened).run (indexes.map .contentBlockStop ++ events) = none := by
  induction indexes with
  | nil => cases hi
  | cons x indexes ih =>
    intro opened hclosed
    rw [map_cons, cons_append, run_cons]
    by_cases hx : x ∈ opened.map Prod.fst
    · have hne : i ≠ x := by
        rintro rfl
        obtain ⟨⟨j, t⟩, hmem, rfl⟩ := mem_map.mp hx
        exact hclosed t hmem
      have hi' : i ∈ indexes := by
        rcases mem_cons.mp hi with h | h
        · exact absurd h hne
        · exact h
      have hstep : (message last opened).step (.contentBlockStop x) =
          some (.message last (opened.filter fun b => b.1 ≠ x)) := if_pos hx
      rw [hstep]
      exact ih hi' fun t hmem => hclosed t (mem_filter.mp hmem).1
    · have hstep : (message last opened).step (.contentBlockStop x) = none := if_neg hx
      rw [hstep]
      rfl

/-- Open blocks can be stopped one after the other. -/
theorem run_stops {indexes : List ℤ} (hnodup : indexes.Nodup) (last : ℤ) : ∀ {opened : List (ℤ × BlockType)},
    (∀ i, i ∈ opened.map Prod.fst ↔ i ∈ indexes) →
      (message last opened).run (indexes.map .contentBlockStop) = some (.message last []) := by
  induction indexes with
  | nil =>
    intro opened hopen
    have hnil : opened = [] := by
      rw [← map_eq_nil_iff (f := Prod.fst), eq_nil_iff_forall_not_mem]
      intro i hi
      cases (hopen i).mp hi
    rw [hnil]
    rfl
  | cons x _ ih =>
    intro opened hopen
    obtain ⟨hfresh, hnodup⟩ := nodup_cons.mp hnodup
    have hx : x ∈ opened.map Prod.fst := (hopen x).mpr mem_cons_self
    have hstep : (message last opened).step (.contentBlockStop x) =
        some (.message last (opened.filter fun b => b.1 ≠ x)) := if_pos hx
    rw [map_cons, run_cons, hstep]
    refine ih hnodup ?_
    intro i
    have hfilter : i ∈ (opened.filter fun b => b.1 ≠ x).map Prod.fst ↔ i ∈ opened.map Prod.fst ∧ i ≠ x := by
      simp only [mem_map, mem_filter, decide_eq_true_eq]
      constructor
      · rintro ⟨b, ⟨hb, hne⟩, rfl⟩
        exact ⟨⟨b, hb, rfl⟩, hne⟩
      · rintro ⟨⟨b, hb, rfl⟩, hne⟩
        exact ⟨b, ⟨hb, hne⟩, rfl⟩
    rw [hfilter, hopen i, mem_cons]
    constructor
    · rintro ⟨rfl | h, hne⟩
      · exact absurd rfl hne
      · exact h
    · intro h
      refine ⟨Or.inr h, ?_⟩
      rintro rfl
      exact hfresh h

/-- The blocks that `stopOpenBlocks` stops. -/
def openIndexes (state : ClaudeConvertInfo) : List ℤ :=
  match state.lastMessagesType with
  | .text => [state.index]
  | .thinking => [state.index]
  | .tools => (range (state.toolCallMaxIndexOffset + 1).toNat).map fun offset : ℕ =>
      state.toolCallBaseIndex + (offset : ℤ)
  | .none => []

theorem stopOpenBlocks_eq (state : ClaudeConvertInfo) :
    stopOpenBlocks state = (openIndexes state).map .contentBlockStop := by
  unfold stopOpenBlocks openIndexes
  cases state.lastMessagesType with
  | tools => simp
  | _ => rfl

variable {state : ClaudeConvertInfo}

theorem mem_openIndexes_tools (h : state.lastMessagesType = .tools) (i : ℤ) : i ∈ openIndexes state ↔
      state.toolCallBaseIndex ≤ i ∧ i ≤ state.toolCallBaseIndex + state.toolCallMaxIndexOffset := by
  unfold openIndexes
  rw [h]
  simp only [mem_map, mem_range]
  constructor
  · rintro ⟨offset, hlt, rfl⟩
    omega
  · rintro ⟨hlow, hhigh⟩
    exact ⟨(i - state.toolCallBaseIndex).toNat, by omega, by omega⟩

theorem openIndexes_nodup (state : ClaudeConvertInfo) : (openIndexes state).Nodup := by
  unfold openIndexes
  cases state.lastMessagesType with
  | tools => exact nodup_range.map fun a b hab => by simpa using hab
  | _ => simp

/-! ## A converter and a client in step -/

/-- The type of the open block. -/
def LastMessageType.block : LastMessageType → BlockType
  | .text => .text
  | .thinking => .thinking
  | _ => .toolUse

/-- The client has open what the converter thinks, of the type it thinks, and the next index is free. -/
structure Stands (state : ClaudeConvertInfo) (last : ℤ) (opened : List (ℤ × BlockType)) : Prop where
  opens : ∀ i t, (i, t) ∈ opened ↔ i ∈ openIndexes state ∧ t = state.lastMessagesType.block
  fresh : last < state.advance.index

variable {opened : List (ℤ × BlockType)} {last : ℤ}

theorem Stands.run_stops (h : Stands state last opened) :
    (message last opened).run (stopOpenBlocks state) = some (.message last []) := by
  rw [stopOpenBlocks_eq]
  refine Convert.run_stops (openIndexes_nodup state) last ?_
  intro i
  constructor
  · intro hi
    obtain ⟨⟨j, t⟩, hmem, rfl⟩ := mem_map.mp hi
    exact ((h.opens j t).mp hmem).1
  · intro hi
    exact mem_map.mpr ⟨(i, state.lastMessagesType.block), (h.opens _ _).mpr ⟨hi, rfl⟩, rfl⟩

/-- With the open blocks stopped, the end of the message is legal. -/
theorem Stands.run_end (h : Stands state last opened) (reason : String) (usage : Option Usage) :
    (message last opened).run (stopOpenBlocks state ++ endMessage reason usage) = some .stopped := by
  rw [run_append, h.run_stops]
  rfl

/-- A fragment of the text or the reasoning. -/
theorem Stands.content
    (h : Stands state last opened) {type : LastMessageType} {block : ContentBlock} {delta : BlockDelta}
    (htype : type = .text ∨ type = .thinking) (hblock : block.type = type.block) (hdelta : delta.type = type.block) :
    ∃ last' opened', (message last opened).run (contentChunk type block delta state).1 =
        some (.message last' opened') ∧ Stands (contentChunk type block delta state).2 last' opened' := by
  by_cases hlast : state.lastMessagesType = type
  · rw [contentChunk_same hlast]
    have hindexes : openIndexes state = [state.index] := by
      unfold openIndexes
      rw [hlast]
      rcases htype with rfl | rfl <;> rfl
    have hmem : (state.index, delta.type) ∈ opened := by
      rw [h.opens, hindexes, hlast]
      exact ⟨mem_singleton_self _, hdelta⟩
    refine ⟨last, opened, ?_, ?_⟩
    · have hstep : (message last opened).step (.contentBlockDelta state.index delta) =
          some (.message last opened) := if_pos hmem
      rw [run_cons, hstep]
      rfl
    · obtain ⟨hopens, hfresh⟩ := h
      subst hlast
      exact ⟨hopens, hfresh⟩
  · rw [contentChunk_new hlast]
    have hstart : (message last []).step (.contentBlockStart state.advance.index block) =
        some (.message state.advance.index [(state.advance.index, block.type)]) := if_pos h.fresh
    have hdelta' : (message state.advance.index [(state.advance.index, block.type)]).step
        (.contentBlockDelta state.advance.index delta) =
          some (.message state.advance.index [(state.advance.index, block.type)]) := by
      refine if_pos ?_
      rw [hblock, hdelta]
      exact mem_singleton_self _
    refine ⟨state.advance.index, [(state.advance.index, block.type)], ?_, ?_⟩
    · rw [run_append, h.run_stops]
      show (message last []).run _ = _
      rw [run_cons, hstart]
      show (message _ _).run _ = _
      rw [run_cons, hdelta']
      rfl
    · rw [hblock]
      rcases htype with rfl | rfl
      · refine ⟨?_, ?_⟩
        · intro i t
          simp [openIndexes, LastMessageType.block]
        · show state.advance.index < state.advance.index + 1
          omega
      · refine ⟨?_, ?_⟩
        · intro i t
          simp [openIndexes, LastMessageType.block]
        · show state.advance.index < state.advance.index + 1
          omega

/-! ## Tool calls in order -/

variable {calls : List (ℤ × ToolCallResponse)}

theorem le_of_number : ∀ {k k' : ℕ}, number k calls = some k' → k ≤ k' := by
  induction calls with
  | nil =>
    intro k k' h
    exact le_of_eq (some.inj h)
  | cons a _ ih =>
    obtain ⟨offset, call⟩ := a
    intro k k' h
    rw [number] at h
    split at h
    · split at h
      · have := ih h
        omega
      · cases h
    · split at h
      · exact ih h
      · cases h

theorem largestOffset_cons (m : ℤ) (a : ℤ × ToolCallResponse) (rest : List (ℤ × ToolCallResponse)) :
    largestOffset m (a :: rest) = largestOffset (max m a.1) rest := rfl

theorem le_largestOffset (calls : List (ℤ × ToolCallResponse)) : ∀ m : ℤ, m ≤ largestOffset m calls := by
  induction calls with
  | nil => exact fun m => le_refl m
  | cons _ _ ih =>
    intro m
    rw [largestOffset_cons]
    exact le_trans (le_max_left _ _) (ih _)

theorem mem_le_largestOffset {a : ℤ × ToolCallResponse} (ha : a ∈ calls) : ∀ m : ℤ, a.1 ≤ largestOffset m calls := by
  induction calls with
  | nil => cases ha
  | cons _ rest ih =>
    intro m
    rw [largestOffset_cons]
    rcases mem_cons.mp ha with rfl | h
    · exact le_trans (le_max_right _ _) (le_largestOffset rest _)
    · exact ih h _

/-- The largest offset is the last call's. -/
theorem largestOffset_number : ∀ {k k' : ℕ} {m : ℤ},
    number k calls = some k' → (k : ℤ) - 1 ≤ m → largestOffset m calls = max m (k' - 1) := by
  induction calls with
  | nil =>
    intro k k' m h hm
    obtain rfl := some.inj h
    show m = max m (k - 1)
    omega
  | cons a _ ih =>
    obtain ⟨offset, call⟩ := a
    intro k k' m h hm
    rw [number] at h
    rw [largestOffset_cons]
    split at h
    · split at h
      · rename_i hoffset
        have hle := le_of_number h
        rw [ih h (by push_cast; omega)]
        show max (max m offset) (↑k' - 1) = _
        omega
      · cases h
    · split at h
      · rename_i hoffset
        rw [ih h (by omega)]
        show max (max m offset) (↑k' - 1) = _
        omega
      · cases h

/-- The blocks of the calls of a run: the first `k` from `base` on. -/
def OpenFrom (base : ℤ) (k : ℕ) (opened : List (ℤ × BlockType)) : Prop :=
  ∀ i t, (i, t) ∈ opened ↔ (base ≤ i ∧ i < base + k) ∧ t = .toolUse

/-- Calls that are numbered open their blocks and write to open ones. -/
theorem run_toolCalls {base : ℤ} : ∀ {k k' : ℕ} {last : ℤ}
    {opened : List (ℤ × BlockType)}, number k calls = some k' → OpenFrom base k opened → last < base + k →
    ∃ last' opened', (message last opened).run (toolCallEvents base calls) = some (.message last' opened') ∧
      OpenFrom base k' opened' ∧ last' < base + k' := by
  induction calls with
  | nil =>
    intro k k' last opened h hopen hlast
    obtain rfl := some.inj h
    exact ⟨last, opened, rfl, hopen, hlast⟩
  | cons a _ ih =>
    obtain ⟨offset, call⟩ := a
    intro k k' last opened h hopen hlast
    rw [number] at h
    -- the fragment of an open call is legal
    have hfragment : ∀ {last : ℤ} {opened : List (ℤ × BlockType)}, (base + offset, BlockType.toolUse) ∈ opened →
        (message last opened).run (if call.arguments ≠ "" then
          [.contentBlockDelta (base + offset) (.inputJsonDelta call.arguments)] else []) =
            some (.message last opened) := by
      intro last opened hmem
      split
      · have hstep : (message last opened).step
            (.contentBlockDelta (base + offset) (.inputJsonDelta call.arguments)) = some (.message last opened) := if_pos hmem
        rw [run_cons, hstep]
        rfl
      · rfl
    rw [toolCallEvents]
    by_cases hname : call.name ≠ ""
    · rw [if_pos hname] at h ⊢
      split at h
      · rename_i hoffset
        subst hoffset
        have hopen' : OpenFrom base (k + 1) ((base + k, .toolUse) :: opened) := by
          intro i t
          rw [mem_cons, hopen i t, Prod.mk.injEq]
          push_cast
          constructor
          · rintro (⟨rfl, rfl⟩ | ⟨hi, rfl⟩)
            · exact ⟨by omega, rfl⟩
            · exact ⟨by omega, rfl⟩
          · rintro ⟨hi, rfl⟩
            by_cases heq : i = base + k
            · exact Or.inl ⟨heq, rfl⟩
            · exact Or.inr ⟨by omega, rfl⟩
        have hlast' : base + (k : ℤ) < base + (k + 1 : ℕ) := by
          push_cast
          omega
        obtain ⟨last', opened', hrun, hres⟩ := ih h hopen' hlast'
        have hstep : (message last opened).step (.contentBlockStart (base + k) (.toolUse call.id call.name)) =
            some (.message (base + k) ((base + k, .toolUse) :: opened)) := if_pos hlast
        refine ⟨last', opened', ?_, hres⟩
        rw [run_append, run_append, run_cons, hstep]
        show ((message (base + k) ((base + k, .toolUse) :: opened)).run _).bind _ = _
        rw [hfragment mem_cons_self]
        exact hrun
      · cases h
    · rw [if_neg hname] at h ⊢
      split at h
      · rename_i hoffset
        obtain ⟨last', opened', hrun, hres⟩ := ih h hopen hlast
        refine ⟨last', opened', ?_, hres⟩
        rw [nil_append, run_append, hfragment ((hopen _ _).mpr ⟨by omega, rfl⟩)]
        exact hrun
      · cases h

/-! ## Calls that are still to come -/

/-- The calls ahead, with the first `low` calls behind: a name is a new call's, the calls are named in their order. -/
structure Ahead (low : ℕ) (calls : List (ℤ × ToolCallResponse)) : Prop where
  named : ∀ a ∈ calls, a.2.name ≠ "" → (low : ℤ) ≤ a.1
  nonneg : ∀ a ∈ calls, 0 ≤ a.1
  rising : calls.Pairwise fun a b => b.2.name ≠ "" → a.1 < b.1

theorem Ahead.sublist {low : ℕ} {calls rest : List (ℤ × ToolCallResponse)} (h : Ahead low calls)
    (hsub : rest.Sublist calls) : Ahead low rest :=
  ⟨fun a ha => h.named a (hsub.subset ha), fun a ha => h.nonneg a (hsub.subset ha), h.rising.sublist hsub⟩

theorem ahead_of_number : ∀ {k k' : ℕ}, number k calls = some k' → Ahead k calls := by
  induction calls with
  | nil => exact fun _ => ⟨by simp, by simp, List.Pairwise.nil⟩
  | cons a _ ih =>
    obtain ⟨offset, call⟩ := a
    intro k k' h
    rw [number] at h
    split at h
    · split at h
      · rename_i hoffset
        have hrest := ih h
        refine ⟨?_, ?_, pairwise_cons.mpr ⟨?_, hrest.rising⟩⟩
        · rintro b hb hname
          rcases mem_cons.mp hb with rfl | hb
          · exact le_of_eq hoffset.symm
          · have := hrest.named b hb hname
            push_cast at this
            omega
        · rintro b hb
          rcases mem_cons.mp hb with rfl | hb
          · show 0 ≤ offset
            omega
          · exact hrest.nonneg b hb
        · intro b hb hname
          have := hrest.named b hb hname
          push_cast at this
          show offset < b.1
          omega
      · cases h
    · rename_i hname
      split at h
      · rename_i hoffset
        have hrest := ih h
        refine ⟨?_, ?_, pairwise_cons.mpr ⟨?_, hrest.rising⟩⟩
        · rintro b hb hbname
          rcases mem_cons.mp hb with rfl | hb
          · exact absurd hbname hname
          · exact hrest.named b hb hbname
        · rintro b hb
          rcases mem_cons.mp hb with rfl | hb
          · exact hoffset.1
          · exact hrest.nonneg b hb
        · intro b hb hbname
          have := hrest.named b hb hbname
          show offset < b.1
          omega
      · cases h

/-- With numbered calls behind. -/
theorem Ahead.behind {calls rest : List (ℤ × ToolCallResponse)} : ∀ {k k' : ℕ}, Ahead k (calls ++ rest) →
    number k calls = some k' → Ahead k' rest := by
  induction calls with
  | nil =>
    intro k k' hahead h
    obtain rfl := some.inj h
    exact hahead
  | cons a calls ih =>
    obtain ⟨offset, call⟩ := a
    intro k k' hahead h
    rw [number] at h
    have htail : Ahead k (calls ++ rest) := hahead.sublist (sublist_cons_self _ _)
    split at h
    · split at h
      · rename_i hoffset
        refine ih ⟨?_, htail.nonneg, htail.rising⟩ h
        intro b hb hname
        have hlt : offset < b.1 := (pairwise_cons.mp hahead.rising).1 b hb hname
        push_cast
        omega
      · cases h
    · split at h
      · exact ih htail h
      · cases h

theorem Ahead.mono {low low' : ℕ} (h : Ahead low calls) (hle : low' ≤ low) : Ahead low' calls := by
  refine ⟨?_, h.nonneg, h.rising⟩
  intro a ha hname
  have := h.named a ha hname
  omega

/-! ## A call that is missing -/

/-- The events of one fragment. -/
def callEvents (base offset : ℤ) (call : ToolCallResponse) : List ClaudeEvent :=
  (if call.name ≠ "" then [.contentBlockStart (base + offset) (.toolUse call.id call.name)] else []) ++
  (if call.arguments ≠ "" then [.contentBlockDelta (base + offset) (.inputJsonDelta call.arguments)] else [])

theorem toolCallEvents_cons (base offset : ℤ) (call : ToolCallResponse) (rest : List (ℤ × ToolCallResponse)) :
    toolCallEvents base ((offset, call) :: rest) = callEvents base offset call ++ toolCallEvents base rest := rfl

/-- A fragment opens no block but that of the call it names. -/
theorem opened_of_call {base offset : ℤ} {call : ToolCallResponse} {q : Phase}
    (h : (message last opened).run (callEvents base offset call) = some q) :
    ∃ last' opened', q = .message last' opened' ∧
      ∀ i t, (i, t) ∈ opened' → (i, t) ∈ opened ∨ (call.name ≠ "" ∧ i = base + offset) := by
  have hdelta : ∀ {last : ℤ} {opened : List (ℤ × BlockType)}, (message last opened).run (if call.arguments ≠ "" then
        [.contentBlockDelta (base + offset) (.inputJsonDelta call.arguments)] else []) = some q →
          q = .message last opened := by
    intro last opened hq
    split at hq
    · rw [run_cons] at hq
      by_cases hmem : (base + offset, BlockType.toolUse) ∈ opened
      · have hstep : (message last opened).step
            (.contentBlockDelta (base + offset) (.inputJsonDelta call.arguments)) = some (.message last opened) := if_pos hmem
        rw [hstep] at hq
        exact (some.inj hq).symm
      · have hstep : (message last opened).step
            (.contentBlockDelta (base + offset) (.inputJsonDelta call.arguments)) = none := if_neg hmem
        rw [hstep] at hq
        cases hq
    · exact (some.inj hq).symm
  unfold callEvents at h
  rw [run_append] at h
  by_cases hname : call.name ≠ ""
  · rw [if_pos hname, run_cons] at h
    by_cases hlt : last < base + offset
    · have hstep : (message last opened).step (.contentBlockStart (base + offset) (.toolUse call.id call.name)) =
          some (.message (base + offset) ((base + offset, .toolUse) :: opened)) := if_pos hlt
      rw [hstep] at h
      refine ⟨_, _, hdelta h, ?_⟩
      intro i t hmem
      rcases mem_cons.mp hmem with heq | hmem
      · exact Or.inr ⟨hname, (Prod.mk.inj heq).1⟩
      · exact Or.inl hmem
    · have hstep : (message last opened).step (.contentBlockStart (base + offset) (.toolUse call.id call.name)) =
          none := if_neg hlt
      rw [hstep] at h
      cases h
  · rw [if_neg hname] at h
    exact ⟨last, opened, hdelta h, fun i t hmem => Or.inl hmem⟩

theorem opened_of_toolCalls {base : ℤ} : ∀ {last : ℤ}
    {opened : List (ℤ × BlockType)} {q : Phase}, (message last opened).run (toolCallEvents base calls) = some q →
    ∃ last' opened', q = .message last' opened' ∧
      ∀ i t, (i, t) ∈ opened' → (i, t) ∈ opened ∨ ∃ a ∈ calls, a.2.name ≠ "" ∧ i = base + a.1 := by
  induction calls with
  | nil =>
    intro last opened q h
    exact ⟨last, opened, (some.inj h).symm, fun i t hmem => Or.inl hmem⟩
  | cons a _ ih =>
    obtain ⟨offset, call⟩ := a
    intro last opened q h
    rw [toolCallEvents_cons, run_append] at h
    obtain ⟨q₁, h₁, h₂⟩ := bind_eq_some_iff.mp h
    obtain ⟨last₁, opened₁, rfl, hsub₁⟩ := opened_of_call h₁
    obtain ⟨last₂, opened₂, rfl, hsub₂⟩ := ih h₂
    refine ⟨last₂, opened₂, rfl, ?_⟩
    intro i t hmem
    rcases hsub₂ i t hmem with hmem | ⟨a, ha, hname⟩
    · rcases hsub₁ i t hmem with hmem | hname
      · exact Or.inl hmem
      · exact Or.inr ⟨(offset, call), mem_cons_self, hname⟩
    · exact Or.inr ⟨a, mem_cons_of_mem _ ha, hname⟩

/-- If the calls of a chunk are not numbered on from `k`, one of them is missing: its block is not open, no call to
come opens it, and the largest offset is past it. -/
theorem call_missing {base : ℤ} {calls rest : List (ℤ × ToolCallResponse)} : ∀ {k : ℕ} {m last : ℤ}
    {opened : List (ℤ × BlockType)} {q : Phase}, number k calls = none → Ahead k (calls ++ rest) →
    (∀ i t, (i, t) ∈ opened → i < base + k) → (message last opened).run (toolCallEvents base calls) = some q →
    ∃ last' opened' j, q = .message last' opened' ∧ 0 ≤ j ∧ j ≤ largestOffset m calls ∧
      (∀ t, (base + j, t) ∉ opened') ∧ ∀ a ∈ rest, a.2.name ≠ "" → j < a.1 := by
  induction calls with
  | nil =>
    intro k m last opened q h
    cases h
  | cons a calls ih =>
    obtain ⟨offset, call⟩ := a
    intro k m last opened q h hahead hopen hrun
    have hrise := (pairwise_cons.mp hahead.rising).1
    have htail : Ahead k (calls ++ rest) := hahead.sublist (sublist_cons_self _ _)
    rw [number] at h
    by_cases hname : call.name ≠ ""
    · rw [if_pos hname] at h
      have hlow : (k : ℤ) ≤ offset := hahead.named (offset, call) mem_cons_self hname
      by_cases hoffset : offset = k
      · -- the next call
        rw [if_pos hoffset] at h
        rw [toolCallEvents_cons, run_append] at hrun
        obtain ⟨q₁, h₁, h₂⟩ := bind_eq_some_iff.mp hrun
        obtain ⟨last₁, opened₁, rfl, hsub⟩ := opened_of_call h₁
        have hahead' : Ahead (k + 1) (calls ++ rest) := by
          refine ⟨?_, htail.nonneg, htail.rising⟩
          intro b hb hbname
          have hlt : offset < b.1 := hrise b hb hbname
          push_cast
          omega
        refine ih (m := max m offset) h hahead' ?_ h₂
        intro i t hmem
        push_cast
        rcases hsub i t hmem with hmem | ⟨-, rfl⟩
        · have := hopen i t hmem
          omega
        · omega
      · -- a later call: the next one will not come
        obtain ⟨last', opened', rfl, hsub⟩ := opened_of_toolCalls hrun
        have hmax : offset ≤ largestOffset m ((offset, call) :: calls) :=
          mem_le_largestOffset (a := (offset, call)) mem_cons_self m
        refine ⟨last', opened', k, rfl, by omega, by omega, ?_, ?_⟩
        · intro t hmem
          rcases hsub _ t hmem with hmem | ⟨b, hb, hbname, heq⟩
          · have := hopen _ t hmem
            omega
          · rcases mem_cons.mp hb with rfl | hb
            · have heq : base + (k : ℤ) = base + offset := heq
              omega
            · have hlt : offset < b.1 := hrise b (mem_append_left _ hb) hbname
              omega
        · intro b hb hbname
          have hlt : offset < b.1 := hrise b (mem_append_right _ hb) hbname
          omega
    · rw [if_neg hname] at h
      have hnonneg : 0 ≤ offset := hahead.nonneg (offset, call) mem_cons_self
      by_cases hoffset : 0 ≤ offset ∧ offset < k
      · rw [if_pos hoffset] at h
        rw [toolCallEvents_cons, run_append] at hrun
        obtain ⟨q₁, h₁, h₂⟩ := bind_eq_some_iff.mp hrun
        obtain ⟨last₁, opened₁, rfl, hsub⟩ := opened_of_call h₁
        refine ih (m := max m offset) h htail ?_ h₂
        intro i t hmem
        rcases hsub i t hmem with hmem | ⟨hnamed, -⟩
        · exact hopen i t hmem
        · exact absurd hnamed hname
      · -- a fragment of a call whose name was not read
        obtain ⟨last', opened', rfl, hsub⟩ := opened_of_toolCalls hrun
        have hmax : offset ≤ largestOffset m ((offset, call) :: calls) :=
          mem_le_largestOffset (a := (offset, call)) mem_cons_self m
        refine ⟨last', opened', offset, rfl, hnonneg, hmax, ?_, ?_⟩
        · intro t hmem
          rcases hsub _ t hmem with hmem | ⟨b, hb, hbname, heq⟩
          · have := hopen _ t hmem
            omega
          · rcases mem_cons.mp hb with rfl | hb
            · exact hname hbname
            · have hlt : offset < b.1 := hrise b (mem_append_left _ hb) hbname
              omega
        · intro b hb hbname
          exact hrise b (mem_append_right _ hb) hbname

/-! ## Whole streams -/

/-- The end of a stream that is fed `parts` from `state` on. -/
def ending (state : ClaudeConvertInfo) (parts : List Part) (last : List ClaudeEvent) : List ClaudeEvent :=
  (feedAll parts state).1 ++ (stopOpenBlocks (feedAll parts state).2 ++ last)

theorem ending_cons (state : ClaudeConvertInfo) (p : Part) (parts : List Part) (last : List ClaudeEvent) :
    ending state (p :: parts) last = (p.feed state).1 ++ ending (p.feed state).2 parts last := by
  unfold ending
  simp [feedAll, append_assoc]

/-- Among the blocks of the run is one that is not open, and that no call to come opens. -/
structure Doomed (state : ClaudeConvertInfo) (opened : List (ℤ × BlockType)) (parts : List Part) (j : ℤ) : Prop where
  last : state.lastMessagesType = .tools
  nonneg : 0 ≤ j
  inRun : j ≤ state.toolCallMaxIndexOffset
  closed : ∀ t, (state.toolCallBaseIndex + j, t) ∉ opened
  ahead : ∀ a ∈ partCalls parts, a.2.name ≠ "" → j < a.1

theorem Doomed.stops {parts : List Part} {j : ℤ}
    (h : Doomed state opened parts j) (last : ℤ) (events : List ClaudeEvent) :
    (message last opened).run (stopOpenBlocks state ++ events) = none := by
  rw [stopOpenBlocks_eq]
  refine run_stops_of_closed _ ?_ last events h.closed
  rw [mem_openIndexes_tools h.last]
  have h0 := h.nonneg
  have h1 := h.inRun
  omega

/-- A client refuses the stop of that block, whatever comes before. -/
theorem Doomed.refused {parts : List Part} {j : ℤ} {events : List ClaudeEvent} : ∀ {state : ClaudeConvertInfo}
    {opened : List (ℤ × BlockType)} (last : ℤ), Doomed state opened parts j → (∀ p ∈ parts, p.Later) →
    (message last opened).run (ending state parts events) = none := by
  induction parts with
  | nil =>
    intro state opened last h _
    exact h.stops last events
  | cons p parts ih =>
    intro state opened last h hlater
    rw [ending_cons]
    have hahead : ∀ a ∈ partCalls parts, a.2.name ≠ "" → j < a.1 := by
      intro a ha
      refine h.ahead a ?_
      rw [partCalls_cons]
      exact mem_append_right _ ha
    -- text and reasoning end the run, and its blocks are stopped
    have hcontent : ∀ {type : LastMessageType} (block : ContentBlock) (delta : BlockDelta) (tail : List ClaudeEvent),
        type ≠ .tools → (message last opened).run ((contentChunk type block delta state).1 ++ tail) = none := by
      intro type block delta tail htype
      have hne : state.lastMessagesType ≠ type := by
        rw [h.last]
        exact htype.symm
      rw [contentChunk_new hne, append_assoc]
      exact h.stops last _
    cases p with
    | firstTool => exact (hlater _ mem_cons_self).elim
    | thinking | text => exact hcontent _ _ _ (by simp)
    | tools calls =>
      show (message last opened).run ((toolCallChunk calls state).1 ++ ending (toolCallChunk calls state).2 parts events) = none
      rw [toolCallChunk_same h.last, run_append]
      cases hrun : (message last opened).run (toolCallEvents state.toolCallBaseIndex calls) with
      | none => rfl
      | some =>
        obtain ⟨last', opened', rfl, hsub⟩ := opened_of_toolCalls hrun
        refine ih last' ⟨rfl, h.nonneg, ?_, ?_, hahead⟩ fun p hp => hlater p (mem_cons_of_mem _ hp)
        · exact le_trans h.inRun (le_largestOffset _ _)
        · intro t hmem
          rcases hsub _ t hmem with hmem | ⟨a, ha, hname, heq⟩
          · exact h.closed t hmem
          · have hlt : j < a.1 := by
              refine h.ahead a ?_ hname
              rw [partCalls_cons]
              exact mem_append_left _ ha
            have heq : state.toolCallBaseIndex + j = state.toolCallBaseIndex + a.1 := heq
            omega

/-- A call numbers `low` at least comes next. -/
def Run.low : Run → ℕ
  | .before => 0
  | .during k => k
  | .past => 1

/-- Converter and client stand where the run says. -/
structure InStep (r : Run) (state : ClaudeConvertInfo) (last : ℤ) (opened : List (ℤ × BlockType)) : Prop where
  stands : Stands state last opened
  outside : (∀ k, r ≠ .during k) → state.lastMessagesType ≠ .tools
  inside : ∀ k, r = .during k → 1 ≤ k ∧ state.lastMessagesType = .tools ∧ state.toolCallMaxIndexOffset = k - 1

theorem InStep.openFrom {k : ℕ} (h : InStep (.during k) state last opened) :
    OpenFrom state.toolCallBaseIndex k opened ∧ last < state.toolCallBaseIndex + k := by
  obtain ⟨hk, hlast, hmax⟩ := h.inside k rfl
  constructor
  · intro i t
    rw [h.stands.opens i t, mem_openIndexes_tools hlast, hmax, hlast]
    constructor
    · rintro ⟨hi, rfl⟩
      exact ⟨by omega, rfl⟩
    · rintro ⟨hi, rfl⟩
      exact ⟨by omega, rfl⟩
  · have hfresh := h.stands.fresh
    have hadv : state.advance.index = state.toolCallBaseIndex + state.toolCallMaxIndexOffset + 1 := by
      unfold ClaudeConvertInfo.advance
      rw [hlast]
    omega

theorem inStep_of_openFrom {k : ℕ} (hk : 1 ≤ k)
    (hlast : state.lastMessagesType = .tools) (hmax : state.toolCallMaxIndexOffset = k - 1)
    (hopen : OpenFrom state.toolCallBaseIndex k opened) (hlow : last < state.toolCallBaseIndex + k) :
    InStep (.during k) state last opened := by
  refine ⟨⟨?_, ?_⟩, fun hno => absurd rfl (hno k), ?_⟩
  · intro i t
    rw [hopen i t, mem_openIndexes_tools hlast, hmax, hlast]
    constructor
    · rintro ⟨hi, rfl⟩
      exact ⟨by omega, rfl⟩
    · rintro ⟨hi, rfl⟩
      exact ⟨by omega, rfl⟩
  · have hadv : state.advance.index = state.toolCallBaseIndex + state.toolCallMaxIndexOffset + 1 := by
      unfold ClaudeConvertInfo.advance
      rw [hlast]
    omega
  · intro k' heq
    cases heq
    exact ⟨hk, hlast, hmax⟩

/-- A run that is numbered from zero has a call. -/
theorem pos_of_number {k k' : ℕ} (hne : calls ≠ []) (h : number k calls = some k') : 1 ≤ k' := by
  cases calls with
  | nil => exact absurd rfl hne
  | cons a =>
    obtain ⟨offset, call⟩ := a
    rw [number] at h
    split at h
    · split at h
      · have := le_of_number h
        omega
      · cases h
    · split at h
      · have := le_of_number h
        omega
      · cases h

/-- A second run does not start at zero. -/
theorem number_past {calls rest : List (ℤ × ToolCallResponse)} (hne : calls ≠ []) (h : Ahead 1 (calls ++ rest)) :
    number 0 calls = none := by
  cases calls with
  | nil => exact absurd rfl hne
  | cons a =>
    obtain ⟨offset, call⟩ := a
    rw [number]
    split
    · rename_i hname
      have hlow := h.named (offset, call) mem_cons_self hname
      push_cast at hlow
      rw [if_neg]
      intro heq
      have heq : offset = 0 := heq
      omega
    · rw [if_neg]
      rintro ⟨hlow, hhigh⟩
      push_cast at hhigh
      omega

section
variable {parts : List Part} {reason : String} {usage : Option Usage}

/-- What the induction on the parts hands down. -/
def Decided (parts : List Part) (reason : String) (usage : Option Usage) : Prop :=
  ∀ {r : Run} {state : ClaudeConvertInfo} {last : ℤ} {opened : List (ℤ × BlockType)}, InStep r state last opened →
    (∀ p ∈ parts, p.Later) → Ahead r.low (partCalls parts) →
    ((message last opened).run (ending state parts (endMessage reason usage)) = some .stopped ↔
      (parts.foldlM Run.next r).isSome)

/-- Tool calls go on with a run of `k` calls if they are numbered on from there, and a client refuses the stream if
they are not. -/
theorem Decided.toolCalls (ih : Decided parts reason usage) {base last m : ℤ} {k : ℕ} {opened : List (ℤ × BlockType)}
    {calls : List (ℤ × ToolCallResponse)} {state' : ClaudeConvertInfo} (hne : calls ≠ [])
    (hlast' : state'.lastMessagesType = .tools) (hbase' : state'.toolCallBaseIndex = base)
    (hmax' : state'.toolCallMaxIndexOffset = largestOffset m calls) (hm : (k : ℤ) - 1 ≤ m) (hm' : m ≤ max 0 ((k : ℤ) - 1))
    (hopen : OpenFrom base k opened) (hlast : last < base + k) (hlater : ∀ p ∈ parts, p.Later)
    (hahead : Ahead k (calls ++ partCalls parts)) :
    (message last opened).run (toolCallEvents base calls ++ ending state' parts (endMessage reason usage)) =
        some .stopped ↔
      (((number k calls).map Run.during).bind fun r => parts.foldlM Run.next r).isSome := by
  cases hnumber : number k calls with
  | some k' =>
    obtain ⟨last', opened', hrun, hopen', hlow'⟩ := run_toolCalls hnumber hopen hlast
    have hk' : 1 ≤ k' := pos_of_number hne hnumber
    have hle : k ≤ k' := le_of_number hnumber
    have hmax : state'.toolCallMaxIndexOffset = k' - 1 := by
      rw [hmax', largestOffset_number hnumber hm]
      omega
    rw [run_append, hrun]
    refine ih (r := .during k') (inStep_of_openFrom hk' hlast' hmax ?_ ?_) hlater (hahead.behind hnumber)
    · rw [hbase']
      exact hopen'
    · rw [hbase']
      exact hlow'
  | none =>
    have hrefused : (message last opened).run
        (toolCallEvents base calls ++ ending state' parts (endMessage reason usage)) = none := by
      rw [run_append]
      cases hrun : (message last opened).run (toolCallEvents base calls) with
      | none => rfl
      | some =>
        have hopen' : ∀ i t, (i, t) ∈ opened → i < base + k := fun i t hmem => ((hopen i t).mp hmem).1.2
        obtain ⟨last', opened', j, rfl, hj, hjmax, hclosed, hj'⟩ := call_missing (m := m) hnumber hahead hopen' hrun
        refine Doomed.refused last' ⟨hlast', hj, ?_, ?_, hj'⟩ hlater
        · rw [hmax']
          exact hjmax
        · rw [hbase']
          exact hclosed
    rw [hrefused]
    simp

/-- Text or reasoning is always legal, and ends the run. -/
theorem Decided.content (ih : Decided parts reason usage) {r : Run} {state : ClaudeConvertInfo} {last : ℤ}
    {opened : List (ℤ × BlockType)} (h : InStep r state last opened) (hlater : ∀ p ∈ parts, p.Later)
    (hahead : Ahead r.low (partCalls parts)) {type : LastMessageType} {block : ContentBlock} {delta : BlockDelta}
    (htype : type = .text ∨ type = .thinking) (hblock : block.type = type.block) (hdelta : delta.type = type.block) :
    (message last opened).run ((contentChunk type block delta state).1 ++
        ending (contentChunk type block delta state).2 parts (endMessage reason usage)) = some .stopped ↔
      (parts.foldlM Run.next r.leave).isSome := by
  obtain ⟨last', opened', hrun, hstands⟩ := h.stands.content htype hblock hdelta
  have hkind : (contentChunk type block delta state).2.lastMessagesType = type := by
    by_cases hs : state.lastMessagesType = type
    · rw [contentChunk_same hs]
    · rw [contentChunk_new hs]
  rw [run_append, hrun]
  refine ih ⟨hstands, ?_, ?_⟩ hlater ?_
  · intro _
    rw [hkind]
    rcases htype with rfl | rfl <;> simp
  · intro k hk
    cases r <;> cases hk
  · cases r with
    | before => exact hahead
    | past => exact hahead
    | during k => exact hahead.mono (h.inside k rfl).1

theorem decided (parts : List Part) (reason : String) (usage : Option Usage) : Decided parts reason usage := by
  induction parts with
  | nil =>
    intro r state last opened h _ _
    have hend : (message last opened).run (ending state [] (endMessage reason usage)) = some .stopped :=
      h.stands.run_end reason usage
    rw [hend]
    simp
  | cons p parts ih =>
    intro r state last opened h hlater hahead
    have hlater' : ∀ p ∈ parts, p.Later := fun p hp => hlater p (mem_cons_of_mem _ hp)
    rw [partCalls_cons] at hahead
    have hahead' : Ahead r.low (partCalls parts) := hahead.sublist (sublist_append_right _ _)
    rw [ending_cons, foldlM_cons]
    cases p with
    | firstTool => exact (hlater _ mem_cons_self).elim
    | thinking => exact Decided.content ih h hlater' hahead' (Or.inr rfl) rfl rfl
    | text => exact Decided.content ih h hlater' hahead' (Or.inl rfl) rfl rfl
    | tools calls =>
      have hne : calls ≠ [] := hlater _ mem_cons_self
      have hahead : Ahead r.low (calls ++ partCalls parts) := hahead
      -- outside a run the calls begin one, behind the stops of what is open
      have houtside : state.lastMessagesType ≠ .tools → Ahead 0 (calls ++ partCalls parts) →
          ((message last opened).run ((Part.feed (.tools calls) state).1 ++
              ending (Part.feed (.tools calls) state).2 parts (endMessage reason usage)) = some .stopped ↔
            (((number 0 calls).map Run.during).bind fun r => parts.foldlM Run.next r).isSome) := by
        intro htype hahead
        show (message last opened).run ((toolCallChunk calls state).1 ++
          ending (toolCallChunk calls state).2 parts (endMessage reason usage)) = _ ↔ _
        rw [toolCallChunk_new htype, append_assoc, run_append, h.stands.run_stops]
        refine Decided.toolCalls ih hne rfl rfl rfl (m := 0) (by simp) (by simp) ?_ ?_ hlater' hahead
        · intro i t
          simp
        · have hfresh := h.stands.fresh
          push_cast
          omega
      cases r with
      | before => exact houtside (h.outside (by simp)) hahead
      | past =>
        have hnone : number 0 calls = none := number_past hne hahead
        have hiff := houtside (h.outside (by simp)) (hahead.mono (by simp))
        rw [hnone] at hiff
        exact hiff
      | during k =>
        obtain ⟨hk, hlast, hmax⟩ := h.inside k rfl
        obtain ⟨hopen, hlow⟩ := h.openFrom
        show (message last opened).run ((toolCallChunk calls state).1 ++
          ending (toolCallChunk calls state).2 parts (endMessage reason usage)) = _ ↔ _
        rw [toolCallChunk_same hlast]
        exact Decided.toolCalls ih hne rfl rfl rfl (by omega) (by omega) hopen hlow hlater' hahead

end

/-! ## The first tool call -/

/-- The tool call of a first chunk, as one of a later chunk. -/
def Part.asTools : Part → Part
  | .firstTool offset call => .tools [(offset, call)]
  | p => p

theorem asTools_calls (p : Part) : p.asTools.calls = p.calls := by
  cases p <;> rfl

theorem asTools_next (p : Part) (r : Run) : r.next p.asTools = r.next p := by
  cases p <;> rfl

theorem partCalls_asTools (parts : List Part) : partCalls (parts.map Part.asTools) = partCalls parts := by
  unfold partCalls
  rw [flatMap_map]
  exact congrArg (fun f => parts.flatMap f) (funext asTools_calls)

theorem foldlM_asTools (parts : List Part) :
    ∀ r : Run, (parts.map Part.asTools).foldlM Run.next r = parts.foldlM Run.next r := by
  induction parts with
  | nil => exact fun r => rfl
  | cons p _ ih =>
    intro r
    rw [map_cons, foldlM_cons, foldlM_cons, asTools_next]
    exact congrArg (fun f => (r.next p).bind f) (funext ih)

/-- No tool call of a first chunk is left. -/
theorem map_asTools_eq_self {parts : List Part} (h : ∀ p ∈ parts, p.Later) : parts.map Part.asTools = parts := by
  rw [map_congr_left (g := id), map_id]
  intro p hp
  cases p with
  | firstTool => exact (h _ hp).elim
  | _ => rfl

theorem numbered_head {c : ChatChunk} {chunks : List ChatChunk} {offset : ℤ} {call : ToolCallResponse}
    (h : Numbered (c :: chunks)) (hhead : (keyed c.toolCalls).head? = some (offset, call)) :
    offset = 0 ∧ call.name ≠ "" := by
  obtain ⟨rest, hkeyed⟩ : ∃ rest, keyed c.toolCalls = (offset, call) :: rest := by
    cases hcalls : keyed c.toolCalls with
    | nil =>
      rw [hcalls] at hhead
      cases hhead
    | cons _ rest =>
      rw [hcalls] at hhead
      exact ⟨rest, by rw [some.inj hhead]⟩
  have h : (number 0 ((offset, call) :: (rest ++ callsOf chunks))).isSome := by
    have h : (number 0 (callsOf (c :: chunks))).isSome := h
    rw [callsOf_cons, hkeyed] at h
    exact h
  rw [number] at h
  split at h
  · rename_i hname
    split at h
    · rename_i hoffset
      exact ⟨hoffset, hname⟩
    · cases h
  · split at h
    · rename_i hoffset
      push_cast at hoffset
      omega
    · cases h

/-- With a name and the number 0 the copy of the logic for the first chunk agrees with the rest. -/
theorem firstTool_feed {call : ToolCallResponse} (hname : call.name ≠ "") (preseeded : Option Usage) :
    Part.feed (.firstTool 0 call) { usage := preseeded } = Part.feed (.tools [(0, call)]) { usage := preseeded } := by
  show firstToolCall [call] { usage := preseeded } = toolCallChunk [(0, call)] { usage := preseeded }
  rw [toolCallChunk_new (by simp)]
  simp [firstToolCall, toolCallEvents, hname, stopOpenBlocks, ClaudeConvertInfo.advance, largestOffset]

theorem feedAll_asTools {preseeded : Option Usage} {c : ChatChunk} {chunks : List ChatChunk}
    (h : Numbered (c :: chunks)) :
    feedAll (partsOf preseeded (c :: chunks)) { usage := preseeded } =
      feedAll ((partsOf preseeded (c :: chunks)).map Part.asTools) { usage := preseeded } := by
  obtain ⟨rest, hlater, hparts⟩ := partsOf_cons preseeded c chunks
  rw [hparts, map_append, map_asTools_eq_self hlater, feedAll_append, feedAll_append]
  cases hhead : (keyed c.toolCalls).head? with
  | none => rfl
  | some a =>
    obtain ⟨offset, call⟩ := a
    obtain ⟨rfl, hname⟩ := numbered_head h hhead
    have hfeed : feedAll [.firstTool 0 call] { usage := preseeded } = feedAll [.tools [(0, call)]] { usage := preseeded } := by
      rw [feedAll_one, feedAll_one, firstTool_feed hname]
    exact congrArg (fun fed => (fed.1 ++ (feedAll rest fed.2).1, (feedAll rest fed.2).2)) hfeed

theorem asTools_later {preseeded : Option Usage} {c : ChatChunk} {chunks : List ChatChunk} :
    ∀ p ∈ (partsOf preseeded (c :: chunks)).map Part.asTools, p.Later := by
  obtain ⟨rest, hlater, hparts⟩ := partsOf_cons preseeded c chunks
  intro p hp
  rw [hparts, map_append, map_asTools_eq_self hlater] at hp
  rcases mem_append.mp hp with hp | hp
  · cases hhead : (keyed c.toolCalls).head? with
    | none =>
      rw [hhead] at hp
      cases hp
    | some =>
      rw [hhead] at hp
      rw [mem_singleton.mp hp]
      exact cons_ne_nil _ _
  · exact hlater p hp

/-! ## When the stream is legal -/

/-- **The converter writes a legal stream exactly where the calls it reads flow**: at least one chunk comes, and the
tool calls that are read are numbered from zero and come in one run. -/
theorem claude_stream_legal_iff (estimate : ℤ) (preseeded : Option Usage) {chunks : List ChatChunk}
    (h : Numbered chunks) :
    (∀ n, Legal (claudeStream (.new estimate preseeded) chunks (n + 1))) ↔
      chunks ≠ [] ∧ Flows (partsOf preseeded chunks) := by
  cases chunks with
  | nil =>
    -- no message start
    refine ⟨fun hlegal => ?_, fun hne => absurd rfl hne.1⟩
    obtain ⟨reason, usage, heq⟩ := claudeStream_empty estimate preseeded 0
    have hlegal := hlegal 0
    rw [heq] at hlegal
    cases hlegal
  | cons c chunks =>
    have hahead : Ahead 0 (partCalls ((partsOf preseeded (c :: chunks)).map Part.asTools)) := by
      obtain ⟨k, hk⟩ := isSome_iff_exists.mp h
      rw [partCalls_asTools]
      exact (ahead_of_number hk).sublist (partCalls_partsOf preseeded (c :: chunks))
    have hstart : InStep .before { usage := preseeded } (-1) [] := by
      refine ⟨⟨?_, ?_⟩, ?_, ?_⟩
      · simp [openIndexes]
      · show (-1 : ℤ) < 0
        omega
      · simp
      · simp
    have hiff : ∀ n, Legal (claudeStream (.new estimate preseeded) (c :: chunks) (n + 1)) ↔
        Flows (partsOf preseeded (c :: chunks)) := by
      intro n
      obtain ⟨id, model, used, reason, usage, heq⟩ := claudeStream_eq estimate preseeded c chunks n
      rw [heq, feedAll_asTools h, append_assoc]
      refine (decided _ reason usage hstart asTools_later hahead).trans ?_
      rw [foldlM_asTools]
      rfl
    constructor
    · intro hlegal
      exact ⟨cons_ne_nil _ _, (hiff 0).mp (hlegal 0)⟩
    · rintro ⟨-, hflows⟩ n
      exact (hiff n).mpr hflows

/-- Some text, then two calls side by side, one of them in two fragments. -/
def parallelCalls : List ChatChunk :=
  [{ choices := [{ content := some "both:" }] },
    { choices := [{ toolCalls := [{ index := some 0, id := "a", name := "f", arguments := "1" },
      { index := some 1, id := "b", name := "g" }] }] },
    { choices := [{ toolCalls := [{ index := some 1, arguments := "2" }] }] },
    { choices := [{ finishReason := some "tool_calls" }] }]

theorem claude_stream_legal_parallelCalls :
    Numbered parallelCalls ∧ ∀ n, Legal (claudeStream (.new 7 none) parallelCalls (n + 1)) :=
  ⟨by decide, (claude_stream_legal_iff 7 none (by decide)).mpr (by decide)⟩

/-- A call, a word of text, and the second call. -/
def callTextCall : List ChatChunk :=
  [{ choices := [{ toolCalls := [{ index := some 0, id := "a", name := "f", arguments := "1" }] }] },
    { choices := [{ content := some "and" }] },
    { choices := [{ toolCalls := [{ index := some 1, id := "b", name := "g", arguments := "2" }] }] },
    { choices := [{ finishReason := some "tool_calls" }] }]

/-- The second call gets the block 3, and at the end the blocks 2 and 3 are stopped. -/
theorem claude_stream_illegal_callTextCall : Numbered callTextCall ∧ (∀ c ∈ callTextCall, c.Single) ∧
      ¬ Legal (claudeStream (.new 7 none) callTextCall 1) := by
  decide

end NovaMaas.Convert
