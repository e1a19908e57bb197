/-
  Where the Claude converter puts the fragments of a tool call.

  The place of a fragment is its run of tool calls and, in the run, the index of its call; for the first tool call of
  the first chunk it is 0, whatever its index.  Each place gets a block of its own.  So a call that is read in two runs,
  with text or reasoning between them, is written into two blocks, and a stream is shown as a whole when everything is
  read (`Kept`) and the fragments of each call are read at one place (`Apart`).
-/
import NovaMaas.Convert.ClaudeContent

open List

namespace NovaMaas.Convert

open Gather

/-! ## Where a fragment goes -/

/-- The fragments of the tool calls, each with the index of its call, its place and its arguments.  The place is the run
of tool calls and the index; the tool call of a first chunk is put at 0. -/
def places (run : ℕ) (inRun : Bool) : List Part → List (ℤ × (ℕ × ℤ) × String)
  | [] => []
  | .firstTool offset call :: parts => (offset, (run, 0), call.arguments) :: places run true parts
  | .tools calls :: parts =>
    (calls.map fun a => (a.1, (if inRun then run else run + 1, a.1), a.2.arguments)) ++
      places (if inRun then run else run + 1) true parts
  | _ :: parts => places run false parts

theorem lefts_places (parts : List Part) : ∀ (run : ℕ) (inRun : Bool),
    lefts (places run inRun parts) = arguments (partCalls parts) := by
  induction parts with
  | nil => exact fun run inRun => rfl
  | cons p parts ih =>
    intro run inRun
    rw [partCalls_cons, arguments_append]
    cases p with
    | firstTool offset call =>
      show (offset, call.arguments) :: lefts (places run true parts) = _
      rw [ih]
      rfl
    | tools =>
      unfold places lefts
      rw [map_append, map_map]
      exact congrArg _ (ih _ _)
    | thinking | text => exact ih run false

/-- The fragments of a call are read at one place, and at each place those of one call. -/
def Apart (preseeded : Option Usage) (chunks : List ChatChunk) : Prop := Agree (places 0 false (partsOf preseeded chunks))

/-- The indexes of the tool calls are natural numbers. -/
def Natural (chunks : List ChatChunk) : Prop := ∀ a ∈ callsOf chunks, 0 ≤ a.1

/-- The first fragment is one of the call 0. -/
def StartsAtZero (chunks : List ChatChunk) : Prop := ∀ a ∈ (callsOf chunks).head?, a.1 = 0

/-- The places of the fragments that a converter in `state` is fed, and the blocks they are written to. -/
structure PlacedAt (state : ClaudeConvertInfo) (run : ℕ) (t : List (ℤ × (ℕ × ℤ) × String)) (base : ℕ → ℤ) : Prop where
  current : state.lastMessagesType = .tools → base run = state.toolCallBaseIndex
  ahead : ∀ x ∈ t, (state.lastMessagesType = .tools ∧ x.2.1.1 = run) ∨
    (run < x.2.1.1 ∧ state.advance.index ≤ base x.2.1.1 + x.2.1.2)
  apart : ∀ x ∈ t, ∀ y ∈ t, base x.2.1.1 + x.2.1.2 = base y.2.1.1 + y.2.1.2 → x.2.1 = y.2.1

/-- The fragments under the blocks they are written to. -/
def blocks (base : ℕ → ℤ) (t : List (ℤ × (ℕ × ℤ) × String)) : List (ℤ × ℤ × String) :=
  t.map fun x => (x.1, base x.2.1.1 + x.2.1.2, x.2.2)

theorem advance_content (type : LastMessageType) (block : ContentBlock) (delta : BlockDelta) (state : ClaudeConvertInfo)
    (htype : type = .text ∨ type = .thinking) :
    state.advance.index ≤ (contentChunk type block delta state).2.advance.index := by
  by_cases h : state.lastMessagesType = type
  · rw [contentChunk_same h]
    subst h
    exact le_refl _
  · rw [contentChunk_new h]
    rcases htype with rfl | rfl
    · show state.advance.index ≤ state.advance.index + 1
      omega
    · show state.advance.index ≤ state.advance.index + 1
      omega

theorem type_content (type : LastMessageType) (block : ContentBlock) (delta : BlockDelta) (state : ClaudeConvertInfo) :
    (contentChunk type block delta state).2.lastMessagesType = type := by
  by_cases h : state.lastMessagesType = type
  · rw [contentChunk_same h]
  · rw [contentChunk_new h]

/-- Text or reasoning leaves the current run. -/
theorem PlacedAt.leave {state state' : ClaudeConvertInfo} {run : ℕ} {t : List (ℤ × (ℕ × ℤ) × String)} {base : ℕ → ℤ}
    (h : PlacedAt state' run t base) (hlast : state'.lastMessagesType ≠ .tools)
    (hadvance : state.advance.index ≤ state'.advance.index) :
    ∃ base', PlacedAt state run t base' ∧ blocks base' t = blocks base t := by
  have hbeyond : ∀ x ∈ t, run < x.2.1.1 ∧ state.advance.index ≤ base x.2.1.1 + x.2.1.2 := by
    intro x hx
    rcases h.ahead x hx with ⟨htools, -⟩ | ⟨hlt, hle⟩
    · exact absurd htools hlast
    · exact ⟨hlt, le_trans hadvance hle⟩
  -- no later fragment is in the run that is left
  have hsame : ∀ x ∈ t, Function.update base run state.toolCallBaseIndex x.2.1.1 = base x.2.1.1 := by
    intro x hx
    refine Function.update_of_ne ?_ _ _
    have := (hbeyond x hx).1
    omega
  refine ⟨Function.update base run state.toolCallBaseIndex, ⟨fun _ => Function.update_self _ _ _, ?_, ?_⟩, ?_⟩
  · intro x hx
    rw [hsame x hx]
    exact Or.inr (hbeyond x hx)
  · intro x hx y hy
    rw [hsame x hx, hsame y hy]
    exact h.apart x hx y hy
  · refine map_congr_left ?_
    intro x hx
    rw [hsame x hx]

/-- Tool calls go on with a run at `base run`. -/
theorem PlacedAt.go {state' : ClaudeConvertInfo} {run : ℕ} {t : List (ℤ × (ℕ × ℤ) × String)} {base : ℕ → ℤ} {m : ℤ}
    {calls : List (ℤ × ToolCallResponse)} (h : PlacedAt state' run t base)
    (hlast : state'.lastMessagesType = .tools) (hmax : state'.toolCallMaxIndexOffset = largestOffset m calls) :
    let head := calls.map fun a => (a.1, (run, a.1), a.2.arguments)
    ∀ x ∈ head ++ t, ∀ y ∈ head ++ t, base x.2.1.1 + x.2.1.2 = base y.2.1.1 + y.2.1.2 → x.2.1 = y.2.1 := by
  intro head
  have hadv : state'.advance.index = state'.toolCallBaseIndex + state'.toolCallMaxIndexOffset + 1 := by
    unfold ClaudeConvertInfo.advance
    rw [hlast]
  have hbase := h.current hlast
  have hhead : ∀ x ∈ head, x.2.1.1 = run ∧ x.2.1.2 ≤ largestOffset m calls := by
    intro x hx
    obtain ⟨a, ha, rfl⟩ := mem_map.mp hx
    exact ⟨rfl, mem_le_largestOffset ha m⟩
  -- a fragment of this run against any other
  have hcross : ∀ x ∈ head, ∀ y ∈ head ++ t, base x.2.1.1 + x.2.1.2 = base y.2.1.1 + y.2.1.2 → x.2.1 = y.2.1 := by
    intro x hx y hy heq
    obtain ⟨hrun, hle⟩ := hhead x hx
    have hplace : ∀ {y : ℤ × (ℕ × ℤ) × String}, y.2.1.1 = run → base x.2.1.1 + x.2.1.2 = base y.2.1.1 + y.2.1.2 →
        x.2.1 = y.2.1 := by
      intro y hy heq
      rw [hrun, hy] at heq
      exact Prod.ext (hrun.trans hy.symm) (by omega)
    rcases mem_append.mp hy with hy | hy
    · exact hplace (hhead y hy).1 heq
    · rcases h.ahead y hy with ⟨-, hrun'⟩ | ⟨-, hle'⟩
      · exact hplace hrun' heq
      · rw [hrun, hbase] at heq
        omega
  intro x hx y hy heq
  rcases mem_append.mp hx with hx' | hx'
  · exact hcross x hx' y hy heq
  · rcases mem_append.mp hy with hy' | hy'
    · exact (hcross y hy' x hx heq.symm).symm
    · exact h.apart x hx' y hy' heq

theorem rights_append {α β : Type} (t u : List (α × β × String)) : rights (t ++ u) = rights t ++ rights u :=
  map_append

theorem blocks_append (base : ℕ → ℤ) (t u : List (ℤ × (ℕ × ℤ) × String)) :
    blocks base (t ++ u) = blocks base t ++ blocks base u :=
  map_append

theorem rights_blocks (base : ℕ → ℤ) (run : ℕ) (calls : List (ℤ × ToolCallResponse)) :
    rights (blocks base (calls.map fun a => (a.1, (run, a.1), a.2.arguments))) =
      calls.map fun a => (base run + a.1, a.2.arguments) := by
  unfold blocks rights
  rw [map_map, map_map]
  rfl

/-- After the first chunk a fragment's place in the run is its index. -/
theorem slot_of_later {parts : List Part} {x : ℤ × (ℕ × ℤ) × String} : ∀ {run : ℕ} {inRun : Bool},
    (∀ p ∈ parts, p.Later) → x ∈ places run inRun parts → ∃ a ∈ partCalls parts, x.1 = a.1 ∧ x.2.1.2 = a.1 := by
  induction parts with
  | nil =>
    intro run inRun _ hx
    cases hx
  | cons p parts ih =>
    intro run inRun hlater hx
    have hlater' : ∀ p ∈ parts, p.Later := fun p hp => hlater p (mem_cons_of_mem _ hp)
    rw [partCalls_cons]
    cases p with
    | firstTool => exact (hlater _ mem_cons_self).elim
    | thinking | text => exact ih hlater' hx
    | tools =>
      rcases mem_append.mp hx with hx | hx
      · obtain ⟨a, ha, rfl⟩ := mem_map.mp hx
        exact ⟨a, mem_append_left _ ha, rfl, rfl⟩
      · obtain ⟨a, ha, hslot⟩ := ih hlater' hx
        exact ⟨a, mem_append_right _ ha, hslot⟩

/-- The state behind a chunk of tool calls, which goes on with the run or begins one. -/
theorem toolCallChunk_next (calls : List (ℤ × ToolCallResponse)) (state : ClaudeConvertInfo) :
    (toolCallChunk calls state).2.lastMessagesType = .tools ∧
      (∃ m, (toolCallChunk calls state).2.toolCallMaxIndexOffset = largestOffset m calls) ∧
      state.advance.index ≤ (toolCallChunk calls state).2.advance.index ∧
      ((state.lastMessagesType = .tools ∧ (toolCallChunk calls state).2.toolCallBaseIndex = state.toolCallBaseIndex) ∨
        (state.lastMessagesType ≠ .tools ∧ (toolCallChunk calls state).2.toolCallBaseIndex = state.advance.index)) := by
  by_cases htools : state.lastMessagesType = .tools
  · have hgrow := le_largestOffset calls state.toolCallMaxIndexOffset
    rw [toolCallChunk_same htools]
    refine ⟨rfl, ⟨_, rfl⟩, ?_, Or.inl ⟨htools, rfl⟩⟩
    rw [ClaudeConvertInfo.advance, htools]
    show state.toolCallBaseIndex + state.toolCallMaxIndexOffset + 1 ≤ state.toolCallBaseIndex + largestOffset _ calls + 1
    omega
  · have hgrow := le_largestOffset calls 0
    rw [toolCallChunk_new htools]
    refine ⟨rfl, ⟨_, rfl⟩, ?_, Or.inr ⟨htools, rfl⟩⟩
    show state.advance.index ≤ state.advance.index + largestOffset 0 calls + 1
    omega

/-- Tool calls at `run'`, the run that they go on with or begin. -/
theorem PlacedAt.calls {state state' : ClaudeConvertInfo} {run run' : ℕ} {t : List (ℤ × (ℕ × ℤ) × String)} {base : ℕ → ℤ}
    {m : ℤ} {calls : List (ℤ × ToolCallResponse)} (h : PlacedAt state' run' t base)
    (hlast : state'.lastMessagesType = .tools) (hmax : state'.toolCallMaxIndexOffset = largestOffset m calls)
    (hadvance : state.advance.index ≤ state'.advance.index)
    (hruns : (state.lastMessagesType = .tools ∧ run' = run ∧ state'.toolCallBaseIndex = state.toolCallBaseIndex) ∨
      (state.lastMessagesType ≠ .tools ∧ run' = run + 1 ∧ state'.toolCallBaseIndex = state.advance.index))
    (hnatural : ∀ a ∈ calls, 0 ≤ a.1) (hslots : ∀ x ∈ t, 0 ≤ x.2.1.2) :
    PlacedAt state run (calls.map (fun a => (a.1, (run', a.1), a.2.arguments)) ++ t) base := by
  have hcurrent := h.current hlast
  rcases hruns with ⟨htools, rfl, hbase⟩ | ⟨htools, rfl, hbase⟩
  · refine ⟨fun _ => hcurrent.trans hbase, ?_, h.go hlast hmax⟩
    intro x hx
    rcases mem_append.mp hx with hx | hx
    · obtain ⟨a, ha, rfl⟩ := mem_map.mp hx
      exact Or.inl ⟨htools, rfl⟩
    · rcases h.ahead x hx with ⟨-, hrun⟩ | ⟨hlt, hle⟩
      · exact Or.inl ⟨htools, hrun⟩
      · exact Or.inr ⟨hlt, le_trans hadvance hle⟩
  · refine ⟨fun h => absurd h htools, fun x hx => Or.inr ?_, h.go hlast hmax⟩
    rcases mem_append.mp hx with hx | hx
    · obtain ⟨a, ha, rfl⟩ := mem_map.mp hx
      have hpos := hnatural a ha
      show run < run + 1 ∧ state.advance.index ≤ base (run + 1) + a.1
      constructor <;> omega
    · have hpos := hslots x hx
      rcases h.ahead x hx with ⟨-, hrun⟩ | ⟨hlt, hle⟩
      · rw [hrun]
        constructor <;> omega
      · exact ⟨by omega, le_trans hadvance hle⟩

theorem placed_later {parts : List Part} : ∀ (state : ClaudeConvertInfo) (run : ℕ), (∀ p ∈ parts, p.Later) →
    (∀ a ∈ partCalls parts, 0 ≤ a.1) →
    ∃ base, let t := places run (state.lastMessagesType = .tools) parts
      PlacedAt state run t base ∧ shownJson (feedAll parts state).1 = dense (rights (blocks base t)) := by
  induction parts with
  | nil =>
    intro state run _ _
    exact ⟨fun _ => state.toolCallBaseIndex, ⟨fun _ => rfl, by simp [places], by simp [places]⟩, rfl⟩
  | cons p parts ih =>
    intro state run hlater hnatural
    have hlater' : ∀ p ∈ parts, p.Later := fun p hp => hlater p (mem_cons_of_mem _ hp)
    rw [partCalls_cons] at hnatural
    have hnatural' : ∀ a ∈ partCalls parts, 0 ≤ a.1 := fun a ha => hnatural a (mem_append_right _ ha)
    have hfeed : shownJson (feedAll (p :: parts) state).1 =
        shownJson (p.feed state).1 ++ shownJson (feedAll parts (p.feed state).2).1 := shownJson_append _ _
    -- text and reasoning
    have hcontent : ∀ {type : LastMessageType} {block : ContentBlock} {delta : BlockDelta},
        type = .text ∨ type = .thinking → shownJson (contentChunk type block delta state).1 = [] →
        ∃ base, PlacedAt state run (places run false parts) base ∧
          shownJson (contentChunk type block delta state).1 ++
            shownJson (feedAll parts (contentChunk type block delta state).2).1 =
              dense (rights (blocks base (places run false parts))) := by
      intro type block delta htype hnone
      have hne : (contentChunk type block delta state).2.lastMessagesType ≠ .tools := by
        rw [type_content]
        rcases htype with rfl | rfl <;> simp
      obtain ⟨base, hplaced, hjson⟩ := ih (contentChunk type block delta state).2 run hlater' hnatural'
      rw [decide_eq_false hne] at hplaced hjson
      obtain ⟨base', hplaced', hblocks⟩ := hplaced.leave hne (advance_content type block delta state htype)
      refine ⟨base', hplaced', ?_⟩
      rw [hnone, hjson, hblocks]
      rfl
    cases p with
    | firstTool => exact (hlater _ mem_cons_self).elim
    | thinking x =>
      rw [hfeed]
      obtain ⟨i, -, -, hjson⟩ := shown_contentChunk .thinking .thinking (.thinkingDelta x) state
      exact hcontent (Or.inr rfl) hjson
    | text x =>
      rw [hfeed]
      obtain ⟨i, -, -, hjson⟩ := shown_contentChunk .text .text (.textDelta x) state
      exact hcontent (Or.inl rfl) hjson
    | tools calls =>
      rw [hfeed]
      obtain ⟨-, -, hshown⟩ := shown_toolCallChunk calls state
      obtain ⟨hlast, ⟨m, hmax⟩, hadvance, hruns⟩ := toolCallChunk_next calls state
      obtain ⟨base, hplaced, hjson⟩ :=
        ih (toolCallChunk calls state).2 (if decide (state.lastMessagesType = .tools) then run else run + 1) hlater' hnatural'
      rw [decide_eq_true hlast] at hplaced hjson
      refine ⟨base, hplaced.calls hlast hmax hadvance ?_ ?_ ?_, ?_⟩
      · rcases hruns with ⟨htools, hbase⟩ | ⟨htools, hbase⟩
        · exact Or.inl ⟨htools, if_pos (decide_eq_true htools), hbase⟩
        · exact Or.inr ⟨htools, if_neg (by simpa using htools), hbase⟩
      · exact fun a ha => hnatural a (mem_append_left _ ha)
      · intro x hx
        obtain ⟨a, ha, -, hslot⟩ := slot_of_later hlater' hx
        rw [hslot]
        exact hnatural' a ha
      · show shownJson (toolCallChunk calls state).1 ++ shownJson (feedAll parts (toolCallChunk calls state).2).1 =
          dense (rights (blocks base (calls.map _ ++ places _ true parts)))
        rw [hshown, hjson, ← dense_append, blocks_append, rights_append, rights_blocks, hplaced.current hlast]

/-- **Where the fragments of a stream go**: each place has its own block. -/
theorem placed (preseeded : Option Usage) {chunks : List ChatChunk} (hnatural : Natural chunks) :
    ∃ base : ℕ → ℤ, let t := places 0 false (partsOf preseeded chunks)
      (∀ x ∈ t, ∀ y ∈ t, base x.2.1.1 + x.2.1.2 = base y.2.1.1 + y.2.1.2 → x.2.1 = y.2.1) ∧
      shownJson (feedAll (partsOf preseeded chunks) { usage := preseeded }).1 = dense (rights (blocks base t)) := by
  have hread : ∀ a ∈ partCalls (partsOf preseeded chunks), 0 ≤ a.1 := fun a ha =>
    hnatural a ((partCalls_partsOf preseeded chunks).subset ha)
  cases chunks with
  | nil => exact ⟨fun _ => 0, by simp [partsOf, places], rfl⟩
  | cons c chunks =>
    obtain ⟨rest, hlater, hparts⟩ := partsOf_cons preseeded c chunks
    rw [hparts] at hread ⊢
    rw [partCalls_append] at hread
    have hrest : ∀ a ∈ partCalls rest, 0 ≤ a.1 := fun a ha => hread a (mem_append_right _ ha)
    cases hhead : (keyed c.toolCalls).head? with
    | none =>
      obtain ⟨base, hplaced, hjson⟩ := placed_later { usage := preseeded } 0 hlater hrest
      exact ⟨base, hplaced.apart, hjson⟩
    | some a =>
      -- the first tool call opens the run 0, at the block 0
      obtain ⟨offset, call⟩ := a
      obtain ⟨base, hplaced, hjson⟩ := placed_later (firstToolCall [call] { usage := preseeded }).2 0 hlater hrest
      have hcurrent : base 0 = 0 := hplaced.current rfl
      have hfirst : ∀ x ∈ places 0 true rest, base 0 + 0 = base x.2.1.1 + x.2.1.2 → ((0, 0) : ℕ × ℤ) = x.2.1 := by
        intro x hx heq
        rcases hplaced.ahead x hx with ⟨-, hrun⟩ | ⟨-, hle⟩
        · rw [hrun] at heq
          exact Prod.ext hrun.symm (by show (0 : ℤ) = x.2.1.2; omega)
        · have hle : 1 ≤ base x.2.1.1 + x.2.1.2 := hle
          omega
      refine ⟨base, ?_, ?_⟩
      · intro x hx y hy heq
        rcases mem_cons.mp hx with rfl | hx
        · rcases mem_cons.mp hy with rfl | hy
          · rfl
          · exact hfirst y hy heq
        · rcases mem_cons.mp hy with rfl | hy
          · exact (hfirst x hx heq.symm).symm
          · exact hplaced.apart x hx y hy heq
      · obtain ⟨-, -, hshown⟩ := shown_firstToolCall call { usage := preseeded }
        show shownJson ((firstToolCall [call] { usage := preseeded }).1 ++
          (feedAll rest (firstToolCall [call] { usage := preseeded }).2).1) = _
        rw [shownJson_append, hshown, hjson, ← dense_append]
        show _ = dense ((base 0 + 0, call.arguments) :: rights (blocks base (places 0 true rest)))
        rw [hcurrent]
        rfl

/-- Where the first fragment is one of the call 0, a place tells the call. -/
theorem slot_of_zero {preseeded : Option Usage} {chunks : List ChatChunk} (h : StartsAtZero chunks)
    {x : ℤ × (ℕ × ℤ) × String} (hx : x ∈ places 0 false (partsOf preseeded chunks)) : x.2.1.2 = x.1 := by
  cases chunks with
  | nil => cases hx
  | cons c chunks =>
    obtain ⟨rest, hlater, hparts⟩ := partsOf_cons preseeded c chunks
    rw [hparts] at hx
    have hrest : ∀ {run : ℕ} {inRun : Bool}, x ∈ places run inRun rest → x.2.1.2 = x.1 := by
      intro run inRun hx
      obtain ⟨a, -, hkey, hslot⟩ := slot_of_later hlater hx
      rw [hkey, hslot]
    cases hhead : (keyed c.toolCalls).head? with
    | none =>
      rw [hhead] at hx
      exact hrest hx
    | some a =>
      obtain ⟨offset, call⟩ := a
      rw [hhead] at hx
      have hzero : offset = 0 := by
        refine h (offset, call) ?_
        rw [callsOf_cons, head?_append, hhead]
        rfl
      rcases mem_cons.mp hx with rfl | hx
      · exact hzero.symm
      · exact hrest hx

/-! ## When the stream is whole -/

/-- **Nothing is lost where everything is read and every call is read at one place of its own.**  What is shown as a
whole was read as a whole; and where the calls have natural numbers, the first fragment being one of the call 0, it was
read call by call at one place, so that there the two are the same. -/
theorem claude_stream_whole (estimate : ℤ) (preseeded : Option Usage) (chunks : List ChatChunk) (n : ℕ) :
    let events := claudeStream (.new estimate preseeded) chunks (n + 1)
    (Kept preseeded chunks ∧ Natural chunks ∧ Apart preseeded chunks → Whole chunks events) ∧
    (Whole chunks events → Kept preseeded chunks) ∧
    (Natural chunks → StartsAtZero chunks →
      (Whole chunks events ↔ Kept preseeded chunks ∧ Apart preseeded chunks)) := by
  intro events
  obtain ⟨htext, hthinking, hjson⟩ := shown_claudeStream estimate preseeded chunks n
  obtain ⟨htext', hthinking', -⟩ := shown_feedAll (partsOf preseeded chunks) { usage := preseeded }
  have hlefts : ∀ base : ℕ → ℤ, lefts (blocks base (places 0 false (partsOf preseeded chunks))) =
      arguments (partCalls (partsOf preseeded chunks)) := by
    intro base
    rw [← lefts_places _ 0 false]
    unfold lefts blocks
    rw [map_map]
    rfl
  -- the matching of the calls with the blocks, when everything was read
  have hmatched : ∀ {base : ℕ → ℤ}, Kept preseeded chunks →
      shownJson (feedAll (partsOf preseeded chunks) { usage := preseeded }).1 =
        dense (rights (blocks base (places 0 false (partsOf preseeded chunks)))) →
      (Matched (argumentsOf chunks) (shownJson events) ↔
        Matched (lefts (blocks base (places 0 false (partsOf preseeded chunks))))
          (rights (blocks base (places 0 false (partsOf preseeded chunks))))) := by
    intro base hkept hshown
    refine Matched.congr ?_ ?_
    · intro k
      rw [hlefts, (says_partsOf hkept).arguments k]
    · intro i
      rw [show shownJson events = _ from hjson, hshown, gather_dense]
  have henough : Kept preseeded chunks ∧ Natural chunks ∧ Apart preseeded chunks → Whole chunks events := by
    rintro ⟨hkept, hnatural, hapart⟩
    obtain ⟨base, hplaces, hshown⟩ := placed preseeded hnatural
    have hsays := says_partsOf hkept
    refine ⟨?_, ?_, (hmatched hkept hshown).mpr (matched_of_agree ?_)⟩
    · exact htext.trans (htext'.trans hsays.text)
    · exact hthinking.trans (hthinking'.trans hsays.thinking)
    · intro x hx y hy hs hs'
      obtain ⟨x, hxt, rfl⟩ := mem_map.mp hx
      obtain ⟨y, hyt, rfl⟩ := mem_map.mp hy
      refine (hapart x hxt y hyt hs hs').trans ⟨?_, hplaces x hxt y hyt⟩
      intro hplace
      show base x.2.1.1 + x.2.1.2 = base y.2.1.1 + y.2.1.2
      rw [hplace]
  refine ⟨henough, Whole.kept, ?_⟩
  intro hnatural hzero
  refine ⟨?_, fun h => henough ⟨h.1, hnatural, h.2⟩⟩
  intro hwhole
  have hkept := hwhole.kept
  obtain ⟨base, hplaces, hshown⟩ := placed preseeded hnatural
  refine ⟨hkept, ?_⟩
  have hagree := agree_of_matched ((hmatched hkept hshown).mp hwhole.arguments) ?_
  · intro x hx y hy hs hs'
    refine (hagree _ (mem_map.mpr ⟨x, hx, rfl⟩) _ (mem_map.mpr ⟨y, hy, rfl⟩) hs hs').trans ⟨hplaces x hx y hy, ?_⟩
    intro hplace
    show base x.2.1.1 + x.2.1.2 = base y.2.1.1 + y.2.1.2
    rw [hplace]
  · intro x hx y hy hs hs' heq
    obtain ⟨x, hxt, rfl⟩ := mem_map.mp hx
    obtain ⟨y, hyt, rfl⟩ := mem_map.mp hy
    have hplace : x.2.1 = y.2.1 := hplaces x hxt y hyt heq
    show x.1 = y.1
    rw [← slot_of_zero hzero hxt, ← slot_of_zero hzero hyt, hplace]

/-- A text, and two calls of tools whose fragments alternate. -/
def twoTools : List ChatChunk :=
  [{ choices := [{ content := some "Let me see." }] },
    { choices := [{ toolCalls := [{ index := some 0, id := "a", name := "find", arguments := "\x7b" },
      { index := some 1, id := "b", name := "list", arguments := "[" }] }] },
    { choices := [{ toolCalls := [{ index := some 1, arguments := "]" }, { index := some 0, arguments := "\x7d" }] }] },
    { choices := [{ finishReason := some "tool_calls" }] }]

theorem claude_stream_whole_two : Whole twoTools (claudeStream (.new 7 none) twoTools 1) := by
  refine (claude_stream_whole 7 none twoTools 0).1 ⟨⟨by decide, by decide, by decide, by decide, trivial⟩, ?_, ?_⟩
  · show ∀ a ∈ callsOf twoTools, 0 ≤ a.1
    decide
  · show ∀ x ∈ places 0 false (partsOf none twoTools), ∀ y ∈ places 0 false (partsOf none twoTools), _
    decide

/-- A text whose end comes with the finish reason, and no usage. -/
def lastWords : List ChatChunk :=
  [{ choices := [{ content := some "Hel" }] }, { choices := [{ content := some "lo", finishReason := some "stop" }] }]

theorem claude_stream_not_whole_lastWords :
    (∀ c ∈ lastWords, c.Single) ∧ ¬ Whole lastWords (claudeStream (.new 7 none) lastWords 1) := by
  refine ⟨by decide, ?_⟩
  intro h
  have htext := h.text
  revert htext
  decide

end NovaMaas.Convert
