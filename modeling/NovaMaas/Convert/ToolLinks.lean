/-
  What the operations on tool calls do to the state of the stream converter.

  The three maps from identifiers to keys are read as one function, `aim`, and the two buffers as another, `pending`.
  The operations of the converter then have one line each in terms of `aim`, `pending`, `toolByKey` and `tools`:

    `linkOutputIndex`, `linkItemID`, `linkCallID`   some identifiers lead to a key, and what was kept under them is taken
    `ensureToolForEvent`                            all identifiers of the event do (`ensureToolForEvent_spec`)
    `findToolForEvent`                              the first identifier that leads to a call (`findToolForEvent_eq`)
    `toolDelta`                                     a fragment is sent (`toolDelta_spec`)
-/
import NovaMaas.Convert.ToolInputs

open List Option

namespace NovaMaas.Convert

open ResponsesToChatStreamState

/-- A call that was sent, with its name if it has one. -/
def ResponsesStreamTool.Quiet (tool : ResponsesStreamTool) : Prop :=
  tool.sent = true ∧ (tool.name = "" ∨ tool.nameSent = true)

namespace ResponsesToChatStreamState

variable (s : ResponsesToChatStreamState)

/-- The key an identifier leads to. -/
def aim : ToolKey → Option ToolKey
  | .output i => s.outputIndexToKey.lookup i
  | .item x => s.itemIDToKey.lookup x
  | .call x => s.callIDToKey.lookup x

/-- The arguments that are kept under an identifier. -/
def pending : ToolKey → Option Bytes
  | .output i => s.pendingArgsByOutputIndex.lookup i
  | .item x => s.pendingArgsByItemID.lookup x
  | .call _ => none

/-- All that is kept under some identifiers. -/
def keptText (given : List ToolKey) : Bytes := given.flatMap fun id => (s.pending id).getD []

/-- The arguments of a call get longer. -/
def moreArguments (more : Bytes) (tool : ResponsesStreamTool) : ResponsesStreamTool :=
  { tool with arguments := tool.arguments ++ more }

theorem lookup_insert_ite {α : Type} {β : Type} [DecidableEq α] (a b : α) (x : β) (t : AList fun _ : α => β) :
    (t.insert b x).lookup a = if a = b then some x else t.lookup a := by
  by_cases h : a = b
  · subst h
    simp
  · simp [h]

theorem lookup_erase_ite {α : Type} {β : Type} [DecidableEq α] (a b : α) (t : AList fun _ : α => β) :
    (t.erase b).lookup a = if a = b then none else t.lookup a := by
  by_cases h : a = b
  · subst h
    simp
  · simp [h, AList.lookup_erase_ne]

/-- Nothing is added to the arguments. -/
theorem moreArguments_nil : moreArguments [] = fun tool => tool := by
  funext tool
  simp [moreArguments]

/-! ## Changing a call -/

section
variable (n : ℕ) (f : ResponsesStreamTool → ResponsesStreamTool) (id : ToolKey)

@[simp] theorem modifyTool_aim : (s.modifyTool n f).aim id = s.aim id := by cases id <;> rfl

@[simp] theorem modifyTool_pending : (s.modifyTool n f).pending id = s.pending id := by cases id <;> rfl

@[simp] theorem modifyTool_toolByKey : (s.modifyTool n f).toolByKey = s.toolByKey := rfl

@[simp] theorem modifyTool_tools : (s.modifyTool n f).tools = s.tools.modify n f := rfl

end

section
variable (tool : ResponsesStreamTool) (id : ToolKey)

@[simp] theorem addTool_aim : (s.addTool tool).aim id = s.aim id := by cases id <;> rfl

@[simp] theorem addTool_pending : (s.addTool tool).pending id = s.pending id := by cases id <;> rfl

@[simp] theorem addTool_tools : (s.addTool tool).tools = s.tools ++ [tool] := rfl

theorem addTool_lookup :
    (s.addTool tool).toolByKey.lookup id = if id = tool.key then some s.tools.length else s.toolByKey.lookup id :=
  lookup_insert_ite id tool.key s.tools.length s.toolByKey

end

/-! ## Links -/

/-- From `s` to `s'` some identifiers came to lead to a key; what was kept under them is not kept any more, and was
written to the call `n`. -/
structure Linked (s s' : ResponsesToChatStreamState) (given : List ToolKey) (key : ToolKey) (n : ℕ)
    (f : ResponsesStreamTool → ResponsesStreamTool) : Prop where
  aim     : ∀ id, s'.aim id = if id ∈ given then some key else s.aim id
  pending : ∀ id, s'.pending id = if id ∈ given then none else s.pending id
  byKey   : s'.toolByKey = s.toolByKey
  tools   : s'.tools = s.tools.modify n f

def setItemID (itemID : String) (tool : ResponsesStreamTool) : ResponsesStreamTool :=
  { tool with itemID := if itemID = "" then tool.itemID else itemID }

/-- The call id of an item; a call without any gets the item's id. -/
def setCallID (callID itemID : String) (tool : ResponsesStreamTool) : ResponsesStreamTool :=
  { tool with callID := if callID ≠ "" then callID else if tool.callID = "" then itemID else tool.callID }

def setName (name : String) (tool : ResponsesStreamTool) : ResponsesStreamTool :=
  { tool with name := if name ≠ "" then name else tool.name }

variable {s' : ResponsesToChatStreamState}

variable {f : ResponsesStreamTool → ResponsesStreamTool} {given : List ToolKey}

variable {s} in
theorem Linked.keptText_of_disjoint {key : ToolKey} {n : ℕ}
    (h : Linked s s' given key n f) {more : List ToolKey}
    (hd : ∀ id ∈ more, id ∉ given) : s'.keptText more = s.keptText more := by
  have hone : ∀ id ∈ more, (s'.pending id).getD [] = (s.pending id).getD [] := by
    intro id hid
    rw [h.pending id, if_neg (hd id hid)]
  exact flatMap_congr hone

variable {s} in
theorem Linked.trans {s' s'' : ResponsesToChatStreamState} {more : List ToolKey} {key : ToolKey} {n : ℕ}
    {g : ResponsesStreamTool → ResponsesStreamTool} (h : Linked s s' given key n f) (k : Linked s' s'' more key n g) :
    Linked s s'' (given ++ more) key n (g ∘ f) where
  aim := by
    intro id
    rw [k.aim id, h.aim id]
    by_cases hm : id ∈ more
    · simp [hm]
    · simp [hm]
  pending := by
    intro id
    rw [k.pending id, h.pending id]
    by_cases hm : id ∈ more
    · simp [hm]
    · simp [hm]
  byKey := k.byKey.trans h.byKey
  tools := by rw [k.tools, h.tools, modify_modify_eq]

theorem linkOutputIndex_linked (n : ℕ) (key : ToolKey) (o : Option ℤ) :
    Linked s (s.linkOutputIndex n key o) (outputKey o) key n (moreArguments (s.keptText (outputKey o))) := by
  cases o with
  | none =>
    refine ⟨fun id => by simp [linkOutputIndex, outputKey], fun id => by simp [linkOutputIndex, outputKey], rfl, ?_⟩
    show s.tools = s.tools.modify n (moreArguments [])
    rw [moreArguments_nil]
    exact (modify_id n s.tools).symm
  | some i =>
    refine ⟨?_, ?_, rfl, ?_⟩
    · intro id
      cases id <;> simp [linkOutputIndex, aim, outputKey, modifyTool, lookup_insert_ite]
    · intro id
      cases id <;> simp [linkOutputIndex, pending, outputKey, modifyTool, lookup_erase_ite]
    · simp [linkOutputIndex, modifyTool, outputKey, keptText, pending]
      rfl

theorem linkItemID_linked (n : ℕ) (key : ToolKey) (x : String) :
    Linked s (s.linkItemID n key x) (itemKey x) key n (moreArguments (s.keptText (itemKey x)) ∘ setItemID x) := by
  by_cases hx : x = ""
  · subst hx
    refine ⟨fun id => by simp [linkItemID, itemKey], fun id => by simp [linkItemID, itemKey], rfl, ?_⟩
    have hid : moreArguments (s.keptText (itemKey "")) ∘ setItemID "" = fun tool => tool := by
      funext tool
      simp [moreArguments, setItemID, itemKey, keptText]
    rw [hid]
    exact (modify_id n s.tools).symm
  · refine ⟨?_, ?_, by simp [linkItemID, hx, modifyTool], ?_⟩
    · intro id
      cases id <;> simp [linkItemID, aim, itemKey, hx, modifyTool, lookup_insert_ite]
    · intro id
      cases id <;> simp [linkItemID, pending, itemKey, hx, modifyTool, lookup_erase_ite]
    · have hf : moreArguments (s.keptText (itemKey x)) ∘ setItemID x = fun tool =>
          { tool with itemID := x, arguments := tool.arguments ++ (s.pendingArgsByItemID.lookup x).getD [] } := by
        funext tool
        simp [moreArguments, setItemID, itemKey, keptText, hx, pending]
      rw [hf]
      simp [linkItemID, hx, modifyTool]

theorem linkCallID_linked (n : ℕ) (key : ToolKey) (x itemID : String) :
    Linked s (s.linkCallID n key x itemID) (callKey x) key n (setCallID x itemID) := by
  by_cases hx : x = ""
  · subst hx
    refine ⟨fun id => by simp [linkCallID, callKey], fun id => by simp [linkCallID, callKey], ?_, ?_⟩
    · simp [linkCallID]
    · have hf : setCallID "" itemID = fun tool =>
          { tool with callID := if tool.callID = "" then itemID else tool.callID } := by
        funext tool
        simp [setCallID]
      rw [hf]
      simp [linkCallID]
  · refine ⟨?_, ?_, by simp [linkCallID, hx, modifyTool], ?_⟩
    · intro id
      cases id <;> simp [linkCallID, aim, callKey, hx, modifyTool, lookup_insert_ite]
    · intro id
      cases id <;> simp [linkCallID, pending, callKey, hx, modifyTool]
    · have hf : setCallID x itemID = fun tool => { tool with callID := x } := by
        funext tool
        simp [setCallID, hx]
      rw [hf]
      simp [linkCallID, hx, modifyTool]

theorem itemKey_not_output (x : String) (o : Option ℤ) : ∀ id ∈ itemKey x, id ∉ outputKey o := by
  intro id hid hmem
  unfold itemKey at hid
  split at hid
  · simp at hid
  · simp only [mem_singleton] at hid
    subst hid
    simp [outputKey] at hmem

/-- The output index and the item id of an event come to lead to a key. -/
theorem link_linked (n : ℕ) (key : ToolKey) (o : Option ℤ) (x : String) :
    Linked s ((s.linkOutputIndex n key o).linkItemID n key x) (outputKey o ++ itemKey x) key n
      (moreArguments (s.keptText (outputKey o ++ itemKey x)) ∘ setItemID x) := by
  have h₁ := s.linkOutputIndex_linked n key o
  have h₂ := (s.linkOutputIndex n key o).linkItemID_linked n key x
  rw [h₁.keptText_of_disjoint (itemKey_not_output x o)] at h₂
  have h := h₁.trans h₂
  have hf : (moreArguments (s.keptText (itemKey x)) ∘ setItemID x) ∘ moreArguments (s.keptText (outputKey o)) =
      moreArguments (s.keptText (outputKey o ++ itemKey x)) ∘ setItemID x := by
    funext tool
    simp [moreArguments, setItemID, keptText]
  rwa [hf] at h

/-! ## The call of an item -/

/-- The key that an item is added under. -/
def itemEventKey (event : WireEvent) (item : ResponsesOutput Bytes) : Option ToolKey :=
  keyForEvent event <|> fallbackToolKey item.id item.callId event.outputIndex

theorem output_mem_itemGiven {event : WireEvent} {item : ResponsesOutput Bytes} {i : ℤ} :
    ToolKey.output i ∈ itemGiven event item ↔ event.outputIndex = some i := by
  have hitem : ToolKey.output i ∉ itemKey (responseStreamEventItemID event) := by
    unfold itemKey
    split <;> simp
  have hcall : ToolKey.output i ∉ callKey (trimSpace item.callId) := by
    unfold callKey
    split <;> simp
  rw [itemGiven, mem_append, mem_append, or_iff_left hcall, or_iff_left hitem]
  cases event.outputIndex with
  | none => simp [outputKey]
  | some => simp [outputKey, eq_comm]

/-- An event that gives an identifier has a key, one of the identifiers, and the output index if it gives that. -/
theorem itemEventKey_mem {event : WireEvent} {item : ResponsesOutput Bytes} (hi : event.item = some item)
    (hg : itemGiven event item ≠ []) :
    ∃ key, itemEventKey event item = some key ∧ key ∈ itemGiven event item ∧
      ∀ i, ToolKey.output i ∈ itemGiven event item → key = .output i := by
  cases ho : event.outputIndex with
  | some i =>
    refine ⟨.output i, by simp [itemEventKey, keyForEvent, ho], by simp [itemGiven, outputKey, ho], ?_⟩
    intro j hj
    rw [output_mem_itemGiven, ho] at hj
    exact congrArg ToolKey.output (some.inj hj)
  | none =>
    have hno : ∀ i, ToolKey.output i ∉ itemGiven event item := by
      intro i h
      rw [output_mem_itemGiven, ho] at h
      cases h
    by_cases h₁ : trimSpace item.id = ""
    · by_cases h₂ : trimSpace item.callId = ""
      · by_cases h₃ : trimSpace event.itemID = ""
        · exact absurd (by simp [itemGiven, outputKey, itemKey, callKey, responseStreamEventItemID, ho, hi, h₁, h₂, h₃]) hg
        · refine ⟨.item (trimSpace event.itemID), ?_, ?_, fun i h => absurd h (hno i)⟩
          · simp [itemEventKey, keyForEvent, ho, hi, h₁, h₂, h₃]
          · simp [itemGiven, outputKey, itemKey, responseStreamEventItemID, ho, hi, h₁, h₃]
      · refine ⟨.call (trimSpace item.callId), ?_, ?_, fun i h => absurd h (hno i)⟩
        · simp [itemEventKey, keyForEvent, ho, hi, h₁, h₂]
        · simp [itemGiven, callKey, h₂]
    · refine ⟨.item (trimSpace item.id), ?_, ?_, fun i h => absurd h (hno i)⟩
      · simp [itemEventKey, keyForEvent, ho, hi, h₁]
      · simp [itemGiven, itemKey, responseStreamEventItemID, hi, h₁]

/-- From `s` to `s'` the call `n` of the table `tools` was found or added: its identifiers lead to its key. -/
structure Ensured (s s' : ResponsesToChatStreamState) (given : List ToolKey) (key : ToolKey) (n : ℕ)
    (tools : List ResponsesStreamTool) (f : ResponsesStreamTool → ResponsesStreamTool) : Prop where
  aim     : ∀ id, s'.aim id = if id ∈ given then some key else s.aim id
  pending : ∀ id, s'.pending id = if id ∈ given then none else s.pending id
  byKey   : ∀ id, s'.toolByKey.lookup id = if id = key then some n else s.toolByKey.lookup id
  tools   : s'.tools = tools.modify n f

/-- What an item that is added or done changes in its call. -/
def itemChange (kept : Bytes) (itemID callID fallbackID name : String) : ResponsesStreamTool → ResponsesStreamTool :=
  setName name ∘ setCallID callID fallbackID ∘ moreArguments kept ∘ setItemID itemID

/-- The change of an item, with what the item itself gives. -/
def itemChangeOf (kept : Bytes) (event : WireEvent) (item : ResponsesOutput Bytes) :
    ResponsesStreamTool → ResponsesStreamTool :=
  itemChange kept (responseStreamEventItemID event) (trimSpace item.callId) (trimSpace item.id) (trimSpace item.name)

theorem keptText_callKey (given : List ToolKey) (x : String) :
    s.keptText (given ++ callKey x) = s.keptText given := by
  unfold keptText callKey
  split
  · simp
  · simp [pending]

/-- All links of an item, from a state that has the call. -/
def itemLinks (event : WireEvent) (item : ResponsesOutput Bytes) (n : ℕ) (key : ToolKey) :
    ResponsesToChatStreamState :=
  (((s.linkOutputIndex n key event.outputIndex).linkItemID n key (responseStreamEventItemID event)).linkCallID n key
    (trimSpace item.callId) (trimSpace item.id)).modifyTool n (setName (trimSpace item.name))

theorem itemLinks_linked (event : WireEvent) (item : ResponsesOutput Bytes) (n : ℕ) (key : ToolKey) :
    Linked s (s.itemLinks event item n key) (itemGiven event item) key n
      (itemChangeOf (s.keptText (itemGiven event item)) event item) := by
  have h₁ := s.link_linked n key event.outputIndex (responseStreamEventItemID event)
  have h₂ := ((s.linkOutputIndex n key event.outputIndex).linkItemID n key
    (responseStreamEventItemID event)).linkCallID_linked n key (trimSpace item.callId) (trimSpace item.id)
  have h := h₁.trans h₂
  have hkept : s.keptText (itemGiven event item) =
      s.keptText (outputKey event.outputIndex ++ itemKey (responseStreamEventItemID event)) := by
    rw [itemGiven, keptText_callKey]
  refine ⟨fun id => ?_, fun id => ?_, ?_, ?_⟩
  · rw [itemLinks, modifyTool_aim, h.aim id, itemGiven]
  · rw [itemLinks, modifyTool_pending, h.pending id, itemGiven]
  · rw [itemLinks, modifyTool_toolByKey, h.byKey]
  · rw [itemLinks, modifyTool_tools, h.tools, modify_modify_eq, hkept]
    rfl

theorem insert_ensured {s : ResponsesToChatStreamState} {key : ToolKey} {n : ℕ}

    (h : Linked { s with toolByKey := s.toolByKey.insert key n } s' given key n f) :
    Ensured s s' given key n s.tools f := by
  refine ⟨?_, ?_, ?_, h.tools⟩
  · intro id
    rw [h.aim id]
    cases id <;> rfl
  · intro id
    rw [h.pending id]
    cases id <;> rfl
  · intro id
    rw [h.byKey]
    exact lookup_insert_ite id key n s.toolByKey

theorem addTool_ensured {s : ResponsesToChatStreamState} {tool : ResponsesStreamTool}

    (h : Linked (s.addTool tool) s' given tool.key s.tools.length f) :
    Ensured s s' given tool.key s.tools.length (s.tools ++ [tool]) f := by
  refine ⟨?_, ?_, ?_, h.tools⟩
  · intro id
    rw [h.aim id, addTool_aim]
  · intro id
    rw [h.pending id, addTool_pending]
  · intro id
    rw [h.byKey, addTool_lookup]

section
variable {event : WireEvent} {item : ResponsesOutput Bytes} {key : ToolKey}

theorem keptText_eq {s s' : ResponsesToChatStreamState} (h : ∀ id, s'.pending id = s.pending id)
    (given : List ToolKey) : s'.keptText given = s.keptText given := by
  unfold keptText
  simp [h]

/-- An item of a call that is known. -/
theorem ensureToolForEvent_known (hi : event.item = some item) (hk : itemEventKey event item = some key) {n : ℕ}
    (hn : s.knownTool key (responseStreamEventItemID event) (trimSpace item.callId) = some n) :
    ∃ s', s.ensureToolForEvent event = some (n, s') ∧ Ensured s s' (itemGiven event item) key n s.tools
        (itemChangeOf (s.keptText (itemGiven event item)) event item) := by
  have hk' : (keyForEvent event <|> fallbackToolKey item.id item.callId event.outputIndex) = some key := hk
  refine ⟨itemLinks { s with toolByKey := s.toolByKey.insert key n } event item n key, ?_, ?_⟩
  · simp only [ensureToolForEvent, hi, bind_some, hk', map_some, hn]
    rfl
  have h := itemLinks_linked { s with toolByKey := s.toolByKey.insert key n } event item n key
  rw [keptText_eq (s := s) (fun id => by cases id <;> rfl)] at h
  exact insert_ensured h

/-- An item of a call that is not known. -/
theorem ensureToolForEvent_new (hi : event.item = some item) (hk : itemEventKey event item = some key)
    (hn : s.knownTool key (responseStreamEventItemID event) (trimSpace item.callId) = none) :
    ∃ s', s.ensureToolForEvent event = some (s.tools.length, s') ∧
      Ensured s s' (itemGiven event item) key s.tools.length (s.tools ++ [{ key := key }])
        (itemChangeOf (s.keptText (itemGiven event item)) event item) := by
  have hk' : (keyForEvent event <|> fallbackToolKey item.id item.callId event.outputIndex) = some key := hk
  refine ⟨(s.addTool { key := key }).itemLinks event item s.tools.length key, ?_, ?_⟩
  · simp only [ensureToolForEvent, hi, bind_some, hk', map_some, hn]
    rfl
  have h := itemLinks_linked (s.addTool { key := key }) event item s.tools.length key
  rw [keptText_eq (s := s) (fun id => addTool_pending s _ id)] at h
  exact addTool_ensured h

end

/-- All identifiers in a list that lead anywhere lead to the call `n`. -/
def LeadsTo (given : List ToolKey) (n : ℕ) : Prop :=
  ∀ id ∈ given, s.aim id = none ∨ ∃ key, s.aim id = some key ∧ s.toolByKey.lookup key = some n

theorem aim_item_bind (x : String) :
    (if x ≠ "" then (s.itemIDToKey.lookup x).bind fun key => s.toolByKey.lookup key else none) =
      (itemKey x).head?.bind fun id => (s.aim id).bind fun key => s.toolByKey.lookup key := by
  by_cases hx : x = ""
  · simp [hx, itemKey]
  · simp [hx, itemKey, aim]

theorem aim_call_bind (x : String) :
    (if x ≠ "" then (s.callIDToKey.lookup x).bind fun key => s.toolByKey.lookup key else none) =
      (callKey x).head?.bind fun id => (s.aim id).bind fun key => s.toolByKey.lookup key := by
  by_cases hx : x = ""
  · simp [hx, callKey]
  · simp [hx, callKey, aim]

theorem LeadsTo.lookup {s : ResponsesToChatStreamState} {given : List ToolKey} {n : ℕ} (h : s.LeadsTo given n)
    {id key : ToolKey} (hid : id ∈ given) (haim : s.aim id = some key) : s.toolByKey.lookup key = some n := by
  rcases h id hid with h | ⟨key', h, hk⟩
  · rw [h] at haim
    cases haim
  · rw [h] at haim
    cases haim
    exact hk

/-- A list of at most one identifier that leads nowhere or to the call `n` finds nothing or `n`. -/
theorem LeadsTo.bind {s : ResponsesToChatStreamState} {given : List ToolKey} {n : ℕ} (h : s.LeadsTo given n) :
    (given.head?.bind fun id => (s.aim id).bind fun key => s.toolByKey.lookup key) = none ∧
        (∀ id ∈ given.head?, s.aim id = none) ∨
      (given.head?.bind fun id => (s.aim id).bind fun key => s.toolByKey.lookup key) = some n := by
  cases given with
  | nil => simp
  | cons id =>
    rcases h id (by simp) with h | ⟨key, h, hk⟩
    · simp [h]
    · simp [h, hk]

theorem head?_itemKey {x : String} {id : ToolKey} (h : id ∈ itemKey x) : id ∈ (itemKey x).head? := by
  unfold itemKey at h ⊢
  split at h <;> simp_all

theorem head?_callKey {x : String} {id : ToolKey} (h : id ∈ callKey x) : id ∈ (callKey x).head? := by
  unfold callKey at h ⊢
  split at h <;> simp_all

/-- A call that is known by the key, or by the item id or the call id. -/
theorem knownTool_known {key : ToolKey} {itemID callID : String} {n : ℕ}
    (hkey : s.toolByKey.lookup key = none ∨ s.toolByKey.lookup key = some n)
    (hlead : s.LeadsTo (itemKey itemID ++ callKey callID) n)
    (hsome : s.toolByKey.lookup key = some n ∨ ∃ id ∈ itemKey itemID ++ callKey callID, s.aim id ≠ none) :
    s.knownTool key itemID callID = some n := by
  rw [knownTool, aim_item_bind, aim_call_bind]
  have h₁ : s.LeadsTo (itemKey itemID) n := fun id h => hlead id (mem_append_left _ h)
  have h₂ : s.LeadsTo (callKey callID) n := fun id h => hlead id (mem_append_right _ h)
  rcases hkey with hkey | hkey
  · rw [hkey]
    rcases hsome with hsome | ⟨id, hid, haim⟩
    · rw [hkey] at hsome
      simp at hsome
    · rcases h₁.bind with ⟨hb₁, hn₁⟩ | hb₁
      · rcases h₂.bind with ⟨hb₂, hn₂⟩ | hb₂
        · rcases mem_append.1 hid with hid | hid
          · exact absurd (hn₁ id (head?_itemKey hid)) haim
          · exact absurd (hn₂ id (head?_callKey hid)) haim
        · rw [hb₁, hb₂]
          rfl
      · rw [hb₁]
        rfl
  · rw [hkey]
    rfl

/-- A call that is known by nothing. -/
theorem knownTool_unknown {key : ToolKey} {itemID callID : String} (hkey : s.toolByKey.lookup key = none)
    (haim : ∀ id ∈ itemKey itemID ++ callKey callID, s.aim id = none) : s.knownTool key itemID callID = none := by
  rw [knownTool, aim_item_bind, aim_call_bind, hkey]
  have h₁ : ∀ id ∈ (itemKey itemID).head?, s.aim id = none := fun id h =>
    haim id (mem_append_left _ (mem_of_mem_head? h))
  have h₂ : ∀ id ∈ (callKey callID).head?, s.aim id = none := fun id h =>
    haim id (mem_append_right _ (mem_of_mem_head? h))
  cases hi : (itemKey itemID).head? with
  | none =>
    cases hc : (callKey callID).head? with
    | none => rfl
    | some id' => simp [h₂ id' hc]
  | some id =>
    cases hc : (callKey callID).head? with
    | none => simp [h₁ id hi]
    | some id' => simp [h₁ id hi, h₂ id' hc]

/-! ## The call of an event about arguments -/

section
variable {event : WireEvent}

/-- The call is the one that the output index leads to or, if it leads nowhere, the item id. -/
theorem findToolForEvent_eq (hi : event.item = none) :
    s.findToolForEvent event = match (outputKey event.outputIndex).head?.bind s.aim with
      | some key => s.toolByKey.lookup key
      | none =>
        match (itemKey (trimSpace event.itemID)).head?.bind s.aim with
        | some key => s.toolByKey.lookup key
        | none => none := by
  have ho : (event.outputIndex.bind fun i => s.outputIndexToKey.lookup i) =
      (outputKey event.outputIndex).head?.bind s.aim := by
    cases event.outputIndex <;> rfl
  have hx : (if trimSpace event.itemID ≠ "" then s.itemIDToKey.lookup (trimSpace event.itemID) else none) =
      (itemKey (trimSpace event.itemID)).head?.bind s.aim := by
    by_cases h : trimSpace event.itemID = ""
    · simp [h, itemKey]
    · simp [h, itemKey, aim]
  rw [findToolForEvent, ho, hx, hi]
  rfl

theorem findToolForEvent_known (hi : event.item = none) {n : ℕ} (hlead : s.LeadsTo (argumentsGiven event) n)
    (hsome : ∃ id ∈ argumentsGiven event, s.aim id ≠ none) : s.findToolForEvent event = some n := by
  rw [s.findToolForEvent_eq hi]
  cases ho : (outputKey event.outputIndex).head?.bind s.aim with
  | some =>
    obtain ⟨id, hid, haim⟩ := bind_eq_some_iff.1 ho
    exact hlead.lookup (mem_append_left _ (mem_of_mem_head? hid)) haim
  | none =>
    cases hx : (itemKey (trimSpace event.itemID)).head?.bind s.aim with
    | some =>
      obtain ⟨id, hid, haim⟩ := bind_eq_some_iff.1 hx
      exact hlead.lookup (mem_append_right _ (mem_of_mem_head? hid)) haim
    | none =>
      obtain ⟨id, hid, haim⟩ := hsome
      rcases mem_append.1 hid with hid | hid
      · have hh : id ∈ (outputKey event.outputIndex).head? := by
          unfold outputKey at hid ⊢
          cases h : event.outputIndex <;> simp_all
        rw [bind_eq_none_iff] at ho
        exact absurd (ho id hh) haim
      · rw [bind_eq_none_iff] at hx
        exact absurd (hx id (head?_itemKey hid)) haim

theorem findToolForEvent_unknown (hi : event.item = none) (haim : ∀ id ∈ argumentsGiven event, s.aim id = none) :
    s.findToolForEvent event = none := by
  have ho : (outputKey event.outputIndex).head?.bind s.aim = none := by
    rw [bind_eq_none_iff]
    intro id hid
    exact haim id (mem_append_left _ (mem_of_mem_head? hid))
  have hx : (itemKey (trimSpace event.itemID)).head?.bind s.aim = none := by
    rw [bind_eq_none_iff]
    intro id hid
    exact haim id (mem_append_right _ (mem_of_mem_head? hid))
  rw [s.findToolForEvent_eq hi, ho, hx]

/-- A call that was not known is added for its arguments. -/
theorem ensureFallbackToolForEvent_new (hi : event.item = none) {key : ToolKey}
    (hk : (argumentsGiven event).head? = some key) (hn : s.toolByKey.lookup key = none) :
    ∃ s', s.ensureFallbackToolForEvent event = some (s.tools.length, s') ∧
      Ensured s s' (argumentsGiven event) key s.tools.length
        (s.tools ++ [{ key := key, callID := fallbackCallID event }])
        (moreArguments (s.keptText (argumentsGiven event)) ∘ setItemID (trimSpace event.itemID)) := by
  have hid : responseStreamEventItemID event = trimSpace event.itemID := by
    simp [responseStreamEventItemID, hi]
  set tool : ResponsesStreamTool := { key := key, callID := fallbackCallID event } with htool
  have h := (s.addTool tool).link_linked s.tools.length key event.outputIndex (trimSpace event.itemID)
  rw [keptText_eq (s := s) (fun id => addTool_pending s _ id)] at h
  have hens : Ensured s _ (argumentsGiven event) tool.key s.tools.length (s.tools ++ [tool]) _ := addTool_ensured h
  refine ⟨((s.addTool tool).linkOutputIndex s.tools.length key event.outputIndex).linkItemID s.tools.length key
    (trimSpace event.itemID), ?_, hens⟩
  unfold ensureFallbackToolForEvent
  cases ho : event.outputIndex with
  | some i =>
    have hkey : key = .output i := by simpa [argumentsGiven, outputKey, ho, eq_comm] using hk
    subst hkey
    simp [hn, hid, htool]
  | none =>
    by_cases hx : trimSpace event.itemID = ""
    · simp [argumentsGiven, outputKey, itemKey, ho, hx] at hk
    · have hkey : key = .item (trimSpace event.itemID) := by
        simpa [argumentsGiven, outputKey, itemKey, ho, hx, eq_comm] using hk
      subst hkey
      simp [hn, hid, hx, htool]

end

/-! ## Sending -/

/-- What a call notes when a fragment of it was sent. -/
def markSent (argsDelta : Bytes) (tool : ResponsesStreamTool) : ResponsesStreamTool :=
  { tool with
    nameSent := tool.nameSent || tool.name ≠ ""
    sent := true
    argsSentAt := tool.argsSentAt + argsDelta.length }

/-- The fragment that is sent. -/
def fragmentOf (n : ℕ) (tool : ResponsesStreamTool) (argsDelta : Bytes) : ToolDelta :=
  { index := n
    id := if trimSpace tool.callID = "" then tool.key.toString else trimSpace tool.callID
    name := if !tool.nameSent && tool.name ≠ "" then tool.name else ""
    arguments := argsDelta }

/-- The two states know the same of the calls. -/
structure SameTools (s s' : ResponsesToChatStreamState) : Prop where
  aim     : ∀ id, s'.aim id = s.aim id
  pending : ∀ id, s'.pending id = s.pending id
  byKey   : s'.toolByKey = s.toolByKey
  tools   : s'.tools = s.tools

theorem ensureStart_sameTools : SameTools s s.ensureStart.2 := by
  unfold ensureStart
  split
  · exact ⟨fun _ => rfl, fun _ => rfl, rfl, rfl⟩
  · refine ⟨?_, ?_, rfl, rfl⟩
    · intro id
      cases id <;> rfl
    · intro id
      cases id <;> rfl

theorem toolDeltas_ensureStart : toolDeltas s.ensureStart.1 = [] := by
  unfold ensureStart
  split <;> rfl

theorem toolDelta_quiet {n : ℕ} {tool : ResponsesStreamTool} {d : Bytes} (hn : s.tools[n]? = some tool)
    (hq : tool.sent = true ∧ tool.argsDelta d = [] ∧ (tool.name = "" ∨ tool.nameSent = true)) :
    s.toolDelta n d = ([], s) := by
  unfold toolDelta
  rw [hn]
  simp only
  rw [if_pos hq]

/-- Otherwise one fragment is sent. -/
theorem toolDelta_sends {n : ℕ} {tool : ResponsesStreamTool} {d : Bytes} (hn : s.tools[n]? = some tool)
    (hs : ¬ (tool.sent = true ∧ tool.argsDelta d = [] ∧ (tool.name = "" ∨ tool.nameSent = true))) :
    toolDeltas (s.toolDelta n d).1 = [fragmentOf n tool (tool.argsDelta d)] ∧
      (∀ id, (s.toolDelta n d).2.aim id = s.aim id) ∧ (∀ id, (s.toolDelta n d).2.pending id = s.pending id) ∧
      (s.toolDelta n d).2.toolByKey = s.toolByKey ∧
      (s.toolDelta n d).2.tools = s.tools.modify n (markSent (tool.argsDelta d)) := by
  have hsame := s.ensureStart_sameTools
  unfold toolDelta
  rw [hn]
  simp only
  rw [if_neg hs]
  refine ⟨?_, ?_, ?_, ?_, ?_⟩
  · rw [toolDeltas_append, toolDeltas_ensureStart]
    rfl
  · intro id
    have h := hsame.aim id
    cases id <;> exact h
  · intro id
    have h := hsame.pending id
    cases id <;> exact h
  · exact hsame.byKey
  · have h := hsame.tools
    show s.ensureStart.2.tools.modify n _ = _
    rw [h]
    rfl

end ResponsesToChatStreamState

end NovaMaas.Convert
