/-
  The tool calls at the end of a Responses stream.

  At the end the converter goes through the keys of the calls it knows and of the arguments it kept, in the order of
  their texts.  A call that is known has nothing left to be sent; arguments that are kept belong to a call that was
  never added, and it is added now.  `Rest` is what the invariant says of a call once its identifiers do not matter any
  more, and `GoodRest.flushKeys` that after all keys every call of which something was kept has a number.
-/
import NovaMaas.Convert.ToolExact

open List Function

namespace NovaMaas.Convert

open ResponsesToChatStreamState

section
variable {C : Type} (owner : ToolKey → C) (label : C → Option ToolLabel)

/-- What there is of a call: its number, and the identifier that something is kept under. -/
structure Rest (s : ResponsesToChatStreamState) (out : List ChatDelta) (c : C) (k : Option ToolKey) (said : Bytes)
    (number : Option ℕ) : Prop where
  byKey   : ∀ id, owner id = c → s.toolByKey.lookup id = none ∨ s.toolByKey.lookup id = number
  kept    : ∀ id, k = some id → owner id = c ∧ s.pending id ≠ none ∧ number = none ∧ label c = none
  notKept : ∀ id, owner id = c → k ≠ some id → s.pending id = none
  waiting : number = none → said = (k.bind s.pending).getD []
  tool    : ∀ n, number = some n → ∃ tool, s.tools[n]? = some tool ∧ ToolSent (label c) tool n out ∧
    said = tool.arguments

structure GoodRest (s : ResponsesToChatStreamState) (out : List ChatDelta) (K : C → Option ToolKey) (S : C → Bytes)
    (number : C → Option ℕ) : Prop where
  rest  : ∀ c, Rest owner label s out c (K c) (S c) (number c)
  inj   : ∀ c c' n, number c = some n → number c' = some n → c = c'
  onto  : ∀ n, n < s.tools.length ↔ ∃ c, number c = some n
  frags : ∀ t ∈ toolDeltas out, t.index < s.tools.length

end

section
variable {C : Type} {owner : ToolKey → C} {label : C → Option ToolLabel} {s s' : ResponsesToChatStreamState}
  {out : List ChatDelta} {R : C → Route} {K : C → Option ToolKey} {S : C → Bytes} {number : C → Option ℕ}

/-- When all routes are complete, and only calls without a label are waiting, the identifiers can be forgotten. -/
theorem Good.goodRest (h : Good owner label s out R S number) (hr : ∀ c, (R c).Complete)
    (hl : ∀ c, (R c).known = [] → label c = none ∨ (R c).kept = none) :
    GoodRest owner label s out (fun c => (R c).kept) S number := by
  refine ⟨?_, h.inj, h.onto, h.frags⟩
  intro c
  have hc := h.holds c
  refine ⟨hc.byKey, ?_, hc.notKept, hc.waiting, ?_⟩
  · intro id hid
    obtain ⟨ho, -, hp⟩ := hc.kept id hid
    have hnil : (R c).known = [] := by
      rcases hr c with hr | hr
      · rw [hid] at hr
        simp at hr
      · exact hr
    refine ⟨ho, hp, hc.linked.2 hnil, ?_⟩
    rcases hl c hnil with hl | hl
    · exact hl
    · rw [hid] at hl
      simp at hl
  · intro n hn
    obtain ⟨tool, htool, hsent, hsaid⟩ := hc.tool n hn
    have hnone : (R c).kept = none := by
      rcases hr c with hr | hr
      · exact hr
      · rw [hc.linked.2 hr] at hn
        simp at hn
    refine ⟨tool, htool, hsent, ?_⟩
    rw [hsaid, hnone]
    exact append_nil _

/-! ## One key -/

theorem takePending_pending (s : ResponsesToChatStreamState) (n : ℕ) (key id : ToolKey) :
    (s.takePending n key).pending id = if id = key then none else s.pending id := by
  cases key with
  | output => cases id <;> simp [takePending, pending, modifyTool, lookup_erase_ite]
  | item => cases id <;> simp [takePending, pending, modifyTool, lookup_erase_ite]
  | call => cases id <;> simp [takePending, pending]

theorem takePending_toolByKey (s : ResponsesToChatStreamState) (n : ℕ) (key : ToolKey) :
    (s.takePending n key).toolByKey = s.toolByKey := by
  cases key <;> rfl

theorem takePending_tools (s : ResponsesToChatStreamState) (n : ℕ) (key : ToolKey) :
    (s.takePending n key).tools = s.tools.modify n (moreArguments ((s.pending key).getD [])) := by
  cases key with
  | output => rfl
  | item => rfl
  | call =>
    show s.tools = s.tools.modify n (moreArguments [])
    rw [moreArguments_nil]
    exact (modify_id n s.tools).symm

/-- The call of a key, with what is kept under it. -/
def keyTaken (s : ResponsesToChatStreamState) (key : ToolKey) : ResponsesToChatStreamState :=
  (s.flushedTool key).2.takePending (s.flushedTool key).1 key

theorem flushKeys_cons (key : ToolKey) (keys : List ToolKey) :
    flushKeys (key :: keys) s =
      (((keyTaken s key).toolDelta (s.flushedTool key).1 []).1 ++
          (flushKeys keys ((keyTaken s key).toolDelta (s.flushedTool key).1 []).2).1,
        (flushKeys keys ((keyTaken s key).toolDelta (s.flushedTool key).1 []).2).2) := rfl

/-- Nothing happens at the key of a call that is known. -/
theorem GoodRest.flush_known (h : GoodRest owner label s out K S number) {key : ToolKey} {n : ℕ}
    (hk : s.toolByKey.lookup key = some n) :
    s.pending key = none ∧ (keyTaken s key).toolDelta (s.flushedTool key).1 [] = ([], keyTaken s key) ∧
      GoodRest owner label (keyTaken s key) out K S number ∧
      (∀ id, (keyTaken s key).pending id = s.pending id) ∧ (keyTaken s key).toolByKey = s.toolByKey := by
  have hc := h.rest (owner key)
  have hnum : number (owner key) = some n := by
    rcases hc.byKey key rfl with hb | hb
    · rw [hk] at hb
      simp at hb
    · rw [← hb, hk]
  have hnone : s.pending key = none := by
    refine hc.notKept key rfl ?_
    intro hkept
    have := (hc.kept key hkept).2.2.1
    rw [hnum] at this
    simp at this
  have hfl : s.flushedTool key = (n, s) := by
    simp only [flushedTool, hk]
  have htaken : keyTaken s key = s.takePending n key := by rw [keyTaken, hfl]
  have htools : (keyTaken s key).tools = s.tools := by
    rw [htaken, takePending_tools, hnone, Option.getD_none, moreArguments_nil]
    exact modify_id n s.tools
  have hpend : ∀ id, (keyTaken s key).pending id = s.pending id := by
    intro id
    rw [htaken, takePending_pending]
    split
    · rename_i he
      rw [he, hnone]
    · rfl
  have hbyKey : (keyTaken s key).toolByKey = s.toolByKey := by rw [htaken, takePending_toolByKey]
  have hpend' : (keyTaken s key).pending = s.pending := funext hpend
  refine ⟨hnone, ?_, ⟨?_, h.inj, by rw [htools]; exact h.onto, by rw [htools]; exact h.frags⟩, hpend, hbyKey⟩
  · obtain ⟨tool, htool, hsent, -⟩ := hc.tool n hnum
    rw [hfl]
    refine toolDelta_quiet _ (by rw [htools]; exact htool) ⟨hsent.quiet.1, ?_, hsent.quiet.2⟩
    show (if ([] : Bytes) = [] then tool.arguments.drop tool.argsSentAt else []) = []
    rw [if_pos rfl, hsent.upTo, drop_length]
  · intro c
    have hr := h.rest c
    refine ⟨by rw [hbyKey]; exact hr.byKey, by rw [hpend']; exact hr.kept, by rw [hpend']; exact hr.notKept,
      by rw [hpend']; exact hr.waiting, by rw [htools]; exact hr.tool⟩

/-- What is kept under a key that leads to no call is sent for a call that is added. -/
structure Flushed (s s₁ : ResponsesToChatStreamState) (new : List ChatDelta) (key : ToolKey) : Prop where
  pending : ∀ id, s₁.pending id = if id = key then none else s.pending id
  byKey   : ∀ id, s₁.toolByKey.lookup id = if id = key then some s.tools.length else s.toolByKey.lookup id
  tools   : ∀ m, m ≠ s.tools.length → s₁.tools[m]? = s.tools[m]?
  length  : s₁.tools.length = s.tools.length + 1
  frags   : ∀ t ∈ toolDeltas new, t.index = s.tools.length

theorem flushed_key {key : ToolKey} (hk : s.toolByKey.lookup key = none) (hfr : fragments s.tools.length out = []) :
    ∃ s₁ new, (keyTaken s key).toolDelta (s.flushedTool key).1 [] = (new, s₁) ∧ Flushed s s₁ new key ∧
      ∃ tool, s₁.tools[s.tools.length]? = some tool ∧ ToolSent none tool s.tools.length (out ++ new) ∧
        tool.arguments = (s.pending key).getD [] := by
  obtain ⟨callID, hfl⟩ : ∃ callID, s.flushedTool key =
      (s.tools.length, s.addTool { key := key, callID := callID }) := by
    simp only [flushedTool, hk]
    exact ⟨_, rfl⟩
  set base : ResponsesStreamTool := { key := key, callID := callID } with hbase
  have htaken : keyTaken s key = (s.addTool base).takePending s.tools.length key := by rw [keyTaken, hfl]
  have hget : (keyTaken s key).tools[s.tools.length]? = some (moreArguments ((s.pending key).getD []) base) := by
    rw [htaken, takePending_tools, addTool_pending, addTool_tools, getElem?_modify_eq]
    simp
  have hready : ToolReady none base s.tools.length out :=
    ⟨rfl, by simp [sentTo, hfr, hbase], fun h' => by simp [hbase] at h', fun _ => ⟨hfr, rfl⟩⟩
  obtain ⟨hon, tool, htool, hsent, harg⟩ := toolDelta_all (d := []) hget hready rfl rfl rfl
    (prefix_append _ _) (if_pos rfl) (by simp)
  rw [hfl]
  show ∃ s₁ new, (keyTaken s key).toolDelta s.tools.length [] = (new, s₁) ∧ _
  set one := (keyTaken s key).toolDelta s.tools.length []
  refine ⟨one.2, one.1, rfl, ⟨?_, ?_, ?_, ?_, hon.frags⟩, tool, htool, hsent, harg⟩
  · intro id
    rw [hon.pending, htaken, takePending_pending, addTool_pending]
  · intro id
    rw [hon.byKey, htaken, takePending_toolByKey, addTool_lookup]
  · intro m hm
    have hfound : FoundIn none s.tools (s.tools ++ [base]) s.tools.length base := Or.inr ⟨rfl, rfl, rfl⟩
    rw [hon.tools m hm, htaken, takePending_tools, addTool_tools, getElem?_modify_ne _ _ hm.symm, hfound.other hm]
  · rw [hon.length, htaken, takePending_tools, addTool_tools, length_modify, length_append]
    rfl

variable {s₁ : ResponsesToChatStreamState} {new : List ChatDelta} {key : ToolKey} {c : C} {said : Bytes}

/-- The call of the key has its number now, and nothing is kept of it any more. -/
theorem Rest.flushed (h : Rest owner label s out c (some key) said none) (hf : Flushed s s₁ new key)
    {tool : ResponsesStreamTool} (htool : s₁.tools[s.tools.length]? = some tool)
    (hsent : ToolSent (label c) tool s.tools.length (out ++ new)) (hsaid : said = tool.arguments) :
    Rest owner label s₁ (out ++ new) c none said (some s.tools.length) := by
  refine ⟨?_, by simp, ?_, by simp, ?_⟩
  · intro id hid
    rw [hf.byKey id]
    split
    · exact Or.inr rfl
    · exact Or.inl ((h.byKey id hid).elim (fun hb => hb) fun hb => hb)
  · intro id hid _
    rw [hf.pending id]
    split
    · rfl
    · rename_i hne
      exact h.notKept id hid fun h' => hne (Option.some.inj h').symm
  · intro n hn
    cases hn
    exact ⟨tool, htool, hsent, hsaid⟩

/-- Another call keeps what it has. -/
theorem Rest.flushed_other {k : Option ToolKey} {num : Option ℕ} (h : Rest owner label s out c k said num)
    (hf : Flushed s s₁ new key) (hc : owner key ≠ c) (hold : ∀ n, num = some n → n ≠ s.tools.length) :
    Rest owner label s₁ (out ++ new) c k said num := by
  have hother : ∀ id, owner id = c → id ≠ key := by
    rintro id ho rfl
    exact hc ho
  have hpend : ∀ id, owner id = c → s₁.pending id = s.pending id := by
    intro id ho
    rw [hf.pending id, if_neg (hother id ho)]
  have hkept : k.bind s₁.pending = k.bind s.pending := by
    cases hk : k with
    | none => rfl
    | some id => exact hpend id (h.kept id hk).1
  refine ⟨?_, ?_, ?_, by rw [hkept]; exact h.waiting, ?_⟩
  · intro id hid
    rw [hf.byKey id, if_neg (hother id hid)]
    exact h.byKey id hid
  · intro id hid
    rw [hpend id (h.kept id hid).1]
    exact h.kept id hid
  · intro id hid hne
    rw [hpend id hid]
    exact h.notKept id hid hne
  · intro n hn
    obtain ⟨tool, htool, hsent, hs⟩ := h.tool n hn
    refine ⟨tool, by rw [hf.tools n (hold n hn)]; exact htool, hsent.frame ?_, hs⟩
    intro t ht heq
    exact hold n hn (heq.symm.trans (hf.frags t ht))

variable [DecidableEq C]

/-- At a key that something is kept under, the call gets its number, and what was kept is sent. -/
theorem GoodRest.flush_kept (h : GoodRest owner label s out K S number) (hk : s.toolByKey.lookup key = none)
    (hp : s.pending key ≠ none) :
    ∃ s₁ new, (keyTaken s key).toolDelta (s.flushedTool key).1 [] = (new, s₁) ∧ K (owner key) = some key ∧
      GoodRest owner label s₁ (out ++ new) (update K (owner key) none) S
        (update number (owner key) (some s.tools.length)) ∧ Flushed s s₁ new key := by
  have hc := h.rest (owner key)
  have hkept : K (owner key) = some key := by
    by_contra hne
    exact hp (hc.notKept key rfl hne)
  obtain ⟨-, -, hnum, hlabel⟩ := hc.kept key hkept
  have hfr : fragments s.tools.length out = [] := by
    refine fragments_eq_nil ?_
    intro t ht heq
    have := h.frags t ht
    omega
  obtain ⟨s₁, new, hone, hf, tool, htool, hsent, harg⟩ := flushed_key hk hfr
  have hnumbered := CallNumbers.next ⟨h.inj, h.onto⟩ hnum
  refine ⟨s₁, new, hone, hkept, ⟨?_, hnumbered.inj, ?_, ?_⟩, hf⟩
  · intro c'
    by_cases he : c' = owner key
    · subst he
      rw [update_self, update_self]
      have hsaid : S (owner key) = tool.arguments := by
        rw [hc.waiting hnum, hkept, harg]
        rfl
      rw [hkept, hnum] at hc
      exact hc.flushed hf htool (hlabel ▸ hsent) hsaid
    · rw [update_of_ne he, update_of_ne he]
      refine (h.rest c').flushed_other hf (Ne.symm he) ?_
      intro n hn
      have := (h.onto n).2 ⟨c', hn⟩
      omega
  · rw [hf.length]
    exact hnumbered.onto
  · intro t ht
    rw [toolDeltas_append, mem_append] at ht
    rw [hf.length]
    rcases ht with ht | ht
    · have := h.frags t ht
      omega
    · rw [hf.frags t ht]
      omega

/-! ## All keys -/

theorem GoodRest.flushKeys {keys : List ToolKey} (h : GoodRest owner label s out K S number) (hnd : keys.Nodup)
    (hkeys : ∀ key ∈ keys, s.toolByKey.lookup key ≠ none ∨ s.pending key ≠ none)
    (hall : ∀ c key, K c = some key → key ∈ keys) :
    ∃ number', GoodRest owner label (flushKeys keys s).2 (out ++ (flushKeys keys s).1) (fun _ => none) S number' ∧
      ∀ c, number' c ≠ none ↔ number c ≠ none ∨ K c ≠ none := by
  induction keys generalizing s out K number with
  | nil =>
    have hK : K = fun _ => none := by
      funext c
      cases hk : K c with
      | none => rfl
      | some key => exact absurd (hall c key hk) (by simp)
    refine ⟨number, ?_, by simp [hK]⟩
    rw [← hK]
    simpa [ResponsesToChatStreamState.flushKeys] using h
  | cons key _ ih =>
    obtain ⟨hnot, hnd'⟩ := nodup_cons.1 hnd
    rw [flushKeys_cons]
    cases hk : s.toolByKey.lookup key with
    | some =>
      obtain ⟨hnone, hq, hg, hpend, hbyKey⟩ := h.flush_known hk
      rw [hq]
      refine ih hg hnd' ?_ ?_
      · intro key' hkey'
        rw [hbyKey, hpend]
        exact hkeys key' (mem_cons_of_mem _ hkey')
      · intro c key' hKc
        rcases mem_cons.1 (hall c key' hKc) with rfl | hmem
        · exact absurd hnone ((h.rest c).kept key' hKc).2.1
        · exact hmem
    | none =>
      have hp : s.pending key ≠ none := by
        rcases hkeys key (by simp) with h' | h'
        · exact absurd hk h'
        · exact h'
      obtain ⟨s₁, new, hone, hKc, hg, hf⟩ := h.flush_kept hk hp
      rw [hone]
      obtain ⟨number', hg', hnum'⟩ := ih hg hnd' (by
        intro key' hkey'
        have hne : key' ≠ key := by
          rintro rfl
          exact hnot hkey'
        rw [hf.byKey, hf.pending, if_neg hne, if_neg hne]
        exact hkeys key' (mem_cons_of_mem _ hkey')) (by
        intro c key' hKc'
        by_cases hc : c = owner key
        · rw [hc, update_self] at hKc'
          simp at hKc'
        · rw [update_of_ne hc] at hKc'
          rcases mem_cons.1 (hall c key' hKc') with rfl | hmem
          · exact absurd ((h.rest c).kept key' hKc').1.symm hc
          · exact hmem)
      refine ⟨number', by rw [← append_assoc]; exact hg', ?_⟩
      intro c
      rw [hnum' c]
      by_cases hc : c = owner key
      · rw [hc, update_self, update_self, hKc]
        simp
      · rw [update_of_ne hc, update_of_ne hc]

omit [DecidableEq C] in
theorem GoodRest.pendingKeys (h : GoodRest owner label s out K S number) :
    s.pendingKeys.Nodup ∧ (∀ key ∈ s.pendingKeys, s.toolByKey.lookup key ≠ none ∨ s.pending key ≠ none) ∧
      ∀ c key, K c = some key → key ∈ s.pendingKeys := by
  have hmem : ∀ key, key ∈ s.pendingKeys ↔ s.toolByKey.lookup key ≠ none ∨ s.pending key ≠ none := by
    intro key
    have hsort := (perm_insertionSort (fun a b : ToolKey => a.toString ≤ b.toString)
      ((s.toolByKey.keys ++ s.pendingArgsByOutputIndex.keys.map ToolKey.output ++
        s.pendingArgsByItemID.keys.map ToolKey.item).dedup)).mem_iff (a := key)
    rw [ResponsesToChatStreamState.pendingKeys, hsort, mem_dedup, mem_append, mem_append,
      ← AList.mem_keys, ne_eq, ne_eq, AList.lookup_eq_none, not_not]
    cases key with
    | output | item =>
      rw [pending, AList.lookup_eq_none, not_not, AList.mem_keys, AList.mem_keys]
      simp
    | call => simp [pending]
  refine ⟨?_, fun key hk => (hmem key).1 hk, ?_⟩
  · exact (perm_insertionSort _ _).nodup_iff.2 (nodup_dedup _)
  · intro c key hk
    exact (hmem key).2 (Or.inr ((h.rest c).kept key hk).2.1)

end

end NovaMaas.Convert
