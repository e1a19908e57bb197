/-
  The arguments of tool calls, from a Responses stream to a chat stream.

  The invariant (`Good`) is about every call by itself (`Holds`): which of its identifiers lead to the number the call
  has, what of it is kept under an identifier that leads nowhere yet, and that everything else that was said of its
  arguments was sent.  The three operations that read an input, `toolItem`, `toolArgumentsDelta` and `flushPendingTool`,
  each touch the identifiers of one call and one number only (`Touched`).  At the end the calls of which something is
  kept get their number (`flushKeys_settled`).

  A call may have a label, its call id and its name; then every fragment carries the id, and the first one the name.
-/
import NovaMaas.Convert.ToolLinks

open Function

open Option hiding any_eq_true

open List

namespace NovaMaas.Convert

open ResponsesToChatStreamState Route

/-! ## A call -/

/-- The call id and the name of a call. -/
structure ToolLabel where
  callID : String
  name   : String

/-- A label that is sent as it is. -/
structure ToolLabel.Plain (l : ToolLabel) : Prop where
  trimmed : trimSpace l.callID = l.callID
  callID  : l.callID ≠ ""
  name    : l.name ≠ ""

/-- The fragments carry the call id, and the first one alone the name. -/
def Labelled (l : ToolLabel) (fs : List ToolDelta) : Prop :=
  ∃ f rest, fs = f :: rest ∧ f.id = l.callID ∧ f.name = l.name ∧ ∀ g ∈ rest, g.id = l.callID ∧ g.name = ""

theorem Labelled.append {l : ToolLabel} {fs : List ToolDelta} (h : Labelled l fs) {g : ToolDelta}
    (hid : g.id = l.callID) (hname : g.name = "") : Labelled l (fs ++ [g]) := by
  obtain ⟨f, rest, rfl, hf, hn, hr⟩ := h
  refine ⟨f, rest ++ [g], rfl, hf, hn, ?_⟩
  intro g' hg'
  rcases mem_append.1 hg' with hg' | hg'
  · exact hr g' hg'
  · rw [mem_singleton] at hg'
    subst hg'
    exact ⟨hid, hname⟩

/-- All arguments of a call were sent. -/
structure ToolSent (label : Option ToolLabel) (tool : ResponsesStreamTool) (n : ℕ) (out : List ChatDelta) : Prop where
  quiet  : tool.Quiet
  upTo   : tool.argsSentAt = tool.arguments.length
  sent   : sentTo n out = tool.arguments
  some   : fragments n out ≠ []
  labels : ∀ l, label = Option.some l →
    tool.callID = l.callID ∧ tool.name = l.name ∧ tool.nameSent = true ∧ Labelled l (fragments n out)

section
variable {C : Type} (owner : ToolKey → C) (label : C → Option ToolLabel)

/-- What the state has of one call, after inputs that showed the route `r` and said `said`. -/
structure Holds (s : ResponsesToChatStreamState) (out : List ChatDelta) (c : C) (r : Route) (said : Bytes)
    (number : Option ℕ) : Prop where
  linked   : number = none ↔ r.known = []
  owned    : ∀ id ∈ r.known, owner id = c
  unknown  : ∀ id, owner id = c → id ∉ r.known → s.aim id = none ∧ s.toolByKey.lookup id = none
  known    : ∀ id ∈ r.known, ∃ key, s.aim id = some key ∧ owner key = c ∧ s.toolByKey.lookup key = number
  byOutput : ∀ i, ToolKey.output i ∈ r.known → s.toolByKey.lookup (.output i) = number
  byKey    : ∀ id, owner id = c → s.toolByKey.lookup id = none ∨ s.toolByKey.lookup id = number
  kept     : ∀ id, r.kept = some id → owner id = c ∧ id ∉ r.known ∧ s.pending id ≠ none
  notKept  : ∀ id, owner id = c → r.kept ≠ some id → s.pending id = none
  waiting  : number = none → said = (r.kept.bind s.pending).getD []
  tool     : ∀ n, number = some n → ∃ tool, s.tools[n]? = some tool ∧ ToolSent (label c) tool n out ∧
    said = tool.arguments ++ (r.kept.bind s.pending).getD []

/-- What all calls have. -/
structure Good (s : ResponsesToChatStreamState) (out : List ChatDelta) (R : C → Route) (S : C → Bytes)
    (number : C → Option ℕ) : Prop where
  holds  : ∀ c, Holds owner label s out c (R c) (S c) (number c)
  inj    : ∀ c c' n, number c = some n → number c' = some n → c = c'
  onto   : ∀ n, n < s.tools.length ↔ ∃ c, number c = some n
  frags  : ∀ t ∈ toolDeltas out, t.index < s.tools.length

/-- Only what belongs to the call `c`, which has the number `number` afterwards, was touched. -/
structure Touched (s s' : ResponsesToChatStreamState) (new : List ChatDelta) (c : C) (number : Option ℕ) : Prop where
  aim     : ∀ id, owner id ≠ c → s'.aim id = s.aim id
  pending : ∀ id, owner id ≠ c → s'.pending id = s.pending id
  byKey   : ∀ id, owner id ≠ c → s'.toolByKey.lookup id = s.toolByKey.lookup id
  tools   : ∀ m, number ≠ some m → s'.tools[m]? = s.tools[m]?
  frags   : ∀ t ∈ toolDeltas new, number = some t.index

end

section
variable {C : Type} {owner : ToolKey → C} {label : C → Option ToolLabel} {s s' : ResponsesToChatStreamState}
  {out new : List ChatDelta}

theorem fragments_eq_nil {m : ℕ} (h : ∀ t ∈ toolDeltas new, t.index ≠ m) : fragments m new = [] := by
  unfold fragments
  rw [filter_eq_nil_iff]
  intro t ht
  simpa using h t ht

theorem sentTo_eq_nil {m : ℕ} (h : ∀ t ∈ toolDeltas new, t.index ≠ m) : sentTo m new = [] := by
  simp [sentTo, fragments_eq_nil h]

/-- What was sent of a call does not change when nothing is sent under its number. -/
theorem ToolSent.frame {l : Option ToolLabel} {tool : ResponsesStreamTool} {n : ℕ} (h : ToolSent l tool n out)
    (hn : ∀ t ∈ toolDeltas new, t.index ≠ n) : ToolSent l tool n (out ++ new) where
  quiet := h.quiet
  upTo := h.upTo
  sent := by rw [sentTo_append, sentTo_eq_nil hn, append_nil, h.sent]
  some := by
    rw [fragments_append, fragments_eq_nil hn, append_nil]
    exact h.some
  labels := by
    rw [fragments_append, fragments_eq_nil hn, append_nil]
    exact h.labels

/-- A call keeps its part of the invariant when another one is touched. -/
theorem Holds.frame {c c' : C} {r : Route} {said : Bytes} {number number' : Option ℕ}
    (h : Holds owner label s out c r said number) (ht : Touched owner s s' new c' number') (hc : c ≠ c')
    (hn : ∀ n, number = some n → number' ≠ some n) : Holds owner label s' (out ++ new) c r said number := by
  have hown : ∀ id, owner id = c → owner id ≠ c' := by
    intro id hid h'
    exact hc (hid.symm.trans h')
  have hkept : r.kept.bind s'.pending = r.kept.bind s.pending := by
    cases hk : r.kept with
    | none => rfl
    | some id => exact ht.pending id (hown id (h.kept id hk).1)
  refine ⟨h.linked, h.owned, ?_, ?_, ?_, ?_, ?_, ?_, ?_, ?_⟩
  · intro id hid hu
    rw [ht.aim id (hown id hid), ht.byKey id (hown id hid)]
    exact h.unknown id hid hu
  · intro id hid
    obtain ⟨key, haim, hkey, hlook⟩ := h.known id hid
    refine ⟨key, ?_, hkey, ?_⟩
    · rw [ht.aim id (hown id (h.owned id hid))]
      exact haim
    · rw [ht.byKey key (hown key hkey)]
      exact hlook
  · intro i hi
    rw [ht.byKey _ (hown _ (h.owned _ hi))]
    exact h.byOutput i hi
  · intro id hid
    rw [ht.byKey id (hown id hid)]
    exact h.byKey id hid
  · intro id hk
    rw [ht.pending id (hown id (h.kept id hk).1)]
    exact h.kept id hk
  · intro id hid hk
    rw [ht.pending id (hown id hid)]
    exact h.notKept id hid hk
  · intro hnone
    rw [hkept]
    exact h.waiting hnone
  · intro n hnum
    obtain ⟨tool, htool, hsent, hsaid⟩ := h.tool n hnum
    refine ⟨tool, ?_, hsent.frame ?_, ?_⟩
    · rw [ht.tools n (hn n hnum)]
      exact htool
    · intro t htm heq
      have := ht.frags t htm
      rw [heq] at this
      exact hn n hnum this
    · rw [hkept]
      exact hsaid

variable [DecidableEq C] {R : C → Route} {S : C → Bytes} {number : C → Option ℕ}

/-- The calls with a number have those below `len`, one each. -/
structure CallNumbers (number : C → Option ℕ) (len : ℕ) : Prop where
  inj  : ∀ c c' n, number c = some n → number c' = some n → c = c'
  onto : ∀ n, n < len ↔ ∃ c, number c = some n

/-- A call gets the next number. -/
theorem CallNumbers.next {len : ℕ} {c : C} (h : CallNumbers number len) (hc : number c = none) :
    CallNumbers (update number c (some len)) (len + 1) := by
  have hold : ∀ c' n, number c' = some n → c' ≠ c ∧ n < len := by
    intro c' n hn
    refine ⟨?_, (h.onto n).2 ⟨c', hn⟩⟩
    rintro rfl
    rw [hc] at hn
    cases hn
  constructor
  · intro c₁ c₂ n h₁ h₂
    simp only [update_apply] at h₁ h₂
    split at h₁ <;> split at h₂
    · exact ‹c₁ = c›.trans ‹c₂ = c›.symm
    · have := (hold c₂ n h₂).2
      cases h₁
      omega
    · have := (hold c₁ n h₁).2
      cases h₂
      omega
    · exact h.inj c₁ c₂ n h₁ h₂
  · intro n
    constructor
    · intro hlt
      by_cases hn : n = len
      · exact ⟨c, by rw [update_self, hn]⟩
      · obtain ⟨c', hc'⟩ := (h.onto n).1 (by omega)
        exact ⟨c', by rw [update_of_ne (hold c' n hc').1, hc']⟩
    · rintro ⟨c', hc'⟩
      simp only [update_apply] at hc'
      split at hc'
      · cases hc'
        omega
      · have := (hold c' n hc').2
        omega

/-- One call is touched and keeps its number, or gets the next one. -/
theorem Good.step (h : Good owner label s out R S number) {c : C} {r : Route} {said : Bytes} {num : Option ℕ}
    (ht : Touched owner s s' new c num) (hc : Holds owner label s' (out ++ new) c r said num)
    (hnum : num = number c ∧ s'.tools.length = s.tools.length ∨
      number c = none ∧ num = some s.tools.length ∧ s'.tools.length = s.tools.length + 1) :
    Good owner label s' (out ++ new) (update R c r) (update S c said) (update number c num) := by
  have hnumbered : CallNumbers (update number c num) s'.tools.length := by
    rcases hnum with ⟨heq, hlen⟩ | ⟨hnone, heq, hlen⟩
    · rw [heq, update_eq_self, hlen]
      exact ⟨h.inj, h.onto⟩
    · rw [heq, hlen]
      exact CallNumbers.next ⟨h.inj, h.onto⟩ hnone
  refine ⟨?_, hnumbered.inj, hnumbered.onto, ?_⟩
  · intro c'
    by_cases hcc : c' = c
    · subst hcc
      simpa using hc
    · simp only [update_of_ne hcc]
      refine (h.holds c').frame ht hcc fun n hn h' => hcc ?_
      exact hnumbered.inj c' c n (by rw [update_of_ne hcc, hn]) (by rw [update_self, h'])
  · intro t htm
    rw [toolDeltas_append, mem_append] at htm
    have hle : s.tools.length ≤ s'.tools.length := by
      rcases hnum with ⟨-, hlen⟩ | ⟨-, -, hlen⟩ <;> omega
    rcases htm with htm | htm
    · exact lt_of_lt_of_le (h.frags t htm) hle
    · have hti := ht.frags t htm
      rcases hnum with ⟨heq, hlen⟩ | ⟨-, heq, hlen⟩
      · rw [heq] at hti
        have := (h.onto t.index).2 ⟨c, hti⟩
        omega
      · rw [heq] at hti
        have := some.inj hti
        omega

end

/-! ## Sending what is left of a call -/

/-- A call of which all arguments were sent, or nothing at all. -/
structure ToolReady (label : Option ToolLabel) (tool : ResponsesStreamTool) (n : ℕ) (out : List ChatDelta) : Prop where
  upTo   : tool.argsSentAt = tool.arguments.length
  sent   : sentTo n out = tool.arguments
  quiet  : tool.sent = true → fragments n out ≠ [] ∧ ∀ l, label = some l → tool.nameSent = true ∧ Labelled l (fragments n out)
  fresh  : tool.sent = false → fragments n out = [] ∧ tool.nameSent = false

theorem ToolSent.ready {label : Option ToolLabel} {tool : ResponsesStreamTool} {n : ℕ} {out : List ChatDelta}
    (h : ToolSent label tool n out) : ToolReady label tool n out := by
  refine ⟨h.upTo, h.sent, fun _ => ⟨h.some, fun l hl => ?_⟩, fun hs => ?_⟩
  · obtain ⟨-, -, hname, hlab⟩ := h.labels l hl
    exact ⟨hname, hlab⟩
  · rw [h.quiet.1] at hs
    simp at hs

/-- The call `n` was sent something, and nothing else happened. -/
structure SentOn (s s' : ResponsesToChatStreamState) (new : List ChatDelta) (n : ℕ) : Prop where
  aim     : ∀ id, s'.aim id = s.aim id
  pending : ∀ id, s'.pending id = s.pending id
  byKey   : s'.toolByKey = s.toolByKey
  tools   : ∀ m, m ≠ n → s'.tools[m]? = s.tools[m]?
  length  : s'.tools.length = s.tools.length
  frags   : ∀ t ∈ toolDeltas new, t.index = n

theorem SentOn.trans {s s₁ s₂ : ResponsesToChatStreamState} {new : List ChatDelta} {n : ℕ} (h : SentOn s s₁ [] n)
    (h' : SentOn s₁ s₂ new n) : SentOn s s₂ new n where
  aim := fun id => (h'.aim id).trans (h.aim id)
  pending := fun id => (h'.pending id).trans (h.pending id)
  byKey := h'.byKey.trans h.byKey
  tools := fun m hm => (h'.tools m hm).trans (h.tools m hm)
  length := h'.length.trans h.length
  frags := h'.frags

/-- What a call got since it was ready is sent by one fragment, if there is anything. -/
theorem toolDelta_all {s : ResponsesToChatStreamState} {label : Option ToolLabel} {base tool : ResponsesStreamTool}
    {n : ℕ} {out : List ChatDelta} {d : Bytes} (hn : s.tools[n]? = some tool) (hb : ToolReady label base n out)
    (hsent : tool.sent = base.sent) (hname : tool.nameSent = base.nameSent) (hat : tool.argsSentAt = base.argsSentAt)
    (hpre : base.arguments <+: tool.arguments) (hd : tool.argsDelta d = tool.arguments.drop tool.argsSentAt)
    (hlab : ∀ l, label = some l → l.Plain ∧ tool.callID = l.callID ∧ tool.name = l.name) :
    SentOn s (s.toolDelta n d).2 (s.toolDelta n d).1 n ∧
      ∃ tool', (s.toolDelta n d).2.tools[n]? = some tool' ∧ ToolSent label tool' n (out ++ (s.toolDelta n d).1) ∧
        tool'.arguments = tool.arguments := by
  have hall : base.arguments ++ tool.arguments.drop tool.argsSentAt = tool.arguments := by
    rw [hat, hb.upTo]
    exact (prefix_append_drop hpre).symm
  have hle : tool.argsSentAt ≤ tool.arguments.length := by
    rw [hat, hb.upTo]
    exact hpre.length_le
  by_cases hs : tool.sent = true ∧ tool.argsDelta d = [] ∧ (tool.name = "" ∨ tool.nameSent = true)
  · -- nothing to send
    obtain ⟨h₁, h₂, h₃⟩ := hs
    rw [s.toolDelta_quiet hn ⟨h₁, h₂, h₃⟩, append_nil]
    rw [hd] at h₂
    rw [h₂, append_nil] at hall
    obtain ⟨hsome, hbl⟩ := hb.quiet (hsent ▸ h₁)
    refine ⟨⟨fun _ => rfl, fun _ => rfl, rfl, fun _ _ => rfl, rfl, fun t ht => by simp [toolDeltas] at ht⟩,
      tool, hn, ⟨⟨h₁, h₃⟩, ?_, ?_, hsome, ?_⟩, rfl⟩
    · have := drop_eq_nil_iff.1 h₂
      omega
    · rw [hb.sent, hall]
    · intro l hl
      obtain ⟨-, hid, hnm⟩ := hlab l hl
      obtain ⟨hns, hlf⟩ := hbl l hl
      exact ⟨hid, hnm, hname.trans hns, hlf⟩
  · obtain ⟨hfr, haim, hpend, hkey, htools⟩ := s.toolDelta_sends hn hs
    have hfrag : fragments n (s.toolDelta n d).1 = [fragmentOf n tool (tool.argsDelta d)] := by
      simp [fragments, hfr, fragmentOf]
    refine ⟨⟨haim, hpend, hkey, ?_, ?_, ?_⟩, markSent (tool.argsDelta d) tool, ?_, ⟨⟨rfl, ?_⟩, ?_, ?_, ?_, ?_⟩, rfl⟩
    · intro m hm
      rw [htools, getElem?_modify_ne _ _ hm.symm]
    · rw [htools, length_modify]
    · intro t ht
      rw [hfr, mem_singleton] at ht
      rw [ht]
      rfl
    · rw [htools, getElem?_modify_eq, hn]
      rfl
    · by_cases hnm : tool.name = ""
      · exact Or.inl hnm
      · exact Or.inr (by simp [markSent, hnm])
    · show tool.argsSentAt + (tool.argsDelta d).length = tool.arguments.length
      rw [hd, length_drop]
      omega
    · rw [sentTo_append, hb.sent]
      show base.arguments ++ sentTo n (s.toolDelta n d).1 = tool.arguments
      rw [sentTo, hfrag]
      show base.arguments ++ (tool.argsDelta d ++ []) = tool.arguments
      rw [append_nil, hd, hall]
    · rw [fragments_append, hfrag]
      simp
    · intro l hl
      obtain ⟨hplain, hid, hnm⟩ := hlab l hl
      have hfid : (fragmentOf n tool (tool.argsDelta d)).id = l.callID := by
        simp [fragmentOf, hid, hplain.trimmed, hplain.callID]
      refine ⟨hid, hnm, ?_, ?_⟩
      · simp [markSent, hnm, hplain.name]
      · rw [fragments_append, hfrag]
        cases hbs : base.sent with
        | true =>
          -- a later fragment
          obtain ⟨hns, hlf⟩ := (hb.quiet hbs).2 l hl
          exact hlf.append hfid (by simp [fragmentOf, hname, hns])
        | false =>
          obtain ⟨hnil, hns⟩ := hb.fresh hbs
          refine ⟨_, [], by rw [hnil, nil_append], hfid, ?_, by simp⟩
          simp [fragmentOf, hname, hns, hnm, hplain.name]

/-! ## Identifiers become known -/

section
variable {C : Type} {owner : ToolKey → C} {label : C → Option ToolLabel} {s s' : ResponsesToChatStreamState}
  {out new : List ChatDelta} {c : C} {r : Route} {said : Bytes} {number : Option ℕ} {given : List ToolKey}

/-- What is kept of a call, if it is kept under one of the given identifiers. -/
theorem Holds.keptText_eq (h : Holds owner label s out c r said number) (hown : ∀ id ∈ given, owner id = c)
    (hnd : given.Nodup) :
    s.keptText given = ((r.kept.filter fun id => id ∈ given).bind s.pending).getD [] := by
  induction given with
  | nil => cases r.kept <;> rfl
  | cons id rest ih =>
    have hrest := ih (fun id' h' => hown id' (mem_cons_of_mem _ h')) (nodup_cons.1 hnd).2
    have hid : id ∉ rest := (nodup_cons.1 hnd).1
    have hcons : s.keptText (id :: rest) = (s.pending id).getD [] ++ s.keptText rest := by simp [keptText]
    rw [hcons, hrest]
    by_cases hk : r.kept = some id
    · simp [hk, hid, filter_some]
    · rw [h.notKept id (hown id (by simp)) hk]
      cases hr : r.kept with
      | none => rfl
      | some id' =>
        have hne : id' ≠ id := by
          rintro rfl
          exact hk hr
        simp [filter_some, hne]

/-- What was kept is either taken or still kept. -/
theorem Holds.kept_split (h : Holds owner label s out c r said number) (hown : ∀ id ∈ given, owner id = c)
    (hnd : given.Nodup) {p : ToolKey → Option Bytes} (hp : ∀ id, p id = if id ∈ given then none else s.pending id) :
    s.keptText given ++ ((r.learn given).kept.bind p).getD [] = (r.kept.bind s.pending).getD [] := by
  rw [h.keptText_eq hown hnd]
  cases hr : r.kept with
  | none => simp [learn, hr]
  | some id =>
    by_cases hid : id ∈ given
    · simp [learn, hr, filter_some, hid]
    · simp [learn, hr, filter_some, hid, hp]

/-- A call that was found or added, and was sent what it then had. -/
theorem Holds.learn (h : Holds owner label s out c r said number) {n : ℕ} (hnum : number = none ∨ number = some n)
    (hown : ∀ id ∈ given, owner id = c) {key : ToolKey} (hkey : key ∈ given)
    (hout : ∀ i, ToolKey.output i ∈ given → key = .output i)
    (haim : ∀ id, s'.aim id = if id ∈ given then some key else s.aim id)
    (hpend : ∀ id, s'.pending id = if id ∈ given then none else s.pending id)
    (hbyKey : ∀ id, s'.toolByKey.lookup id = if id = key then some n else s.toolByKey.lookup id)
    {said' : Bytes} {tool : ResponsesStreamTool} (htool : s'.tools[n]? = some tool)
    (hsent : ToolSent (label c) tool n (out ++ new))
    (hsaid : said' = tool.arguments ++ ((r.learn given).kept.bind s'.pending).getD []) :
    Holds owner label s' (out ++ new) c (r.learn given) said' (some n) := by
  have hlook : ∀ key' id, s.toolByKey.lookup key' = number → id ∈ r.known → s'.toolByKey.lookup key' = some n := by
    intro key' id hid hmem
    rw [hbyKey key']
    split
    · rfl
    · rw [hid]
      rcases hnum with hnum | hnum
      · rw [h.linked.1 hnum] at hmem
        simp at hmem
      · exact hnum
  refine ⟨?_, ?_, ?_, ?_, ?_, ?_, ?_, ?_, by simp, ?_⟩
  · simp only [Route.learn, reduceCtorEq, append_eq_nil_iff, false_iff, not_and]
    intro _ hnil
    rw [hnil] at hkey
    simp at hkey
  · intro id hid
    rcases mem_append.1 hid with hid | hid
    · exact h.owned id hid
    · exact hown id hid
  · intro id hid hu
    simp only [Route.learn, mem_append, not_or] at hu
    have hne : id ≠ key := by
      rintro rfl
      exact hu.2 hkey
    rw [haim id, if_neg hu.2, hbyKey id, if_neg hne]
    exact h.unknown id hid hu.1
  · intro id hid
    by_cases hg : id ∈ given
    · refine ⟨key, by rw [haim id, if_pos hg], hown key hkey, ?_⟩
      rw [hbyKey key, if_pos rfl]
    · have hkn : id ∈ r.known := by
        rcases mem_append.1 hid with hid | hid
        · exact hid
        · exact absurd hid hg
      obtain ⟨key', ha, ho, hl⟩ := h.known id hkn
      exact ⟨key', by rw [haim id, if_neg hg]; exact ha, ho, hlook key' id hl hkn⟩
  · intro i hi
    by_cases hg : ToolKey.output i ∈ given
    · rw [← hout i hg, hbyKey key, if_pos rfl]
    · have hkn : ToolKey.output i ∈ r.known := by
        rcases mem_append.1 hi with hi | hi
        · exact hi
        · exact absurd hi hg
      exact hlook _ _ (h.byOutput i hkn) hkn
  · intro id hid
    rw [hbyKey id]
    split
    · exact Or.inr rfl
    · rcases h.byKey id hid with hb | hb
      · exact Or.inl hb
      · rw [hb]
        exact hnum
  · intro id hk
    simp only [Route.learn, filter_eq_some_iff, decide_eq_true_eq] at hk
    obtain ⟨ho, hnk, hp⟩ := h.kept id hk.1
    refine ⟨ho, ?_, ?_⟩
    · simp only [Route.learn, mem_append, not_or]
      exact ⟨hnk, hk.2⟩
    · rw [hpend id, if_neg hk.2]
      exact hp
  · intro id hid hk
    rw [hpend id]
    split
    · rfl
    · rename_i hg
      refine h.notKept id hid ?_
      intro h'
      apply hk
      simp [Route.learn, h', hg]
  · intro m hm
    cases hm
    exact ⟨tool, htool, hsent, hsaid⟩

/-- No identifier comes to lead anywhere else; what is kept of the call may change. -/
theorem Holds.rekept (h : Holds owner label s out c r said number) (haim : ∀ id, s'.aim id = s.aim id)
    (hbyKey : s'.toolByKey = s.toolByKey) {k : Option ToolKey} {said' : Bytes}
    (hkept : ∀ id, k = some id → owner id = c ∧ id ∉ r.known ∧ s'.pending id ≠ none)
    (hnotKept : ∀ id, owner id = c → k ≠ some id → s'.pending id = none)
    (hwaiting : number = none → said' = (k.bind s'.pending).getD [])
    (htool : ∀ n, number = some n → ∃ tool, s'.tools[n]? = some tool ∧ ToolSent (label c) tool n new ∧
      said' = tool.arguments ++ (k.bind s'.pending).getD []) :
    Holds owner label s' new c { r with kept := k } said' number := by
  refine ⟨h.linked, h.owned, ?_, ?_, ?_, ?_, hkept, hnotKept, hwaiting, htool⟩
  · intro id hid hu
    rw [haim, hbyKey]
    exact h.unknown id hid hu
  · intro id hid
    rw [haim, hbyKey]
    exact h.known id hid
  · rw [hbyKey]
    exact h.byOutput
  · rw [hbyKey]
    exact h.byKey

end

/-! ## An item -/

theorem itemGiven_nodup (event : WireEvent) (item : ResponsesOutput Bytes) : (itemGiven event item).Nodup := by
  unfold itemGiven outputKey itemKey callKey
  cases event.outputIndex <;> split <;> split <;> simp

theorem argumentsGiven_nodup (event : WireEvent) : (argumentsGiven event).Nodup := by
  unfold argumentsGiven outputKey itemKey
  cases event.outputIndex <;> split <;> simp

/-- A call with a number was found in the table, another one was added to it. -/
def FoundIn (number : Option ℕ) (tools tools' : List ResponsesStreamTool) (n : ℕ) (base : ResponsesStreamTool) : Prop :=
  number = some n ∧ tools' = tools ∧ tools[n]? = some base ∨
    number = none ∧ n = tools.length ∧ tools' = tools ++ [base]

section
variable {number : Option ℕ} {tools tools' : List ResponsesStreamTool} {n : ℕ} {base : ResponsesStreamTool}

theorem FoundIn.getElem? (h : FoundIn number tools tools' n base) : tools'[n]? = some base := by
  rcases h with ⟨-, rfl, h⟩ | ⟨-, rfl, rfl⟩
  · exact h
  · simp

theorem FoundIn.other (h : FoundIn number tools tools' n base) {m : ℕ} (hm : m ≠ n) : tools'[m]? = tools[m]? := by
  rcases h with ⟨-, rfl, -⟩ | ⟨-, rfl, rfl⟩
  · rfl
  · rw [getElem?_append]
    split
    · rfl
    · have h₁ : tools[m]? = none := getElem?_eq_none (by omega)
      have h₂ : ([base] : List ResponsesStreamTool)[m - tools.length]? = none :=
        getElem?_eq_none (by simp; omega)
      rw [h₁, h₂]

end

section
variable {C : Type} [DecidableEq C] {owner : ToolKey → C} {label : C → Option ToolLabel}
  {s s₁ s₂ : ResponsesToChatStreamState} {out new : List ChatDelta} {c : C} {given : List ToolKey}
  {R : C → Route} {S : C → Bytes} {number : C → Option ℕ} {event : WireEvent}

/-- A call is found or added, changed and sent, and the invariant holds again. -/
theorem Good.ensured (h : Good owner label s out R S number) {n : ℕ} {key : ToolKey} {base tool : ResponsesStreamTool}
    {tools : List ResponsesStreamTool} {f : ResponsesStreamTool → ResponsesStreamTool}
    (he : Ensured s s₁ given key n tools f) (hfound : FoundIn (number c) s.tools tools n base)
    (hown : ∀ id ∈ given, owner id = c) (hkey : key ∈ given) (hout : ∀ i, ToolKey.output i ∈ given → key = .output i)
    (hon : SentOn s₁ s₂ new n) {said' : Bytes} (htool : s₂.tools[n]? = some tool)
    (hsent : ToolSent (label c) tool n (out ++ new))
    (hsaid : said' = tool.arguments ++ (((R c).learn given).kept.bind s₂.pending).getD []) :
    ∃ number', Good owner label s₂ (out ++ new) (update R c ((R c).learn given)) (update S c said') number' := by
  have haim : ∀ id, s₂.aim id = if id ∈ given then some key else s.aim id := fun id => (hon.aim id).trans (he.aim id)
  have hpend : ∀ id, s₂.pending id = if id ∈ given then none else s.pending id :=
    fun id => (hon.pending id).trans (he.pending id)
  have hbyKey : ∀ id, s₂.toolByKey.lookup id = if id = key then some n else s.toolByKey.lookup id := fun id => by
    rw [hon.byKey, he.byKey]
  have htouched : Touched owner s s₂ new c (some n) := by
    refine ⟨?_, ?_, ?_, ?_, ?_⟩
    · intro id hid
      rw [haim id, if_neg]
      intro hg
      exact hid (hown id hg)
    · intro id hid
      rw [hpend id, if_neg]
      intro hg
      exact hid (hown id hg)
    · intro id hid
      rw [hbyKey id, if_neg]
      rintro rfl
      exact hid (hown id hkey)
    · intro m hm
      have hmn : m ≠ n := by
        rintro rfl
        exact hm rfl
      rw [hon.tools m hmn, he.tools, getElem?_modify_ne _ _ hmn.symm, hfound.other hmn]
    · intro t ht
      rw [hon.frags t ht]
  have hlen : s₂.tools.length = tools.length := by
    rw [hon.length, he.tools, length_modify]
  have hn : number c = none ∨ number c = some n := by
    rcases hfound with ⟨hnum, -⟩ | ⟨hnum, -⟩
    · exact Or.inr hnum
    · exact Or.inl hnum
  have hc : Holds owner label s₂ (out ++ new) c ((R c).learn given) said' (some n) :=
    (h.holds c).learn hn hown hkey hout haim hpend hbyKey htool hsent hsaid
  refine ⟨_, h.step htouched hc ?_⟩
  rcases hfound with ⟨hnum, heq, -⟩ | ⟨hnum, hnl, heq⟩
  · exact Or.inl ⟨hnum.symm, by rw [hlen, heq]⟩
  · refine Or.inr ⟨hnum, by rw [hnl], ?_⟩
    rw [hlen, heq, length_append]
    rfl

omit [DecidableEq C] in
/-- A call that is found is ready to be sent more; so is one that is added. -/
theorem Good.ready (h : Good owner label s out R S number) {n : ℕ} {base : ResponsesStreamTool}
    {tools : List ResponsesStreamTool} (hfound : FoundIn (number c) s.tools tools n base)
    (hnew : number c = none → base.arguments = [] ∧ base.argsSentAt = 0 ∧ base.sent = false ∧ base.nameSent = false) :
    ToolReady (label c) base n out ∧ S c = base.arguments ++ ((R c).kept.bind s.pending).getD [] := by
  rcases hfound with ⟨hnum, -, hb⟩ | ⟨hnum, hnl, -⟩
  · obtain ⟨tool, htool, hsent, hsaid⟩ := (h.holds c).tool n hnum
    rw [hb] at htool
    cases htool
    exact ⟨hsent.ready, hsaid⟩
  · obtain ⟨hargs, hat, hs, hns⟩ := hnew hnum
    have hfr : fragments n out = [] := by
      refine fragments_eq_nil ?_
      intro t ht heq
      have := h.frags t ht
      omega
    refine ⟨⟨by simp [hargs, hat], by simp [sentTo, hfr, hargs], fun h' => ?_, fun _ => ⟨hfr, hns⟩⟩, ?_⟩
    · rw [hs] at h'
      simp at h'
    · rw [hargs]
      exact (h.holds c).waiting hnum

omit [DecidableEq C] in
/-- The identifiers of a call lead nowhere, or to its number. -/
theorem Good.leads (h : Good owner label s out R S number) (hown : ∀ id ∈ given, owner id = c) {n : ℕ}
    (hnum : number c = some n) : s.LeadsTo given n := by
  intro id hid
  by_cases hk : id ∈ (R c).known
  · obtain ⟨key, ha, -, hl⟩ := (h.holds c).known id hk
    exact Or.inr ⟨key, ha, by rw [hl, hnum]⟩
  · exact Or.inl ((h.holds c).unknown id (hown id hid) hk).1

theorem modifyTool_sentOn (s : ResponsesToChatStreamState) (n : ℕ) (f : ResponsesStreamTool → ResponsesStreamTool) :
    SentOn s (s.modifyTool n f) [] n where
  aim := fun id => s.modifyTool_aim n f id
  pending := fun id => s.modifyTool_pending n f id
  byKey := rfl
  tools := by
    intro m hm
    rw [modifyTool_tools, getElem?_modify_ne _ _ hm.symm]
  length := by rw [modifyTool_tools, length_modify]
  frags := by
    intro t ht
    simp [toolDeltas] at ht

/-- The arguments that an item gives. -/
def giveArguments (arguments : Bytes) (tool : ResponsesStreamTool) : ResponsesStreamTool :=
  { tool with arguments := if arguments ≠ [] then arguments else tool.arguments }

theorem toolItem_eq (s : ResponsesToChatStreamState) {item : ResponsesOutput Bytes} (hi : event.item = some item)
    {n : ℕ} (he : s.ensureToolForEvent event = some (n, s₁)) :
    s.toolItem event = (s₁.modifyTool n (giveArguments item.arguments)).toolDelta n [] := by
  unfold toolItem
  rw [he, hi]
  rfl

omit [DecidableEq C] in
/-- The call of an item is found if it is known by one of the identifiers, and added if it is not known at all. -/
theorem Good.ensure_item (h : Good owner label s out R S number) {item : ResponsesOutput Bytes}
    (hi : event.item = some item) (hg : itemGiven event item ≠ []) (hown : ∀ id ∈ itemGiven event item, owner id = c)
    (hr : (R c).known = [] ∨ (R c).knows (itemGiven event item) = true) :
    ∃ key n s₁ tools base, s.ensureToolForEvent event = some (n, s₁) ∧
      Ensured s s₁ (itemGiven event item) key n tools (itemChangeOf (s.keptText (itemGiven event item)) event item) ∧
      FoundIn (number c) s.tools tools n base ∧ (number c = none → base = { key := key }) ∧
      key ∈ itemGiven event item ∧ ∀ i, ToolKey.output i ∈ itemGiven event item → key = .output i := by
  obtain ⟨key, hkey, hmem, hout⟩ := itemEventKey_mem hi hg
  have hsub : ∀ id ∈ itemKey (responseStreamEventItemID event) ++ callKey (trimSpace item.callId),
      id ∈ itemGiven event item := by
    intro id hid
    rw [itemGiven, append_assoc]
    exact mem_append_right _ hid
  have hc := h.holds c
  cases hnum : number c with
  | none =>
    have hnil : (R c).known = [] := hc.linked.1 hnum
    have hnone : ∀ id ∈ itemGiven event item, s.aim id = none ∧ s.toolByKey.lookup id = none := by
      intro id hid
      exact hc.unknown id (hown id hid) (by simp [hnil])
    have hunk := s.knownTool_unknown (hnone key hmem).2 (fun id hid => (hnone id (hsub id hid)).1)
    obtain ⟨s₁, he, hens⟩ := s.ensureToolForEvent_new hi hkey hunk
    exact ⟨key, _, s₁, _, { key := key }, he, hens, Or.inr ⟨rfl, rfl, rfl⟩, fun _ => rfl, hmem, hout⟩
  | some n =>
    have hne : (R c).known ≠ [] := by
      intro hnil
      rw [hc.linked.2 hnil] at hnum
      simp at hnum
    have hkn : ∃ id ∈ itemGiven event item, id ∈ (R c).known := by
      rcases hr with hr | hr
      · exact absurd hr hne
      · simpa [knows] using hr
    obtain ⟨id, hid, hidk⟩ := hkn
    have hlead := h.leads hown hnum
    have hsome : s.toolByKey.lookup key = some n ∨
        ∃ id ∈ itemKey (responseStreamEventItemID event) ++ callKey (trimSpace item.callId), s.aim id ≠ none := by
      rw [itemGiven, append_assoc] at hid
      rcases mem_append.1 hid with ho | hx
      · -- the output index is the key itself
        obtain ⟨i, rfl⟩ : ∃ i, id = ToolKey.output i := by
          cases hoi : event.outputIndex with
          | none => simp [outputKey, hoi] at ho
          | some i => exact ⟨i, by simpa [outputKey, hoi] using ho⟩
        left
        rw [hout i (by rw [itemGiven, append_assoc]; exact mem_append_left _ ho), hc.byOutput i hidk, hnum]
      · obtain ⟨key', ha, -, -⟩ := hc.known id hidk
        exact Or.inr ⟨id, hx, by simp [ha]⟩
    have hlook : s.toolByKey.lookup key = none ∨ s.toolByKey.lookup key = some n := by
      rw [← hnum]
      exact hc.byKey key (hown key hmem)
    have hk := s.knownTool_known hlook (fun id hid => hlead id (hsub id hid)) hsome
    obtain ⟨s₁, he, hens⟩ := s.ensureToolForEvent_known hi hkey hk
    obtain ⟨base, hbase, -, -⟩ := hc.tool n hnum
    refine ⟨key, n, s₁, s.tools, base, he, hens, Or.inl ⟨rfl, rfl, hbase⟩, ?_, hmem, hout⟩
    intro h'
    simp at h'

/-- The label that an item gives to its call. -/
def ItemLabel (l : Option ToolLabel) (item : ResponsesOutput Bytes) : Prop :=
  ∀ l', l = some l' → l'.Plain ∧ trimSpace item.callId = l'.callID ∧ trimSpace item.name = l'.name

/-- The input of an item. -/
def itemInput (event : WireEvent) (item : ResponsesOutput Bytes) : ToolInput :=
  ⟨itemGiven event item, .item item.arguments (trimSpace item.callId) (trimSpace item.name)⟩

/-- The call of an item, as it is sent. -/
def itemTool (kept : Bytes) (event : WireEvent) (item : ResponsesOutput Bytes) (base : ResponsesStreamTool) :
    ResponsesStreamTool :=
  giveArguments item.arguments (itemChangeOf kept event item base)

section
variable (kept : Bytes) (event : WireEvent) (item : ResponsesOutput Bytes) (base : ResponsesStreamTool)

theorem itemTool_sent : (itemTool kept event item base).sent = base.sent := rfl

theorem itemTool_nameSent : (itemTool kept event item base).nameSent = base.nameSent := rfl

theorem itemTool_argsSentAt : (itemTool kept event item base).argsSentAt = base.argsSentAt := rfl

theorem itemTool_arguments : (itemTool kept event item base).arguments =
    if item.arguments = [] then base.arguments ++ kept else item.arguments := by
  by_cases ha : item.arguments = []
  · simp [itemTool, giveArguments, ha, itemChangeOf, itemChange, setName, setCallID, moreArguments, setItemID]
  · simp [itemTool, giveArguments, ha]

theorem itemTool_label {l : ToolLabel} (hp : l.Plain) (hid : trimSpace item.callId = l.callID)
    (hnm : trimSpace item.name = l.name) :
    (itemTool kept event item base).callID = l.callID ∧ (itemTool kept event item base).name = l.name := by
  constructor
  · show (if trimSpace item.callId ≠ "" then trimSpace item.callId else _) = l.callID
    rw [hid, if_pos hp.callID]
  · show (if trimSpace item.name ≠ "" then trimSpace item.name else _) = l.name
    rw [hnm, if_pos hp.name]

end

/-- The arguments of the call of an item get longer, and are all that was said up to what is still kept. -/
theorem item_arguments {item : ResponsesOutput Bytes} {base : ResponsesStreamTool} {kept rest all said said' : Bytes}
    (hsplit : kept ++ rest = all) (hsaid : said = base.arguments ++ all)
    (hs : (itemInput event item).tells said = some said') (hfull : item.arguments = [] ∨ rest = []) :
    base.arguments <+: (itemTool kept event item base).arguments ∧
      said' = (itemTool kept event item base).arguments ++ rest := by
  rw [itemTool_arguments]
  by_cases ha : item.arguments = []
  · simp only [itemInput, ToolInput.tells, ToolNews.tells, ha, if_true, some.injEq] at hs
    rw [if_pos ha]
    refine ⟨prefix_append _ _, ?_⟩
    rw [← hs, hsaid, append_assoc, hsplit]
  · simp only [itemInput, ToolInput.tells, ToolNews.tells, ha, if_false, ite_none_right_eq_some, some.injEq] at hs
    obtain ⟨hpre, rfl⟩ := hs
    have hrest : rest = [] := by
      rcases hfull with hfull | hfull
      · exact absurd hfull ha
      · exact hfull
    rw [if_neg ha]
    refine ⟨?_, by rw [hrest, append_nil]⟩
    have h₁ : said <+: item.arguments := isPrefixOf_iff_prefix.1 hpre
    rw [hsaid] at h₁
    exact (prefix_append _ _).trans h₁

theorem Good.toolItem (h : Good owner label s out R S number) {item : ResponsesOutput Bytes}
    (hi : event.item = some item) (hg : itemGiven event item ≠ []) (hown : ∀ id ∈ itemGiven event item, owner id = c)
    {r' : Route} (hr : (R c).step (itemInput event item) = some r') {said' : Bytes}
    (hs : (itemInput event item).tells (S c) = some said') (hlab : ItemLabel (label c) item) :
    ∃ number', Good owner label (s.toolItem event).2 (out ++ (s.toolItem event).1) (update R c r')
      (update S c said') number' := by
  obtain ⟨hknown, hfull, rfl⟩ := step_item hr
  obtain ⟨key, n, s₁, tools, base, he, hens, hfound, hnew, hkey, hout⟩ := h.ensure_item hi hg hown hknown
  obtain ⟨hready, hsaid⟩ := h.ready hfound (fun hn => by rw [hnew hn]; exact ⟨rfl, rfl, rfl, rfl⟩)
  have hsplit := (h.holds c).kept_split hown (itemGiven_nodup event item) hens.pending
  have hfull' : item.arguments = [] ∨ (((R c).learn (itemGiven event item)).kept.bind s₁.pending).getD [] = [] := by
    rcases hfull with hfull | hfull
    · exact Or.inl hfull
    · exact Or.inr (by rw [hfull]; rfl)
  obtain ⟨hpre, hsaid'⟩ := item_arguments hsplit hsaid hs hfull'
  rw [toolItem_eq s hi he]
  have hget : (s₁.modifyTool n (giveArguments item.arguments)).tools[n]? =
      some (itemTool (s.keptText (itemGiven event item)) event item base) := by
    rw [modifyTool_tools, hens.tools, getElem?_modify_eq, getElem?_modify_eq, hfound.getElem?]
    rfl
  have hl : ∀ l, label c = some l → l.Plain ∧
      (itemTool (s.keptText (itemGiven event item)) event item base).callID = l.callID ∧
      (itemTool (s.keptText (itemGiven event item)) event item base).name = l.name := by
    intro l hl
    obtain ⟨hp, hid, hnm⟩ := hlab l hl
    exact ⟨hp, itemTool_label _ _ _ _ hp hid hnm⟩
  obtain ⟨hon, tool', htool', hsent', harg'⟩ :=
    toolDelta_all (d := []) hget hready (itemTool_sent _ _ _ _) (itemTool_nameSent _ _ _ _)
      (itemTool_argsSentAt _ _ _ _) hpre (if_pos rfl) hl
  refine h.ensured hens hfound hown hkey hout ((modifyTool_sentOn s₁ n _).trans hon) htool' hsent' ?_
  have hpend : ((s₁.modifyTool n (giveArguments item.arguments)).toolDelta n []).2.pending = s₁.pending := by
    funext id
    rw [hon.pending, modifyTool_pending]
  rw [harg', hpend]
  exact hsaid'

/-! ## Arguments -/

omit [DecidableEq C] in
theorem Good.linked_of_knows (h : Good owner label s out R S number) (hk : (R c).knows given = true) :
    ∃ n, number c = some n ∧ ∃ id ∈ given, s.aim id ≠ none := by
  have hkn : ∃ id ∈ given, id ∈ (R c).known := by simpa [knows] using hk
  obtain ⟨id, hid, hidk⟩ := hkn
  have hc := h.holds c
  cases hnum : number c with
  | none =>
    rw [hc.linked.1 hnum] at hidk
    simp at hidk
  | some n =>
    obtain ⟨key, ha, -, -⟩ := hc.known id hidk
    exact ⟨n, rfl, id, hid, by simp [ha]⟩

omit [DecidableEq C] in
theorem Good.aim_of_not_knows (h : Good owner label s out R S number) (hown : ∀ id ∈ given, owner id = c)
    (hk : (R c).knows given = false) : ∀ id ∈ given, s.aim id = none ∧ s.toolByKey.lookup id = none := by
  intro id hid
  refine (h.holds c).unknown id (hown id hid) ?_
  intro hmem
  have : (R c).knows given = true := by
    rw [knows, any_eq_true]
    exact ⟨id, hid, by simpa using hmem⟩
  rw [hk] at this
  simp at this

/-- A call that has a number is sent more, and no identifier is touched. -/
theorem Good.sentOn (h : Good owner label s out R S number) {n : ℕ} (hnum : number c = some n)
    (hon : SentOn s s₁ new n) {tool : ResponsesStreamTool} (htool : s₁.tools[n]? = some tool)
    (hsent : ToolSent (label c) tool n (out ++ new)) {said' : Bytes}
    (hsaid : said' = tool.arguments ++ ((R c).kept.bind s.pending).getD []) :
    ∃ number', Good owner label s₁ (out ++ new) (update R c (R c)) (update S c said') number' := by
  have hpend : s₁.pending = s.pending := funext hon.pending
  have hc := h.holds c
  rw [hnum] at hc
  have htouched : Touched owner s s₁ new c (some n) := by
    refine ⟨fun id _ => hon.aim id, fun id _ => hon.pending id, fun id _ => by rw [hon.byKey], ?_, ?_⟩
    · intro m hm
      exact hon.tools m fun h => hm (congrArg some h.symm)
    · intro t ht
      rw [hon.frags t ht]
  have hholds : Holds owner label s₁ (out ++ new) c (R c) said' (some n) := by
    refine hc.rekept hon.aim hon.byKey (by rw [hpend]; exact hc.kept) (by rw [hpend]; exact hc.notKept) (by simp) ?_
    intro m hm
    cases hm
    exact ⟨tool, htool, hsent, by rw [hpend]; exact hsaid⟩
  exact ⟨_, h.step htouched hholds (Or.inl ⟨hnum.symm, hon.length⟩)⟩

/-- From `s` to `s'` something was kept under an identifier. -/
structure KeptUnder (s s' : ResponsesToChatStreamState) (id : ToolKey) (d : Bytes) : Prop where
  aim     : ∀ id', s'.aim id' = s.aim id'
  pending : ∀ id', s'.pending id' = if id' = id then some ((s.pending id).getD [] ++ d) else s.pending id'
  byKey   : s'.toolByKey = s.toolByKey
  tools   : s'.tools = s.tools

/-- A delta is kept under an output index. -/
def keepByOutputIndex (s : ResponsesToChatStreamState) (i : ℤ) (d : Bytes) : ResponsesToChatStreamState :=
  { s with pendingArgsByOutputIndex :=
      s.pendingArgsByOutputIndex.insert i ((s.pendingArgsByOutputIndex.lookup i).getD [] ++ d) }

/-- A delta is kept under an item id. -/
def keepByItemID (s : ResponsesToChatStreamState) (x : String) (d : Bytes) : ResponsesToChatStreamState :=
  { s with pendingArgsByItemID :=
      s.pendingArgsByItemID.insert x ((s.pendingArgsByItemID.lookup x).getD [] ++ d) }

theorem keepByOutputIndex_kept (s : ResponsesToChatStreamState) (i : ℤ) (d : Bytes) :
    KeptUnder s (keepByOutputIndex s i d) (.output i) d := by
  refine ⟨?_, ?_, rfl, rfl⟩
  · intro id'
    cases id' <;> rfl
  · intro id'
    cases id' <;> simp [ResponsesToChatStreamState.pending, keepByOutputIndex, lookup_insert_ite]

theorem keepByItemID_kept (s : ResponsesToChatStreamState) (x : String) (d : Bytes) :
    KeptUnder s (keepByItemID s x d) (.item x) d := by
  refine ⟨?_, ?_, rfl, rfl⟩
  · intro id'
    cases id' <;> rfl
  · intro id'
    cases id' <;> simp [ResponsesToChatStreamState.pending, keepByItemID, lookup_insert_ite]

/-- A delta that finds no call is kept, under the first identifier that it names. -/
theorem toolArgumentsDelta_keeps (s : ResponsesToChatStreamState) (hd : event.delta ≠ [])
    (hf : s.findToolForEvent event = none) {id : ToolKey} (hid : (argumentsGiven event).head? = some id) :
    ∃ s', s.toolArgumentsDelta event = ([], s') ∧ KeptUnder s s' id event.delta := by
  cases ho : event.outputIndex with
  | some i =>
    have hid' : id = .output i := by simpa [argumentsGiven, outputKey, ho, eq_comm] using hid
    subst hid'
    refine ⟨keepByOutputIndex s i event.delta, ?_, keepByOutputIndex_kept s i event.delta⟩
    simp only [toolArgumentsDelta, hd, if_false, hf, ho]
    rfl
  | none =>
    by_cases hx : trimSpace event.itemID = ""
    · simp [argumentsGiven, outputKey, itemKey, ho, hx] at hid
    · have hid' : id = .item (trimSpace event.itemID) := by
        simpa [argumentsGiven, outputKey, itemKey, ho, hx, eq_comm] using hid
      subst hid'
      refine ⟨keepByItemID s (trimSpace event.itemID) event.delta, ?_,
        keepByItemID_kept s (trimSpace event.itemID) event.delta⟩
      simp only [toolArgumentsDelta, hd, if_false, hf, ho]
      rw [if_pos hx]
      rfl

/-- A delta of a call is kept. -/
theorem Good.kept (h : Good owner label s out R S number) {id : ToolKey} {d : Bytes} (hk : KeptUnder s s₁ id d)
    (hid : owner id = c) (hun : id ∉ (R c).known) (hkept : (R c).kept = none ∨ (R c).kept = some id) :
    ∃ number', Good owner label s₁ (out ++ []) (update R c { R c with kept := some id })
      (update S c (S c ++ d)) number' := by
  have hc := h.holds c
  have htouched : Touched owner s s₁ [] c (number c) := by
    refine ⟨fun id' _ => hk.aim id', ?_, fun id' _ => by rw [hk.byKey], fun m _ => by rw [hk.tools], ?_⟩
    · intro id' hid'
      rw [hk.pending id', if_neg]
      rintro rfl
      exact hid' hid
    · intro t ht
      simp [toolDeltas] at ht
  -- what was kept so far is what is kept under this identifier
  have hold : ((R c).kept.bind s.pending).getD [] = (s.pending id).getD [] := by
    rcases hkept with hkept | hkept
    · rw [hkept, hc.notKept id hid (by simp [hkept])]
      rfl
    · rw [hkept]
      rfl
  have hnew : ((some id).bind s₁.pending).getD [] = (s.pending id).getD [] ++ d := by
    rw [bind_some, hk.pending id, if_pos rfl]
    rfl
  have hholds : Holds owner label s₁ (out ++ []) c { R c with kept := some id } (S c ++ d) (number c) := by
    rw [append_nil]
    refine hc.rekept hk.aim hk.byKey ?_ ?_ ?_ ?_
    · intro id' hid'
      cases hid'
      refine ⟨hid, hun, ?_⟩
      rw [hk.pending id, if_pos rfl]
      simp
    · intro id' hid' hne
      have hne' : id' ≠ id := by
        rintro rfl
        exact hne rfl
      rw [hk.pending id', if_neg hne']
      refine hc.notKept id' hid' ?_
      rcases hkept with hkept | hkept
      · simp [hkept]
      · rw [hkept]
        intro h'
        exact hne h'
    · intro hnone
      show S c ++ d = ((some id).bind s₁.pending).getD []
      rw [hnew, hc.waiting hnone, hold]
    · intro n hn
      obtain ⟨tool, htool, hsent, hsaid⟩ := hc.tool n hn
      refine ⟨tool, by rw [hk.tools]; exact htool, hsent, ?_⟩
      show S c ++ d = tool.arguments ++ ((some id).bind s₁.pending).getD []
      rw [hnew, hsaid, hold, append_assoc]
  exact ⟨_, h.step htouched hholds (Or.inl ⟨rfl, by rw [hk.tools]⟩)⟩

/-- The input of a delta. -/
def deltaInput (event : WireEvent) : ToolInput := ⟨argumentsGiven event, .delta event.delta⟩

theorem Good.toolArgumentsDelta (h : Good owner label s out R S number) (hi : event.item = none)
    (hd : event.delta ≠ []) (hown : ∀ id ∈ argumentsGiven event, owner id = c) (hg : argumentsGiven event ≠ [])
    {r' : Route} (hr : (R c).step (deltaInput event) = some r') (hpl : ∀ l, label c = some l → l.Plain) :
    ∃ number', Good owner label (s.toolArgumentsDelta event).2 (out ++ (s.toolArgumentsDelta event).1)
      (update R c r') (update S c (S c ++ event.delta)) number' := by
  rcases step_delta hr with ⟨hk, hkept, rfl⟩ | ⟨hk, hkept, rfl⟩
  · -- the call is known, and the delta is sent
    obtain ⟨n, hnum, hsome⟩ := h.linked_of_knows hk
    have hf := s.findToolForEvent_known hi (h.leads hown hnum) hsome
    obtain ⟨base, hbase, hsent, hsaid⟩ := (h.holds c).tool n hnum
    have heq : s.toolArgumentsDelta event = (s.modifyTool n (moreArguments event.delta)).toolDelta n event.delta := by
      simp only [ResponsesToChatStreamState.toolArgumentsDelta, hd, if_false, hf]
      rfl
    have hget : (s.modifyTool n (moreArguments event.delta)).tools[n]? = some (moreArguments event.delta base) := by
      rw [modifyTool_tools, getElem?_modify_eq, hbase]
      rfl
    have hdrop : (moreArguments event.delta base).argsDelta event.delta =
        (moreArguments event.delta base).arguments.drop (moreArguments event.delta base).argsSentAt := by
      have hdr : (base.arguments ++ event.delta).drop base.argsSentAt = event.delta := by
        rw [hsent.upTo, drop_left]
      show (if event.delta = [] then _ else event.delta) = (base.arguments ++ event.delta).drop base.argsSentAt
      rw [if_neg hd, hdr]
    have hl : ∀ l, label c = some l → l.Plain ∧ (moreArguments event.delta base).callID = l.callID ∧
        (moreArguments event.delta base).name = l.name := by
      intro l hl
      obtain ⟨hid, hnm, -, -⟩ := hsent.labels l hl
      exact ⟨hpl l hl, hid, hnm⟩
    obtain ⟨hon, tool', htool', hsent', harg'⟩ := toolDelta_all (d := event.delta) hget hsent.ready rfl rfl rfl
      (prefix_append _ _) hdrop hl
    rw [heq]
    refine h.sentOn hnum ((modifyTool_sentOn s n _).trans hon) htool' hsent' ?_
    rw [harg', hsaid, hkept]
    simp [moreArguments]
  · -- the call is not known by this identifier, and the delta is kept
    have hun := h.aim_of_not_knows hown hk
    have hf := s.findToolForEvent_unknown hi (fun id hid => (hun id hid).1)
    obtain ⟨id, hid⟩ : ∃ id, (argumentsGiven event).head? = some id := ⟨_, head?_eq_some_head hg⟩
    have hmem : id ∈ argumentsGiven event := mem_of_mem_head? hid
    have hnk : id ∉ (R c).known := by
      intro hmem'
      obtain ⟨key, ha, -⟩ := (h.holds c).known id hmem'
      rw [(hun id hmem).1] at ha
      simp at ha
    obtain ⟨s₁, heq, hkeep⟩ := toolArgumentsDelta_keeps s hd hf hid
    rw [heq]
    have hg' := h.kept hkeep (hown id hmem) hnk (by rw [← hid]; exact hkept)
    rw [← hid] at hg'
    exact hg'

/-- The input of an event that ends the arguments. -/
def doneInput (event : WireEvent) : ToolInput := ⟨argumentsGiven event, .argumentsDone⟩

theorem Good.flushPendingTool (h : Good owner label s out R S number) (hi : event.item = none)
    (hown : ∀ id ∈ argumentsGiven event, owner id = c) (hg : argumentsGiven event ≠ []) {r' : Route}
    (hr : (R c).step (doneInput event) = some r') (hlab : label c = none ∨ (R c).known ≠ []) :
    ∃ number', Good owner label (s.flushPendingTool event).2 (out ++ (s.flushPendingTool event).1)
      (update R c r') (update S c (S c)) number' := by
  rcases step_argumentsDone hr with ⟨hk, rfl⟩ | ⟨hk, hnil, rfl⟩
  · -- everything was sent
    obtain ⟨n, hnum, hsome⟩ := h.linked_of_knows hk
    have hf := s.findToolForEvent_known hi (h.leads hown hnum) hsome
    obtain ⟨tool, htool, hsent, -⟩ := (h.holds c).tool n hnum
    have hq : s.toolDelta n [] = ([], s) := by
      refine s.toolDelta_quiet htool ⟨hsent.quiet.1, ?_, hsent.quiet.2⟩
      show (if ([] : Bytes) = [] then tool.arguments.drop tool.argsSentAt else []) = []
      rw [if_pos rfl, hsent.upTo, drop_length]
    have heq : s.flushPendingTool event = ([], s) := by
      simp only [ResponsesToChatStreamState.flushPendingTool, hf]
      exact hq
    rw [heq, append_nil, update_eq_self, update_eq_self]
    exact ⟨number, h⟩
  · -- the call is added for what is kept of it
    have hun := h.aim_of_not_knows hown hk
    have hf := s.findToolForEvent_unknown hi (fun id hid => (hun id hid).1)
    obtain ⟨key, hkey⟩ : ∃ key, (argumentsGiven event).head? = some key := ⟨_, head?_eq_some_head hg⟩
    have hmem : key ∈ argumentsGiven event := mem_of_mem_head? hkey
    have hout : ∀ i, ToolKey.output i ∈ argumentsGiven event → key = .output i := by
      intro i hi'
      unfold argumentsGiven outputKey itemKey at hkey hi'
      cases ho : event.outputIndex with
      | none =>
        rw [ho] at hi'
        split at hi' <;> simp at hi'
      | some =>
        rw [ho] at hkey hi'
        split at hi' <;> simp_all
    have hnum : number c = none := (h.holds c).linked.2 hnil
    have hl : label c = none := by
      rcases hlab with hlab | hlab
      · exact hlab
      · exact absurd hnil hlab
    obtain ⟨s₁, he, hens⟩ := s.ensureFallbackToolForEvent_new hi hkey (hun key hmem).2
    have heq : s.flushPendingTool event = s₁.toolDelta s.tools.length [] := by
      simp only [ResponsesToChatStreamState.flushPendingTool, hf, he]
    have hfound : FoundIn (number c) s.tools (s.tools ++ [{ key := key, callID := fallbackCallID event }])
        s.tools.length { key := key, callID := fallbackCallID event } := Or.inr ⟨hnum, rfl, rfl⟩
    obtain ⟨hready, hsaid⟩ := h.ready hfound (fun _ => ⟨rfl, rfl, rfl, rfl⟩)
    have hget : s₁.tools[s.tools.length]? = some ((moreArguments (s.keptText (argumentsGiven event)) ∘
        setItemID (trimSpace event.itemID)) { key := key, callID := fallbackCallID event }) := by
      rw [hens.tools, getElem?_modify_eq, hfound.getElem?]
      rfl
    obtain ⟨hon, tool', htool', hsent', harg'⟩ := toolDelta_all (d := []) hget hready rfl rfl rfl
      (prefix_append _ _) (if_pos rfl) (by rw [hl]; simp)
    rw [heq]
    refine h.ensured hens hfound hown hmem hout hon htool' hsent' ?_
    have hpend : (s₁.toolDelta s.tools.length []).2.pending = s₁.pending := funext hon.pending
    have hsplit := (h.holds c).kept_split hown (argumentsGiven_nodup event) hens.pending
    rw [harg', hpend, hsaid, ← hsplit]
    rfl

end

end NovaMaas.Convert
