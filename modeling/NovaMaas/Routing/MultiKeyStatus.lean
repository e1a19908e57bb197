/-
  What becomes of the statuses of a channel's keys.

  `disabled` notes of every key whether the last change that named it disabled it.  Table and cache say the same as these
  notes (`Kept`) in every run whose steps are `Sound` (`statuses_kept`): a key is selected on a value that is up to date,
  and a change names a key.  Two slips make the conditions necessary:

    - with the cache off, polling saves the whole information of the value it was called on, so a key that was disabled
      since the value was loaded is enabled again (`statuses_lost`);
    - a change to the status that the channel already has returns before the keys are looked at, so a key of a channel
      that is enabled is never enabled in the table.
-/
import NovaMaas.Routing.MultiKey

open Function

open Option hiding any_eq_true

open List

namespace NovaMaas.MultiKey

/-! ## The claim -/

/-- The status of a key in a value. -/
def Channel.keyStatus (c : Channel) (key : String) : ℕ := c.channelInfo.getStatus (c.keys.idxOf key)

/-- The notes of the beginning. -/
def disabledIn (c : Channel) (key : String) : Bool := c.keyStatus key ≠ channelStatusEnabled

/-- The notes after an action. -/
def noted (disabled : String → Bool) : Action → String → Bool
  | .update usingKey status _ _ => update disabled usingKey (decide (status ≠ channelStatusEnabled))
  | _ => disabled

/-- The value says the same of every key as the row, or at least what it says enabled is; where it is to be saved, it has
to be the same. -/
def UpToDate (memoryCacheEnabled : Bool) (db value : Channel) : Prop :=
  (∀ key ∈ db.keys, value.keyStatus key = channelStatusEnabled → db.keyStatus key = channelStatusEnabled) ∧
    (memoryCacheEnabled = false → value.channelInfo.multiKeyMode = .polling →
      ∀ key ∈ db.keys, db.keyStatus key = channelStatusEnabled → value.keyStatus key = channelStatusEnabled)

/-- The conditions on a step. -/
def Sound (memoryCacheEnabled : Bool) (s : State) : Action → Prop
  | .load => True
  | .select .cached intn => ∀ n, 0 < n → intn n < n
  | .select (.loaded i) intn =>
    (∀ n, 0 < n → intn n < n) ∧ ∀ value, s.loaded[i]? = some value → UpToDate memoryCacheEnabled s.db value
  | .update usingKey status _ _ =>
    (usingKey ∈ s.db.keys ∨ usingKey ≠ "") ∧
      (status = channelStatusEnabled → s.db.status = channelStatusEnabled → usingKey ∈ s.db.keys →
        s.db.keyStatus usingKey = channelStatusEnabled)

/-- A channel with several keys, that is enabled if and only if one of its keys is, and the cache that was loaded of it. -/
structure Start (memoryCacheEnabled : Bool) (s : State) : Prop where
  multi  : s.db.channelInfo.isMultiKey = true
  keys   : s.db.keys ≠ []
  nodup  : s.db.keys.Nodup
  status : s.db.status = channelStatusEnabled ↔ ∃ key ∈ s.db.keys, s.db.keyStatus key = channelStatusEnabled
  cache  : s.cache = if memoryCacheEnabled then some s.db else none
  loaded : s.loaded = []

/-- The states of the runs with sound steps, and the notes of the run. -/
inductive Reached (memoryCacheEnabled : Bool) (start : State) : State → (String → Bool) → Prop where
  | start : Reached memoryCacheEnabled start start (disabledIn start.db)
  | step {s s' : State} {disabled : String → Bool} (h : Reached memoryCacheEnabled start s disabled) (action : Action)
      (hsound : Sound memoryCacheEnabled s action) (hstep : MultiKey.step memoryCacheEnabled s action = some s') :
      Reached memoryCacheEnabled start s' (noted disabled action)

/-- What the statuses say is what was done to the keys. -/
structure Kept (memoryCacheEnabled : Bool) (s : State) (disabled : String → Bool) : Prop where
  stored   : ∀ key ∈ s.db.keys, s.db.keyStatus key ≠ channelStatusEnabled ↔ disabled key = true
  cached   : memoryCacheEnabled = true → ∃ c, s.cache = some c ∧ c.keys = s.db.keys ∧
    (∀ key ∈ s.db.keys, c.keyStatus key ≠ channelStatusEnabled ↔ disabled key = true) ∧
    (c.status ≠ channelStatusEnabled ↔ ∀ key ∈ s.db.keys, disabled key = true)
  channel  : s.db.status ≠ channelStatusEnabled ↔ ∀ key ∈ s.db.keys, disabled key = true
  selected : ∀ source intn selected key idx, Sound memoryCacheEnabled s (.select source intn) →
    s.select memoryCacheEnabled source intn = some selected → selected.result = .ok (key, idx) →
      s.db.keys[idx]? = some key ∧ disabled key = false

/-! ## The invariant -/

/-- A value that says the same as the notes. -/
structure Agrees (keys : List String) (disabled : String → Bool) (c : Channel) : Prop where
  same   : c.keys = keys
  multi  : c.channelInfo.isMultiKey = true
  each   : ∀ key ∈ keys, c.keyStatus key = channelStatusEnabled ↔ disabled key = false
  status : c.status = channelStatusEnabled ↔ ∃ key ∈ keys, disabled key = false

structure Inv (memoryCacheEnabled : Bool) (keys : List String) (s : State) (disabled : String → Bool) : Prop where
  db     : Agrees keys disabled s.db
  cache  : ∀ c, s.cache = some c → Agrees keys disabled c
  has    : s.cache.isSome = memoryCacheEnabled
  loaded : ∀ c ∈ s.loaded, c.keys = keys ∧ c.channelInfo.isMultiKey = true

variable {disabled : String → Bool} {keys : List String} {c : Channel}

theorem Agrees.congr {disabled' : String → Bool}
    (h : Agrees keys disabled c) (hsame : ∀ key ∈ keys, disabled' key = disabled key) : Agrees keys disabled' c := by
  refine ⟨h.same, h.multi, fun key hkey => ?_, ?_⟩
  · rw [h.each key hkey, hsame key hkey]
  · rw [h.status]
    constructor
    · rintro ⟨key, hkey, henabled⟩
      exact ⟨key, hkey, (hsame key hkey).trans henabled⟩
    · rintro ⟨key, hkey, henabled⟩
      exact ⟨key, hkey, (hsame key hkey).symm.trans henabled⟩

/-- A value with the statuses of another one. -/
theorem Agrees.of_same {c' : Channel} (h : Agrees keys disabled c)
    (hkeys : c'.keys = c.keys) (hmulti : c'.channelInfo.isMultiKey = true)
    (heach : ∀ key ∈ keys, c'.keyStatus key = channelStatusEnabled ↔ c.keyStatus key = channelStatusEnabled)
    (hstatus : c'.status = c.status) : Agrees keys disabled c' :=
  ⟨hkeys.trans h.same, hmulti, fun key hkey => (heach key hkey).trans (h.each key hkey), by rw [hstatus, h.status]⟩

/-! ## Changes of the status -/

theorem getStatus_setKeyStatus (info : ChannelInfo) (idx status : ℕ) (reason : String) (now i : ℕ) :
    (info.setKeyStatus idx status reason now).getStatus i = if i = idx then status else info.getStatus i := by
  unfold ChannelInfo.setKeyStatus ChannelInfo.getStatus
  by_cases hstatus : status = channelStatusEnabled
  · rw [if_pos hstatus]
    by_cases hi : i = idx
    · simp [hi, hstatus]
    · simp [hi]
  · rw [if_neg hstatus]
    by_cases hi : i = idx
    · simp [hi]
    · simp [hi]

theorem hasEnabledMultiKey_iff (hnodup : c.keys.Nodup) :
    hasEnabledMultiKey c = true ↔ ∃ key ∈ c.keys, c.keyStatus key = channelStatusEnabled := by
  unfold hasEnabledMultiKey Channel.keyStatus
  simp only [any_eq_true, mem_range, decide_eq_true_eq]
  constructor
  · rintro ⟨i, hi, henabled⟩
    refine ⟨c.keys[i], getElem_mem hi, ?_⟩
    rw [hnodup.idxOf_getElem]
    exact henabled
  · rintro ⟨key, hkey, henabled⟩
    exact ⟨_, idxOf_lt_length_of_mem hkey, henabled⟩

/-- The handler writes down what it is told of a key. -/
theorem agrees_handler (h : Agrees keys disabled c)
    (hnodup : keys.Nodup) {usingKey : String} (hkey : usingKey ∈ keys) (status : ℕ) (reason : String) (now : ℕ) :
    Agrees keys (update disabled usingKey (decide (status ≠ channelStatusEnabled)))
      (handlerMultiKeyUpdate c usingKey status reason now) := by
  obtain ⟨updated, hupdated⟩ : ∃ updated : Channel, updated = { c with
    channelInfo := c.channelInfo.setKeyStatus (c.keys.idxOf usingKey) status reason now } := ⟨_, rfl⟩
  have hmem : usingKey ∈ c.keys := h.same ▸ hkey
  have hne : c.keys ≠ [] := ne_nil_of_mem hmem
  have hkeys : updated.keys = keys := by
    rw [hupdated]
    exact h.same
  have hmulti : updated.channelInfo.isMultiKey = true := by
    rw [hupdated]
    show (c.channelInfo.setKeyStatus _ _ _ _).isMultiKey = true
    unfold ChannelInfo.setKeyStatus
    split
    · exact h.multi
    · exact h.multi
  have heach : ∀ key ∈ keys, updated.keyStatus key = channelStatusEnabled ↔
      update disabled usingKey (decide (status ≠ channelStatusEnabled)) key = false := by
    intro key hmemKey
    have hstatus : updated.keyStatus key =
        if c.keys.idxOf key = c.keys.idxOf usingKey then status else c.keyStatus key := by
      rw [hupdated]
      exact getStatus_setKeyStatus _ _ _ _ _ _
    rw [hstatus]
    by_cases hsame : key = usingKey
    · rw [hsame, if_pos rfl, update_self]
      simp
    · have hidx : c.keys.idxOf key ≠ c.keys.idxOf usingKey := fun heq =>
        hsame ((idxOf_inj (h.same ▸ hmemKey)).1 heq)
      rw [if_neg hidx, update_of_ne hsame]
      exact h.each key hmemKey
  have hhas : hasEnabledMultiKey updated = true ↔
      ∃ key ∈ keys, update disabled usingKey (decide (status ≠ channelStatusEnabled)) key = false := by
    rw [hasEnabledMultiKey_iff (hkeys ▸ hnodup), hkeys]
    exact exists_congr fun key => and_congr_right fun hmemKey => heach key hmemKey
  have hhandler : handlerMultiKeyUpdate c usingKey status reason now = if !hasEnabledMultiKey updated then
        { updated with status := channelStatusAutoDisabled, otherInfo := some ("All keys are disabled", now) }
      else if status = channelStatusEnabled then { updated with status := channelStatusEnabled }
      else updated := by
    unfold handlerMultiKeyUpdate
    rw [if_neg hne, if_pos hmem, hupdated]
  rw [hhandler]
  cases henabled : hasEnabledMultiKey updated with
  | false =>
    refine ⟨hkeys, hmulti, heach, ?_⟩
    rw [← hhas, henabled]
    show channelStatusAutoDisabled = channelStatusEnabled ↔ _
    decide
  | true =>
    simp only [Bool.not_true, Bool.false_eq_true, if_false]
    by_cases hstatus : status = channelStatusEnabled
    · rw [if_pos hstatus]
      exact ⟨hkeys, hmulti, heach, iff_of_true rfl (hhas.1 henabled)⟩
    · rw [if_neg hstatus]
      refine ⟨hkeys, hmulti, heach, ?_⟩
      -- a key that is still enabled was enabled before
      have hbefore : ∃ key ∈ keys, disabled key = false := by
        obtain ⟨key, hmemKey, hkeyEnabled⟩ := hhas.1 henabled
        refine ⟨key, hmemKey, ?_⟩
        by_cases hsame : key = usingKey
        · rw [hsame, update_self] at hkeyEnabled
          simp [hstatus] at hkeyEnabled
        · rwa [update_of_ne hsame] at hkeyEnabled
      have hupdatedStatus : updated.status = c.status := by rw [hupdated]
      rw [hupdatedStatus]
      exact iff_of_true (h.status.2 hbefore) (hhas.1 henabled)

/-- A key the channel does not have changes nothing. -/
theorem agrees_unknown (h : Agrees keys disabled c)
    (hne : keys ≠ []) {usingKey : String} (hkey : usingKey ∉ keys) (hempty : usingKey ≠ "") (status : ℕ)
    (reason : String) (now : ℕ) :
    Agrees keys (update disabled usingKey (decide (status ≠ channelStatusEnabled)))
      (handlerMultiKeyUpdate c usingKey status reason now) := by
  have hhandler : handlerMultiKeyUpdate c usingKey status reason now = c := by
    unfold handlerMultiKeyUpdate
    rw [h.same, if_neg hne, if_neg hkey, if_pos hempty]
  rw [hhandler]
  refine h.congr fun key hmem => update_of_ne ?_ _ _
  rintro rfl
  exact hkey hmem

section
variable {memoryCacheEnabled : Bool} {keys : List String} {s : State} {disabled : String → Bool}
  (h : Inv memoryCacheEnabled keys s disabled) (hne : keys ≠ []) (hnodup : keys.Nodup)
include h hne hnodup

theorem inv_update {usingKey : String} {status : ℕ} (reason : String) (now : ℕ)
    (hsound : Sound memoryCacheEnabled s (.update usingKey status reason now)) :
    Inv memoryCacheEnabled keys (updateChannelStatus memoryCacheEnabled usingKey status reason now s).1
      (noted disabled (.update usingKey status reason now)) := by
  obtain ⟨hnamed, henable⟩ := hsound
  rw [h.db.same] at hnamed henable
  have hwritten : ∀ c, Agrees keys disabled c → Agrees keys (noted disabled (.update usingKey status reason now))
        (handlerMultiKeyUpdate c usingKey status reason now) := by
    intro c hc
    by_cases hkey : usingKey ∈ keys
    · exact agrees_handler hc hnodup hkey status reason now
    · exact agrees_unknown hc hne hkey (hnamed.resolve_left hkey) status reason now
  have hstored : Agrees keys (noted disabled (.update usingKey status reason now))
      (if s.db.status = status then s.db else updateStored usingKey status reason now s.db) := by
    by_cases hsame : s.db.status = status
    · -- the row stays as it is: nothing was to be changed
      rw [if_pos hsame]
      refine h.db.congr fun key hmem => ?_
      show update disabled usingKey (decide (status ≠ channelStatusEnabled)) key = disabled key
      by_cases hkey : key = usingKey
      · rw [hkey, update_self]
        by_cases hstatus : status = channelStatusEnabled
        · have hdisabled := (h.db.each usingKey (hkey ▸ hmem)).1
            (henable hstatus (hsame.trans hstatus) (hkey ▸ hmem))
          rw [hdisabled]
          simp [hstatus]
        · have hnone : ¬ ∃ key ∈ keys, disabled key = false := fun hsome =>
            hstatus (hsame.symm.trans (h.db.status.2 hsome))
          have hdisabled : disabled usingKey = true := by
            by_contra hnot
            exact hnone ⟨usingKey, hkey ▸ hmem, Bool.eq_false_of_not_eq_true hnot⟩
          rw [hdisabled]
          simp [hstatus]
      · exact update_of_ne hkey _ _
    · rw [if_neg hsame]
      unfold updateStored
      rw [if_pos h.db.multi]
      exact hwritten s.db h.db
  have hloaded := h.loaded
  have hhas := h.has
  unfold updateChannelStatus
  cases hcache : s.cache with
  | none =>
    rw [hcache] at hhas
    obtain rfl : false = memoryCacheEnabled := hhas
    simp only [Bool.false_eq_true, if_false]
    by_cases hsame : s.db.status = status
    · rw [if_pos hsame] at hstored ⊢
      exact ⟨hstored, fun c hc => (by rw [hcache] at hc; cases hc), by rw [hcache]; rfl, hloaded⟩
    · rw [if_neg hsame] at hstored ⊢
      exact ⟨hstored, fun c hc => (by rw [hcache] at hc; cases hc), by rw [hcache]; rfl, hloaded⟩
  | some c =>
    rw [hcache] at hhas
    obtain rfl : true = memoryCacheEnabled := hhas
    have hc := h.cache c hcache
    have hcached : Agrees keys (noted disabled (.update usingKey status reason now))
        (updateCached usingKey status reason now c) := by
      unfold updateCached
      rw [if_pos hc.multi]
      exact hwritten c hc
    simp only [if_true, hc.multi, Bool.not_true, Bool.false_and, Bool.false_eq_true, if_false]
    by_cases hsame : s.db.status = status
    · rw [if_pos hsame] at hstored ⊢
      exact ⟨hstored, fun b hb => some.inj hb ▸ hcached, rfl, hloaded⟩
    · rw [if_neg hsame] at hstored ⊢
      exact ⟨hstored, fun b hb => some.inj hb ▸ hcached, rfl, hloaded⟩

end

/-! ## Selections -/

/-- What a selection leaves: the value with another cursor. -/
structure Selects (memoryCacheEnabled : Bool) (c : Channel) (selected : Selected) : Prop where
  keys   : selected.channel.keys = c.keys
  multi  : selected.channel.channelInfo.isMultiKey = c.channelInfo.isMultiKey
  list   : selected.channel.channelInfo.multiKeyStatusList = c.channelInfo.multiKeyStatusList
  status : selected.channel.status = c.status
  save   : selected.save = true → memoryCacheEnabled = false ∧ c.channelInfo.multiKeyMode = .polling
  result : ∀ key idx, selected.result = .ok (key, idx) →
    c.keys[idx]? = some key ∧ c.channelInfo.getStatus idx = channelStatusEnabled

theorem mem_enabledIdx {c : Channel} {idx : ℕ} :
    idx ∈ enabledIdx c ↔ idx < c.keys.length ∧ c.channelInfo.getStatus idx = channelStatusEnabled := by
  unfold enabledIdx
  rw [mem_filter, mem_range, decide_eq_true_eq]

/-- A result of an enabled index. -/
theorem result_of_enabled {c : Channel} {idx : ℕ} (hidx : idx ∈ enabledIdx c) {key : String} {idx' : ℕ}
    (hresult : (.ok (c.keys.getD idx "", idx) : Except String (String × ℕ)) = .ok (key, idx')) :
    c.keys[idx']? = some key ∧ c.channelInfo.getStatus idx' = channelStatusEnabled := by
  obtain ⟨hlt, henabled⟩ := mem_enabledIdx.1 hidx
  cases hresult
  refine ⟨?_, henabled⟩
  rw [getD_eq_getElem?_getD, getElem?_eq_getElem hlt]
  rfl

theorem selects {memoryCacheEnabled : Bool} {cursor : Option ℤ} {intn : ℕ → ℕ} (hintn : ∀ n, 0 < n → intn n < n)
    {c : Channel} (hmulti : c.channelInfo.isMultiKey = true) :
    Selects memoryCacheEnabled c (getNextEnabledKey memoryCacheEnabled cursor intn c) := by
  have herror : ∀ err : String, Selects memoryCacheEnabled c { result := .error err, channel := c } := fun err =>
    ⟨rfl, rfl, rfl, rfl, fun hsave => (by cases hsave), fun _ _ hresult => (by cases hresult)⟩
  unfold getNextEnabledKey
  rw [hmulti]
  simp only [Bool.not_true, Bool.false_eq_true, if_false]
  split
  · exact herror _
  split
  · exact herror _
  next hne =>
    have hpos := length_pos_iff.2 hne
    have hhead : (enabledIdx c).headD 0 ∈ enabledIdx c := by
      cases hlist : enabledIdx c with
      | nil => exact absurd hlist hne
      | cons => exact mem_cons_self
    split
    · refine ⟨rfl, rfl, rfl, rfl, fun hsave => (by cases hsave), fun key idx hresult => ?_⟩
      refine result_of_enabled ?_ hresult
      rw [getD_eq_getElem?_getD, getElem?_eq_getElem (hintn _ hpos)]
      exact getElem_mem _
    · next hmode =>
      split
      · exact herror _
      · next index =>
        split
        · next idx hfind =>
          refine ⟨rfl, rfl, rfl, rfl, fun hsave => ⟨by simpa using hsave, hmode⟩, fun key idx' hresult => ?_⟩
          have henabled := find?_some hfind
          rw [decide_eq_true_eq] at henabled
          refine result_of_enabled (mem_enabledIdx.2 ⟨?_, henabled⟩) hresult
          obtain ⟨i, hi, rfl⟩ := mem_map.1 (mem_of_find?_eq_some hfind)
          have hi := mem_range.1 hi
          exact Nat.mod_lt _ (by omega)
        · exact ⟨rfl, rfl, rfl, rfl, fun hsave => ⟨by simpa using hsave, hmode⟩,
            fun key idx hresult => result_of_enabled hhead hresult⟩
    · exact ⟨rfl, rfl, rfl, rfl, fun hsave => (by cases hsave),
        fun key idx hresult => result_of_enabled hhead hresult⟩

section
variable {memoryCacheEnabled : Bool} {keys : List String} {s : State} {disabled : String → Bool}
  (h : Inv memoryCacheEnabled keys s disabled)
include h

variable {source : Source} {intn : ℕ → ℕ}

/-- The value a selection is made on. -/
theorem value_ok (hsound : Sound memoryCacheEnabled s (.select source intn))
    {c : Channel} (hvalue : s.value source = some c) :
    (∀ n, 0 < n → intn n < n) ∧ c.keys = keys ∧ c.channelInfo.isMultiKey = true ∧
      UpToDate memoryCacheEnabled s.db c := by
  cases source with
  | cached =>
    have hc := h.cache c hvalue
    refine ⟨hsound, hc.same, hc.multi, ?_, ?_⟩
    · intro key hkey henabled
      rw [h.db.same] at hkey
      exact (h.db.each key hkey).2 ((hc.each key hkey).1 henabled)
    · intro hoff
      have hvalue : s.cache = some c := hvalue
      have hhas := h.has
      rw [hvalue, hoff] at hhas
      cases hhas
  | loaded =>
    obtain ⟨hsame, hmulti⟩ := h.loaded c (mem_of_getElem? hvalue)
    exact ⟨hsound.1, hsame, hmulti, hsound.2 c hvalue⟩

/-- A selection returns a key that is not noted as disabled. -/
theorem select_enabled (hnodup : keys.Nodup)
    (hsound : Sound memoryCacheEnabled s (.select source intn)) {selected : Selected} {key : String} {idx : ℕ}
    (hselect : s.select memoryCacheEnabled source intn = some selected) (hresult : selected.result = .ok (key, idx)) :
    s.db.keys[idx]? = some key ∧ disabled key = false := by
  obtain ⟨c, hvalue, rfl⟩ := map_eq_some_iff.1 hselect
  obtain ⟨hintn, hsame, hmulti, hcurrent, _⟩ := value_ok h hsound hvalue
  obtain ⟨hkey, henabled⟩ := (selects hintn hmulti).result key idx hresult
  rw [hsame] at hkey
  have hmem : key ∈ keys := mem_of_getElem? hkey
  refine ⟨h.db.same ▸ hkey, (h.db.each key hmem).1 (hcurrent key (h.db.same.symm ▸ hmem) ?_)⟩
  obtain ⟨hlt, hget⟩ := List.getElem?_eq_some_iff.1 hkey
  have hidx : keys.idxOf key = idx := by rw [← hget, hnodup.idxOf_getElem]
  unfold Channel.keyStatus
  rw [hsame, hidx]
  exact henabled

theorem inv_select (hsound : Sound memoryCacheEnabled s (.select source intn))
    {selected : Selected} (hselect : s.select memoryCacheEnabled source intn = some selected) :
    Inv memoryCacheEnabled keys (s.afterSelect source selected) disabled := by
  obtain ⟨c, hvalue, rfl⟩ := map_eq_some_iff.1 hselect
  obtain ⟨hintn, hsame, hmulti, hcurrent, hsaved⟩ := value_ok h hsound hvalue
  obtain ⟨selected, hselected⟩ : ∃ selected,
      selected = getNextEnabledKey memoryCacheEnabled (s.cursor memoryCacheEnabled) intn c := ⟨_, rfl⟩
  have hspec : Selects memoryCacheEnabled c selected := hselected ▸ selects hintn hmulti
  rw [← hselected]
  have hleft : selected.channel.keys = keys ∧ selected.channel.channelInfo.isMultiKey = true :=
    ⟨hspec.keys.trans hsame, hspec.multi.trans hmulti⟩
  have hstatuses : ∀ key, selected.channel.keyStatus key = c.keyStatus key := by
    intro key
    unfold Channel.keyStatus ChannelInfo.getStatus
    rw [hspec.keys, hspec.list]
  have hdb : Agrees keys disabled
      (if selected.save then { s with db := { s.db with channelInfo := selected.channel.channelInfo } } else s).db := by
    cases hsave : selected.save with
    | false => exact h.db
    | true =>
      -- what is saved is up to date
      obtain ⟨hoff, hmode⟩ := hspec.save hsave
      refine h.db.of_same rfl hleft.2 (fun key hkey => ?_) rfl
      have hkeyDb : key ∈ s.db.keys := h.db.same.symm ▸ hkey
      have hwritten : ({ s.db with channelInfo := selected.channel.channelInfo } : Channel).keyStatus key =
          c.keyStatus key := by
        rw [← hstatuses key]
        unfold Channel.keyStatus
        rw [hleft.1]
        show selected.channel.channelInfo.getStatus (s.db.keys.idxOf key) = _
        rw [h.db.same]
      show ({ s.db with channelInfo := selected.channel.channelInfo } : Channel).keyStatus key = _ ↔ _
      rw [hwritten]
      exact ⟨hcurrent key hkeyDb, hsaved hoff hmode key hkeyDb⟩
  have hcache : (if selected.save then { s with db := { s.db with channelInfo := selected.channel.channelInfo } }
      else s).cache = s.cache := by
    cases selected.save with
    | false => rfl
    | true => rfl
  have hloaded : (if selected.save then { s with db := { s.db with channelInfo := selected.channel.channelInfo } }
      else s).loaded = s.loaded := by
    cases selected.save with
    | false => rfl
    | true => rfl
  unfold State.afterSelect
  cases source with
  | cached =>
    have hvalue : s.cache = some c := hvalue
    have hc := h.cache c hvalue
    have hhas := h.has
    rw [hvalue] at hhas
    refine ⟨hdb, fun b hb => ?_, hhas, fun b hb => ?_⟩
    · obtain rfl := some.inj hb
      exact hc.of_same hspec.keys hleft.2 (fun key _ => by rw [hstatuses]) hspec.status
    · exact h.loaded b (hloaded ▸ hb)
  | loaded =>
    refine ⟨hdb, fun b hb => h.cache b (hcache ▸ hb), ?_, fun b hb => ?_⟩
    · dsimp only
      rw [hcache]
      exact h.has
    · dsimp only at hb
      rw [hloaded] at hb
      rcases mem_or_eq_of_mem_set hb with hb | rfl
      · exact h.loaded b hb
      · exact hleft

end

/-! ## Runs -/

theorem inv_of_reached {memoryCacheEnabled : Bool} {start : State} (hstart : Start memoryCacheEnabled start) {s : State}
    {disabled : String → Bool} (h : Reached memoryCacheEnabled start s disabled) :
    Inv memoryCacheEnabled start.db.keys s disabled := by
  induction h with
  | start =>
    have hdb : Agrees start.db.keys (disabledIn start.db) start.db := by
      have heach : ∀ key, start.db.keyStatus key = channelStatusEnabled ↔ disabledIn start.db key = false := by
        intro key
        unfold disabledIn
        simp
      refine ⟨rfl, hstart.multi, fun key _ => heach key, ?_⟩
      rw [hstart.status]
      exact exists_congr fun key => and_congr_right fun _ => heach key
    refine ⟨hdb, fun c hc => ?_, ?_, fun c hc => ?_⟩
    · rw [hstart.cache] at hc
      split at hc
      · exact some.inj hc ▸ hdb
      · cases hc
    · rw [hstart.cache]
      cases memoryCacheEnabled with
      | true => rfl
      | false => rfl
    · rw [hstart.loaded] at hc
      cases hc
  | step _ action hsound hstep ih =>
    cases action with
    | load =>
      cases hstep
      refine ⟨ih.db, ih.cache, ih.has, fun c hc => ?_⟩
      rcases mem_append.1 hc with hc | hc
      · exact ih.loaded c hc
      · rw [mem_singleton.1 hc]
        exact ⟨ih.db.same, ih.db.multi⟩
    | select =>
      obtain ⟨selected, hselect, rfl⟩ := map_eq_some_iff.1 hstep
      exact inv_select ih hsound hselect
    | update _ _ reason now =>
      cases hstep
      exact inv_update ih hstart.keys hstart.nodup reason now hsound

theorem Agrees.disabled_iff {keys : List String} {disabled : String → Bool} {c : Channel} (h : Agrees keys disabled c) :
    (∀ key ∈ keys, c.keyStatus key ≠ channelStatusEnabled ↔ disabled key = true) ∧
      (c.status ≠ channelStatusEnabled ↔ ∀ key ∈ keys, disabled key = true) := by
  constructor
  · intro key hkey
    rw [Ne, h.each key hkey, Bool.not_eq_false]
  · rw [Ne, h.status]
    push Not
    simp

/-- In every run with sound steps the statuses of the keys are those that were given to them. -/
theorem statuses_kept {memoryCacheEnabled : Bool} {start : State} (hstart : Start memoryCacheEnabled start) {s : State}
    {disabled : String → Bool} (h : Reached memoryCacheEnabled start s disabled) :
    Kept memoryCacheEnabled s disabled := by
  have hinv := inv_of_reached hstart h
  have hkeys := hinv.db.same
  constructor
  · rw [hkeys]
    exact hinv.db.disabled_iff.1
  · intro hon
    have hhas := hinv.has
    rw [hon] at hhas
    obtain ⟨c, hc⟩ := isSome_iff_exists.1 hhas
    have hagrees := hinv.cache c hc
    rw [hkeys]
    exact ⟨c, hc, hagrees.same, hagrees.disabled_iff⟩
  · rw [hkeys]
    exact hinv.db.disabled_iff.2
  · intro source intn selected key idx hsound hselect hresult
    exact select_enabled hinv hstart.nodup hsound hselect hresult

/-- A channel with two keys that are polled. -/
def twoKeys : Channel := { keys := ["a", "b"], channelInfo := { multiKeyMode := .polling } }

theorem start_twoKeys : Start false { db := twoKeys } where
  multi := rfl
  keys := by decide
  nodup := by decide
  status := iff_of_true rfl ⟨"a", by decide, rfl⟩
  cache := rfl
  loaded := rfl

/-- A key is disabled, and another one is selected on a value that was loaded after that. -/
theorem statuses_kept_twoKeys :
    ∃ s disabled, Reached false { db := twoKeys } s disabled ∧ disabled "a" = true ∧ Kept false s disabled := by
  have hbegin : Reached false { db := twoKeys } { db := twoKeys } (disabledIn twoKeys) := Reached.start
  have hdisabled := hbegin.step (.update "a" channelStatusAutoDisabled "rejected" 0)
    ⟨Or.inl (by decide), fun h => absurd h (by decide)⟩ rfl
  have hloaded := hdisabled.step .load trivial rfl
  have hselected := hloaded.step (.select (.loaded 0) fun _ => 0) ⟨fun n hn => hn, fun value hvalue => by
    obtain rfl := some.inj hvalue
    exact ⟨fun _ _ h => h, fun _ _ _ _ h => h⟩⟩ rfl
  exact ⟨_, _, hselected, rfl, statuses_kept start_twoKeys hselected⟩

/-- A value that was loaded before the key was disabled enables it again with the next selection; and a key of an enabled
channel is enabled in the cache, but not in the table. -/
theorem statuses_lost : (∃ s1 s2 s3, step false { db := twoKeys } .load = some s1 ∧
      step false s1 (.update "a" channelStatusAutoDisabled "rejected" 0) = some s2 ∧
      step false s2 (.select (.loaded 0) fun _ => 0) = some s3 ∧
      s2.db.keyStatus "a" ≠ channelStatusEnabled ∧ s3.db.keyStatus "a" = channelStatusEnabled ∧
      ∃ selected, s2.select false (.loaded 0) (fun _ => 0) = some selected ∧ selected.result = .ok ("a", 0)) ∧
    ∃ s1 s2, step true { db := twoKeys, cache := some twoKeys }
        (.update "a" channelStatusAutoDisabled "rejected" 0) = some s1 ∧
      step true s1 (.update "a" channelStatusEnabled "" 1) = some s2 ∧
      s2.db.keyStatus "a" ≠ channelStatusEnabled ∧
      ∃ c, s2.cache = some c ∧ c.keyStatus "a" = channelStatusEnabled := by
  constructor
  · exact ⟨_, _, _, rfl, rfl, rfl, by decide, by decide, _, rfl, rfl⟩
  · exact ⟨_, _, rfl, rfl, by decide, _, rfl, by decide⟩

end NovaMaas.MultiKey
