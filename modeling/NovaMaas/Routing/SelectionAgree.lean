/-
  The two ways to a channel, compared: which channels each of them can return.

  Both take the channels of one priority.  Through the cache that is the priority of the retry among the channels that
  serve the path; through the abilities it is that priority among ALL channels of the group and the model, and the path
  is looked at afterwards.  And the cache draws by the weight as it is, so that a channel without weight is not drawn
  beside one that has some, where the abilities add ten to every weight.

  Tables are consistent when the abilities are those of the channels, which is how they are written.
-/
import NovaMaas.Routing.Selection

open Option hiding all_eq_true any_eq_true mem_map

open List

namespace NovaMaas.Routing

open Weighted Channel

/-! ## Consistent tables -/

structure Consistent (db : DB) : Prop where
  ids       : (db.channels.map Channel.id).Nodup
  abilities : ∀ a, a ∈ db.abilities ↔
    ∃ c ∈ db.channels, ∃ group ∈ c.groups, ∃ model ∈ c.modelNames, a = abilityOf c group model

/-- The channel serves the group and the model. -/
def Channel.serves (c : Channel) (group model : String) : Bool :=
  c.enabled && decide (group ∈ c.groups) && decide (model ∈ c.modelNames)

section
variable {db : DB} (h : Consistent db)
include h

theorem channelById_of_mem {c : Channel} (hc : c ∈ db.channels) : db.channelById c.id = some c := by
  have hnodup : (db.channels.reverse.map Channel.id).Nodup := by
    rw [map_reverse]
    exact nodup_reverse.2 h.ids
  have hmem : c ∈ db.channels.reverse := mem_reverse.2 hc
  unfold DB.channelById
  revert hnodup hmem
  generalize db.channels.reverse = l
  intro hnodup hmem
  induction l with
  | nil => cases hmem
  | cons b _ ih =>
    rw [map_cons, nodup_cons] at hnodup
    rcases mem_cons.1 hmem with rfl | hmem
    · exact find?_cons_of_pos (by simp)
    · have hne : b.id ≠ c.id := fun heq => hnodup.1 (heq ▸ mem_map_of_mem hmem)
      rw [find?_cons_of_neg (by simpa using hne)]
      exact ih hnodup.2 hmem

/-- The enabled rows of a group and a model are those of the channels that serve them. -/
theorem mem_enabledAbilities {group model : String} {a : Ability} : a ∈ db.enabledAbilities group model ↔
      ∃ c ∈ db.channels, c.serves group model = true ∧ a = abilityOf c group model := by
  unfold DB.enabledAbilities serves
  simp only [mem_filter, Bool.and_eq_true, decide_eq_true_eq]
  rw [h.abilities]
  constructor
  · rintro ⟨⟨c, hc, g, hg, m, hm, rfl⟩, ⟨hgroup, hmodel⟩, henabled⟩
    have hgroup : g = group := hgroup
    have hmodel : m = model := hmodel
    subst hgroup hmodel
    exact ⟨c, hc, ⟨⟨henabled, hg⟩, hm⟩, rfl⟩
  · rintro ⟨c, hc, ⟨⟨henabled, hg⟩, hm⟩, rfl⟩
    exact ⟨⟨c, hc, group, hg, model, hm, rfl⟩, ⟨rfl, rfl⟩, henabled⟩

omit h in
theorem mem_cachedIds {group model : String} {id : ℕ} :
    id ∈ db.cachedIds group model ↔ ∃ c ∈ db.channels, c.serves group model = true ∧ c.id = id := by
  unfold DB.cachedIds serves
  simp only [mem_flatMap, mem_filter, mem_map, decide_eq_true_eq, Bool.and_eq_true]
  constructor
  · rintro ⟨c, ⟨hc, henabled⟩, g, ⟨hg, rfl⟩, m, ⟨hm, rfl⟩, hid⟩
    exact ⟨c, hc, ⟨⟨henabled, hg⟩, hm⟩, hid⟩
  · rintro ⟨c, hc, ⟨⟨henabled, hg⟩, hm⟩, hid⟩
    exact ⟨c, ⟨hc, henabled⟩, group, ⟨hg, rfl⟩, model, ⟨hm, rfl⟩, hid⟩

/-- The cache of consistent tables is loaded. -/
theorem initChannelCache_isSome : ∃ cache, initChannelCache db = some cache ∧ cache.channelsIDM = db.channelById ∧
    (∀ group model id, id ∈ cache.group2model2channels group model ↔ id ∈ db.cachedIds group model) ∧
    ∀ c ∈ db.channels, cache.channel2advancedCustomConfig c.id =
      if c.type = channelTypeAdvancedCustom then c.advancedCustom else none := by
  have hgroups : ((db.channels.filter enabled).all fun c =>
      c.groups.all fun group => db.abilities.any fun ability => ability.group = group) = true := by
    rw [all_eq_true]
    intro c hc
    rw [all_eq_true]
    intro group hgroup
    have hmodel : ∃ model, model ∈ c.modelNames := by
      unfold modelNames splitAt
      have hne : splitList ',' c.models.toList ≠ [] := by
        cases c.models.toList with
        | nil => exact cons_ne_nil _ _
        | cons =>
          unfold splitList
          split
          · exact cons_ne_nil _ _
          · split
            · exact cons_ne_nil _ _
            · exact cons_ne_nil _ _
      obtain ⟨first, hfirst⟩ := exists_mem_of_ne_nil _ hne
      exact ⟨String.ofList first, mem_map_of_mem hfirst⟩
    obtain ⟨model, hmodel⟩ := hmodel
    rw [any_eq_true]
    refine ⟨abilityOf c group model, ?_, by simp [abilityOf]⟩
    exact (h.abilities _).2 ⟨c, (mem_filter.1 hc).1, group, hgroup, model, hmodel, rfl⟩
  refine ⟨_, if_pos hgroups, rfl, ?_, ?_⟩
  · intro group model id
    exact mem_orderBy
  · intro c hc
    show Cache.channel2advancedCustomConfig (loadedCache db) c.id = _
    unfold loadedCache
    simp only [channelById_of_mem h hc]

end

/-! ## Priorities -/

theorem sortedUniquePriorities_perm (l : List ℤ) : (sortedUniquePriorities l).Perm l.dedup := orderBy_perm _ _

theorem mem_sortedUniquePriorities {l : List ℤ} {p : ℤ} : p ∈ sortedUniquePriorities l ↔ p ∈ l := by
  unfold sortedUniquePriorities
  rw [mem_orderBy, mem_dedup]

theorem sortedUniquePriorities_pairwise (l : List ℤ) : (sortedUniquePriorities l).Pairwise (· > ·) := by
  have hsorted := orderBy_pairwise (fun p : ℤ => -p) l.dedup
  have hnodup : (sortedUniquePriorities l).Nodup := (sortedUniquePriorities_perm l).nodup_iff.2 (nodup_dedup l)
  have hboth := hsorted.and hnodup
  refine hboth.imp ?_
  rintro a b ⟨hle, hne⟩
  have : -a ≤ -b := hle
  omega

/-- The priorities that occur do not depend on how often and in which order they do. -/
theorem sortedUniquePriorities_congr {l l' : List ℤ} (h : ∀ p, p ∈ l ↔ p ∈ l') :
    sortedUniquePriorities l = sortedUniquePriorities l' := by
  have hperm : (sortedUniquePriorities l).Perm (sortedUniquePriorities l') := by
    refine (perm_ext_iff_of_nodup ?_ ?_).2 ?_
    · exact (sortedUniquePriorities_pairwise l).imp fun hgt => Int.ne_of_gt hgt
    · exact (sortedUniquePriorities_pairwise l').imp fun hgt => Int.ne_of_gt hgt
    · intro p
      rw [mem_sortedUniquePriorities, mem_sortedUniquePriorities, h]
  refine hperm.eq_of_pairwise ?_ (sortedUniquePriorities_pairwise l) (sortedUniquePriorities_pairwise l')
  intro a b _ _ hab hba
  exact absurd hab (not_lt_of_gt hba)

theorem targetPriority_congr {l l' : List ℤ} (h : ∀ p, p ∈ l ↔ p ∈ l') (retry : ℕ) :
    targetPriority l retry = targetPriority l' retry := by
  unfold targetPriority
  rw [sortedUniquePriorities_congr h]

/-- The priority of a retry occurs. -/
theorem targetPriority_mem {l : List ℤ} (hl : l ≠ []) (retry : ℕ) : targetPriority l retry ∈ l := by
  obtain ⟨p, hp⟩ := exists_mem_of_ne_nil _ hl
  have hpos : 0 < (sortedUniquePriorities l).length := length_pos_of_mem (mem_sortedUniquePriorities.2 hp)
  unfold targetPriority
  rw [← mem_sortedUniquePriorities (l := l)]
  have hlt : (if (sortedUniquePriorities l).length ≤ retry then (sortedUniquePriorities l).length - 1 else retry) <
      (sortedUniquePriorities l).length := by
    split
    · omega
    · omega
  rw [getD_eq_getElem _ _ hlt]
  exact getElem_mem hlt

/-- The first of the priorities is the highest. -/
theorem targetPriority_zero {l : List ℤ} {p : ℤ} (h : l.max? = some p) : targetPriority l 0 = p := by
  have hmax := max?_eq_some_iff.1 h
  have hsorted := sortedUniquePriorities_pairwise l
  have hmem := mem_sortedUniquePriorities.2 hmax.1
  unfold targetPriority
  cases hlist : sortedUniquePriorities l with
  | nil =>
    rw [hlist] at hmem
    cases hmem
  | cons q =>
    rw [hlist] at hsorted hmem
    have hq : q ≤ p := hmax.2 q (mem_sortedUniquePriorities.1 (hlist ▸ mem_cons_self))
    rcases mem_cons.1 hmem with rfl | hrest
    · rfl
    · have hgt : q > p := (pairwise_cons.1 hsorted).1 p hrest
      omega

/-! ## What can be returned -/

/-- A channel that a selection returns with some random numbers. -/
def CanReturn (select : (ℕ → ℕ) → Except String (Option Channel)) (c : Channel) : Prop :=
  ∃ intn : ℕ → ℕ, (∀ n, 0 < n → intn n < n) ∧ select intn = .ok (some c)

section
variable (matchString : String → String → Bool)

/-- The channel serves the path. -/
def Channel.onPath (c : Channel) (requestPath model : String) : Bool :=
  requestPath = "" ||
    (volcNativeChannelMatchesPath c.type requestPath &&
      (c.type ≠ channelTypeAdvancedCustom ||
        c.advancedCustom.any fun config => config.supportsPathForModel matchString requestPath model))

/-- The channels of a group that serve a model under a name, and the path. -/
def DB.servingOnPath (db : DB) (group name requestPath model : String) : List Channel :=
  db.channels.filter fun c => c.serves group name && c.onPath matchString requestPath model

variable {c : Channel}

theorem mem_servingOnPath {db : DB} {group name requestPath model : String} :
    c ∈ db.servingOnPath matchString group name requestPath model ↔
      c ∈ db.channels ∧ c.serves group name = true ∧ c.onPath matchString requestPath model = true := by
  unfold DB.servingOnPath
  rw [mem_filter, Bool.and_eq_true]

theorem lookup_ok {cache : Cache} {ids : List ℕ} (h : ∀ id ∈ ids, (cache.channelsIDM id).isSome = true) :
    cache.lookup ids = .ok (ids.filterMap cache.channelsIDM) := by
  induction ids with
  | nil => rfl
  | cons id _ ih =>
    obtain ⟨c, hc⟩ := isSome_iff_exists.1 (h id mem_cons_self)
    have hrest := ih fun id hid => h id (mem_cons_of_mem _ hid)
    rw [Cache.lookup, filterMap_cons_some hc, hc]
    simp only [hrest]

/-- The cached candidates of a name: the ids of the channels that serve it and the path. -/
theorem mem_filtered {db : DB} (h : Consistent db) {cache : Cache} (hcache : initChannelCache db = some cache)
    {group name requestPath model : String} {id : ℕ} :
    id ∈ cache.filterChannelsByRequestPathAndModel matchString (cache.group2model2channels group name) requestPath
        model ↔
      ∃ c ∈ db.servingOnPath matchString group name requestPath model, c.id = id := by
  obtain ⟨cache', hcache', hidm, hids, hconfig⟩ := initChannelCache_isSome h
  obtain rfl : cache = cache' := some.inj (hcache.symm.trans hcache')
  have hfiltered : id ∈ cache.filterChannelsByRequestPathAndModel matchString
      (cache.group2model2channels group name) requestPath model ↔
      ∃ c ∈ db.channels, c.serves group name = true ∧ c.id = id ∧ c.onPath matchString requestPath model = true := by
    unfold Cache.filterChannelsByRequestPathAndModel
    by_cases hpath : requestPath = ""
    · rw [if_pos hpath, hids, mem_cachedIds]
      have honPath : ∀ c : Channel, c.onPath matchString requestPath model = true := by
        intro c
        unfold onPath
        rw [decide_eq_true hpath]
        rfl
      constructor
      · rintro ⟨c, hc, hserves, hid⟩
        exact ⟨c, hc, hserves, hid, honPath c⟩
      · rintro ⟨c, hc, hserves, hid, _⟩
        exact ⟨c, hc, hserves, hid⟩
    · rw [if_neg hpath, mem_filter, hids, mem_cachedIds]
      have hsame : ∀ c ∈ db.channels, c.id = id →
          cache.servesPath matchString requestPath model id = c.onPath matchString requestPath model := by
        intro c hc hid
        unfold Cache.servesPath onPath
        rw [← hid, hidm, channelById_of_mem h hc, hconfig c hc]
        rw [decide_eq_false hpath, Bool.false_or]
        by_cases htype : c.type = channelTypeAdvancedCustom
        · simp [htype]
        · simp [htype]
      constructor
      · rintro ⟨⟨c, hc, hserves, hid⟩, hkept⟩
        exact ⟨c, hc, hserves, hid, (hsame c hc hid).symm.trans hkept⟩
      · rintro ⟨c, hc, hserves, hid, honPath⟩
        exact ⟨⟨c, hc, hserves, hid⟩, (hsame c hc hid).trans honPath⟩
  rw [hfiltered]
  constructor
  · rintro ⟨c, hc, hserves, hid, honPath⟩
    exact ⟨c, (mem_servingOnPath matchString).2 ⟨hc, hserves, honPath⟩, hid⟩
  · rintro ⟨c, hmem, hid⟩
    obtain ⟨hc, hserves, honPath⟩ := (mem_servingOnPath matchString).1 hmem
    exact ⟨c, hc, hserves, hid, honPath⟩

variable {channels : List Channel}

theorem mem_tier {retry : ℕ} : c ∈ tier channels retry ↔
      c ∈ channels ∧ c.getPriority = targetPriority (channels.map getPriority) retry := by
  unfold tier
  rw [mem_filter, decide_eq_true_eq]

/-- Lists with the same channels have the same tiers. -/
theorem mem_tier_congr {channels channels' : List Channel} (h : ∀ c, c ∈ channels ↔ c ∈ channels') (retry : ℕ)
    (c : Channel) : c ∈ tier channels retry ↔ c ∈ tier channels' retry := by
  have hpriorities : ∀ p, p ∈ channels.map getPriority ↔ p ∈ channels'.map getPriority := by
    intro p
    simp only [mem_map, h]
  rw [mem_tier, mem_tier, h, targetPriority_congr hpriorities]

theorem tier_ne_nil (h : channels ≠ []) (retry : ℕ) : tier channels retry ≠ [] := by
  have hmem := targetPriority_mem (l := channels.map getPriority) (by simpa using h) retry
  obtain ⟨c, hc, hpriority⟩ := mem_map.1 hmem
  exact ne_nil_of_mem (mem_tier.2 ⟨hc, hpriority⟩)

/-- A channel of a tier can be drawn there: it has a weight, or none has. -/
def Drawable (channels : List Channel) (c : Channel) : Prop :=
  c ∈ channels ∧ ((∀ b ∈ channels, b.getWeight = 0) ∨ 0 < c.getWeight)

theorem drawable_congr {channels channels' : List Channel} (h : ∀ c, c ∈ channels ↔ c ∈ channels') (c : Channel) :
    Drawable channels c ↔ Drawable channels' c := by
  unfold Drawable
  simp only [h]

theorem smoothedWeight_pos (channels : List Channel) (c : Channel) :
    0 < smoothedWeight channels c ↔ (∀ b ∈ channels, b.getWeight = 0) ∨ 0 < c.getWeight := by
  have hzero : total getWeight channels = 0 ↔ ∀ b ∈ channels, b.getWeight = 0 := by
    unfold total
    rw [sum_eq_zero_iff]
    simp
  unfold smoothedWeight
  by_cases hsum : total getWeight channels = 0
  · simp only [if_pos hsum]
    exact iff_of_true (by omega) (Or.inl (hzero.1 hsum))
  · simp only [if_neg hsum]
    have hnot : ¬ ∀ b ∈ channels, b.getWeight = 0 := fun hall => hsum (hzero.2 hall)
    rw [or_iff_right hnot]
    split
    · omega
    · exact Iff.rfl

/-- What a drawing from a list returns. -/
theorem canReturn_draw (channels : List Channel) (c : Channel) : (∃ intn : ℕ → ℕ, (∀ n, 0 < n → intn n < n) ∧
      draw (smoothedWeight channels) channels (intn (total (smoothedWeight channels) channels)) = some c) ↔
      Drawable channels c := by
  have hdraw := @draw_some_iff _ (smoothedWeight channels) channels c
  constructor
  · rintro ⟨intn, hintn, hsome⟩
    have hpos : 0 < total (smoothedWeight channels) channels := by
      by_contra hzero
      have hc := mem_of_draw hsome
      have hnonneg := pos_of_draw (Int.natCast_nonneg _) hsome
      have hle : smoothedWeight channels c ≤ total (smoothedWeight channels) channels :=
        le_sum_of_mem (mem_map_of_mem hc)
      omega
    obtain ⟨hc, hweight⟩ := hdraw.1 ⟨_, hintn _ hpos, hsome⟩
    exact ⟨hc, (smoothedWeight_pos channels c).1 hweight⟩
  · rintro ⟨hc, hweight⟩
    obtain ⟨number, hlt, hsome⟩ := hdraw.2 ⟨hc, (smoothedWeight_pos channels c).2 hweight⟩
    refine ⟨fun n => if n = total (smoothedWeight channels) channels then number else 0, ?_, ?_⟩
    · intro n hn
      dsimp only
      split
      · omega
      · exact hn
    · have hnumber : (if total (smoothedWeight channels) channels = total (smoothedWeight channels) channels
          then number else 0) = number := if_pos rfl
      dsimp only
      rw [hnumber]
      exact hsome

variable {intn : ℕ → ℕ}

theorem drawChannel_some : drawChannel intn channels = .ok (some c) ↔
      draw (smoothedWeight channels) channels (intn (total (smoothedWeight channels) channels)) = some c := by
  unfold drawChannel
  cases draw (smoothedWeight channels) channels (intn (total (smoothedWeight channels) channels)) with
  | none => simp
  | some => simp

/-- The candidates of the cache as channels: those of the model on the path, or else those of the matched name. -/
def DB.cachedCandidates (db : DB) (group model requestPath : String) : List Channel :=
  if db.servingOnPath matchString group model requestPath model = [] then
    db.servingOnPath matchString group (formatMatchingModelName model) requestPath model
  else db.servingOnPath matchString group model requestPath model

variable {db : DB} (h : Consistent db) {cache : Cache} (hcache : initChannelCache db = some cache)
  (group model : String) (retry : ℕ) (requestPath : String)
include h hcache

theorem mem_candidates (id : ℕ) : id ∈ cache.candidates matchString group model requestPath ↔
      ∃ c ∈ db.cachedCandidates matchString group model requestPath, c.id = id := by
  have hexact : cache.filterChannelsByRequestPathAndModel matchString (cache.group2model2channels group model)
      requestPath model = [] ↔ db.servingOnPath matchString group model requestPath model = [] := by
    rw [eq_nil_iff_forall_not_mem, eq_nil_iff_forall_not_mem]
    constructor
    · intro hnone c hc
      exact hnone c.id ((mem_filtered matchString h hcache).2 ⟨c, hc, rfl⟩)
    · intro hnone id hid
      obtain ⟨c, hc, _⟩ := (mem_filtered matchString h hcache).1 hid
      exact hnone c hc
  unfold Cache.candidates DB.cachedCandidates
  by_cases hnone : db.servingOnPath matchString group model requestPath model = []
  · simp only [if_pos (hexact.2 hnone), if_pos hnone]
    exact mem_filtered matchString h hcache
  · simp only [if_neg fun heq => hnone (hexact.1 heq), if_neg hnone]
    exact mem_filtered matchString h hcache

omit h hcache in
theorem mem_cachedCandidates_db (hc : c ∈ db.cachedCandidates matchString group model requestPath) :
    c ∈ db.channels := by
  unfold DB.cachedCandidates at hc
  split at hc
  · exact ((mem_servingOnPath matchString).1 hc).1
  · exact ((mem_servingOnPath matchString).1 hc).1

omit h hcache in
theorem tier_singleton (b : Channel) (retry : ℕ) : tier [b] retry = [b] := by
  have hne : tier [b] retry ≠ [] := tier_ne_nil (cons_ne_nil _ _) retry
  unfold tier at hne ⊢
  by_cases hkept : b.getPriority = targetPriority ([b].map getPriority) retry
  · exact filter_cons_of_pos (by simpa using hkept)
  · exact absurd (filter_cons_of_neg (by simpa using hkept)) hne

/-- What is selected through the cache: nothing, the only candidate, or one that is drawn from the tier. -/
theorem cached_cases : ∃ channels, (∀ c, c ∈ channels ↔ c ∈ db.cachedCandidates matchString group model requestPath) ∧
    ((channels = [] ∧ ∀ intn, cache.getRandomSatisfiedChannel matchString intn group model retry requestPath =
        .ok none) ∨
      (∃ b, channels = [b] ∧ ∀ intn, cache.getRandomSatisfiedChannel matchString intn group model retry requestPath =
        .ok (some b)) ∨
      (channels ≠ [] ∧ ∀ intn, cache.getRandomSatisfiedChannel matchString intn group model retry requestPath =
        drawChannel intn (tier channels retry))) := by
  obtain ⟨cache', hcache', hidm, _, _⟩ := initChannelCache_isSome h
  obtain rfl : cache = cache' := some.inj (hcache.symm.trans hcache')
  have hids := mem_candidates matchString h hcache group model requestPath
  have hknown : ∀ id ∈ cache.candidates matchString group model requestPath,
      (cache.channelsIDM id).isSome = true := by
    intro id hid
    obtain ⟨c, hc, rfl⟩ := (hids id).1 hid
    rw [hidm, channelById_of_mem h (mem_cachedCandidates_db matchString group model requestPath hc)]
    rfl
  have hlookup := lookup_ok hknown
  obtain ⟨channels, hchannels⟩ : ∃ channels,
      channels = (cache.candidates matchString group model requestPath).filterMap cache.channelsIDM := ⟨_, rfl⟩
  refine ⟨channels, ?_, ?_⟩
  · intro c
    rw [hchannels, mem_filterMap]
    constructor
    · rintro ⟨id, hid, hsome⟩
      obtain ⟨b, hb, rfl⟩ := (hids id).1 hid
      rw [hidm, channelById_of_mem h (mem_cachedCandidates_db matchString group model requestPath hb)] at hsome
      rwa [← some.inj hsome]
    · intro hc
      refine ⟨c.id, (hids c.id).2 ⟨c, hc, rfl⟩, ?_⟩
      rw [hidm, channelById_of_mem h (mem_cachedCandidates_db matchString group model requestPath hc)]
  · rw [← hchannels] at hlookup
    unfold Cache.getRandomSatisfiedChannel
    cases hcandidates : cache.candidates matchString group model requestPath with
    | nil =>
      left
      refine ⟨?_, fun _ => rfl⟩
      rw [hchannels, hcandidates]
      rfl
    | cons id ids =>
      right
      rw [hcandidates] at hlookup
      simp only [hlookup]
      -- an id gives a channel
      obtain ⟨b, hb⟩ := isSome_iff_exists.1 (hknown id (hcandidates ▸ mem_cons_self))
      rw [hcandidates, filterMap_cons_some hb] at hchannels
      cases hrest : ids.filterMap cache.channelsIDM with
      | nil =>
        left
        rw [hrest] at hchannels
        exact ⟨b, hchannels, fun _ => by rw [hchannels]⟩
      | cons =>
        right
        rw [hrest] at hchannels
        exact ⟨hchannels ▸ cons_ne_nil _ _, fun _ => by rw [hchannels]⟩

/-- Through the cache: a channel of the tier among the candidates that can be drawn there. -/
theorem canReturn_cached (c : Channel) :
    CanReturn (fun intn => cache.getRandomSatisfiedChannel matchString intn group model retry requestPath) c ↔
      Drawable (tier (db.cachedCandidates matchString group model requestPath) retry) c := by
  obtain ⟨channels, hmem, hcases⟩ := cached_cases matchString h hcache group model retry requestPath
  rw [← drawable_congr (mem_tier_congr hmem retry) c]
  unfold CanReturn
  rcases hcases with ⟨hnil, hselect⟩ | ⟨b, hone, hselect⟩ | ⟨_, hselect⟩
  · simp only [hselect]
    constructor
    · rintro ⟨_, _, hsome⟩
      cases hsome
    · rintro ⟨hc, _⟩
      rw [hnil] at hc
      cases hc
  · simp only [hselect]
    rw [hone, tier_singleton]
    constructor
    · rintro ⟨_, _, hsome⟩
      obtain rfl : b = c := some.inj (Except.ok.inj hsome)
      refine ⟨mem_singleton_self _, ?_⟩
      by_cases hzero : b.getWeight = 0
      · exact Or.inl fun a ha => by rw [mem_singleton.1 ha, hzero]
      · exact Or.inr (by omega)
    · rintro ⟨hc, _⟩
      rw [mem_singleton.1 hc]
      exact ⟨fun _ => 0, fun n hn => hn, rfl⟩
  · rw [← canReturn_draw]
    simp only [hselect]
    exact exists_congr fun intn => and_congr_right fun _ => drawChannel_some

omit h hcache in
theorem drawChannel_finds (hne : channels ≠ [])
    (hintn : ∀ n, 0 < n → intn n < n) : ∃ c, drawChannel intn channels = .ok (some c) := by
  have hpos : 0 < total (smoothedWeight channels) channels := by
    obtain ⟨c, hc, hweight⟩ : ∃ c ∈ channels, 0 < smoothedWeight channels c := by
      by_cases hzero : ∀ b ∈ channels, b.getWeight = 0
      · obtain ⟨c, hc⟩ := exists_mem_of_ne_nil _ hne
        exact ⟨c, hc, (smoothedWeight_pos channels c).2 (Or.inl hzero)⟩
      · push Not at hzero
        obtain ⟨c, hc, hweight⟩ := hzero
        exact ⟨c, hc, (smoothedWeight_pos channels c).2 (Or.inr (by omega))⟩
    have hle : smoothedWeight channels c ≤ total (smoothedWeight channels) channels :=
      le_sum_of_mem (mem_map_of_mem hc)
    omega
  have hsome : draw (smoothedWeight channels) channels (intn (total (smoothedWeight channels) channels)) ≠ none :=
    Weighted.draw_ne_none hne (Int.ofNat_lt.2 (hintn _ hpos))
  obtain ⟨c, hc⟩ := ne_none_iff_exists'.1 hsome
  exact ⟨c, drawChannel_some.2 hc⟩

/-- Whatever is drawn, a channel is found if there are candidates. -/
theorem cached_finds (hintn : ∀ n, 0 < n → intn n < n)
    (hne : db.cachedCandidates matchString group model requestPath ≠ []) :
    ∃ c, cache.getRandomSatisfiedChannel matchString intn group model retry requestPath = .ok (some c) := by
  obtain ⟨channels, hmem, hcases⟩ := cached_cases matchString h hcache group model retry requestPath
  rcases hcases with ⟨hnil, _⟩ | ⟨b, _, hselect⟩ | ⟨hchannels, hselect⟩
  · obtain ⟨c, hc⟩ := exists_mem_of_ne_nil _ hne
    have hc := (hmem c).2 hc
    rw [hnil] at hc
    cases hc
  · exact ⟨b, hselect intn⟩
  · obtain ⟨c, hc⟩ := drawChannel_finds (tier_ne_nil hchannels retry) hintn
    exact ⟨c, (hselect intn).trans hc⟩

omit hcache in
/-- The rows a query finds: those of the channels of the tier among all that serve the model. -/
theorem queryAbilities_spec :
    (∃ err, db.queryAbilities group model retry = .error err ∧ ∀ c ∈ db.channels, c.serves group model = false) ∨
      ∃ found, db.queryAbilities group model retry = .ok found ∧
        ∀ a, a ∈ found ↔ ∃ c ∈ tier (db.channels.filter fun c => c.serves group model) retry,
          a = abilityOf c group model := by
  have hmem := @mem_enabledAbilities db h group model
  have hpriorities : ∀ p, p ∈ (db.enabledAbilities group model).map Ability.priority ↔
      p ∈ (db.channels.filter fun c => c.serves group model).map getPriority := by
    intro p
    simp only [mem_map, hmem, mem_filter]
    constructor
    · rintro ⟨a, ⟨c, hc, hserves, rfl⟩, rfl⟩
      exact ⟨c, ⟨hc, hserves⟩, rfl⟩
    · rintro ⟨c, ⟨hc, hserves⟩, rfl⟩
      exact ⟨_, ⟨c, hc, hserves, rfl⟩, rfl⟩
  have hrows : ∀ a, a ∈ orderBy (fun a : Ability => -(a.weight : ℤ)) ((db.enabledAbilities group model).filter fun a =>
      a.priority = targetPriority ((db.enabledAbilities group model).map Ability.priority) retry) ↔
      ∃ c ∈ tier (db.channels.filter fun c => c.serves group model) retry, a = abilityOf c group model := by
    intro a
    rw [mem_orderBy, mem_filter, decide_eq_true_eq, hmem, targetPriority_congr hpriorities]
    constructor
    · rintro ⟨⟨c, hc, hserves, rfl⟩, hpriority⟩
      exact ⟨c, mem_tier.2 ⟨mem_filter.2 ⟨hc, hserves⟩, hpriority⟩, rfl⟩
    · rintro ⟨c, hc, rfl⟩
      obtain ⟨hc, hpriority⟩ := mem_tier.1 hc
      obtain ⟨hc, hserves⟩ := mem_filter.1 hc
      exact ⟨⟨c, hc, hserves, rfl⟩, hpriority⟩
  unfold DB.queryAbilities
  by_cases hretry : retry = 0
  · right
    rw [if_pos hretry]
    cases hmax : ((db.enabledAbilities group model).map Ability.priority).max? with
    | none =>
      have hnone : db.enabledAbilities group model = [] := map_eq_nil_iff.1 (max?_eq_none_iff.1 hmax)
      refine ⟨[], rfl, fun a => ?_⟩
      rw [← hrows a, hnone]
      simp
    | some =>
      refine ⟨_, rfl, fun a => ?_⟩
      rw [← hrows a, hretry, targetPriority_zero hmax]
  · rw [if_neg hretry]
    by_cases hnone : (db.enabledAbilities group model).map Ability.priority = []
    · left
      have herror : db.getPriority group model retry = .error "数据库一致性被破坏" := if_pos hnone
      rw [herror]
      refine ⟨_, rfl, fun c hc => ?_⟩
      by_contra hserves
      have hrow := hmem.2 ⟨c, hc, Bool.eq_true_of_not_eq_false hserves, rfl⟩
      rw [map_eq_nil_iff.1 hnone] at hrow
      cases hrow
    · right
      have hok : db.getPriority group model retry =
          .ok (targetPriority ((db.enabledAbilities group model).map Ability.priority) retry) := if_neg hnone
      rw [hok]
      exact ⟨_, rfl, hrows⟩

open Ability hiding priority

omit hcache in
theorem mem_filteredAbilities {found : List Ability} {name requestPath model : String} {a : Ability}
    (hfound : ∀ a ∈ found, ∃ c ∈ db.channels, a = abilityOf c group name) :
    a ∈ db.filterAbilitiesByRequestPathAndModel matchString found requestPath model ↔
      a ∈ found ∧ ∃ c ∈ db.channels, a = abilityOf c group name ∧ c.onPath matchString requestPath model = true := by
  unfold DB.filterAbilitiesByRequestPathAndModel onPath
  by_cases hpath : requestPath = ""
  · rw [if_pos hpath, decide_eq_true hpath]
    constructor
    · intro ha
      obtain ⟨c, hc, hrow⟩ := hfound a ha
      exact ⟨ha, c, hc, hrow, rfl⟩
    · exact fun ha => ha.1
  · rw [if_neg hpath, mem_filter, decide_eq_false hpath]
    refine and_congr_right fun ha => ?_
    obtain ⟨c, hc, hrow⟩ := hfound a ha
    have hid : db.channelById a.channelId = some c := by
      rw [hrow]
      exact channelById_of_mem h hc
    simp only [hid, map_some, getD_some, bind_some, Bool.false_or]
    constructor
    · intro honPath
      exact ⟨c, hc, hrow, honPath⟩
    · rintro ⟨b, hb, hrow', honPath⟩
      have hsame : b.id = c.id := congrArg channelId (hrow'.symm.trans hrow)
      have hbc : b = c := by
        have hb := channelById_of_mem h hb
        rw [hsame, channelById_of_mem h hc] at hb
        exact (some.inj hb).symm
      rwa [← hbc]

omit hcache in
/-- What is selected through the abilities: nothing, or one of the rows that are left of the tier. -/
theorem db_cases : ∃ abilities,
    (∀ a, a ∈ abilities ↔ ∃ c ∈ tier (db.channels.filter fun c => c.serves group model) retry,
      a = abilityOf c group model ∧ c.onPath matchString requestPath model = true) ∧
    ((abilities = [] ∧ ∃ result, (∀ c, result ≠ .ok (some c)) ∧
        ∀ intn, db.getChannel matchString intn group model retry requestPath = result) ∨
      (abilities ≠ [] ∧ ∀ intn, db.getChannel matchString intn group model retry requestPath =
        db.drawAbility intn abilities)) := by
  unfold DB.getChannel
  rcases queryAbilities_spec h group model retry with ⟨err, herror, hnone⟩ | ⟨found, hfound, hrows⟩
  · rw [herror]
    refine ⟨[], fun a => ?_, Or.inl ⟨rfl, .error err, fun _ => by simp, fun _ => rfl⟩⟩
    constructor
    · intro ha
      cases ha
    · rintro ⟨c, hc, _⟩
      obtain ⟨hc, hserves⟩ := mem_filter.1 (mem_tier.1 hc).1
      rw [hnone c hc] at hserves
      cases hserves
  · rw [hfound]
    have hchannels : ∀ a ∈ found, ∃ c ∈ db.channels, a = abilityOf c group model := by
      intro a ha
      obtain ⟨c, hc, hrow⟩ := (hrows a).1 ha
      exact ⟨c, (mem_filter.1 (mem_tier.1 hc).1).1, hrow⟩
    obtain ⟨abilities, habilities⟩ : ∃ abilities,
        db.filterAbilitiesByRequestPathAndModel matchString found requestPath model = abilities := ⟨_, rfl⟩
    refine ⟨abilities, ?_, ?_⟩
    · intro a
      rw [← habilities, mem_filteredAbilities matchString h group hchannels, hrows]
      constructor
      · rintro ⟨⟨c, hc, hrow⟩, b, hb, hrow', honPath⟩
        have hsame : b.id = c.id := congrArg channelId (hrow'.symm.trans hrow)
        have hbc : b = c := by
          have hb := channelById_of_mem h hb
          rw [hsame, channelById_of_mem h (mem_filter.1 (mem_tier.1 hc).1).1] at hb
          exact (some.inj hb).symm
        exact ⟨c, hc, hrow, hbc ▸ honPath⟩
      · rintro ⟨c, hc, hrow, honPath⟩
        exact ⟨⟨c, hc, hrow⟩, c, (mem_filter.1 (mem_tier.1 hc).1).1, hrow, honPath⟩
    · simp only [habilities]
      by_cases hnil : abilities = []
      · exact Or.inl ⟨hnil, .ok none, fun _ => by simp, fun _ => if_pos hnil⟩
      · exact Or.inr ⟨hnil, fun _ => if_neg hnil⟩

omit hcache in
/-- A row that is drawn gives its channel. -/
theorem drawAbility_some {abilities : List Ability}
    (hrows : ∀ a ∈ abilities, ∃ c ∈ db.channels, a = abilityOf c group model) :
    db.drawAbility intn abilities = .ok (some c) ↔ c ∈ db.channels ∧
      draw drawWeight abilities (intn (total drawWeight abilities) - 1) = some (abilityOf c group model) := by
  unfold DB.drawAbility
  cases hdraw : draw drawWeight abilities (intn (total drawWeight abilities) - 1) with
  | none => simp
  | some a =>
    obtain ⟨b, hb, hrow⟩ := hrows a (mem_of_draw hdraw)
    have hid : db.channelById a.channelId = some b := by
      rw [hrow]
      exact channelById_of_mem h hb
    simp only [hid]
    constructor
    · intro hsome
      obtain rfl : b = c := some.inj (Except.ok.inj hsome)
      exact ⟨hb, by rw [hrow]⟩
    · rintro ⟨hc, hsame⟩
      have hids : c.id = b.id := congrArg channelId ((some.inj hsame).symm.trans hrow)
      have hcb := channelById_of_mem h hc
      rw [hids, channelById_of_mem h hb] at hcb
      rw [some.inj hcb]

omit hcache in
/-- Through the abilities: a channel of the tier among all that serve the model, if it serves the path. -/
theorem canReturn_db (c : Channel) :
    CanReturn (fun intn => db.getChannel matchString intn group model retry requestPath) c ↔
      c ∈ tier (db.channels.filter fun c => c.serves group model) retry ∧
        c.onPath matchString requestPath model = true := by
  obtain ⟨abilities, hmem, hcases⟩ := db_cases matchString h group model retry requestPath
  unfold CanReturn
  rcases hcases with ⟨hnil, result, hresult, hselect⟩ | ⟨_, hselect⟩
  · simp only [hselect]
    constructor
    · rintro ⟨_, _, hsome⟩
      exact absurd hsome (hresult c)
    · rintro ⟨hc, honPath⟩
      have hrow := (hmem (abilityOf c group model)).2 ⟨c, hc, rfl, honPath⟩
      rw [hnil] at hrow
      cases hrow
  · simp only [hselect]
    have hrows : ∀ a ∈ abilities, ∃ c ∈ db.channels, a = abilityOf c group model := by
      intro a ha
      obtain ⟨b, hb, hrow, _⟩ := (hmem a).1 ha
      exact ⟨b, (mem_filter.1 (mem_tier.1 hb).1).1, hrow⟩
    simp only [drawAbility_some h group model hrows]
    constructor
    · rintro ⟨intn, _, hc, hdraw⟩
      obtain ⟨b, hb, hrow, honPath⟩ := (hmem _).1 (mem_of_draw hdraw)
      have hids : c.id = b.id := congrArg channelId hrow
      have hcb := channelById_of_mem h hc
      rw [hids, channelById_of_mem h (mem_filter.1 (mem_tier.1 hb).1).1] at hcb
      rw [← some.inj hcb]
      exact ⟨hb, honPath⟩
    · rintro ⟨hc, honPath⟩
      have hweight : ∀ a ∈ abilities, 2 ≤ a.drawWeight := by
        intro a _
        unfold drawWeight
        omega
      obtain ⟨number, hlt, hdraw⟩ := exists_draw_pred hweight ((hmem _).2 ⟨c, hc, rfl, honPath⟩)
      refine ⟨fun n => if n = total drawWeight abilities then number else 0, ?_,
        (mem_filter.1 (mem_tier.1 hc).1).1, ?_⟩
      · intro n hn
        dsimp only
        split
        · omega
        · exact hn
      · simp only [if_true, hdraw]

omit hcache in
/-- Whatever is drawn, a channel is found if the tier has one that serves the path. -/
theorem db_finds (hintn : ∀ n, 0 < n → intn n < n)
    (hc : c ∈ tier (db.channels.filter fun c => c.serves group model) retry)
    (honPath : c.onPath matchString requestPath model = true) :
    ∃ b, db.getChannel matchString intn group model retry requestPath = .ok (some b) := by
  obtain ⟨abilities, hmem, hcases⟩ := db_cases matchString h group model retry requestPath
  have hrow := (hmem (abilityOf c group model)).2 ⟨c, hc, rfl, honPath⟩
  rcases hcases with ⟨hnil, _⟩ | ⟨hne, hselect⟩
  · rw [hnil] at hrow
    cases hrow
  · have hpos : 0 < total drawWeight abilities := by
      have hle : (abilityOf c group model).drawWeight ≤ total drawWeight abilities :=
        le_sum_of_mem (mem_map_of_mem hrow)
      have hten : 10 ≤ (abilityOf c group model).drawWeight := by
        unfold drawWeight
        omega
      omega
    have hlt : ((intn (total drawWeight abilities) : ℕ) : ℤ) - 1 < total drawWeight abilities := by
      have hlt := hintn _ hpos
      omega
    obtain ⟨a, ha⟩ := ne_none_iff_exists'.1 (Weighted.draw_ne_none hne hlt)
    obtain ⟨b, hb, hrow', _⟩ := (hmem a).1 (mem_of_draw ha)
    have hrows : ∀ a ∈ abilities, ∃ c ∈ db.channels, a = abilityOf c group model := by
      intro a ha
      obtain ⟨b, hb, hrow, _⟩ := (hmem a).1 ha
      exact ⟨b, (mem_filter.1 (mem_tier.1 hb).1).1, hrow⟩
    refine ⟨b, (hselect intn).trans ((drawAbility_some h group model hrows).2 ⟨?_, ?_⟩)⟩
    · exact (mem_filter.1 (mem_tier.1 hb).1).1
    · rw [ha, hrow']

/-! ## The claim -/

/-- The two ways return the same channels, and find one together or not at all. -/
structure SelectionsAgree (cached database : (ℕ → ℕ) → Except String (Option Channel)) : Prop where
  same  : ∀ c, CanReturn cached c ↔ CanReturn database c
  finds : (∃ c, CanReturn cached c) ↔ ∃ c, CanReturn database c

omit h hcache in
/-- If channels of the model serve the path, the priority of the retry is the same among them as among all channels of
the model, and in their tier either no channel has a weight or every one has; and if none does, no channel of the name
the model is matched by serves it either. -/
def PathLeavesTier (db : DB) (group model : String) (retry : ℕ) (requestPath : String) : Prop :=
  let onPath := db.servingOnPath matchString group model requestPath model
  if onPath = [] then db.servingOnPath matchString group (formatMatchingModelName model) requestPath model = []
  else
    targetPriority (onPath.map getPriority) retry =
        targetPriority ((db.channels.filter fun c => c.serves group model).map getPriority) retry ∧
      ((∀ c ∈ tier onPath retry, c.getWeight = 0) ∨ ∀ c ∈ tier onPath retry, 0 < c.getWeight)

instance (db : DB) (group model : String) (retry : ℕ) (requestPath : String) :
    Decidable (PathLeavesTier matchString db group model retry requestPath) :=
  inferInstanceAs (Decidable (let onPath := db.servingOnPath matchString group model requestPath model
    if onPath = [] then db.servingOnPath matchString group (formatMatchingModelName model) requestPath model = []
    else
      targetPriority (onPath.map getPriority) retry =
          targetPriority ((db.channels.filter fun c => c.serves group model).map getPriority) retry ∧
        ((∀ c ∈ tier onPath retry, c.getWeight = 0) ∨ ∀ c ∈ tier onPath retry, 0 < c.getWeight)))

/-- Through the cache, whatever number is drawn, a request that has candidates is given one of the tier of its retry, with
a weight unless none there has one. -/
theorem cached_selection (intn : ℕ → ℕ) (hintn : ∀ n, 0 < n → intn n < n)
    (hne : db.cachedCandidates matchString group model requestPath ≠ []) :
    ∃ c, cache.getRandomSatisfiedChannel matchString intn group model retry requestPath = .ok (some c) ∧
      Drawable (tier (db.cachedCandidates matchString group model requestPath) retry) c := by
  obtain ⟨c, hc⟩ := cached_finds matchString h hcache group model retry requestPath hintn hne
  exact ⟨c, hc, (canReturn_cached matchString h hcache group model retry requestPath c).1 ⟨intn, hintn, hc⟩⟩

omit h hcache in
theorem exists_drawable (hne : channels ≠ []) : ∃ c, Drawable channels c := by
  by_cases hzero : ∀ b ∈ channels, b.getWeight = 0
  · obtain ⟨c, hc⟩ := exists_mem_of_ne_nil _ hne
    exact ⟨c, hc, Or.inl hzero⟩
  · push Not at hzero
    obtain ⟨c, hc, hweight⟩ := hzero
    exact ⟨c, hc, Or.inr (by omega)⟩

/-- The two ways to a channel agree, if and only if the path leaves the tier of the retry and its weights alone. -/
theorem selections_agree_iff :
    SelectionsAgree (fun intn => cache.getRandomSatisfiedChannel matchString intn group model retry requestPath)
        (fun intn => db.getChannel matchString intn group model retry requestPath) ↔
      PathLeavesTier matchString db group model retry requestPath := by
  have hcached := canReturn_cached matchString h hcache group model retry requestPath
  have hdb := canReturn_db matchString h group model retry requestPath
  have hagree : SelectionsAgree
      (fun intn => cache.getRandomSatisfiedChannel matchString intn group model retry requestPath)
      (fun intn => db.getChannel matchString intn group model retry requestPath) ↔
      ∀ c, Drawable (tier (db.cachedCandidates matchString group model requestPath) retry) c ↔
        c ∈ tier (db.channels.filter fun c => c.serves group model) retry ∧
          c.onPath matchString requestPath model = true := by
    constructor
    · intro hsame c
      rw [← hcached c, ← hdb c]
      exact hsame.same c
    · intro hsame
      have hboth : ∀ c,
          CanReturn (fun intn => cache.getRandomSatisfiedChannel matchString intn group model retry requestPath) c ↔
            CanReturn (fun intn => db.getChannel matchString intn group model retry requestPath) c := by
        intro c
        rw [hcached c, hdb c]
        exact hsame c
      exact ⟨hboth, exists_congr hboth⟩
  rw [hagree]
  have honPath : ∀ c, c ∈ db.servingOnPath matchString group model requestPath model ↔
      c ∈ db.channels.filter (fun c => c.serves group model) ∧ c.onPath matchString requestPath model = true := by
    intro c
    rw [mem_servingOnPath, mem_filter, and_assoc]
  unfold PathLeavesTier DB.cachedCandidates
  by_cases hnone : db.servingOnPath matchString group model requestPath model = []
  · simp only [if_pos hnone]
    -- nothing of the abilities serves the path
    have hempty : ∀ c, ¬ (c ∈ tier (db.channels.filter fun c => c.serves group model) retry ∧
        c.onPath matchString requestPath model = true) := by
      rintro c ⟨hc, hpath⟩
      have hmem := (honPath c).2 ⟨(mem_tier.1 hc).1, hpath⟩
      rw [hnone] at hmem
      cases hmem
    constructor
    · intro hsame
      by_contra hnormalized
      obtain ⟨c, hc⟩ := exists_drawable (tier_ne_nil hnormalized retry)
      exact hempty c ((hsame c).1 hc)
    · intro hnormalized c
      rw [hnormalized]
      constructor
      · rintro ⟨hc, _⟩
        cases hc
      · exact fun hc => absurd hc (hempty c)
  · simp only [if_neg hnone]
    constructor
    · intro hsame
      have hpriority : targetPriority
          ((db.servingOnPath matchString group model requestPath model).map getPriority) retry =
          targetPriority ((db.channels.filter fun c => c.serves group model).map getPriority) retry := by
        obtain ⟨c, hc⟩ := exists_drawable (tier_ne_nil hnone retry)
        exact (mem_tier.1 hc.1).2.symm.trans (mem_tier.1 ((hsame c).1 hc).1).2
      refine ⟨hpriority, ?_⟩
      by_cases hzero : ∀ c ∈ tier (db.servingOnPath matchString group model requestPath model) retry, c.getWeight = 0
      · exact Or.inl hzero
      · right
        intro c hc
        obtain ⟨hmem, htarget⟩ := mem_tier.1 hc
        obtain ⟨hserves, hpath⟩ := (honPath c).1 hmem
        have hdrawn := (hsame c).2 ⟨mem_tier.2 ⟨hserves, htarget.trans hpriority⟩, hpath⟩
        exact hdrawn.2.resolve_left hzero
    · rintro ⟨hpriority, hweights⟩ c
      have hmem : c ∈ tier (db.servingOnPath matchString group model requestPath model) retry ↔
          c ∈ tier (db.channels.filter fun c => c.serves group model) retry ∧
            c.onPath matchString requestPath model = true := by
        rw [mem_tier, mem_tier, honPath, hpriority]
        tauto
      rw [← hmem]
      constructor
      · exact fun hc => hc.1
      · intro hc
        refine ⟨hc, ?_⟩
        rcases hweights with hzero | hpos
        · exact Or.inl hzero
        · exact Or.inr (hpos c hc)

end

/-! ## Tables -/

/-- Tables that hold channels and what `AddAbilities` writes of them. -/
def tablesOf (channels : List Channel) : DB where
  channels := channels
  abilities := channels.flatMap addAbilities

theorem consistent_tablesOf {channels : List Channel} (h : (channels.map Channel.id).Nodup) :
    Consistent (tablesOf channels) where
  ids := h
  abilities := by
    intro a
    unfold tablesOf addAbilities
    simp only [mem_flatMap, mem_dedup, mem_map]
    constructor
    · rintro ⟨c, hc, model, hmodel, group, hgroup, rfl⟩
      exact ⟨c, hc, group, hgroup, model, hmodel, rfl⟩
    · rintro ⟨c, hc, group, hgroup, model, hmodel, rfl⟩
      exact ⟨c, hc, model, hmodel, group, hgroup, rfl⟩

/-- Two channels of a group, the first of which is preferred. -/
def preferred (type : ℕ) : DB :=
  tablesOf
    [{ id := 1, type := type, group := "default", models := "gpt-4o", priority := some 10 },
     { id := 2, group := "default", models := "gpt-4o" }]

theorem cached_selection_preferred : ∃ c, Drawable (tier ((preferred 1).cachedCandidates (fun _ _ => false) "default"
      "gpt-4o" "") 0) c := by
  have h : Consistent (preferred 1) := consistent_tablesOf (by decide)
  obtain ⟨_, hcache, _⟩ := initChannelCache_isSome h
  obtain ⟨c, -, hc⟩ := cached_selection (fun _ _ => false) h hcache "default" "gpt-4o" 0 "" (fun _ => 0)
    (fun _ hn => hn) (by decide +kernel)
  exact ⟨c, hc⟩

theorem selections_agree_iff_preferred : ∃ cache, initChannelCache (preferred 1) = some cache ∧ SelectionsAgree
        (fun intn => cache.getRandomSatisfiedChannel (fun _ _ => false) intn "default" "gpt-4o" 1 "/v1/chat/completions")
        (fun intn => (preferred 1).getChannel (fun _ _ => false) intn "default" "gpt-4o" 1 "/v1/chat/completions") := by
  have h : Consistent (preferred 1) := consistent_tablesOf (by decide)
  obtain ⟨cache, hcache, _⟩ := initChannelCache_isSome h
  refine ⟨cache, hcache, ?_⟩
  exact (selections_agree_iff (fun _ _ => false) h hcache "default" "gpt-4o" 1 "/v1/chat/completions").2
    (by decide +kernel)

/-- The preferred channel is of the custom type and has no routes: the cache turns to the other one, the database finds
none. -/
theorem route_empties_tier : ∃ cache, initChannelCache (preferred channelTypeAdvancedCustom) = some cache ∧
      ¬ SelectionsAgree
        (fun intn => cache.getRandomSatisfiedChannel (fun _ _ => false) intn "default" "gpt-4o" 0 "/v1/chat/completions")
        (fun intn => (preferred channelTypeAdvancedCustom).getChannel (fun _ _ => false) intn "default" "gpt-4o" 0
          "/v1/chat/completions") := by
  refine ⟨loadedCache (preferred channelTypeAdvancedCustom), if_pos (by decide +kernel), fun hagree => ?_⟩
  have hcached : CanReturn
      (fun intn => (loadedCache (preferred channelTypeAdvancedCustom)).getRandomSatisfiedChannel (fun _ _ => false)
        intn "default" "gpt-4o" 0 "/v1/chat/completions") { id := 2, group := "default", models := "gpt-4o" } :=
    ⟨fun _ => 0, fun n hn => hn, by decide +kernel⟩
  obtain ⟨intn, _, hsome⟩ := (hagree.same _).1 hcached
  have hnone : (preferred channelTypeAdvancedCustom).getChannel (fun _ _ => false) intn "default" "gpt-4o" 0
      "/v1/chat/completions" = .ok none := rfl
  have hnone' := hnone.symm.trans hsome
  cases hnone'

end NovaMaas.Routing
