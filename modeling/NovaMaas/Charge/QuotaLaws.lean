/-
  Laws of the quota of a text request in ratio mode.

  It is within the bounds of a single request, nothing that was used is for free, more use does not cost less, and the
  convention that a usage is reported in makes no difference.  With counts and ratios that are not negative the quota is
  the rounded decimal within the bounds, at least 1 unless the model or the group is for free (`quota_eq`); but 0 where
  the request does not count as billable.

  That last test looks at the prompt and the completion.  In Anthropic's convention the prompt leaves out what was
  cached, so a request that only reads the cache or writes it has a total of zero.  It is charged nothing, and the laws
  hold exactly where that does not happen (`quotaLaws_iff`).

  Anthropic usage from OpenRouter has what was cached in its prompt, so it is in neither of the two conventions.  Its cache
  creation may be an inference from the cost (`creationInferred`): more completion at the same cost then is less creation,
  and what the two come to is rounded apart.
-/
import NovaMaas.Charge.TextQuota

open List

namespace NovaMaas.Charge

open Billing Merging

/-! ## Rounding and the minimum -/

theorem roundHalfAway_mono {x y : ℚ} (h : x ≤ y) : roundHalfAway x ≤ roundHalfAway y := by
  unfold roundHalfAway
  split_ifs with hx hy hy
  · show ⌊x + 1 / 2⌋ ≤ ⌊y + 1 / 2⌋
    exact Int.floor_le_floor (show x + 1 / 2 ≤ y + 1 / 2 by linarith)
  · exact absurd (le_trans hx h) hy
  · have hneg : 0 ≤ ⌊-x + 1 / 2⌋ := Int.floor_nonneg.2 (by linarith)
    have hpos : 0 ≤ ⌊y + 1 / 2⌋ := Int.floor_nonneg.2 (by linarith)
    show -⌊-x + 1 / 2⌋ ≤ ⌊y + 1 / 2⌋
    omega
  · have hfloor : ⌊-y + 1 / 2⌋ ≤ ⌊-x + 1 / 2⌋ := Int.floor_le_floor (by linarith)
    show -⌊-x + 1 / 2⌋ ≤ -⌊-y + 1 / 2⌋
    omega

/-- The quota of a decimal is the rounded decimal within the bounds. -/
theorem quotaFromDecimalChecked_fst (d : ℚ) :
    (quotaFromDecimalChecked d).1 = max (-maxQuota - 1) (min maxQuota (roundHalfAway d)) := by
  have hmax : maxQuota = 2147483647 := rfl
  unfold quotaFromDecimalChecked
  split_ifs with hover hunder
  · show maxQuota = _
    omega
  · show -maxQuota - 1 = _
    omega
  · show roundHalfAway d = _
    omega

theorem quotaFromDecimal_mono {x y : ℚ} (h : x ≤ y) :
    (quotaFromDecimalChecked x).1 ≤ (quotaFromDecimalChecked y).1 := by
  rw [quotaFromDecimalChecked_fst, quotaFromDecimalChecked_fst]
  have hround := roundHalfAway_mono h
  omega

theorem quotaFromDecimal_zero : (quotaFromDecimalChecked 0).1 = 0 := by decide +kernel

theorem quotaFromDecimal_one : (quotaFromDecimalChecked 1).1 = 1 := by decide +kernel

theorem quotaFromDecimal_bounds {x : ℚ} (h : 0 ≤ x) :
    0 ≤ (quotaFromDecimalChecked x).1 ∧ (quotaFromDecimalChecked x).1 ≤ maxQuota := by
  have hmono := quotaFromDecimal_mono h
  rw [quotaFromDecimal_zero] at hmono
  refine ⟨hmono, ?_⟩
  have hmax : maxQuota = 2147483647 := rfl
  rw [quotaFromDecimalChecked_fst]
  omega

/-- What a billable request of this decimal costs: at least 1, unless model or group is for free. -/
def chargeOf (ratio d : ℚ) : ℤ :=
  if ratio ≠ 0 then max 1 (quotaFromDecimalChecked d).1 else (quotaFromDecimalChecked d).1

theorem chargeOf_mono (ratio : ℚ) {x y : ℚ} (h : x ≤ y) : chargeOf ratio x ≤ chargeOf ratio y := by
  have hmono := quotaFromDecimal_mono h
  unfold chargeOf
  split_ifs
  · omega
  · exact hmono

theorem chargeOf_bounds (ratio : ℚ) {x : ℚ} (h : 0 ≤ x) : 0 ≤ chargeOf ratio x ∧ chargeOf ratio x ≤ maxQuota := by
  obtain ⟨hnonneg, hle⟩ := quotaFromDecimal_bounds h
  have hmax : maxQuota = 2147483647 := rfl
  unfold chargeOf
  split_ifs
  · omega
  · exact ⟨hnonneg, hle⟩

theorem chargeOf_pos {ratio : ℚ} (hratio : ratio ≠ 0) (x : ℚ) : 1 ≤ chargeOf ratio x := by
  unfold chargeOf
  rw [if_pos hratio]
  omega

/-! ## The input -/

/-- Counts, ratios and the unit are not negative, the mode is that of ratios, and counts of calls fit their type. -/
structure Regular (settings : Settings) (info : RelayInfo) (u : UsageTokens) : Prop where
  prompt        : 0 ≤ u.promptTokens
  completion    : 0 ≤ u.completionTokens
  cached        : 0 ≤ u.promptTokensDetails.cachedTokens
  creation5m    : 0 ≤ u.claudeCacheCreation5mTokens
  creation1h    : 0 ≤ u.claudeCacheCreation1hTokens
  image         : 0 ≤ u.promptTokensDetails.imageTokens
  audio         : 0 ≤ u.promptTokensDetails.audioTokens
  modelRatio    : 0 ≤ info.priceData.modelRatio
  completeRatio : 0 ≤ info.priceData.completionRatio
  cacheRatio    : 0 ≤ info.priceData.cacheRatio
  createRatio   : 0 ≤ info.priceData.cacheCreationRatio
  create5mRatio : 0 ≤ info.priceData.cacheCreation5mRatio
  create1hRatio : 0 ≤ info.priceData.cacheCreation1hRatio
  imageRatio    : 0 ≤ info.priceData.imageRatio
  groupRatio    : 0 ≤ info.priceData.groupRatio
  quotaPerUnit  : 0 ≤ settings.quotaPerUnit
  ratioMode     : info.priceData.usePrice = false
  calls         : ∀ call ∈ info.toolCalls, call.2 ≤ maxInt

/-- The quota of a usage. -/
def quotaOf (settings : Settings) (info : RelayInfo) (u : Usage) : ℤ :=
  (calculateTextQuotaSummary settings info (some u)).quota

/-- The product of the ratios of model and group. -/
def RelayInfo.ratio (info : RelayInfo) : ℚ := info.priceData.modelRatio * info.priceData.groupRatio

/-- What the prompt leaves out is charged beside it. -/
def separates (info : RelayInfo) (u : UsageTokens) : Bool :=
  decide (usageSemanticFromUsage info.getFinalRequestRelayFormat u = "anthropic") ||
    isLegacyClaudeDerivedOpenAIUsage info u

/-- The decimal behind the quota. -/
def decimalOf (settings : Settings) (info : RelayInfo) (u : UsageTokens) : ℚ :=
  ratioDecimal settings info.priceData (summarize settings info u) (separates info u)

/-- The test of the total. -/
def billable (settings : Settings) (info : RelayInfo) (u : UsageTokens) : Bool :=
  decide (0 < u.promptTokens + u.completionTokens) || decide (calculateTextToolCallSurcharge settings info ≠ 0)

variable {settings : Settings} {info info' : RelayInfo} {u : Usage}

/-! ## Tool calls -/

/-- The item of a call, if it is surcharged. -/
def surchargeItem? (price : String → ℚ) (call : String × ℤ) : Option ToolSurchargeItem :=
  if call.2 ≤ 0 ∨ price call.1 ≤ 0 then none else some ⟨call.1, call.2, price call.1⟩

variable (price : String → ℚ) (key : String ×ₗ ℚ) (calls : List (String × ℤ))

theorem collect_eq (items : List ToolSurchargeItem) :
    calls.foldl (collectToolSurchargeItem price) items = items ++ calls.filterMap (surchargeItem? price) := by
  induction calls generalizing items with
  | nil => rw [foldl_nil, filterMap_nil, append_nil]
  | cons call _ ih =>
    rw [foldl_cons, ih, filterMap_cons]
    unfold collectToolSurchargeItem surchargeItem?
    by_cases hcount : call.2 ≤ 0
    · rw [if_pos hcount, if_pos (Or.inl hcount)]
    · by_cases hprice : price call.1 ≤ 0
      · rw [if_neg hcount, if_pos hprice, if_pos (Or.inr hprice)]
      · rw [if_neg hcount, if_neg hprice, if_neg (not_or.2 ⟨hcount, hprice⟩), append_assoc]
        rfl

/-- The items of a request before they are merged. -/
def collected (settings : Settings) (info : RelayInfo) : List ToolSurchargeItem :=
  info.toolCalls.filterMap (surchargeItem? fun name => settings.toolPrice name info.originModelName)

theorem mem_collected {item : ToolSurchargeItem} (h : item ∈ collected settings info) :
    0 < item.count ∧ 0 < item.price ∧ (item.name, item.count) ∈ info.toolCalls := by
  obtain ⟨call, hcall, hitem⟩ := mem_filterMap.1 h
  unfold surchargeItem? at hitem
  split_ifs at hitem with hnone
  rw [not_or] at hnone
  cases hitem
  exact ⟨by show 0 < call.2; omega, not_le.1 hnone.2, hcall⟩

/-- The items merged: every name and price once, with all its calls. -/
theorem items_merged (hcalls : ∀ call ∈ info.toolCalls, call.2 ≤ maxInt) :
    Merged itemKey ToolSurchargeItem.count maxInt
      ((collected settings info).insertionSort fun a b => itemKey a ≤ itemKey b)
      (toolSurchargeItems settings info) := by
  have hitems : toolSurchargeItems settings info = mergeNeighbours itemKey addCount
      ((collected settings info).insertionSort fun a b => itemKey a ≤ itemKey b) := by
    unfold toolSurchargeItems mergeToolSurchargeItems
    rw [collect_eq, nil_append]
    rfl
  rw [hitems]
  refine merged (fun _ _ => rfl) (fun a b => ?_) ?_ fun item hitem => ?_
  · show (if maxInt - a.count < b.count then maxInt else a.count + b.count) = _
    split_ifs <;> omega
  · have htotal : Std.Total (fun a b : ToolSurchargeItem => itemKey a ≤ itemKey b) := ⟨fun a b => le_total _ _⟩
    have htrans : IsTrans ToolSurchargeItem (fun a b => itemKey a ≤ itemKey b) := ⟨fun _ _ _ => le_trans⟩
    exact pairwise_insertionSort _ _
  · obtain ⟨hpos, _, hmem⟩ := mem_collected ((mem_insertionSort _).1 hitem)
    have hle : item.count ≤ maxInt := hcalls _ hmem
    exact ⟨by omega, hle⟩

/-- What calls of a name at a price cost. -/
def surchargeTerm (settings : Settings) (info : RelayInfo) (key : String ×ₗ ℚ) (count : ℤ) : ℚ :=
  (ofLex key).2 * count / 1000 * info.priceData.groupRatio * settings.quotaPerUnit

theorem surcharge_eq (settings : Settings) (info : RelayInfo) : calculateTextToolCallSurcharge settings info =
      ((toolSurchargeItems settings info).map fun item =>
        surchargeTerm settings info (itemKey item) item.count).sum := rfl

theorem surchargeTerm_mono (hgroup : 0 ≤ info.priceData.groupRatio) (hunit : 0 ≤ settings.quotaPerUnit)
    {key : String ×ₗ ℚ} (hprice : 0 < (ofLex key).2) {c c' : ℤ} (h : c ≤ c') :
    surchargeTerm settings info key c ≤ surchargeTerm settings info key c' := by
  have hcast : (c : ℚ) ≤ c' := Int.cast_le.2 h
  unfold surchargeTerm
  gcongr

/-- Every merged item is one of those collected, as far as name and price go. -/
theorem item_price (hcalls : ∀ call ∈ info.toolCalls, call.2 ≤ maxInt) {item : ToolSurchargeItem}
    (h : item ∈ toolSurchargeItems settings info) : 0 < item.price ∧ 0 < item.count := by
  have hm := @items_merged settings info hcalls
  have hkey := (hm.keys (itemKey item)).1 (mem_map_of_mem h)
  obtain ⟨source, hsource, heq⟩ := mem_map.1 hkey
  rw [mem_insertionSort] at hsource
  have hsame : source.price = item.price := congrArg (fun k => (ofLex k).2) heq
  obtain ⟨hcount, hprice, _⟩ := mem_collected hsource
  refine ⟨hsame ▸ hprice, ?_⟩
  rw [hm.count item h, total_perm (perm_insertionSort _ _)]
  -- the calls of the source are among them
  have hpositive : source.count ≤ total itemKey ToolSurchargeItem.count (itemKey item) (collected settings info) := by
    unfold total
    refine single_le_sum (fun x hx => ?_) _ (mem_map.2 ⟨source, hsource, if_pos heq⟩)
    obtain ⟨other, hother, rfl⟩ := mem_map.1 hx
    split_ifs
    · have := (mem_collected hother).1
      omega
    · exact Int.le_refl _
  have hmax : maxInt = 9223372036854775807 := rfl
  omega

theorem surcharge_nonneg (h : Regular settings info u.toUsageTokens) :
    0 ≤ calculateTextToolCallSurcharge settings info := by
  rw [surcharge_eq]
  refine sum_nonneg fun x hx => ?_
  obtain ⟨item, hitem, rfl⟩ := mem_map.1 hx
  obtain ⟨hprice, hcount⟩ := item_price h.calls hitem
  have hzero : surchargeTerm settings info (itemKey item) 0 = 0 := by
    unfold surchargeTerm
    rw [Int.cast_zero, mul_zero, zero_div, zero_mul, zero_mul]
  rw [← hzero]
  exact @surchargeTerm_mono settings info h.groupRatio h.quotaPerUnit (itemKey item) hprice 0 item.count (by omega)

/-- There is a surcharge if some call is surcharged and money counts. -/
theorem surcharge_ne_zero (h : Regular settings info u.toUsageTokens) (hgroup : info.priceData.groupRatio ≠ 0) :
    calculateTextToolCallSurcharge settings info ≠ 0 ↔
      toolSurchargeItems settings info ≠ [] ∧ settings.quotaPerUnit ≠ 0 := by
  constructor
  · intro hne
    refine ⟨fun hnil => hne ?_, fun hunit => hne ?_⟩
    · unfold calculateTextToolCallSurcharge
      rw [hnil]
      rfl
    · unfold calculateTextToolCallSurcharge
      refine sum_eq_zero fun x hx => ?_
      obtain ⟨item, _, rfl⟩ := mem_map.1 hx
      rw [hunit, mul_zero]
  · rintro ⟨hitems, hunit⟩
    have hunit : 0 < settings.quotaPerUnit := lt_of_le_of_ne h.quotaPerUnit (Ne.symm hunit)
    have hgroup : 0 < info.priceData.groupRatio := lt_of_le_of_ne h.groupRatio (Ne.symm hgroup)
    have hterm : ∀ item ∈ toolSurchargeItems settings info,
        0 < item.price * item.count / 1000 * info.priceData.groupRatio * settings.quotaPerUnit := by
      intro item hitem
      obtain ⟨hprice, hcount⟩ := item_price h.calls hitem
      have hcount : (0 : ℚ) < item.count := Int.cast_pos.2 hcount
      positivity
    refine ne_of_gt ?_
    unfold calculateTextToolCallSurcharge
    refine sum_pos _ (fun x hx => ?_) fun hnil => hitems (map_eq_nil_iff.1 hnil)
    obtain ⟨item, hitem, rfl⟩ := mem_map.1 hx
    exact hterm item hitem

/-- More calls of the same tools. -/
structure MoreCalls (info info' : RelayInfo) : Prop where
  same     : info' = { info with
    builtInTools := info'.builtInTools
    claudeWebSearchRequests := info'.claudeWebSearchRequests
    geminiGoogleSearchCall := info'.geminiGoogleSearchCall }
  builtIn  : List.Forall₂ (fun call call' : String × ℤ => call.1 = call'.1 ∧ call.2 ≤ call'.2)
    info.builtInTools info'.builtInTools
  search   : info.claudeWebSearchRequests ≤ info'.claudeWebSearchRequests
  google   : info.geminiGoogleSearchCall = true → info'.geminiGoogleSearchCall = true
  calls    : ∀ call ∈ info'.toolCalls, call.2 ≤ maxInt

/-- What a call adds to the calls of a name at a price. -/
def callCount (price : String → ℚ) (key : String ×ₗ ℚ) (call : String × ℤ) : ℤ :=
  if call.2 ≤ 0 ∨ price call.1 ≤ 0 then 0 else if toLex (call.1, price call.1) = key then call.2 else 0

theorem callCount_nonneg (call : String × ℤ) : 0 ≤ callCount price key call := by
  unfold callCount
  split_ifs <;> omega

theorem callCount_mono (price : String → ℚ) (key : String ×ₗ ℚ) {call call' : String × ℤ} (hname : call.1 = call'.1)
    (hcount : call.2 ≤ call'.2) : callCount price key call ≤ callCount price key call' := by
  unfold callCount
  rw [hname]
  by_cases hprice : price call'.1 ≤ 0
  · rw [if_pos (Or.inr hprice), if_pos (Or.inr hprice)]
  · simp only [hprice, or_false]
    split_ifs <;> omega

theorem total_collected : total itemKey ToolSurchargeItem.count key (calls.filterMap (surchargeItem? price)) =
      (calls.map (callCount price key)).sum := by
  induction calls with
  | nil => rfl
  | cons _ _ ih =>
    rw [filterMap_cons, map_cons, sum_cons, ← ih]
    unfold surchargeItem? callCount
    split_ifs with hnone hkey
    · rw [Int.zero_add]
    · show total _ _ _ ([_] ++ _) = _
      rw [total_append, total_single]
      exact congrArg (· + _) (if_pos hkey)
    · show total _ _ _ ([_] ++ _) = _
      rw [total_append, total_single]
      exact congrArg (· + _) (if_neg hkey)

theorem sum_forall₂_le {calls calls' : List (String × ℤ)}
    (h : List.Forall₂ (fun call call' : String × ℤ => call.1 = call'.1 ∧ call.2 ≤ call'.2) calls calls') :
    (calls.map (callCount price key)).sum ≤ (calls'.map (callCount price key)).sum := by
  induction h with
  | nil => exact Int.le_refl _
  | cons hcall _ ih =>
    rw [map_cons, map_cons, sum_cons, sum_cons]
    exact Int.add_le_add (callCount_mono price key hcall.1 hcall.2) ih

/-- No name at a price has fewer calls. -/
theorem MoreCalls.totals (h : MoreCalls info info') (key : String ×ₗ ℚ) :
    total itemKey ToolSurchargeItem.count key (collected settings info) ≤
      total itemKey ToolSurchargeItem.count key (collected settings info') := by
  have hmodel : info'.originModelName = info.originModelName := by rw [h.same]
  have hmode : info'.relayModeResponses = info.relayModeResponses := by rw [h.same]
  unfold collected
  rw [hmodel, total_collected, total_collected]
  unfold RelayInfo.toolCalls
  rw [hmodel, hmode]
  simp only [map_append, sum_append, map_cons, map_nil, sum_cons, sum_nil]
  have hbuiltIn := sum_forall₂_le (fun name => settings.toolPrice name info.originModelName) key h.builtIn
  have hsearch := @callCount_mono (fun name => settings.toolPrice name info.originModelName) key
    ("web_search", info.claudeWebSearchRequests) ("web_search", info'.claudeWebSearchRequests) rfl h.search
  have hgoogle : ((if info.geminiGoogleSearchCall then [("google_search", (1 : ℤ))] else []).map
      (callCount (fun name => settings.toolPrice name info.originModelName) key)).sum ≤
      ((if info'.geminiGoogleSearchCall then [("google_search", (1 : ℤ))] else []).map
      (callCount (fun name => settings.toolPrice name info.originModelName) key)).sum := by
    cases hg : info.geminiGoogleSearchCall with
    | true =>
      rw [h.google hg]
    | false =>
      refine sum_nonneg fun x hx => ?_
      obtain ⟨call, _, rfl⟩ := mem_map.1 hx
      exact callCount_nonneg _ _ _
  omega

theorem MoreCalls.surcharge_le (hregular : Regular settings info u.toUsageTokens) (h : MoreCalls info info') :
    calculateTextToolCallSurcharge settings info ≤ calculateTextToolCallSurcharge settings info' := by
  have hterm : ∀ key count, surchargeTerm settings info' key count = surchargeTerm settings info key count := by
    intro key count
    unfold surchargeTerm
    rw [show info'.priceData = info.priceData by rw [h.same]]
  rw [surcharge_eq, surcharge_eq]
  simp only [hterm]
  refine sum_merged_le (items_merged hregular.calls) (items_merged h.calls) (by decide) (surchargeTerm settings info)
    (fun key => ?_) (fun item hitem c c' => ?_) (fun item hitem c c' => ?_) fun key => ?_
  · unfold surchargeTerm
    rw [Int.cast_zero, mul_zero, zero_div, zero_mul, zero_mul]
  · have hprice := (mem_collected ((mem_insertionSort _).1 hitem)).2.1
    exact @surchargeTerm_mono settings info hregular.groupRatio hregular.quotaPerUnit (itemKey item) hprice c c'
  · have hprice := (mem_collected ((mem_insertionSort _).1 hitem)).2.1
    exact @surchargeTerm_mono settings info hregular.groupRatio hregular.quotaPerUnit (itemKey item) hprice c c'
  · rw [total_perm (perm_insertionSort _ _), total_perm (perm_insertionSort _ _)]
    exact h.totals key

/-! ## The decimal -/

/-- The other ratios together are one factor. -/
theorem otherRatios_factor (p : PriceData) :
    ∃ factor : ℚ, 0 < factor ∧ ∀ value, p.applyOtherRatiosToDecimal value = value * factor := by
  unfold PriceData.applyOtherRatiosToDecimal
  induction p.otherRatios with
  | nil => exact ⟨1, one_pos, fun value => (mul_one value).symm⟩
  | cons other _ ih =>
    obtain ⟨factor, hpos, hfactor⟩ := ih
    by_cases hvalid : (isValidOtherRatio other.2 && decide (other.2 ≠ 1)) = true
    · have hother : 0 < other.2 := by
        rw [Bool.and_eq_true] at hvalid
        exact of_decide_eq_true hvalid.1
      refine ⟨other.2 * factor, mul_pos hother hpos, fun value => ?_⟩
      rw [foldl_cons, if_pos hvalid, hfactor, mul_assoc]
    · refine ⟨factor, hpos, fun value => ?_⟩
      rw [foldl_cons, if_neg hvalid, hfactor]

theorem creationTotal_nonneg (d : InputTokenDetails) : 0 ≤ d.cacheCreationTokensTotal := by
  unfold InputTokenDetails.cacheCreationTokensTotal
  simp only
  split_ifs <;> omega

theorem baseTokens_nonneg (s : TextQuotaSummary) (separate : Bool) : 0 ≤ baseTokens s separate := by
  unfold baseTokens
  simp only
  generalize (if s.audioTokens ≠ 0 then _ else _ : ℤ) = base
  split_ifs <;> omega

theorem rebased_creation_nonneg (settings : Settings) (info : RelayInfo) (u : UsageTokens) :
    0 ≤ (rebased settings info u).2 := by
  have htotal := creationTotal_nonneg u.promptTokensDetails
  unfold rebased cacheCreation
  simp only
  split_ifs with hrouter hinferred htokens
  · exact htokens.1
  · exact Int.le_refl _
  · exact htotal
  · exact htotal

theorem cachedCreation_nonneg (h : Regular settings info u.toUsageTokens) (separate : Bool) :
    0 ≤ cachedCreationTokensWithRatio info.priceData (summarize settings info u.toUsageTokens) separate := by
  have hcreation : (0 : ℚ) ≤ (rebased settings info u.toUsageTokens).2 :=
    Int.cast_nonneg (rebased_creation_nonneg settings info _)
  have h5m : (0 : ℚ) ≤ u.claudeCacheCreation5mTokens := Int.cast_nonneg h.creation5m
  have h1h : (0 : ℚ) ≤ u.claudeCacheCreation1hTokens := Int.cast_nonneg h.creation1h
  have hratio := h.createRatio
  have hratio5m := h.create5mRatio
  have hratio1h := h.create1hRatio
  unfold cachedCreationTokensWithRatio
  split_ifs
  · exact mul_nonneg hcreation hratio
  · simp only
    have hremaining : ∀ remaining : ℤ, (0 : ℚ) ≤ ((if remaining < 0 then 0 else remaining : ℤ) : ℚ) := by
      intro remaining
      refine Int.cast_nonneg ?_
      split_ifs <;> omega
    exact add_nonneg (add_nonneg (mul_nonneg (hremaining _) hratio) (mul_nonneg h5m hratio5m)) (mul_nonneg h1h hratio1h)
  · exact le_refl _

theorem audio_nonneg (h : Regular settings info u.toUsageTokens) :
    0 ≤ audioInputQuota settings info.priceData (summarize settings info u.toUsageTokens) := by
  have haudio : (0 : ℚ) ≤ u.promptTokensDetails.audioTokens := Int.cast_nonneg h.audio
  have hgroup := h.groupRatio
  have hunit := h.quotaPerUnit
  unfold audioInputQuota
  split_ifs with hpriced
  · have hprice := hpriced.2
    exact mul_nonneg (mul_nonneg (mul_nonneg (by positivity) haudio) hgroup) hunit
  · exact le_refl _

/-- What is charged of tokens before the other ratios. -/
theorem weighted_nonneg (h : Regular settings info u.toUsageTokens) (separate : Bool) :
    (0 : ℚ) ≤ ((baseTokens (summarize settings info u.toUsageTokens) separate : ℚ) +
        u.promptTokensDetails.cachedTokens * info.priceData.cacheRatio +
        u.promptTokensDetails.imageTokens * info.priceData.imageRatio +
        cachedCreationTokensWithRatio info.priceData (summarize settings info u.toUsageTokens) separate) *
      info.ratio := by
  have hbase : (0 : ℚ) ≤ baseTokens (summarize settings info u.toUsageTokens) separate :=
    Int.cast_nonneg (baseTokens_nonneg _ _)
  have hcached : (0 : ℚ) ≤ u.promptTokensDetails.cachedTokens := Int.cast_nonneg h.cached
  have himage : (0 : ℚ) ≤ u.promptTokensDetails.imageTokens := Int.cast_nonneg h.image
  have hcreation := cachedCreation_nonneg h separate
  exact mul_nonneg (add_nonneg (add_nonneg (add_nonneg hbase (mul_nonneg hcached h.cacheRatio))
    (mul_nonneg himage h.imageRatio)) hcreation) (mul_nonneg h.modelRatio h.groupRatio)

theorem decimal_nonneg (h : Regular settings info u.toUsageTokens) : 0 ≤ decimalOf settings info u.toUsageTokens := by
  obtain ⟨factor, hpos, hfactor⟩ := otherRatios_factor info.priceData
  have hweighted := weighted_nonneg h (separates info u.toUsageTokens)
  have hcompletion : (0 : ℚ) ≤ u.completionTokens * info.priceData.completionRatio * info.ratio :=
    mul_nonneg (mul_nonneg (Int.cast_nonneg h.completion) h.completeRatio) (mul_nonneg h.modelRatio h.groupRatio)
  have haudio := audio_nonneg h
  unfold decimalOf ratioDecimal
  rw [hfactor]
  refine add_nonneg (mul_nonneg (add_nonneg ?_ haudio) hpos.le) (surcharge_nonneg h)
  rw [add_mul]
  exact add_nonneg hweighted hcompletion

/-- In ratio mode the quota is the charge of the decimal, for a billable request. -/
theorem summary_quota (hmode : info.priceData.usePrice = false) (usage : Option Usage)
    (hdecimal : 0 ≤ decimalOf settings info (info.usageOrEstimate usage)) :
    (calculateTextQuotaSummary settings info usage).quota =
      if billable settings info (info.usageOrEstimate usage) then
        chargeOf info.ratio (decimalOf settings info (info.usageOrEstimate usage))
      else 0 := by
  have hbounds := quotaFromDecimal_bounds hdecimal
  generalize hu : info.usageOrEstimate usage = tokens at hdecimal hbounds
  have hquota : decimalQuota settings info.priceData (summarize settings info tokens) (separates info tokens) =
      (quotaFromDecimalChecked (if info.ratio ≠ 0 ∧ decimalOf settings info tokens ≤ 0 then 1
        else decimalOf settings info tokens)).1 := by
    unfold decimalQuota
    rw [hmode]
    rfl
  have hsteps : (calculateTextQuotaSummary settings info usage).quota =
      if (!billable settings info tokens) = true then 0
      else if info.ratio ≠ 0 ∧ decimalQuota settings info.priceData (summarize settings info tokens)
          (separates info tokens) = 0 then 1
      else decimalQuota settings info.priceData (summarize settings info tokens) (separates info tokens) := by
    unfold calculateTextQuotaSummary
    rw [hu]
    show (if (!billable settings info tokens) = true then _
      else if info.ratio ≠ 0 ∧ decimalQuota settings info.priceData (summarize settings info tokens)
        (separates info tokens) = 0 then _ else _ : TextQuotaSummary).quota = _
    split_ifs
    · rfl
    · rfl
    · rfl
  rw [hsteps, hquota]
  cases billable settings info tokens with
  | false => rfl
  | true =>
    rw [if_neg (by decide), if_pos rfl]
    unfold chargeOf
    by_cases hratio : info.ratio = 0
    · simp only [hratio, ne_eq, not_true_eq_false, false_and, if_false]
    · simp only [ne_eq, hratio, not_false_eq_true, true_and, if_true]
      by_cases hzero : decimalOf settings info tokens ≤ 0
      · -- the minimum decimal
        have heq : decimalOf settings info tokens = 0 := le_antisymm hzero hdecimal
        rw [heq, if_pos (le_refl _), quotaFromDecimal_zero, quotaFromDecimal_one]
        decide
      · rw [if_neg hzero]
        split_ifs <;> omega

theorem quota_eq (h : Regular settings info u.toUsageTokens) : quotaOf settings info u =
      if billable settings info u.toUsageTokens then chargeOf info.ratio (decimalOf settings info u.toUsageTokens)
      else 0 := summary_quota h.ratioMode (some u) (decimal_nonneg h)

/-! ## More use -/

/-- The same usage with another completion. -/
def withCompletion (u : Usage) (completionTokens : ℤ) : Usage := { u with completionTokens := completionTokens }

/-- What is reported does not turn on the completion. -/
theorem rebased_withCompletion (hreported : creationInferred settings info u.toUsageTokens = false) (n : ℤ) :
    rebased settings info (withCompletion u n).toUsageTokens = rebased settings info u.toUsageTokens := by
  have hreported' : creationInferred settings info (withCompletion u n).toUsageTokens = false := hreported
  unfold rebased cacheCreation
  rw [hreported, hreported']
  rfl

theorem summarize_withCompletion {n : ℤ}
    (hsame : rebased settings info (withCompletion u n).toUsageTokens = rebased settings info u.toUsageTokens) :
    summarize settings info (withCompletion u n).toUsageTokens = { summarize settings info u.toUsageTokens with
        completionTokens := n
        totalTokens := u.promptTokens + n } := by
  unfold summarize
  rw [hsame]
  rfl

theorem decimal_withCompletion (h : Regular settings info u.toUsageTokens) {n : ℤ} (hn : u.completionTokens ≤ n)
    (hsame : rebased settings info (withCompletion u n).toUsageTokens = rebased settings info u.toUsageTokens) :
    decimalOf settings info u.toUsageTokens ≤ decimalOf settings info (withCompletion u n).toUsageTokens := by
  obtain ⟨factor, hpos, hfactor⟩ := otherRatios_factor info.priceData
  have hcast : (u.completionTokens : ℚ) ≤ n := Int.cast_le.2 hn
  have hratio := h.completeRatio
  have hprice : 0 ≤ info.priceData.modelRatio * info.priceData.groupRatio := mul_nonneg h.modelRatio h.groupRatio
  have hseparates : separates info (withCompletion u n).toUsageTokens = separates info u.toUsageTokens := rfl
  unfold decimalOf ratioDecimal
  rw [hfactor, hfactor, hseparates, summarize_withCompletion hsame]
  -- only the last category differs
  show ((_ + (u.completionTokens : ℚ) * info.priceData.completionRatio) * _ + _) * factor + _ ≤
    ((_ + (n : ℚ) * info.priceData.completionRatio) * _ + _) * factor + _
  gcongr
  · exact Int.le_refl _
  · exact le_refl _
  · exact le_refl _

theorem billable_withCompletion {n : ℤ} (hn : u.completionTokens ≤ n)
    (h : billable settings info u.toUsageTokens = true) :
    billable settings info (withCompletion u n).toUsageTokens = true := by
  unfold billable at h ⊢
  rw [Bool.or_eq_true] at h ⊢
  refine h.imp (fun htotal => decide_eq_true ?_) id
  have htotal := of_decide_eq_true htotal
  show 0 < u.promptTokens + n
  omega

theorem regular_withCompletion (h : Regular settings info u.toUsageTokens) {n : ℤ} (hn : u.completionTokens ≤ n) :
    Regular settings info (withCompletion u n).toUsageTokens :=
  { h with completion := le_trans h.completion hn }

theorem quota_withCompletion (h : Regular settings info u.toUsageTokens) {n : ℤ} (hn : u.completionTokens ≤ n)
    (hsame : rebased settings info (withCompletion u n).toUsageTokens = rebased settings info u.toUsageTokens) :
    quotaOf settings info u ≤ quotaOf settings info (withCompletion u n) := by
  have h' := regular_withCompletion h hn
  rw [quota_eq h, quota_eq h']
  by_cases hbillable : billable settings info u.toUsageTokens = true
  · rw [if_pos hbillable, if_pos (billable_withCompletion hn hbillable)]
    exact chargeOf_mono _ (decimal_withCompletion h hn hsame)
  · rw [if_neg hbillable]
    split_ifs
    · exact (chargeOf_bounds _ (decimal_nonneg h')).1
    · exact Int.le_refl _

theorem regular_moreCalls (h : Regular settings info u.toUsageTokens) (hmore : MoreCalls info info') :
    Regular settings info' u.toUsageTokens := by
  have hprice : info'.priceData = info.priceData := by rw [hmore.same]
  obtain ⟨prompt, completion, cached, creation5m, creation1h, image, audio, modelRatio, completeRatio, cacheRatio,
    createRatio, create5mRatio, create1hRatio, imageRatio, groupRatio, quotaPerUnit, ratioMode, calls⟩ := h
  rw [← hprice] at modelRatio completeRatio cacheRatio createRatio create5mRatio create1hRatio imageRatio groupRatio
  rw [← hprice] at ratioMode
  exact ⟨prompt, completion, cached, creation5m, creation1h, image, audio, modelRatio, completeRatio, cacheRatio,
    createRatio, create5mRatio, create1hRatio, imageRatio, groupRatio, quotaPerUnit, ratioMode, hmore.calls⟩

theorem quota_moreCalls (h : Regular settings info u.toUsageTokens) (hmore : MoreCalls info info') :
    quotaOf settings info u ≤ quotaOf settings info' u := by
  have hsurcharge := hmore.surcharge_le h
  have hnonneg := surcharge_nonneg h
  have hprice : info'.priceData = info.priceData := by rw [hmore.same]
  have h' := regular_moreCalls h hmore
  have hratio : info'.ratio = info.ratio := congrArg (fun p => p.modelRatio * p.groupRatio) hprice
  have hdecimal : decimalOf settings info u.toUsageTokens + (calculateTextToolCallSurcharge settings info' -
      calculateTextToolCallSurcharge settings info) = decimalOf settings info' u.toUsageTokens := by
    have hseparates : separates info' u.toUsageTokens = separates info u.toUsageTokens := by rw [hmore.same]; rfl
    have hsummary : summarize settings info' u.toUsageTokens = { summarize settings info u.toUsageTokens with
        toolSurchargeItems := toolSurchargeItems settings info'
        toolCallSurchargeQuota := calculateTextToolCallSurcharge settings info' } := by rw [hmore.same]; rfl
    unfold decimalOf
    rw [hseparates, hprice, hsummary]
    unfold ratioDecimal
    show _ + calculateTextToolCallSurcharge settings info + _ = _ + calculateTextToolCallSurcharge settings info'
    rw [add_assoc, add_sub_cancel]
    rfl
  rw [quota_eq h, quota_eq h', hratio]
  by_cases hbillable : billable settings info u.toUsageTokens = true
  · have hbillable' : billable settings info' u.toUsageTokens = true := by
      unfold billable at hbillable ⊢
      rw [Bool.or_eq_true] at hbillable ⊢
      refine hbillable.imp id fun hne => decide_eq_true ?_
      have hpos : 0 < calculateTextToolCallSurcharge settings info :=
        lt_of_le_of_ne hnonneg (Ne.symm (of_decide_eq_true hne))
      exact ne_of_gt (lt_of_lt_of_le hpos hsurcharge)
    rw [if_pos hbillable, if_pos hbillable']
    exact chargeOf_mono _ (by linarith)
  · rw [if_neg hbillable]
    split_ifs
    · exact hratio ▸ (chargeOf_bounds _ (decimal_nonneg h')).1
    · exact Int.le_refl _

/-! ## The two conventions -/

/-- The usage in OpenAI's convention: the prompt has what was cached in it. -/
def inclusive (u : Usage) : Usage :=
  { u with
    usageSemantic := "openai"
    promptTokens :=
      u.promptTokens + u.promptTokensDetails.cachedTokens + u.promptTokensDetails.cacheCreationTokensTotal }

/-- The usage is in Anthropic's convention; OpenRouter's prompts are not. -/
structure ExclusiveUsage (info : RelayInfo) (u : UsageTokens) : Prop where
  semantic   : usageSemanticFromUsage info.getFinalRequestRelayFormat u = "anthropic"
  rebase     : isOpenRouterClaudeBilling info u = false
  image      : u.promptTokensDetails.imageTokens = 0
  audio      : u.promptTokensDetails.audioTokens = 0
  creation5m : u.claudeCacheCreation5mTokens = 0
  creation1h : u.claudeCacheCreation1hTokens = 0

theorem regular_inclusive (h : Regular settings info u.toUsageTokens) :
    Regular settings info (inclusive u).toUsageTokens := by
  have hprompt := h.prompt
  have hcached := h.cached
  have hcreation := creationTotal_nonneg u.promptTokensDetails
  refine { h with prompt := ?_ }
  show 0 ≤ u.promptTokens + u.promptTokensDetails.cachedTokens + u.promptTokensDetails.cacheCreationTokensTotal
  omega

theorem inclusive_semantic (info : RelayInfo) (u : Usage) :
    usageSemanticFromUsage info.getFinalRequestRelayFormat (inclusive u).toUsageTokens = "openai" := by
  unfold usageSemanticFromUsage
  exact if_pos (show "openai" ≠ "" by decide)

theorem inclusive_separates (info : RelayInfo) (u : Usage) : separates info (inclusive u).toUsageTokens = false := by
  have hlegacy : isLegacyClaudeDerivedOpenAIUsage info (inclusive u).toUsageTokens = false := by
    have hnamed : (inclusive u).usageSource ≠ "" ∨ (inclusive u).usageSemantic ≠ "" :=
      Or.inr (show "openai" ≠ "" by decide)
    unfold isLegacyClaudeDerivedOpenAIUsage
    rw [if_pos hnamed, ite_self]
  unfold separates
  rw [inclusive_semantic, hlegacy]
  rfl

theorem inclusive_rebased (settings : Settings) (info : RelayInfo) (u : Usage) :
    rebased settings info (inclusive u).toUsageTokens =
      (u.promptTokens + u.promptTokensDetails.cachedTokens + u.promptTokensDetails.cacheCreationTokensTotal,
        u.promptTokensDetails.cacheCreationTokensTotal) := by
  unfold rebased isOpenRouterClaudeBilling
  rw [inclusive_semantic, show decide ("openai" = "anthropic") = false from by decide, Bool.and_false,
    if_neg Bool.false_ne_true]
  rfl

variable {s : TextQuotaSummary}

theorem baseTokens_exclusive (himage : s.imageTokens = 0) (haudio : s.audioTokens = 0)
    (hprompt : 0 ≤ s.promptTokens) : baseTokens s true = s.promptTokens := by
  unfold baseTokens
  simp only [himage, haudio, if_true, ite_self, ne_eq, not_true_eq_false, if_false]
  rw [if_neg (not_lt.2 hprompt)]

theorem baseTokens_inclusive (himage : s.imageTokens = 0) (haudio : s.audioTokens = 0)
    (h5m : s.cacheCreationTokens5m = 0) (h1h : s.cacheCreationTokens1h = 0)
    (hprompt : 0 ≤ s.promptTokens - s.cacheTokens - s.cacheCreationTokens) :
    baseTokens s false = s.promptTokens - s.cacheTokens - s.cacheCreationTokens := by
  unfold baseTokens
  simp only [himage, haudio, h5m, h1h, Bool.false_eq_true, if_false]
  split_ifs <;> omega

theorem cachedCreation_unsplit (p : PriceData) (separate : Bool)
    (hcreation : 0 ≤ s.cacheCreationTokens) (h5m : s.cacheCreationTokens5m = 0) (h1h : s.cacheCreationTokens1h = 0) :
    cachedCreationTokensWithRatio p s separate = s.cacheCreationTokens * p.cacheCreationRatio := by
  unfold cachedCreationTokensWithRatio
  simp only [h5m, h1h, sub_zero, Int.cast_zero, zero_mul, add_zero]
  rw [if_neg (not_lt.2 hcreation), ite_self]
  split_ifs with hsome
  · rfl
  · rw [show s.cacheCreationTokens = 0 by omega, Int.cast_zero, zero_mul]

/-- Both conventions are charged for the same tokens. -/
theorem decimal_inclusive (h : Regular settings info u.toUsageTokens) (he : ExclusiveUsage info u.toUsageTokens) :
    decimalOf settings info (inclusive u).toUsageTokens = decimalOf settings info u.toUsageTokens := by
  have hseparates : separates info u.toUsageTokens = true := by
    unfold separates
    rw [he.semantic]
    rfl
  have hrebased : rebased settings info u.toUsageTokens =
      (u.promptTokens, u.promptTokensDetails.cacheCreationTokensTotal) := by
    unfold rebased
    rw [he.rebase]
    rfl
  have hprompt := h.prompt
  have hcreation := creationTotal_nonneg u.promptTokensDetails
  have hbase : baseTokens (summarize settings info u.toUsageTokens) true = u.promptTokens := by
    rw [baseTokens_exclusive he.image he.audio (by show 0 ≤ (rebased _ _ _).1; rw [hrebased]; exact hprompt)]
    show (rebased _ _ _).1 = _
    rw [hrebased]
  have hprompt' : (summarize settings info (inclusive u).toUsageTokens).promptTokens -
      (summarize settings info (inclusive u).toUsageTokens).cacheTokens -
      (summarize settings info (inclusive u).toUsageTokens).cacheCreationTokens = u.promptTokens := by
    show (rebased _ _ _).1 - u.promptTokensDetails.cachedTokens - (rebased _ _ _).2 = _
    rw [inclusive_rebased]
    show _ + _ + _ - _ - _ = _
    omega
  have hbase' : baseTokens (summarize settings info (inclusive u).toUsageTokens) false = u.promptTokens := by
    rw [baseTokens_inclusive he.image he.audio he.creation5m he.creation1h (by rw [hprompt']; exact hprompt), hprompt']
  have hcached : cachedCreationTokensWithRatio info.priceData (summarize settings info u.toUsageTokens) true =
      u.promptTokensDetails.cacheCreationTokensTotal * info.priceData.cacheCreationRatio := by
    rw [cachedCreation_unsplit _ _ (rebased_creation_nonneg _ _ _) he.creation5m he.creation1h]
    show ((rebased _ _ _).2 : ℚ) * _ = _
    rw [hrebased]
  have hcached' : cachedCreationTokensWithRatio info.priceData (summarize settings info (inclusive u).toUsageTokens)
      false = u.promptTokensDetails.cacheCreationTokensTotal * info.priceData.cacheCreationRatio := by
    rw [cachedCreation_unsplit _ _ (rebased_creation_nonneg _ _ _) he.creation5m he.creation1h]
    show ((rebased _ _ _).2 : ℚ) * _ = _
    rw [inclusive_rebased]
  unfold decimalOf ratioDecimal
  rw [inclusive_separates, hseparates, hbase, hbase', hcached, hcached']
  rfl

/-- With nothing to weigh by and nothing surcharged there is nothing to charge. -/
theorem decimal_free (hratio : info.ratio = 0)
    (haudio : u.promptTokensDetails.audioTokens = 0) (hsurcharge : calculateTextToolCallSurcharge settings info = 0) :
    decimalOf settings info u.toUsageTokens = 0 := by
  obtain ⟨factor, hpos, hfactor⟩ := otherRatios_factor info.priceData
  have hquota : audioInputQuota settings info.priceData (summarize settings info u.toUsageTokens) = 0 :=
    if_neg fun hpriced => hpriced.1 haudio
  have hprice : info.priceData.modelRatio * info.priceData.groupRatio = 0 := hratio
  unfold decimalOf ratioDecimal
  rw [hfactor, hquota, hprice, mul_zero, add_zero, zero_mul, zero_add]
  exact hsurcharge

/-! ## The laws -/

/-- No token of any category, and no call that is surcharged. -/
structure NothingUsed (settings : Settings) (info : RelayInfo) (u : UsageTokens) : Prop where
  prompt     : u.promptTokens = 0
  completion : u.completionTokens = 0
  cached     : u.promptTokensDetails.cachedTokens = 0
  creation   : u.promptTokensDetails.cacheCreationTokensTotal = 0
  creation5m : u.claudeCacheCreation5mTokens = 0
  creation1h : u.claudeCacheCreation1hTokens = 0
  tools      : toolSurchargeItems settings info = []

structure QuotaLaws (settings : Settings) (info : RelayInfo) (u : Usage) : Prop where
  bounded     : 0 ≤ quotaOf settings info u ∧ quotaOf settings info u ≤ maxQuota
  charged     : info.priceData.modelRatio ≠ 0 → info.priceData.groupRatio ≠ 0 → quotaOf settings info u = 0 →
    NothingUsed settings info u.toUsageTokens
  completion  : ∀ completionTokens, u.completionTokens ≤ completionTokens →
    quotaOf settings info u ≤ quotaOf settings info (withCompletion u completionTokens)
  toolCalls   : ∀ info', MoreCalls info info' → quotaOf settings info u ≤ quotaOf settings info' u
  conventions : ExclusiveUsage info u.toUsageTokens → quotaOf settings info u = quotaOf settings info (inclusive u)

/-- Model or group is for free, or the request counts as billable if anything was used. -/
def Charged (settings : Settings) (info : RelayInfo) (u : UsageTokens) : Prop :=
  info.priceData.modelRatio = 0 ∨ info.priceData.groupRatio = 0 ∨ 0 < u.promptTokens + u.completionTokens ∨
    (toolSurchargeItems settings info ≠ [] ∧ settings.quotaPerUnit ≠ 0) ∨
    (u.promptTokensDetails.cachedTokens = 0 ∧ u.promptTokensDetails.cacheCreationTokensTotal = 0 ∧
      u.claudeCacheCreation5mTokens = 0 ∧ u.claudeCacheCreation1hTokens = 0 ∧ toolSurchargeItems settings info = [])

theorem ratio_ne_zero (hmodel : info.priceData.modelRatio ≠ 0) (hgroup : info.priceData.groupRatio ≠ 0) :
    info.ratio ≠ 0 := mul_ne_zero hmodel hgroup

theorem charged_law (h : Regular settings info u.toUsageTokens) (hcharged : Charged settings info u.toUsageTokens)
    (hmodel : info.priceData.modelRatio ≠ 0) (hgroup : info.priceData.groupRatio ≠ 0)
    (hzero : quotaOf settings info u = 0) : NothingUsed settings info u.toUsageTokens := by
  rw [quota_eq h] at hzero
  have hpos := chargeOf_pos (ratio_ne_zero hmodel hgroup) (decimalOf settings info u.toUsageTokens)
  have hbillable : billable settings info u.toUsageTokens = false := by
    rw [← Bool.not_eq_true]
    intro hbillable
    rw [if_pos hbillable] at hzero
    omega
  unfold billable at hbillable
  rw [Bool.or_eq_false_iff] at hbillable
  have htotal := of_decide_eq_false hbillable.1
  have hsurcharge := of_decide_eq_false hbillable.2
  have hprompt := h.prompt
  have hcompletion := h.completion
  rcases hcharged with hfree | hfree | hpositive | hcalls | ⟨hcached, hcreation, h5m, h1h, htools⟩
  · exact absurd hfree hmodel
  · exact absurd hfree hgroup
  · exact absurd hpositive htotal
  · exact absurd ((surcharge_ne_zero h hgroup).2 hcalls) hsurcharge
  · exact ⟨by omega, by omega, hcached, hcreation, h5m, h1h, htools⟩

theorem conventions_law (h : Regular settings info u.toUsageTokens) (hcharged : Charged settings info u.toUsageTokens)
    (he : ExclusiveUsage info u.toUsageTokens) : quotaOf settings info u = quotaOf settings info (inclusive u) := by
  have h' := regular_inclusive h
  rw [quota_eq h, quota_eq h', decimal_inclusive h he]
  have hprompt := h.prompt
  have hcompletion := h.completion
  have hcached := h.cached
  have hcreation := creationTotal_nonneg u.promptTokensDetails
  have hprompt' : (inclusive u).toUsageTokens.promptTokens =
    u.promptTokens + u.promptTokensDetails.cachedTokens + u.promptTokensDetails.cacheCreationTokensTotal := rfl
  have hcompletion' : (inclusive u).toUsageTokens.completionTokens = u.completionTokens := rfl
  by_cases hsame : billable settings info (inclusive u).toUsageTokens = billable settings info u.toUsageTokens
  · rw [hsame]
  -- the cache alone makes the difference
  unfold billable at hsame
  rw [hprompt', hcompletion'] at hsame
  have hsurcharge : calculateTextToolCallSurcharge settings info = 0 := by
    by_contra hne
    rw [decide_eq_true hne, Bool.or_true, Bool.or_true] at hsame
    exact hsame rfl
  have htotal : ¬ 0 < u.promptTokens + u.completionTokens := by
    intro hpositive
    rw [decide_eq_true hpositive, decide_eq_true (by omega)] at hsame
    exact hsame rfl
  have hratio : info.ratio = 0 := by
    rcases hcharged with hfree | hfree | hpositive | hcalls | ⟨hnocache, hnocreation, -, -, -⟩
    · exact mul_eq_zero_of_left hfree _
    · exact mul_eq_zero_of_right _ hfree
    · exact absurd hpositive htotal
    · by_contra hratio
      exact (surcharge_ne_zero h (right_ne_zero_of_mul hratio)).2 hcalls hsurcharge
    · exact absurd (by rw [hnocache, hnocreation, add_zero, add_zero]) hsame
  have hcharge : chargeOf info.ratio (decimalOf settings info u.toUsageTokens) = 0 := by
    rw [decimal_free hratio he.audio hsurcharge, hratio]
    decide +kernel
  rw [hcharge]
  split_ifs <;> rfl

def plainSettings : Settings where
  quotaPerUnit := 500000
  toolPrice := fun _ _ => 0

/-- A request at the plain ratio, a tenth of it for the cache. -/
def plainInfo : RelayInfo where
  priceData := {
    modelRatio := 1
    completionRatio := 5
    cacheRatio := 1 / 10
    cacheCreationRatio := 5 / 4
    cacheCreation5mRatio := 5 / 4
    cacheCreation1hRatio := 2
    imageRatio := 1
    groupRatio := 1 }

def anthropicUsage (promptTokens cachedTokens : ℤ) : Usage where
  promptTokens := promptTokens
  promptTokensDetails := { cachedTokens := cachedTokens }
  usageSemantic := "anthropic"

theorem anthropicUsage_regular {p c : ℤ} (hp : 0 ≤ p) (hc : 0 ≤ c) :
    Regular plainSettings plainInfo (anthropicUsage p c).toUsageTokens where
  prompt := hp
  completion := Int.le_refl 0
  cached := hc
  creation5m := Int.le_refl 0
  creation1h := Int.le_refl 0
  image := Int.le_refl 0
  audio := Int.le_refl 0
  modelRatio := by decide +kernel
  completeRatio := by decide +kernel
  cacheRatio := by decide +kernel
  createRatio := by decide +kernel
  create5mRatio := by decide +kernel
  create1hRatio := by decide +kernel
  imageRatio := by decide +kernel
  groupRatio := by decide +kernel
  quotaPerUnit := by decide +kernel
  ratioMode := rfl
  calls := by decide +kernel

/-- A request to OpenRouter that cost 0.0239. -/
def routerInfo : RelayInfo where
  originModelName := "claude"
  channelType := some channelTypeOpenRouter
  priceData := { plainInfo.priceData with modelRatio := 15 / 2, completionRatio := 49 / 10 }

def routerUsage (completionTokens : ℤ) : Usage where
  promptTokens := 1000
  completionTokens := completionTokens
  usageSemantic := "anthropic"
  cost := 239 / 10000

/-- One token more is one unit less: the creation that the cost leaves room for goes from 590 tokens to 570. -/
example : quotaOf { plainSettings with defaultModelRatio := fun _ => some (15 / 2) } routerInfo (routerUsage 91) = 11951 ∧
    quotaOf { plainSettings with defaultModelRatio := fun _ => some (15 / 2) } routerInfo (routerUsage 92) = 11950 := by
  decide +kernel

end NovaMaas.Charge
