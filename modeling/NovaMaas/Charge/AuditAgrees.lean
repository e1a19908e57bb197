/-
  The audit's price of a log against the charge that left it.

  Both reduce to one decimal: tokens in their categories, each at its ratio, times the ratios of model and group.  What
  a priced row says is read back by inversion, one lemma for each function (`priced_of_issue`).  The log keeps of the
  charge the counts and the ratios, so the two decimals are the same (`decimals_agree`) as long as nothing went into the
  charge that the log has no key for:

  * separately priced audio input, and other ratios, which the audit would refuse to price if it saw them;
  * a convention of the usage that the audit cannot see, or an input total of another convention;
  * the test of the total, where only the cache was used.

  Outside of these the amounts are equal for every row that is priced (`audit_agrees`).
-/
import NovaMaas.Charge.QuotaLaws
import NovaMaas.Charge.UsageAudit

open Option

namespace NovaMaas.Charge

open Billing

variable {settings : Settings} {info : RelayInfo} {usage : Option Usage} {log : UsageLog}
  {metadata : UsageAuditMetadata} {tokens : UsageAuditTokens} {m g rate unit : ℚ} {row : UsageAuditRow}

/-! ## What a priced row says -/

theorem validRatio_some {ratio : Option ℚ} {r : ℚ} (h : validRatio ratio = some r) : ratio = some r ∧ 0 ≤ r := by
  cases ratio with
  | none => cases h
  | some =>
    unfold validRatio at h
    simp only at h
    split_ifs at h with hout
    cases h
    rw [not_or] at hout
    exact ⟨rfl, not_lt.1 hout.1⟩

/-- A weight is the count at its ratio. -/
theorem componentWeight_some {count : ℤ} {ratio : Option ℚ} {weight : ℚ} (h : componentWeight count ratio = some weight)
    (hcount : 0 ≤ count) : 0 ≤ weight ∧ ∀ r, (count ≠ 0 → ratio = some r) → weight = count * r := by
  unfold componentWeight at h
  split_ifs at h with hzero
  · cases h
    refine ⟨le_refl _, fun r _ => ?_⟩
    rw [hzero, Int.cast_zero, zero_mul]
  · obtain ⟨r, hr, hweight⟩ := map_eq_some_iff.1 h
    obtain ⟨hratio, hnonneg⟩ := validRatio_some hr
    have hcast : (0 : ℚ) ≤ count := Int.cast_nonneg hcount
    refine ⟨hweight ▸ mul_nonneg hcast hnonneg, fun r' hr' => ?_⟩
    rw [← hweight, some.inj ((hr' hzero).symm.trans hratio)]

/-- The decimal that the audit prices a row by. -/
def auditDecimal (tokens : UsageAuditTokens) (m g c read write : ℚ) : ℚ :=
  tokens.input * m * g + read * m * g + write * m * g + tokens.output * m * c * g

/-- The quota that the audit makes of a decimal. -/
def auditQuota (tokens : UsageAuditTokens) (m g d : ℚ) : ℤ :=
  if 0 < g ∧ (0 < m ∧ 0 < tokens.totalInput + tokens.output) ∧ (quotaFromDecimalChecked d).1 = 0 then 1
  else (quotaFromDecimalChecked d).1

/-- Evidence and result of a row without an issue. -/
structure Priced (log : UsageLog) (metadata : UsageAuditMetadata) (rate unit : ℚ) (tokens : UsageAuditTokens)
    (m g c read write : ℚ) (row : UsageAuditRow) : Prop where
  counts     : metadata.badCounts log = false
  writes     : metadata.write5m + metadata.write1h ≤ metadata.write
  known      : auditTokens log metadata = some tokens
  input      : 0 ≤ tokens.input
  supported  : metadata.unsupported = false
  split      : metadata.tokenSemantic = "anthropic" ∨ metadata.write5m + metadata.write1h ≤ 0
  model      : validRatio metadata.modelRatio = some m
  group      : validRatio metadata.groupRatio = some g
  completion : validRatio metadata.completionRatio = some c
  reading    : componentWeight tokens.cacheRead metadata.cacheRatio = some read
  writing    : writeWeight metadata tokens = some write
  discounted : ∃ cost, row.discountedCost = some cost ∧
    cost.total = stringFixed9 (decimalDiv (auditQuota tokens m g (auditDecimal tokens m g c read write) * rate) unit) ∧
    row.recalculationDifference = some (stringFixed9 (row.actualAmount - cost.total))

theorem usageAuditCost_total {parts : Fin 4 → ℚ} {group : ℚ} {minimumCharge : Bool} {cost : UsageAuditCost}
    (h : usageAuditCost parts group rate unit minimumCharge = some cost) :
    cost.total = stringFixed9 (decimalDiv (((if 0 < group ∧ minimumCharge ∧
      (quotaFromDecimalChecked (parts 0 * group + parts 1 * group + parts 2 * group + parts 3 * group)).1 = 0 then 1
      else (quotaFromDecimalChecked (parts 0 * group + parts 1 * group + parts 2 * group + parts 3 * group)).1 : ℤ) : ℚ)
        * rate) unit) := by
  unfold usageAuditCost quotaFromDecimalStrict at h
  simp only at h
  split_ifs at h with hclamped
  simp only [some.injEq] at h
  rw [← h]

theorem priceDuplicate_keeps (row : UsageAuditRow) : (priceDuplicate m g rate unit row).issue = row.issue ∧
      (priceDuplicate m g rate unit row).actualAmount = row.actualAmount := by
  unfold priceDuplicate
  cases row.inputRecalculation with
  | none | some => exact ⟨rfl, rfl⟩

theorem markDuplicate_keeps (row : UsageAuditRow) : (markDuplicate metadata tokens row).issue = row.issue ∧
      (markDuplicate metadata tokens row).actualAmount = row.actualAmount ∧
      (markDuplicate metadata tokens row).usageSemantic = row.usageSemantic := by
  unfold markDuplicate
  split_ifs
  · exact ⟨rfl, rfl, rfl⟩
  · exact ⟨rfl, rfl, rfl⟩
  · exact ⟨rfl, rfl, rfl⟩
  · exact ⟨rfl, rfl, rfl⟩

theorem issue_ite {p : Prop} [Decidable p] {failed rest : UsageAuditRow}
    (h : (if p then failed else rest).issue = none) (hfailed : failed.issue ≠ none) :
    ¬ p ∧ (if p then failed else rest) = rest := by
  by_cases hp : p
  · rw [if_pos hp] at h
    exact absurd h hfailed
  · exact ⟨hp, if_neg hp⟩

theorem costRow_inv (h : (costRow metadata tokens m g rate unit row).issue = none) :
    (costRow metadata tokens m g rate unit row).actualAmount = row.actualAmount ∧
      ∃ c read write, validRatio metadata.completionRatio = some c ∧
        componentWeight tokens.cacheRead metadata.cacheRatio = some read ∧ writeWeight metadata tokens = some write ∧
        ∃ cost, (costRow metadata tokens m g rate unit row).discountedCost = some cost ∧ cost.total =
            stringFixed9 (decimalDiv (auditQuota tokens m g (auditDecimal tokens m g c read write) * rate) unit) ∧
          (costRow metadata tokens m g rate unit row).recalculationDifference =
            some (stringFixed9 (row.actualAmount - cost.total)) := by
  unfold costRow at h ⊢
  split at h
  case h_2 => cases h
  case h_1 c read write hc hread hwrite =>
    simp only [hc, hread, hwrite]
    dsimp only at h
    split at h
    case h_2 => cases h
    case h_1 list discounted hlist hdiscounted =>
      refine ⟨rfl, c, read, write, rfl, rfl, rfl, discounted, rfl, ?_, rfl⟩
      rw [usageAuditCost_total hdiscounted]
      unfold auditQuota auditDecimal
      simp only [Bool.and_eq_true, decide_eq_true_eq, Matrix.cons_val]

theorem priceRow_inv (hissue : row.issue = none) (h : (priceRow metadata tokens rate unit row).issue = none) :
    metadata.unsupported = false ∧ (row.usageSemantic = "anthropic" ∨ metadata.write5m + metadata.write1h ≤ 0) ∧
      ∃ m g, validRatio metadata.modelRatio = some m ∧ validRatio metadata.groupRatio = some g ∧
        ∃ duplicate, duplicate.issue = none ∧ duplicate.actualAmount = row.actualAmount ∧
          priceRow metadata tokens rate unit row = costRow metadata tokens m g rate unit duplicate := by
  unfold priceRow at h ⊢
  obtain ⟨hsupported, heq⟩ := issue_ite h nofun
  rw [heq] at h ⊢
  obtain ⟨hsplit, heq⟩ := issue_ite h nofun
  rw [heq] at h ⊢
  rw [Bool.not_eq_true, Bool.or_eq_false_iff] at hsupported
  rw [not_and_or, not_not, not_lt] at hsplit
  refine ⟨hsupported.1, hsplit, ?_⟩
  split at h
  case h_2 => cases h
  case h_1 m g hmodel hgroup =>
    have hkeeps := @priceDuplicate_keeps m g rate unit row
    rw [hmodel, hgroup]
    exact ⟨m, g, rfl, rfl, priceDuplicate m g rate unit row, hkeeps.1.trans hissue, hkeeps.2, rfl⟩

theorem priced_of_issue (hissue : row.issue = none) (h : (usageRow log metadata rate unit row).issue = none) :
    log.isRefund = false ∧ (usageRow log metadata rate unit row).actualAmount = row.actualAmount ∧
      ∃ tokens m g c read write,
        Priced log metadata rate unit tokens m g c read write (usageRow log metadata rate unit row) := by
  unfold usageRow at h ⊢
  obtain ⟨-, heq⟩ := issue_ite h nofun
  rw [heq] at h ⊢
  obtain ⟨hrefund, heq⟩ := issue_ite h nofun
  rw [heq] at h ⊢
  obtain ⟨hcounts, heq⟩ := issue_ite h nofun
  rw [heq] at h ⊢
  obtain ⟨hwrite, heq⟩ := issue_ite h nofun
  rw [heq] at h ⊢
  rw [not_or, not_or] at hwrite
  dsimp only at h ⊢
  split at h
  case h_1 => cases h
  case h_2 tokens hknown =>
    obtain ⟨hinput, heq⟩ := issue_ite h nofun
    rw [heq] at h ⊢
    rw [not_or] at hinput
    have hkeeps := @markDuplicate_keeps metadata tokens
      { row with usageSemantic := metadata.tokenSemantic, tokens := some tokens }
    obtain ⟨hsupported, hsplit, m, g, hmodel, hgroup, duplicate, hduplicate, hamount, heq⟩ :=
      priceRow_inv (hkeeps.1.trans hissue) h
    rw [heq] at h ⊢
    obtain ⟨hkept, c, read, write, hcompletion, hreading, hwriting, cost, hcost, htotal, hdifference⟩ := costRow_inv h
    rw [hkeeps.2.2] at hsplit
    refine ⟨by simpa using hrefund, (hkept.trans hamount).trans hkeeps.2.1, tokens, m, g, c, read, write, ?_⟩
    exact {
      counts := by simpa using hcounts
      writes := not_lt.1 hwrite.2.2
      known := hknown
      input := not_lt.1 hinput.1
      supported := hsupported
      split := hsplit
      model := hmodel
      group := hgroup
      completion := hcompletion
      reading := hreading
      writing := hwriting
      discounted := ⟨cost, hcost, htotal, by rw [hkept]; exact hdifference⟩ }

/-! ## What the log says of the charge -/

/-- The usage that a request is charged by. -/
def chargedUsage (info : RelayInfo) (usage : Option Usage) : UsageTokens :=
  info.usageOrEstimate (effectiveBillingUsage usage)

/-- What is charged apart from what is in the prompt. -/
def isAnthropic (info : RelayInfo) (usage : Option Usage) : Prop :=
  usageSemanticFromUsage info.getFinalRequestRelayFormat (chargedUsage info usage) = "anthropic"

instance (info : RelayInfo) (usage : Option Usage) : Decidable (isAnthropic info usage) :=
  inferInstanceAs (Decidable (_ = _))

theorem summary_fields (settings : Settings) (info : RelayInfo) (billingUsage : Option Usage) :
    calculateTextQuotaSummary settings info billingUsage =
      { summarize settings info (info.usageOrEstimate billingUsage) with
        quota := (calculateTextQuotaSummary settings info billingUsage).quota } := by
  unfold calculateTextQuotaSummary
  simp only
  split_ifs
  · rfl
  · rfl
  · rfl

/-- The keys of a log, in terms of the counts and the prices. -/
structure Logged (info : RelayInfo) (usage : Option Usage) (s : TextQuotaSummary) (metadata : UsageAuditMetadata) :
    Prop where
  semantic    : metadata.semantic = if isAnthropic info usage then "anthropic" else ""
  claude      : ¬ isAnthropic info usage → metadata.claude = decide (info.getFinalRequestRelayFormat = .claude)
  cacheRead   : metadata.cacheRead = some s.cacheTokens
  cacheWrite  : metadata.cacheWrite = s.cacheCreationTokens
  writeTotal  : metadata.writeTotal = if 0 < cacheWriteTokensTotal s then some (cacheWriteTokensTotal s) else none
  write5m     : metadata.write5m =
    if 0 < s.cacheCreationTokens5m ∨ isAnthropic info usage then s.cacheCreationTokens5m else 0
  write1h     : metadata.write1h =
    if 0 < s.cacheCreationTokens1h ∨ isAnthropic info usage then s.cacheCreationTokens1h else 0
  inputTotal  : metadata.inputTotal = loggedInputTotal info (effectiveBillingUsage usage)
  modelRatio  : metadata.modelRatio = some info.priceData.modelRatio
  groupRatio  : metadata.groupRatio = some info.priceData.groupRatio
  completion  : metadata.completionRatio = some info.priceData.completionRatio
  cacheRatio  : metadata.cacheRatio = some info.priceData.cacheRatio
  writeRatio  : 0 < s.cacheCreationTokens → metadata.writeRatio = some info.priceData.cacheCreationRatio
  ratio5m     : metadata.write5m ≠ 0 → metadata.writeRatio5m = some info.priceData.cacheCreation5mRatio
  ratio1h     : metadata.write1h ≠ 0 → metadata.writeRatio1h = some info.priceData.cacheCreation1hRatio
  billingPath : metadata.billingPath = usageBillingPathForLog info.isLocalCountTokens usage
  image       : metadata.image = decide (s.imageTokens ≠ 0)
  tools       : metadata.tools = s.toolSurchargeItems

theorem logged (settings : Settings) (info : RelayInfo) (usage : Option Usage) :
    ∃ metadata, (postTextConsumeQuota settings info usage).other = some metadata ∧
      Logged info usage (summarize settings info (chargedUsage info usage)) metadata := by
  refine ⟨_, rfl, ?_⟩
  have hcreation : 0 ≤ (summarize settings info (chargedUsage info usage)).cacheCreationTokens :=
    rebased_creation_nonneg _ _ _
  have hclaude : (calculateTextQuotaSummary settings info (effectiveBillingUsage usage)).isClaudeUsageSemantic =
      decide (isAnthropic info usage) := by
    rw [summary_fields]
    rfl
  rw [hclaude, summary_fields]
  change Logged info usage (summarize settings info (chargedUsage info usage)) _
  generalize hs : summarize settings info (chargedUsage info usage) = s at hcreation
  generalize (calculateTextQuotaSummary settings info (effectiveBillingUsage usage)).quota = quota
  have hs' : summarize settings info (info.usageOrEstimate (effectiveBillingUsage usage)) = s := hs
  rw [hs']
  by_cases hA : isAnthropic info usage
  · rw [if_pos (decide_eq_true hA)]
    have hkey : ∀ count : ℤ, (if 0 < count then count else count) = count := fun count => ite_self count
    have hratio : ∀ (count : ℤ) (ratio : ℚ), count ≠ 0 →
        (if 0 < count then some ratio else if count ≠ 0 then some ratio else none) = some ratio := by
      intro count ratio hcount
      rw [if_pos hcount, ite_self]
    constructor
    case semantic => exact (if_pos hA).symm
    case claude => exact fun hnot => absurd hA hnot
    case cacheWrite => exact hkey s.cacheCreationTokens
    case write5m => exact (hkey s.cacheCreationTokens5m).trans (if_pos (Or.inr hA)).symm
    case write1h => exact (hkey s.cacheCreationTokens1h).trans (if_pos (Or.inr hA)).symm
    case writeRatio => exact fun hpos => if_pos hpos
    case ratio5m => exact fun hne => hratio s.cacheCreationTokens5m _ fun hzero => hne ((hkey _).trans hzero)
    case ratio1h => exact fun hne => hratio s.cacheCreationTokens1h _ fun hzero => hne ((hkey _).trans hzero)
    all_goals rfl
  · rw [if_neg (fun h => hA (of_decide_eq_true h))]
    have hkey : ∀ count : ℤ, (if 0 < count then count else 0) =
        if 0 < count ∨ isAnthropic info usage then count else 0 := by
      intro count
      simp only [hA, or_false]
    have hpos : ∀ count : ℤ, (if 0 < count then count else 0) ≠ 0 → 0 < count := by
      intro count hne
      by_contra hnot
      exact hne (if_neg hnot)
    constructor
    case semantic => exact (if_neg hA).symm
    case claude => exact fun _ => rfl
    case cacheWrite =>
      show (if 0 < s.cacheCreationTokens then s.cacheCreationTokens else 0) = _
      split_ifs <;> omega
    case write5m => exact hkey s.cacheCreationTokens5m
    case write1h => exact hkey s.cacheCreationTokens1h
    case writeRatio => exact fun hpos => if_pos hpos
    case ratio5m => exact fun hne => if_pos (hpos _ hne)
    case ratio1h => exact fun hne => if_pos (hpos _ hne)
    all_goals rfl

theorem evidence_semantic {effective : Usage} (h : usageFromBillingUsage usage = some effective) :
    effective.usageSemantic = "openai" ∨ effective.usageSemantic = "anthropic" ∨
      effective.usageSemantic = "gemini" := by
  unfold usageFromBillingUsage at h
  obtain ⟨evidence, _, hread⟩ := bind_eq_some_iff.1 h
  unfold BillingUsage.usage? at hread
  split at hread
  case h_1 =>
    cases hread
    exact Or.inl rfl
  case h_2 =>
    split at hread
    case h_1 =>
      cases hread
      exact Or.inr (Or.inl rfl)
    case h_2 =>
      split at hread
      case h_1 =>
        cases hread
        exact Or.inr (Or.inr rfl)
      case h_2 => cases hread

theorem evidence_charged {effective : Usage} (h : usageFromBillingUsage usage = some effective) :
    usageSemanticFromUsage info.getFinalRequestRelayFormat (chargedUsage info usage) = effective.usageSemantic := by
  have heffective : chargedUsage info usage = effective.toUsageTokens := by
    unfold chargedUsage effectiveBillingUsage
    rw [h]
    rfl
  have hne : effective.usageSemantic ≠ "" := by
    rcases evidence_semantic h with hs | hs | hs <;> rw [hs] <;> decide
  unfold usageSemanticFromUsage
  rw [heffective]
  exact if_pos hne

/-- The path of a log names the convention of the evidence. -/
theorem path_of_evidence (hA : ¬ isAnthropic info usage) (isLocal : Bool) :
    hasPrefix (usageBillingPathForLog isLocal usage) "billing-usage-anthropic" = false ∧
      ((usageFromBillingUsage usage).isSome →
        hasPrefix (usageBillingPathForLog isLocal usage) "billing-usage-openai" = true ∨
          hasPrefix (usageBillingPathForLog isLocal usage) "billing-usage-gemini" = true) := by
  unfold usageBillingPathForLog
  cases hevidence : usageFromBillingUsage usage with
  | none =>
    refine ⟨?_, fun h => absurd h (by decide)⟩
    show hasPrefix (if isLocal then "local" else "upstream") _ = false
    cases isLocal <;> decide
  | some effective =>
    have hsemantic := @evidence_charged info usage effective hevidence
    simp only
    generalize ((usage.bind Usage.billingUsage).map BillingUsage.estimated).getD false = estimated
    rcases evidence_semantic hevidence with hs | hs | hs
    · rw [hs]
      cases estimated <;> exact ⟨by decide, fun _ => Or.inl (by decide)⟩
    · exact absurd (hsemantic.trans hs) hA
    · rw [hs]
      cases estimated <;> exact ⟨by decide, fun _ => Or.inr (by decide)⟩

/-! ## The condition -/

structure NoCache (u : UsageTokens) : Prop where
  cached     : u.promptTokensDetails.cachedTokens = 0
  creation   : u.promptTokensDetails.cacheCreationTokensTotal = 0
  creation5m : u.claudeCacheCreation5mTokens ≤ 0
  creation1h : u.claudeCacheCreation1hTokens ≤ 0

/-- Audio input has no price of its own. -/
def PlainAudio (info : RelayInfo) (u : UsageTokens) : Prop :=
  u.promptTokensDetails.audioTokens = 0 ∨ getGeminiInputAudioPricePerMillionTokens info.originModelName ≤ 0

/-- The log has a key for all that went into the charge. -/
structure Replayed (settings : Settings) (info : RelayInfo) (usage : Option Usage) : Prop where
  audio       : PlainAudio info (chargedUsage info usage)
  otherRatios : info.priceData.applyOtherRatiosToDecimal 1 = 1
  /-- The total that makes a request billable leaves the cache out. -/
  cacheOnly   : isAnthropic info usage →
    0 < (chargedUsage info usage).promptTokens + (chargedUsage info usage).completionTokens ∨
      NoCache (chargedUsage info usage)
  /-- The audit takes a request that was sent on in Claude's format to have its convention. -/
  convention  : info.getFinalRequestRelayFormat = .claude →
    isAnthropic info usage ∨ (usageFromBillingUsage usage).isSome ∨ NoCache (chargedUsage info usage)
  inputTotal  : ∀ total, loggedInputTotal info (effectiveBillingUsage usage) = some total →
    total = if isAnthropic info usage then
        (rebased settings info (chargedUsage info usage)).1 + (chargedUsage info usage).promptTokensDetails.cachedTokens +
          cacheWriteTokensTotal (summarize settings info (chargedUsage info usage))
      else (chargedUsage info usage).promptTokens

/-- The charge was for free, or the log has a key for all that went into it. -/
def Replays (settings : Settings) (info : RelayInfo) (usage : Option Usage) : Prop :=
  info.priceData.groupRatio = 0 ∨
    (info.priceData.modelRatio = 0 ∧ PlainAudio info (chargedUsage info usage)) ∨ Replayed settings info usage

/-! ## The same tokens -/

open UsageAuditMetadata

theorem counts_nonneg {r : ℤ} (h : metadata.badCounts log = false) (hread : metadata.cacheRead = some r) :
    0 ≤ r ∧ 0 ≤ metadata.cacheWrite ∧ 0 ≤ metadata.write5m ∧ 0 ≤ metadata.write1h ∧ 0 ≤ log.promptTokens ∧
      0 ≤ log.completionTokens := by
  unfold badCounts at h
  simp only [hread, List.any_cons, List.any_nil, Bool.or_eq_false_iff, decide_eq_false_iff_not, not_lt] at h
  exact ⟨h.1.1, h.2.1.1, h.2.2.1.1, h.2.2.2.1.1, h.2.2.2.2.1.1, h.2.2.2.2.2.1.1⟩

/-- The weight of the cache creation, by its time to live. -/
theorem writeWeight_some {write w w5m w1h : ℚ} (h : writeWeight metadata tokens = some write)
    (h5m : 0 ≤ metadata.write5m) (h1h : 0 ≤ metadata.write1h)
    (hrest : metadata.write5m + metadata.write1h ≤ tokens.cacheWrite)
    (hw : tokens.cacheWrite - metadata.write5m - metadata.write1h ≠ 0 → metadata.writeRatio = some w)
    (hw5m : metadata.write5m ≠ 0 → metadata.writeRatio5m = some w5m)
    (hw1h : metadata.write1h ≠ 0 → metadata.writeRatio1h = some w1h) :
    0 ≤ write ∧ write = ((tokens.cacheWrite - metadata.write5m - metadata.write1h : ℤ) : ℚ) * w +
      metadata.write5m * w5m + metadata.write1h * w1h := by
  unfold writeWeight at h
  split at h
  case h_2 => cases h
  case h_1 plain short long hplain hshort hlong =>
    obtain ⟨hplain0, hplainEq⟩ := componentWeight_some hplain (by omega)
    obtain ⟨hshort0, hshortEq⟩ := componentWeight_some hshort h5m
    obtain ⟨hlong0, hlongEq⟩ := componentWeight_some hlong h1h
    rw [← some.inj h, ← hplainEq w hw, ← hshortEq w5m hw5m, ← hlongEq w1h hw1h]
    exact ⟨add_nonneg (add_nonneg hplain0 hshort0) hlong0, rfl⟩

/-- The tokens that the audit prices are those that were charged. -/
structure Matches (info : RelayInfo) (usage : Option Usage) (s : TextQuotaSummary) (tokens : UsageAuditTokens)
    (read write : ℚ) : Prop where
  input    : baseTokens s (separates info (chargedUsage info usage)) = tokens.input
  creation : cachedCreationTokensWithRatio info.priceData s (separates info (chargedUsage info usage)) = write
  reading  : s.cacheTokens * info.priceData.cacheRatio = read
  output   : tokens.output = s.completionTokens
  weights  : 0 ≤ read ∧ 0 ≤ write ∧ 0 ≤ tokens.output
  billed   : 0 < (chargedUsage info usage).promptTokens + (chargedUsage info usage).completionTokens ↔
    0 < tokens.totalInput + tokens.output
  unused   : ¬ 0 < tokens.totalInput + tokens.output → tokens.input = 0 ∧ read = 0 ∧ write = 0 ∧ tokens.output = 0

/-- Image tokens are not priced, and audio has no price of its own: the prompt is what it is. -/
theorem baseTokens_plain {s : TextQuotaSummary} (himage : s.imageTokens = 0)
    (haudio : s.audioTokens = 0 ∨ s.audioInputPrice ≤ 0) (separate : Bool) :
    baseTokens s separate = max 0 (if separate then s.promptTokens else
      s.promptTokens - s.cacheTokens - (if s.cacheCreationTokens ≠ 0 ∨ 0 < s.cacheCreationTokens5m ∨
        0 < s.cacheCreationTokens1h then s.cacheCreationTokens else 0)) := by
  have hprice : ∀ base : ℤ, (if s.audioTokens ≠ 0 then
      (if 0 < s.audioInputPrice then base - s.audioTokens else base) else base) = base := by
    intro base
    rcases haudio with hnone | hprice
    · rw [if_neg (not_not.2 hnone)]
    · rw [if_neg (not_lt.2 hprice), ite_self]
  unfold baseTokens
  simp only [himage, hprice, ne_eq, not_true_eq_false, if_false]
  cases separate with
  | true =>
    simp only [if_true, ite_self]
    split_ifs <;> omega
  | false =>
    simp only [Bool.false_eq_true, if_false]
    split_ifs <;> omega

theorem audioPrice_le {s : TextQuotaSummary} (h : PlainAudio info (chargedUsage info usage))
    (hs : s = summarize settings info (chargedUsage info usage)) : s.audioTokens = 0 ∨ s.audioInputPrice ≤ 0 := by
  rw [hs]
  refine h.imp id fun hprice => ?_
  show (if _ then getGeminiInputAudioPricePerMillionTokens info.originModelName else 0 : ℚ) ≤ 0
  split_ifs
  · exact hprice
  · exact le_refl _

theorem rebased_cases (settings : Settings) (info : RelayInfo) (u : UsageTokens) :
    ((rebased settings info u).1 = u.promptTokens ∧
        (rebased settings info u).2 = u.promptTokensDetails.cacheCreationTokensTotal) ∨
      (rebased settings info u).1 = u.promptTokens - u.promptTokensDetails.cachedTokens - (rebased settings info u).2 := by
  unfold rebased
  split_ifs
  · exact Or.inr rfl
  · exact Or.inl ⟨rfl, rfl⟩

theorem image_none {s : TextQuotaSummary} (hlog : Logged info usage s metadata)
    (h : metadata.unsupported = false) : s.imageTokens = 0 ∧ s.toolSurchargeItems = [] := by
  unfold unsupported at h
  simp only [Bool.or_eq_false_iff, Bool.not_eq_false', List.isEmpty_iff] at h
  obtain ⟨⟨⟨⟨⟨⟨⟨-, himage⟩, -⟩, -⟩, -⟩, -⟩, -⟩, htools⟩ := h
  rw [hlog.image, decide_eq_false_iff_not, not_not] at himage
  rw [hlog.tools] at htools
  exact ⟨himage, htools⟩

variable {c read write : ℚ} {s : TextQuotaSummary}

/-- The log has a key for all that went into its charge `s`, and the audit prices it. -/
structure Audited (settings : Settings) (info : RelayInfo) (usage : Option Usage) (s : TextQuotaSummary) (log : UsageLog)
    (metadata : UsageAuditMetadata) (tokens : UsageAuditTokens) (read write : ℚ) : Prop where
  replayed   : Replayed settings info usage
  summary    : s = summarize settings info (chargedUsage info usage)
  logged     : Logged info usage s metadata
  prompt     : log.promptTokens = s.promptTokens
  completion : log.completionTokens = s.completionTokens
  priced     : ∃ rate unit m g c row, Priced log metadata rate unit tokens m g c read write row

theorem Audited.counts (h : Audited settings info usage s log metadata tokens read write) :
    0 ≤ s.cacheTokens ∧ 0 ≤ s.cacheCreationTokens ∧ 0 ≤ metadata.write5m ∧ 0 ≤ metadata.write1h ∧ 0 ≤ s.promptTokens ∧
      0 ≤ s.completionTokens := by
  obtain ⟨_, _, _, _, _, _, hp⟩ := h.priced
  rw [← h.prompt, ← h.completion, ← h.logged.cacheWrite]
  exact counts_nonneg hp.counts h.logged.cacheRead

theorem Audited.charged (h : Audited settings info usage s log metadata tokens read write) :
    s.cacheTokens = (chargedUsage info usage).promptTokensDetails.cachedTokens ∧
      s.completionTokens = (chargedUsage info usage).completionTokens ∧
      s.promptTokens = (rebased settings info (chargedUsage info usage)).1 ∧
      s.cacheCreationTokens = (rebased settings info (chargedUsage info usage)).2 ∧
      s.cacheCreationTokens5m = (chargedUsage info usage).claudeCacheCreation5mTokens ∧
      s.cacheCreationTokens1h = (chargedUsage info usage).claudeCacheCreation1hTokens := by
  rw [h.summary]
  exact ⟨rfl, rfl, rfl, rfl, rfl, rfl⟩

theorem Audited.reading (h : Audited settings info usage s log metadata tokens read write)
    (hread : tokens.cacheRead = s.cacheTokens) : 0 ≤ read ∧ read = s.cacheTokens * info.priceData.cacheRatio := by
  obtain ⟨_, _, _, _, _, _, hp⟩ := h.priced
  have hreading := hp.reading
  rw [hread] at hreading
  obtain ⟨hread0, hreadEq⟩ := componentWeight_some hreading h.counts.1
  exact ⟨hread0, hreadEq _ fun _ => h.logged.cacheRatio⟩

/-- No images, and no price for audio. -/
theorem Audited.plain (h : Audited settings info usage s log metadata tokens read write) :
    s.imageTokens = 0 ∧ (s.audioTokens = 0 ∨ s.audioInputPrice ≤ 0) := by
  obtain ⟨_, _, _, _, _, _, hp⟩ := h.priced
  exact ⟨(image_none h.logged hp.supported).1, audioPrice_le h.replayed.audio h.summary⟩

/-- What the cache creation comes to without its two kinds. -/
theorem cacheWriteTokensTotal_sub (hall : 0 ≤ s.cacheCreationTokens) (h5m : 0 ≤ s.cacheCreationTokens5m)
    (h1h : 0 ≤ s.cacheCreationTokens1h) :
    cacheWriteTokensTotal s - s.cacheCreationTokens5m - s.cacheCreationTokens1h =
      if s.cacheCreationTokens - s.cacheCreationTokens5m - s.cacheCreationTokens1h < 0 then 0
      else s.cacheCreationTokens - s.cacheCreationTokens5m - s.cacheCreationTokens1h := by
  unfold cacheWriteTokensTotal
  split_ifs <;> omega

theorem le_cacheWriteTokensTotal (s : TextQuotaSummary) : s.cacheCreationTokens ≤ cacheWriteTokensTotal s := by
  unfold cacheWriteTokensTotal
  split_ifs <;> omega

/-! ### Anthropic's convention

The log has the prompt as it is charged, and all of the cache creation. -/

theorem Audited.anthropic_kinds (h : Audited settings info usage s log metadata tokens read write)
    (hA : isAnthropic info usage) :
    metadata.write5m = s.cacheCreationTokens5m ∧ metadata.write1h = s.cacheCreationTokens1h :=
  ⟨h.logged.write5m.trans (if_pos (Or.inr hA)), h.logged.write1h.trans (if_pos (Or.inr hA))⟩

theorem Audited.anthropic_write (h : Audited settings info usage s log metadata tokens read write)
    (hA : isAnthropic info usage) : metadata.write = cacheWriteTokensTotal s := by
  obtain ⟨-, hcreation0, h5m0, h1h0, -, -⟩ := h.counts
  obtain ⟨h5m, h1h⟩ := h.anthropic_kinds hA
  unfold UsageAuditMetadata.write
  rw [h.logged.writeTotal, h.logged.cacheWrite]
  rw [h5m] at h5m0 ⊢
  rw [h1h] at h1h0 ⊢
  unfold cacheWriteTokensTotal
  simp only
  split_ifs <;> simp only [getD_some, getD_none] at * <;> omega

theorem Audited.anthropic_tokens (h : Audited settings info usage s log metadata tokens read write)
    (hA : isAnthropic info usage) : tokens = ⟨s.promptTokens, s.cacheTokens, cacheWriteTokensTotal s, s.completionTokens,
      s.promptTokens + s.cacheTokens + cacheWriteTokensTotal s⟩ := by
  obtain ⟨_, _, _, _, _, _, hp⟩ := h.priced
  obtain ⟨hcached, -, hprompt, -⟩ := h.charged
  have hsemantic : metadata.tokenSemantic = "anthropic" := by
    unfold tokenSemantic
    rw [h.logged.semantic, if_pos hA]
    rfl
  have hknown := hp.known
  unfold auditTokens at hknown
  rw [h.logged.cacheRead, getD_some, h.anthropic_write hA, hsemantic, h.prompt, h.completion] at hknown
  cases htotal : metadata.inputTotal with
  | none =>
    simp only [htotal, if_true, some.injEq] at hknown
    exact hknown.symm
  | some total =>
    have heq := h.replayed.inputTotal total (h.logged.inputTotal ▸ htotal)
    rw [if_pos hA, ← h.summary, ← hprompt, ← hcached] at heq
    simp only [htotal, some.injEq] at hknown
    rw [← hknown, heq]
    congr 1
    omega

theorem Audited.anthropic_writing (h : Audited settings info usage s log metadata tokens read write)
    (hA : isAnthropic info usage) :
    0 ≤ write ∧ write = ((cacheWriteTokensTotal s - s.cacheCreationTokens5m - s.cacheCreationTokens1h : ℤ) : ℚ) *
        info.priceData.cacheCreationRatio + s.cacheCreationTokens5m * info.priceData.cacheCreation5mRatio +
      s.cacheCreationTokens1h * info.priceData.cacheCreation1hRatio := by
  obtain ⟨_, _, _, _, _, _, hp⟩ := h.priced
  obtain ⟨-, hcreation0, h5m0, h1h0, -, -⟩ := h.counts
  obtain ⟨h5m, h1h⟩ := h.anthropic_kinds hA
  have hwriting := hp.writing
  have hwrites := hp.writes
  rw [h.anthropic_write hA] at hwrites
  rw [h.anthropic_tokens hA] at hwriting
  have hwrite := @writeWeight_some _ _ write info.priceData.cacheCreationRatio info.priceData.cacheCreation5mRatio
    info.priceData.cacheCreation1hRatio hwriting h5m0 h1h0 hwrites
    (fun hne => h.logged.writeRatio (by
      have hne : cacheWriteTokensTotal s - metadata.write5m - metadata.write1h ≠ 0 := hne
      rw [h5m] at h5m0 hne
      rw [h1h] at h1h0 hne
      rw [cacheWriteTokensTotal_sub hcreation0 h5m0 h1h0] at hne
      split_ifs at hne <;> omega))
    h.logged.ratio5m h.logged.ratio1h
  rw [h5m, h1h] at hwrite
  exact hwrite

/-- A request counts as billable exactly if the audit sees a token. -/
theorem Audited.anthropic_billed (h : Audited settings info usage s log metadata tokens read write)
    (hA : isAnthropic info usage) :
    0 < (chargedUsage info usage).promptTokens + (chargedUsage info usage).completionTokens ↔
      0 < s.promptTokens + s.cacheTokens + cacheWriteTokensTotal s + s.completionTokens := by
  obtain ⟨hcached0, hcreation0, -, -, hprompt0, hcompletion0⟩ := h.counts
  obtain ⟨hcached, hcompletionU, hpromptU, hcreationU, h5mU, h1hU⟩ := h.charged
  have hall := le_cacheWriteTokensTotal s
  have hcases := rebased_cases settings info (chargedUsage info usage)
  rw [← hpromptU, ← hcreationU, ← hcached] at hcases
  constructor
  · intro htotal
    rw [← hcompletionU] at htotal
    have htotal0 := creationTotal_nonneg (chargedUsage info usage).promptTokensDetails
    rcases hcases with ⟨hplain, -⟩ | hrouter <;> omega
  · intro htotal
    by_contra hnone
    -- then nothing was cached either
    have hnocache := (h.replayed.cacheOnly hA).resolve_left hnone
    have hcached' := hnocache.cached
    have hcreation' := hnocache.creation
    have h5m' := hnocache.creation5m
    have h1h' := hnocache.creation1h
    have hWzero : cacheWriteTokensTotal s = s.cacheCreationTokens := by
      unfold cacheWriteTokensTotal
      rw [if_neg (by omega)]
    rcases hcases with ⟨hplain, hplain'⟩ | hrouter <;> omega

theorem matches_anthropic (hA : isAnthropic info usage)
    (h : Audited settings info usage s log metadata tokens read write) : Matches info usage s tokens read write := by
  obtain ⟨hcached0, hcreation0, h5m0, h1h0, hprompt0, hcompletion0⟩ := h.counts
  obtain ⟨h5m, h1h⟩ := h.anthropic_kinds hA
  rw [h5m] at h5m0
  rw [h1h] at h1h0
  have hW := cacheWriteTokensTotal_sub hcreation0 h5m0 h1h0
  have hall := le_cacheWriteTokensTotal s
  have htokens := h.anthropic_tokens hA
  obtain ⟨hread0, hreadEq⟩ := h.reading (by rw [htokens])
  obtain ⟨hwrite0, hwriteEq⟩ := h.anthropic_writing hA
  have hseparates : separates info (chargedUsage info usage) = true := by
    unfold separates
    rw [show usageSemanticFromUsage info.getFinalRequestRelayFormat (chargedUsage info usage) = "anthropic" from hA]
    rfl
  rw [htokens]
  exact {
    input := by
      rw [hseparates, baseTokens_plain h.plain.1 h.plain.2]
      exact max_eq_right hprompt0
    creation := by
      rw [hseparates, hwriteEq]
      unfold cachedCreationTokensWithRatio
      simp only [Bool.not_true, Bool.false_eq_true, if_false]
      rw [← hW]
      split_ifs with hsome
      · rfl
      · have hnone : s.cacheCreationTokens5m = 0 ∧ s.cacheCreationTokens1h = 0 ∧ cacheWriteTokensTotal s = 0 := by
          split_ifs at hW <;> omega
        rw [hnone.1, hnone.2.1, hnone.2.2]
        norm_num
    reading := hreadEq.symm
    output := rfl
    weights := ⟨hread0, hwrite0, hcompletion0⟩
    billed := h.anthropic_billed hA
    unused := by
      intro hnone
      have hnone : ¬ 0 < s.promptTokens + s.cacheTokens + cacheWriteTokensTotal s + s.completionTokens := hnone
      refine ⟨show s.promptTokens = 0 by omega, ?_, ?_, show s.completionTokens = 0 by omega⟩
      · rw [hreadEq, show s.cacheTokens = 0 by omega]
        norm_num
      · have hzero : s.cacheCreationTokens5m = 0 ∧ s.cacheCreationTokens1h = 0 ∧ cacheWriteTokensTotal s = 0 := by
          split_ifs at hW <;> omega
        rw [hwriteEq, hzero.1, hzero.2.1, hzero.2.2]
        norm_num }

/-! ### Any other convention

The prompt holds what was cached, and the cache creation is of one kind. -/

/-- A log that is not in Anthropic's convention is priced as such only if nothing was cached. -/
theorem semantic_other (hA : ¬ isAnthropic info usage) (hr : Replayed settings info usage)
    (hlog : Logged info usage s metadata) (h : metadata.tokenSemantic = "anthropic") :
    NoCache (chargedUsage info usage) := by
  obtain ⟨hanthropic, hknown⟩ := path_of_evidence hA info.isLocalCountTokens
  rw [← hlog.billingPath] at hanthropic hknown
  have hclaude := hlog.claude hA
  unfold tokenSemantic at h
  rw [hlog.semantic, if_neg hA, hclaude] at h
  simp only [ne_eq, not_true_eq_false, if_false, hanthropic, Bool.false_eq_true] at h
  split_ifs at h with hopenai hgemini hformat
  · exact absurd h (by decide)
  · exact absurd h (by decide)
  · rcases hr.convention (of_decide_eq_true hformat) with hA' | hevidence | hnocache
    · exact absurd hA' hA
    · exact absurd (hknown hevidence) (by rw [not_or]; exact ⟨hopenai, hgemini⟩)
    · exact hnocache
  · exact absurd h (by decide)
  · exact absurd h (by decide)
  · exact absurd h (by decide)
  · exact absurd h (by decide)

theorem rebased_other (hA : ¬ isAnthropic info usage) (settings : Settings) :
    (rebased settings info (chargedUsage info usage)).1 = (chargedUsage info usage).promptTokens ∧
      (rebased settings info (chargedUsage info usage)).2 =
        (chargedUsage info usage).promptTokensDetails.cacheCreationTokensTotal := by
  have hrouter : isOpenRouterClaudeBilling info (chargedUsage info usage) = false := by
    unfold isOpenRouterClaudeBilling
    rw [decide_eq_false (show ¬ usageSemanticFromUsage _ _ = "anthropic" from hA), Bool.and_false]
  unfold rebased
  rw [hrouter]
  exact ⟨rfl, rfl⟩

/-- A split of the cache creation is priced in Anthropic's convention only. -/
theorem Audited.unsplit (h : Audited settings info usage s log metadata tokens read write)
    (hA : ¬ isAnthropic info usage) : s.cacheCreationTokens5m ≤ 0 ∧ s.cacheCreationTokens1h ≤ 0 ∧
      metadata.write5m = 0 ∧ metadata.write1h = 0 := by
  obtain ⟨_, _, _, _, _, _, hp⟩ := h.priced
  obtain ⟨-, -, -, -, h5mU, h1hU⟩ := h.charged
  have hlogged5m := h.logged.write5m
  have hlogged1h := h.logged.write1h
  simp only [hA, or_false] at hlogged5m hlogged1h
  have hsplit : s.cacheCreationTokens5m ≤ 0 ∧ s.cacheCreationTokens1h ≤ 0 := by
    rcases hp.split with hsemantic | hsum
    · have hnocache := semantic_other hA h.replayed h.logged hsemantic
      have h5m := hnocache.creation5m
      have h1h := hnocache.creation1h
      omega
    · split_ifs at hlogged5m hlogged1h <;> omega
  exact ⟨hsplit.1, hsplit.2, by rw [hlogged5m, if_neg (by omega)], by rw [hlogged1h, if_neg (by omega)]⟩

theorem Audited.other_tokens (h : Audited settings info usage s log metadata tokens read write)
    (hA : ¬ isAnthropic info usage) : tokens = ⟨s.promptTokens - s.cacheTokens - s.cacheCreationTokens, s.cacheTokens,
      s.cacheCreationTokens, s.completionTokens, s.promptTokens⟩ := by
  obtain ⟨_, _, _, _, _, _, hp⟩ := h.priced
  obtain ⟨-, hcreation0, -⟩ := h.counts
  obtain ⟨hcached, -, hpromptU, hcreationU, -⟩ := h.charged
  rw [(rebased_other hA settings).1] at hpromptU
  rw [(rebased_other hA settings).2] at hcreationU
  obtain ⟨hno5m, hno1h, h5m, h1h⟩ := h.unsplit hA
  have hwrite : metadata.write = s.cacheCreationTokens := by
    have hW : cacheWriteTokensTotal s = s.cacheCreationTokens := by
      unfold cacheWriteTokensTotal
      rw [if_neg (by omega)]
    unfold UsageAuditMetadata.write
    rw [h.logged.writeTotal, h.logged.cacheWrite, h5m, h1h, hW]
    simp only
    split_ifs <;> simp only [getD_some, getD_none] at * <;> omega
  have hknown := hp.known
  unfold auditTokens at hknown
  rw [h.logged.cacheRead, getD_some, hwrite, h.prompt, h.completion] at hknown
  cases htotal : metadata.inputTotal with
  | some total =>
    have heq := h.replayed.inputTotal total (h.logged.inputTotal ▸ htotal)
    rw [if_neg hA, ← hpromptU] at heq
    simp only [htotal, some.injEq] at hknown
    rw [← hknown, heq]
  | none =>
    simp only [htotal] at hknown
    split_ifs at hknown with hsemantic hopenai
    · have hnocache := semantic_other hA h.replayed h.logged hsemantic
      have hcached' := hnocache.cached
      have hcreation' := hnocache.creation
      rw [← some.inj hknown]
      congr 1 <;> omega
    · exact (some.inj hknown).symm

theorem Audited.other_writing (h : Audited settings info usage s log metadata tokens read write)
    (hA : ¬ isAnthropic info usage) :
    0 ≤ write ∧ write = s.cacheCreationTokens * info.priceData.cacheCreationRatio := by
  obtain ⟨_, _, _, _, _, _, hp⟩ := h.priced
  obtain ⟨-, hcreation0, h5m0, h1h0, -, -⟩ := h.counts
  obtain ⟨-, -, h5m, h1h⟩ := h.unsplit hA
  have hwriting := hp.writing
  rw [h.other_tokens hA] at hwriting
  obtain ⟨hwrite0, hwriteEq⟩ := @writeWeight_some _ _ write info.priceData.cacheCreationRatio 0 0 hwriting
    h5m0 h1h0 (by rw [h5m, h1h]; exact hcreation0)
    (fun hne => h.logged.writeRatio (by
      have hne : s.cacheCreationTokens - metadata.write5m - metadata.write1h ≠ 0 := hne
      rw [h5m, h1h] at hne
      omega))
    (fun hne => absurd h5m hne) (fun hne => absurd h1h hne)
  refine ⟨hwrite0, ?_⟩
  rw [hwriteEq, h5m, h1h, sub_zero, sub_zero, mul_zero, add_zero, add_zero]

theorem matches_other (hA : ¬ isAnthropic info usage)
    (h : Audited settings info usage s log metadata tokens read write) : Matches info usage s tokens read write := by
  obtain ⟨_, _, _, _, _, _, hp⟩ := h.priced
  obtain ⟨hcached0, hcreation0, -, -, hprompt0, hcompletion0⟩ := h.counts
  obtain ⟨-, hcompletionU, hpromptU, -, h5mU, h1hU⟩ := h.charged
  rw [(rebased_other hA settings).1] at hpromptU
  obtain ⟨hno5m, hno1h, -, -⟩ := h.unsplit hA
  have hnotsplit : ¬ (0 < s.cacheCreationTokens5m ∨ 0 < s.cacheCreationTokens1h) := by omega
  have htokens := h.other_tokens hA
  obtain ⟨hread0, hreadEq⟩ := h.reading (by rw [htokens])
  obtain ⟨hwrite0, hwriteEq⟩ := h.other_writing hA
  have hinput := hp.input
  rw [htokens] at hinput ⊢
  have hinput : 0 ≤ s.promptTokens - s.cacheTokens - s.cacheCreationTokens := hinput
  have hseparates : separates info (chargedUsage info usage) = false := by
    have hlegacy : isLegacyClaudeDerivedOpenAIUsage info (chargedUsage info usage) = false := by
      unfold isLegacyClaudeDerivedOpenAIUsage
      rw [decide_eq_false (by omega), decide_eq_false (by omega)]
      simp only [Bool.or_self, ite_self]
    unfold separates
    rw [hlegacy, decide_eq_false (show ¬ usageSemanticFromUsage _ _ = "anthropic" from hA)]
    rfl
  exact {
    input := by
      rw [hseparates, baseTokens_plain h.plain.1 h.plain.2]
      simp only [hnotsplit, or_false, Bool.false_eq_true, if_false]
      split_ifs <;> omega
    creation := by
      rw [hseparates, hwriteEq]
      unfold cachedCreationTokensWithRatio
      simp only [hnotsplit, or_false, Bool.not_false, if_true]
      split_ifs with hsome
      · rfl
      · rw [not_not.1 hsome, Int.cast_zero, zero_mul]
    reading := hreadEq.symm
    output := rfl
    weights := ⟨hread0, hwrite0, hcompletion0⟩
    billed := by
      show _ ↔ 0 < s.promptTokens + s.completionTokens
      rw [hpromptU, hcompletionU]
    unused := by
      intro hnone
      have hnone : ¬ 0 < s.promptTokens + s.completionTokens := hnone
      refine ⟨show s.promptTokens - s.cacheTokens - s.cacheCreationTokens = 0 by omega, ?_, ?_,
        show s.completionTokens = 0 by omega⟩
      · rw [hreadEq, show s.cacheTokens = 0 by omega]
        norm_num
      · rw [hwriteEq, show s.cacheCreationTokens = 0 by omega]
        norm_num }

/-! ## The same amount -/

theorem surcharge_none (hs : s = summarize settings info (chargedUsage info usage))
    (hlog : Logged info usage s metadata) (h : metadata.unsupported = false) :
    calculateTextToolCallSurcharge settings info = 0 := by
  have hnil : toolSurchargeItems settings info = [] := by
    rw [← (image_none hlog h).2, hs]
    rfl
  unfold calculateTextToolCallSurcharge
  rw [hnil]
  rfl

/-- The two decimals, where the tokens are the same. -/
theorem decimals_agree (hr : Replayed settings info usage) (hs : s = summarize settings info (chargedUsage info usage))
    (hlog : Logged info usage s metadata) (hp : Priced log metadata rate unit tokens m g c read write row)
    (hm : Matches info usage s tokens read write) :
    decimalOf settings info (chargedUsage info usage) = auditDecimal tokens m g c read write := by
  obtain ⟨himage, -⟩ := image_none hlog hp.supported
  obtain ⟨factor, -, hfactor⟩ := otherRatios_factor info.priceData
  have hone : factor = 1 := by
    have hone := hr.otherRatios
    rw [hfactor, one_mul] at hone
    exact hone
  have hmodel : info.priceData.modelRatio = m :=
    some.inj (hlog.modelRatio.symm.trans (validRatio_some hp.model).1)
  have hgroup : info.priceData.groupRatio = g :=
    some.inj (hlog.groupRatio.symm.trans (validRatio_some hp.group).1)
  have hcomplete : info.priceData.completionRatio = c :=
    some.inj (hlog.completion.symm.trans (validRatio_some hp.completion).1)
  have haudio : audioInputQuota settings info.priceData s = 0 := by
    refine if_neg fun hpriced => ?_
    rcases audioPrice_le hr.audio hs with hnone | hprice
    · exact hpriced.1 hnone
    · exact absurd hpriced.2 (not_lt.2 hprice)
  have hsurcharge : s.toolCallSurchargeQuota = 0 := by
    rw [hs]
    exact surcharge_none hs hlog hp.supported
  have houtput := hm.output
  unfold decimalOf ratioDecimal auditDecimal
  rw [hfactor, hone, ← hs, haudio, hsurcharge, hm.input, hm.creation, hm.reading, himage, houtput, hmodel, hgroup,
    hcomplete]
  push_cast
  ring

/-- The audit's quota is the charge of the decimal. -/
theorem auditQuota_eq {d : ℚ} (hd : 0 ≤ d) (hm0 : 0 ≤ m) (hg0 : 0 ≤ g)
    (hbilled : 0 < tokens.totalInput + tokens.output) : auditQuota tokens m g d = chargeOf (m * g) d := by
  have hbounds := quotaFromDecimal_bounds hd
  unfold auditQuota chargeOf
  by_cases hratio : m * g = 0
  · have hnot : ¬ (0 < g ∧ 0 < m) := fun hpos => (mul_pos hpos.2 hpos.1).ne' hratio
    rw [if_neg (not_not.2 hratio), if_neg (fun hmin => hnot ⟨hmin.1, hmin.2.1.1⟩)]
  · have hm : 0 < m := lt_of_le_of_ne hm0 fun hzero => hratio (by rw [← hzero, zero_mul])
    have hg : 0 < g := lt_of_le_of_ne hg0 fun hzero => hratio (by rw [← hzero, mul_zero])
    rw [if_pos hratio]
    by_cases hzero : (quotaFromDecimalChecked d).1 = 0
    · rw [if_pos ⟨hg, ⟨hm, hbilled⟩, hzero⟩, hzero]
      rfl
    · rw [if_neg (fun hmin => hzero hmin.2.2)]
      omega

/-- What is settled, and what the audit makes of it. -/
theorem quotas_agree (hmode : info.priceData.usePrice = false) (hr : Replayed settings info usage)
    (hs : s = summarize settings info (chargedUsage info usage)) (hlog : Logged info usage s metadata)
    (hp : Priced log metadata rate unit tokens m g c read write row) (hm : Matches info usage s tokens read write) :
    (calculateTextQuotaSummary settings info (effectiveBillingUsage usage)).quota =
      auditQuota tokens m g (auditDecimal tokens m g c read write) := by
  have hdecimals := decimals_agree hr hs hlog hp hm
  obtain ⟨hmodel, hm0⟩ := validRatio_some hp.model
  obtain ⟨hgroup, hg0⟩ := validRatio_some hp.group
  have hc0 := (validRatio_some hp.completion).2
  obtain ⟨hread0, hwrite0, houtput0⟩ := hm.weights
  have hinput0 : (0 : ℚ) ≤ tokens.input := Int.cast_nonneg hp.input
  have houtput0 : (0 : ℚ) ≤ tokens.output := Int.cast_nonneg houtput0
  have hd : 0 ≤ auditDecimal tokens m g c read write := by
    unfold auditDecimal
    positivity
  have hratio : info.ratio = m * g := by
    unfold RelayInfo.ratio
    rw [some.inj (hlog.modelRatio.symm.trans hmodel), some.inj (hlog.groupRatio.symm.trans hgroup)]
  have hsurcharge := surcharge_none hs hlog hp.supported
  have hbillable : billable settings info (chargedUsage info usage) =
      decide (0 < tokens.totalInput + tokens.output) := by
    unfold billable
    simp only [hsurcharge, ne_eq, not_true_eq_false, decide_false, Bool.or_false]
    exact decide_eq_decide.2 hm.billed
  have hsettled := @summary_quota settings info hmode (effectiveBillingUsage usage) (by
    show 0 ≤ decimalOf settings info (chargedUsage info usage)
    rw [hdecimals]
    exact hd)
  rw [hsettled]
  show (if billable settings info (chargedUsage info usage) = true then
    chargeOf info.ratio (decimalOf settings info (chargedUsage info usage)) else 0) = _
  rw [hbillable, hdecimals, hratio]
  by_cases hbilled : 0 < tokens.totalInput + tokens.output
  · rw [if_pos (decide_eq_true hbilled)]
    exact (auditQuota_eq hd hm0 hg0 hbilled).symm
  · rw [if_neg (fun h => hbilled (of_decide_eq_true h))]
    obtain ⟨hinput, hread, hwrite, houtput⟩ := hm.unused hbilled
    have hzero : auditDecimal tokens m g c read write = 0 := by
      unfold auditDecimal
      rw [hinput, hread, hwrite, houtput]
      norm_num
    unfold auditQuota
    rw [if_neg (fun hmin => hbilled hmin.2.1.2), hzero, quotaFromDecimal_zero]

/-- Where model or group is for free, so is the request, for both. -/
theorem quotas_free (hmode : info.priceData.usePrice = false) (hfree : info.priceData.groupRatio = 0 ∨
      (info.priceData.modelRatio = 0 ∧ PlainAudio info (chargedUsage info usage)))
    (hs : s = summarize settings info (chargedUsage info usage)) (hlog : Logged info usage s metadata)
    (hp : Priced log metadata rate unit tokens m g c read write row) :
    (calculateTextQuotaSummary settings info (effectiveBillingUsage usage)).quota =
      auditQuota tokens m g (auditDecimal tokens m g c read write) := by
  have hmodel := some.inj (hlog.modelRatio.symm.trans (validRatio_some hp.model).1)
  have hgroup := some.inj (hlog.groupRatio.symm.trans (validRatio_some hp.group).1)
  have hratio : info.ratio = 0 := by
    rcases hfree with hg | ⟨hm, -⟩
    · exact mul_eq_zero_of_right _ hg
    · exact mul_eq_zero_of_left hm _
  have haudio : audioInputQuota settings info.priceData s = 0 := by
    unfold audioInputQuota
    rcases hfree with hg | ⟨-, hplain⟩
    · rw [hg, mul_zero, zero_mul, ite_self]
    · refine if_neg fun hpriced => ?_
      rcases audioPrice_le hplain hs with hnone | hprice
      · exact hpriced.1 hnone
      · exact absurd hpriced.2 (not_lt.2 hprice)
  have hdecimal : decimalOf settings info (chargedUsage info usage) = 0 := by
    obtain ⟨factor, -, hfactor⟩ := otherRatios_factor info.priceData
    have hsurcharge := surcharge_none hs hlog hp.supported
    unfold decimalOf ratioDecimal
    rw [hfactor, ← hs, haudio, show info.priceData.modelRatio * info.priceData.groupRatio = 0 from hratio, mul_zero,
      add_zero, zero_mul, zero_add, hs]
    exact hsurcharge
  have hnone : ¬ (0 < g ∧ 0 < m) := by
    rintro ⟨hg, hm⟩
    have hproduct : m * g = 0 := by rw [← hmodel, ← hgroup]; exact hratio
    exact (mul_pos hm hg).ne' hproduct
  have haudit : auditDecimal tokens m g c read write = 0 := by
    have hproduct : m = 0 ∨ g = 0 := by
      rw [← hmodel, ← hgroup]
      exact mul_eq_zero.1 hratio
    unfold auditDecimal
    rcases hproduct with hzero | hzero
    · rw [hzero]
      ring
    · rw [hzero]
      ring
  have hsettled := @summary_quota settings info hmode (effectiveBillingUsage usage) (le_of_eq hdecimal.symm)
  have hcharge : chargeOf info.ratio (decimalOf settings info (chargedUsage info usage)) = 0 := by
    rw [hdecimal, hratio]
    decide +kernel
  rw [hsettled]
  show (if billable settings info (chargedUsage info usage) = true then
    chargeOf info.ratio (decimalOf settings info (chargedUsage info usage)) else 0) = _
  unfold auditQuota
  rw [hcharge, ite_self, haudit, if_neg (fun hmin => hnone ⟨hmin.1, hmin.2.1.1⟩), quotaFromDecimal_zero]

/-- What the audit works out for a row that it prices is what was settled, if the log has a key for all of it. -/
theorem audit_agrees (hmode : info.priceData.usePrice = false) (hreplays : Replays settings info usage)
    {currency : BillingCurrency}
    (hrow : buildUsageAuditRow (postTextConsumeQuota settings info usage) currency = .ok row)
    (hissue : row.issue = none) :
    ∃ cost, row.discountedCost = some cost ∧ cost.total = row.actualAmount ∧
      row.recalculationDifference = some 0 := by
  obtain ⟨metadata, hother, hlog⟩ := logged settings info usage
  generalize hpost : postTextConsumeQuota settings info usage = log at hrow hother
  have hfields : log.promptTokens = (summarize settings info (chargedUsage info usage)).promptTokens ∧
      log.completionTokens = (summarize settings info (chargedUsage info usage)).completionTokens ∧
      log.isRefund = false ∧
      log.quota = (calculateTextQuotaSummary settings info (effectiveBillingUsage usage)).quota := by
    rw [← hpost]
    refine ⟨?_, ?_, rfl, rfl⟩
    · show (calculateTextQuotaSummary settings info (effectiveBillingUsage usage)).promptTokens = _
      rw [summary_fields]
      rfl
    · show (calculateTextQuotaSummary settings info (effectiveBillingUsage usage)).completionTokens = _
      rw [summary_fields]
      rfl
  obtain ⟨hprompt, hcompletion, hcharge, hquota⟩ := hfields
  generalize hs : summarize settings info (chargedUsage info usage) = s at hlog hprompt hcompletion
  unfold buildUsageAuditRow at hrow
  split_ifs at hrow with hrange
  cases hrate : currency.rate with
  | none =>
    simp only [hrate] at hrow
    cases hrow
  | some =>
    cases hunit : currency.quotaPerUnit with
    | none =>
      simp only [hrate, hunit] at hrow
      cases hrow
    | some =>
      simp only [hrate, hunit] at hrow
      split_ifs at hrow with hpositive
      have hrow := (Except.ok.inj hrow).symm
      unfold auditRow at hrow
      simp only [hother] at hrow
      rw [hrow] at hissue
      obtain ⟨-, hamount, tokens, m, g, c, read, write, hp⟩ := priced_of_issue rfl hissue
      rw [← hrow] at hamount hp
      have hequal : log.quota = auditQuota tokens m g (auditDecimal tokens m g c read write) := by
        rw [hquota]
        rcases hreplays with hfree | hfree | hr
        · exact quotas_free hmode (Or.inl hfree) hs.symm hlog hp
        · exact quotas_free hmode (Or.inr hfree) hs.symm hlog hp
        · refine quotas_agree hmode hr hs.symm hlog hp ?_
          have haudited : Audited settings info usage s log metadata tokens read write :=
            ⟨hr, hs.symm, hlog, hprompt, hcompletion, _, _, _, _, _, _, hp⟩
          by_cases hA : isAnthropic info usage
          · exact matches_anthropic hA haudited
          · exact matches_other hA haudited
      obtain ⟨cost, hcost, htotal, hdifference⟩ := hp.discounted
      have hsame : cost.total = row.actualAmount := by
        rw [htotal, hamount, hcharge, ← hequal]
        simp only [Bool.false_eq_true, if_false, mul_one]
      refine ⟨cost, hcost, hsame, ?_⟩
      rw [hdifference, hsame, sub_self]
      decide +kernel

def dollars : BillingCurrency := ⟨some 1, some 500000⟩

/-- Ten tokens of plain input and a thousand read from the cache. -/
def plainRow : UsageAuditRow :=
  auditRow (postTextConsumeQuota plainSettings plainInfo (some (anthropicUsage 10 1000))) 1 500000

theorem anthropicUsage_replays : Replays plainSettings plainInfo (some (anthropicUsage 10 1000)) := by
  have htotal : loggedInputTotal plainInfo (effectiveBillingUsage (some (anthropicUsage 10 1000))) = none := by decide
  exact Or.inr (Or.inr {
    audio := Or.inl rfl
    otherRatios := by decide +kernel
    cacheOnly := fun _ => Or.inl (by decide)
    convention := fun hformat => absurd hformat (by decide)
    inputTotal := fun total h => by rw [htotal] at h; cases h })

theorem audit_agrees_plain : ∃ cost, plainRow.discountedCost = some cost ∧ cost.total = plainRow.actualAmount ∧
      plainRow.recalculationDifference = some 0 :=
  audit_agrees rfl anthropicUsage_replays
    (show buildUsageAuditRow (postTextConsumeQuota plainSettings plainInfo (some (anthropicUsage 10 1000))) dollars =
      .ok plainRow by decide +kernel) (by decide +kernel)

/-- Gemini's audio input has a price of its own. -/
def geminiInfo : RelayInfo :=
  { plainInfo with
    originModelName := "gemini-2.5-flash"
    requestConversionChain := [.openAI, .gemini]
    requestPath := "/v1/chat/completions" }

def audioUsage : Usage where
  promptTokens := 1000
  promptTokensDetails := { audioTokens := 1000 }

/-- A thousand tokens of audio: settled at a thousandth, priced at two thousandths, as if they were plain input. -/
theorem audio_input_differs :
    (buildUsageAuditRow (postTextConsumeQuota plainSettings geminiInfo (some audioUsage)) dollars).toOption.map
      (fun row => (row.issue, row.actualAmount, row.discountedCost.map UsageAuditCost.total,
        row.recalculationDifference)) = some (none, 1 / 1000, some (2 / 1000), some (-1 / 1000)) := by
  decide +kernel

end NovaMaas.Charge
