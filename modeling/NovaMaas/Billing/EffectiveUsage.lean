/-
  The usage a response is billed by (service/billing_usage.go), and that a conversion keeps it.

  Billing goes by the evidence: what the provider said, read off in the provider's own format.  Every step of a
  conversion passes the evidence on, so whatever a step makes of the counts around it, the bill is the same.  An
  evidence that a source brings along but that nobody can read is passed on just as well.  Then billing falls back on
  the counts around it, and those do not survive: the second step of a conversion moves the details of the prompt to
  where billing does not look, and a Gemini prompt that was not counted is given an estimate.
-/
import NovaMaas.Billing.UsageHops
import NovaMaas.Lib.Text

open Option

namespace NovaMaas.Billing

/-! ## The usage to bill by -/

/-- One character, up to case.  The Kelvin sign and the long s are the two characters outside ASCII that are letters of
ASCII up to case. -/
def foldChar (c : Char) : Char :=
  if c = Char.ofNat 0x212A then 'k' else if c = Char.ofNat 0x017F then 's' else c.toLower

/-- `strings.EqualFold`, to a text in ASCII. -/
def equalFold (s t : String) : Bool := s.toList.map foldChar = t.toList.map foldChar

/-- `usageFromOpenAIBillingUsage`. -/
def usageFromOpenAIBillingUsage (evidence : BillingUsage) (openAIUsage : UsageTokens) : Usage :=
  let promptTokens :=
    if openAIUsage.promptTokens = 0 ∧ 0 < openAIUsage.inputTokens then openAIUsage.inputTokens
    else openAIUsage.promptTokens
  let completionTokens :=
    if openAIUsage.completionTokens = 0 ∧ 0 < openAIUsage.outputTokens then openAIUsage.outputTokens
    else openAIUsage.completionTokens
  let orInput (prompt input : ℤ) : ℤ := if prompt = 0 ∧ 0 < input then input else prompt
  let d := openAIUsage.promptTokensDetails
  let d' : InputTokenDetails :=
    match openAIUsage.inputTokensDetails with
    | none => d
    | some input =>
      { cachedTokens := orInput d.cachedTokens input.cachedTokens
        cachedCreationTokens := orInput d.cachedCreationTokens input.cachedCreationTokens
        cacheWriteTokens := orInput d.cacheWriteTokens input.cacheWriteTokens
        textTokens := orInput d.textTokens input.textTokens
        imageTokens := orInput d.imageTokens input.imageTokens
        audioTokens := orInput d.audioTokens input.audioTokens }
  { openAIUsage with
    promptTokens := promptTokens
    completionTokens := completionTokens
    inputTokens := orInput openAIUsage.inputTokens promptTokens
    outputTokens := orInput openAIUsage.outputTokens completionTokens
    totalTokens := if openAIUsage.totalTokens = 0 then promptTokens + completionTokens else openAIUsage.totalTokens
    promptTokensDetails := { d' with cachedTokens := orInput d'.cachedTokens openAIUsage.promptCacheHitTokens }
    usageSemantic := "openai"
    usageSource := evidence.source
    billingUsage := some evidence }

/-- `usageFromClaudeBillingUsage`. -/
def usageFromClaudeBillingUsage (evidence : BillingUsage) (claudeUsage : ClaudeUsageTokens) : Usage where
  promptTokens := claudeUsage.inputTokens
  completionTokens := claudeUsage.outputTokens
  totalTokens := claudeUsage.inputTokens + claudeUsage.outputTokens
  inputTokens := claudeUsage.inputTokens + claudeUsage.cacheReadInputTokens + claudeUsage.cacheCreationInputTokens
  outputTokens := claudeUsage.outputTokens
  usageSemantic := "anthropic"
  usageSource := "claude_messages"
  billingUsage := some evidence
  claudeCacheCreation5mTokens :=
    if claudeUsage.cacheCreation5mTokens = 0 then claudeUsage.claudeCacheCreation5mTokens
    else claudeUsage.cacheCreation5mTokens
  claudeCacheCreation1hTokens :=
    if claudeUsage.cacheCreation1hTokens = 0 then claudeUsage.claudeCacheCreation1hTokens
    else claudeUsage.cacheCreation1hTokens
  promptTokensDetails := { cachedTokens := claudeUsage.cacheReadInputTokens
                           cachedCreationTokens := claudeUsage.cacheCreationInputTokens }

/-- `usageFromGeminiBillingUsage`. -/
def usageFromGeminiBillingUsage (evidence : BillingUsage) (metadata : GeminiUsageTokens) : Usage :=
  let promptTokens := metadata.promptTokenCount + metadata.toolUsePromptTokenCount
  let completionTokens := metadata.candidatesTokenCount + metadata.thoughtsTokenCount
  { promptTokens := promptTokens
    completionTokens :=
      if metadata.totalTokenCount ≠ 0 ∧ completionTokens ≤ 0 then metadata.totalTokenCount - promptTokens
      else completionTokens
    totalTokens :=
      if metadata.totalTokenCount = 0 then promptTokens + completionTokens else metadata.totalTokenCount
    usageSemantic := "gemini"
    usageSource := "gemini_chat"
    billingUsage := some evidence
    promptTokensDetails := metadata.inputDetails.orText promptTokens
    completionTokenDetails := metadata.outputDetails }

/-- The source is one of these, or the semantic is this one. -/
def names (sources : List String) (semantic ownSource ownSemantic : String) : Bool :=
  (sources.any fun source => equalFold (trimSpace ownSource) source) || equalFold (trimSpace ownSemantic) semantic

def BillingUsage.namesOpenAI (evidence : BillingUsage) : Bool :=
  names ["oai_chat", "oai_responses"] "openai" evidence.source evidence.semantic

def BillingUsage.namesClaude (evidence : BillingUsage) : Bool :=
  names ["claude_messages"] "anthropic" evidence.source evidence.semantic

def BillingUsage.namesGemini (evidence : BillingUsage) : Bool :=
  names ["gemini_chat"] "gemini" evidence.source evidence.semantic

/-- `usageFromBillingUsage`, for an evidence: one that names a format whose usage it holds is read. -/
def BillingUsage.usage? (evidence : BillingUsage) : Option Usage :=
  match (if evidence.namesOpenAI then evidence.openAIUsage else none) with
  | some openAIUsage => some (usageFromOpenAIBillingUsage evidence openAIUsage)
  | none =>
    match (if evidence.namesClaude then evidence.claudeUsage else none) with
    | some claudeUsage => some (usageFromClaudeBillingUsage evidence claudeUsage)
    | none =>
      match (if evidence.namesGemini then evidence.geminiUsageMetadata else none) with
      | some metadata => some (usageFromGeminiBillingUsage evidence metadata)
      | none => none

open BillingUsage

/-- `usageFromBillingUsage`. -/
def usageFromBillingUsage (usage : Option Usage) : Option Usage :=
  (usage.bind Usage.billingUsage).bind usage?

/-- `effectiveBillingUsage`. -/
def effectiveBillingUsage (usage : Option Usage) : Option Usage :=
  match usageFromBillingUsage usage with
  | some billingUsage => some billingUsage
  | none => usage

/-- What is billed of a usage: the counts, and how they are meant. -/
structure BilledCounts where
  promptTokens          : ℤ
  completionTokens      : ℤ
  cacheReadTokens       : ℤ
  cacheCreationTokens   : ℤ
  cacheCreationTokens5m : ℤ
  cacheCreationTokens1h : ℤ
  imageTokens           : ℤ
  imageOutputTokens     : ℤ
  audioTokens           : ℤ
  audioOutputTokens     : ℤ
  usageSemantic         : String

def Usage.billed (u : Usage) : BilledCounts where
  promptTokens := u.promptTokens
  completionTokens := u.completionTokens
  cacheReadTokens := u.promptTokensDetails.cachedTokens
  cacheCreationTokens := u.promptTokensDetails.cacheCreationTokensTotal
  cacheCreationTokens5m := u.claudeCacheCreation5mTokens
  cacheCreationTokens1h := u.claudeCacheCreation1hTokens
  imageTokens := u.promptTokensDetails.imageTokens
  imageOutputTokens := u.completionTokenDetails.imageTokens
  audioTokens := u.promptTokensDetails.audioTokens
  audioOutputTokens := u.completionTokenDetails.audioTokens
  usageSemantic := u.usageSemantic

/-- What a usage is billed as. -/
def billedOf (usage : Option Usage) : Option BilledCounts := (effectiveBillingUsage usage).map Usage.billed

/-- An evidence that billing can read. -/
def BillingUsage.Usable (evidence : BillingUsage) : Prop := evidence.usage?.isSome

instance (evidence : BillingUsage) : Decidable evidence.Usable := inferInstanceAs (Decidable (_ = true))

/-! ## The evidence of a response -/

/-- The evidence that a response brings along. -/
def Response.evidence : Response → Option BillingUsage
  | chat usage => usage.billingUsage
  | responses usage => usage.bind Usage.billingUsage
  | claude usage messageUsage => (usage <|> messageUsage).bind ClaudeUsage.billingUsage
  | gemini _ usageMetadata => usageMetadata.billingUsage

/-- Some count of the usage of a response is not zero. -/
def Response.HasTokens : Response → Prop
  | chat usage => hasOpenAIUsageTokens usage.toUsageTokens = true
  | responses usage => ∃ u ∈ usage, hasOpenAIUsageTokens u.toUsageTokens = true
  | claude usage messageUsage =>
    ∃ u ∈ (usage <|> messageUsage), hasClaudeUsageTokens u.toClaudeUsageTokens = true
  | gemini _ usageMetadata => hasGeminiUsageMetadataTokens usageMetadata.toGeminiUsageTokens = true

/-- The prompt is counted, or there is no estimate to put in its place. -/
def Response.Counted (fallbackPromptTokens : ℤ) : Response → Prop
  | gemini _ usageMetadata =>
    fallbackPromptTokens ≤ 0 ∨ 0 < usageMetadata.promptTokenCount + usageMetadata.toolUsePromptTokenCount
  | _ => True

/-- The counts of the prompt that billing looks at beside the total are all zero. -/
def InputTokenDetails.Plain (d : InputTokenDetails) : Prop :=
  d.cachedTokens = 0 ∧ d.cacheCreationTokensTotal = 0 ∧ d.imageTokens = 0 ∧ d.audioTokens = 0

/-- When the usage of a response is billed the same after a conversion: billing can read the evidence that the response
brings along, or it brings none; or there are no steps that change what billing falls back on. -/
def Response.Survives (fallbackPromptTokens : ℤ) (target : RelayFormat) (r : Response) : Prop :=
  (∀ evidence ∈ r.evidence, evidence.Usable) ∨ target = r.format ∨ r.format = .openAI ∨
    (r.Counted fallbackPromptTokens ∧
      (target = .openAI ∨ ∀ u ∈ canonicalUsageFromResponse r, u.promptTokensDetails.Plain))

section
variable {fallbackPromptTokens : ℤ} {r : Response}

/-- The evidence a usage gets: the one that is there, or else one that billing can read. -/
theorem evidence_cases {own made : Option BillingUsage} (hmade : ∃ evidence ∈ made, evidence.Usable) :
    ∃ evidence, (own = some evidence ∨ own = none ∧ evidence.Usable) ∧ (own <|> made) = some evidence := by
  cases own with
  | some evidence => exact ⟨evidence, Or.inl rfl, rfl⟩
  | none =>
    obtain ⟨evidence, hmade, husable⟩ := hmade
    exact ⟨evidence, Or.inr ⟨rfl, husable⟩, hmade⟩

theorem newOpenAIBillingUsage_usable (source : String) {usage : UsageTokens} (h : hasOpenAIUsageTokens usage = true) :
    ∃ evidence ∈ newOpenAIBillingUsage source usage, evidence.Usable := by
  refine ⟨{ source := source, semantic := "openai", openAIUsage := some usage }, if_pos h, ?_⟩
  have hsemantic : equalFold (trimSpace "openai") "openai" = true := by decide +kernel
  have hopenAI : names ["oai_chat", "oai_responses"] "openai" source "openai" = true := by
    unfold names
    rw [hsemantic, Bool.or_true]
  unfold BillingUsage.Usable usage? namesOpenAI
  rw [hopenAI]
  rfl

theorem newClaudeMessagesBillingUsage_usable {usage : ClaudeUsageTokens} (h : hasClaudeUsageTokens usage = true) :
    ∃ evidence ∈ newClaudeMessagesBillingUsage usage, evidence.Usable := by
  refine ⟨{ source := "claude_messages", semantic := "anthropic", claudeUsage := some usage }, if_pos h, ?_⟩
  have hopenAI : names ["oai_chat", "oai_responses"] "openai" "claude_messages" "anthropic" = false := by decide +kernel
  have hclaude : names ["claude_messages"] "anthropic" "claude_messages" "anthropic" = true := by decide +kernel
  unfold BillingUsage.Usable usage? namesOpenAI namesClaude
  rw [hopenAI, hclaude]
  rfl

theorem newGeminiChatBillingUsage_usable {metadata : GeminiUsageTokens}
    (h : hasGeminiUsageMetadataTokens metadata = true) :
    ∃ evidence ∈ newGeminiChatBillingUsage metadata, evidence.Usable := by
  refine ⟨{ source := "gemini_chat", semantic := "gemini", geminiUsageMetadata := some metadata }, if_pos h, ?_⟩
  have hopenAI : names ["oai_chat", "oai_responses"] "openai" "gemini_chat" "gemini" = false := by decide +kernel
  have hclaude : names ["claude_messages"] "anthropic" "gemini_chat" "gemini" = false := by decide +kernel
  have hgemini : names ["gemini_chat"] "gemini" "gemini_chat" "gemini" = true := by decide +kernel
  unfold BillingUsage.Usable usage? namesOpenAI namesClaude
    namesGemini
  rw [hopenAI, hclaude, hgemini]
  rfl

theorem usage_gemini {hasUsageMetadata : Bool} {usageMetadata : GeminiUsageMetadata}
    (h : (Response.gemini hasUsageMetadata usageMetadata).HasTokens) (fallbackPromptTokens : ℤ) :
    (Response.gemini hasUsageMetadata usageMetadata).usage fallbackPromptTokens =
      usageFromGeminiMetadata (some usageMetadata) fallbackPromptTokens := by
  have htokens : hasGeminiUsageMetadataTokens usageMetadata.toGeminiUsageTokens = true := h
  show usageFromGeminiMetadata (getUsageMetadata hasUsageMetadata usageMetadata) fallbackPromptTokens = _
  unfold getUsageMetadata
  rw [htokens, Bool.or_true]
  rfl

/-- The usage of a response has the evidence of the response, or else one that billing can read. -/
theorem usage_evidence (h : r.HasTokens) :
    ∃ evidence, (r.evidence = some evidence ∨ r.evidence = none ∧ evidence.Usable) ∧
      ∀ fallbackPromptTokens, ∃ u, r.usage fallbackPromptTokens = some u ∧ u.billingUsage = some evidence := by
  cases r with
  | chat usage =>
    obtain ⟨evidence, hcases, hevidence⟩ := evidence_cases (newOpenAIBillingUsage_usable "oai_chat" h)
    exact ⟨evidence, hcases, fun _ => ⟨usageFromChatUsage usage, rfl, hevidence⟩⟩
  | responses =>
    obtain ⟨u, rfl, htokens⟩ := h
    obtain ⟨evidence, hcases, hevidence⟩ := evidence_cases (newOpenAIBillingUsage_usable "oai_responses" htokens)
    exact ⟨evidence, hcases, fun _ => ⟨usageFromResponsesUsage (some u), rfl, hevidence⟩⟩
  | claude usage messageUsage =>
    obtain ⟨u, hu, htokens⟩ := h
    have hu : (usage <|> messageUsage) = some u := hu
    obtain ⟨evidence, hcases, hevidence⟩ := evidence_cases (newClaudeMessagesBillingUsage_usable htokens)
    refine ⟨evidence, ?_, fun _ => ⟨usageFromClaudeAPIUsage u, ?_, hevidence⟩⟩
    · show (usage <|> messageUsage).bind ClaudeUsage.billingUsage = some evidence ∨
        (usage <|> messageUsage).bind ClaudeUsage.billingUsage = none ∧ evidence.Usable
      rw [hu]
      exact hcases
    · show (usage <|> messageUsage).map usageFromClaudeAPIUsage = _
      rw [hu]
      rfl
  | gemini =>
    obtain ⟨evidence, hcases, hevidence⟩ := evidence_cases (newGeminiChatBillingUsage_usable h)
    exact ⟨evidence, hcases, fun _ => ⟨_, usage_gemini h _, hevidence⟩⟩

/-! ## The usage of a converted response -/

/-- What a conversion returns: the usage of the source, passed once more through chat where there are two steps. -/
theorem usage_convertResponse {target : RelayFormat} {result : Response × Option Usage}
    (h : convertResponse fallbackPromptTokens target r = .ok result) :
    result.2 = if target = r.format then r.usage 0
      else if r.format = .openAI ∨ target = .openAI then r.usage fallbackPromptTokens
      else some (usageFromChatUsage ((r.usage fallbackPromptTokens).getD {})) := by
  unfold convertResponse at h
  by_cases hname : target.name = ""
  · rw [if_pos hname] at h
    cases h
  rw [if_neg hname] at h
  by_cases hsame : r.format = target
  · rw [if_pos hsame] at h
    obtain rfl := Except.ok.inj h
    rw [if_pos hsame.symm]
    rfl
  rw [if_neg hsame] at h
  rw [if_neg fun h' => hsame h'.symm]
  cases r <;> cases target <;> first | exact absurd rfl hsame | (cases h; done) | (obtain rfl := Except.ok.inj h; rfl)

/-! ## What is billed -/

/-- Billing goes by an evidence that it can read. -/
theorem billedOf_usable {u : Usage} {evidence : BillingUsage} (h : u.billingUsage = some evidence)
    (husable : evidence.Usable) : billedOf (some u) = evidence.usage?.map Usage.billed := by
  obtain ⟨usage, husage⟩ := isSome_iff_exists.1 husable
  have hread : usageFromBillingUsage (some u) = some usage := by
    unfold usageFromBillingUsage
    rw [bind_some, h, bind_some, husage]
  unfold billedOf effectiveBillingUsage
  rw [hread, husage]

/-- Where it cannot read the evidence, billing goes by the counts around it. -/
theorem billedOf_unusable {u : Usage} {evidence : BillingUsage} (h : u.billingUsage = some evidence)
    (hunusable : ¬ evidence.Usable) : billedOf (some u) = some u.billed := by
  have hread : usageFromBillingUsage (some u) = none := by
    unfold usageFromBillingUsage
    rw [bind_some, h, bind_some]
    exact not_isSome_iff_eq_none.1 hunusable
  unfold billedOf effectiveBillingUsage
  rw [hread]
  rfl

/-- A step passes on the evidence of the usage it reads. -/
theorem billingUsage_usageFromChatUsage {u : Usage} {evidence : BillingUsage} (h : u.billingUsage = some evidence) :
    (usageFromChatUsage u).billingUsage = some evidence := by
  show (u.billingUsage <|> newOpenAIChatBillingUsage u.toUsageTokens) = some evidence
  rw [h]
  rfl

/-- The counts are the same after a step through chat if there were no details to move. -/
theorem billed_usageFromChatUsage (u : Usage) :
    (usageFromChatUsage u).billed = u.billed ↔ u.promptTokensDetails.Plain := by
  have hzero : ({} : InputTokenDetails).cacheCreationTokensTotal = 0 := by decide
  constructor
  · intro h
    have hread : 0 = u.promptTokensDetails.cachedTokens := congrArg BilledCounts.cacheReadTokens h
    have hcreation : 0 = u.promptTokensDetails.cacheCreationTokensTotal :=
      hzero.symm.trans (congrArg BilledCounts.cacheCreationTokens h)
    have himage : 0 = u.promptTokensDetails.imageTokens := congrArg BilledCounts.imageTokens h
    have haudio : 0 = u.promptTokensDetails.audioTokens := congrArg BilledCounts.audioTokens h
    exact ⟨hread.symm, hcreation.symm, himage.symm, haudio.symm⟩
  · rintro ⟨hread, hcreation, himage, haudio⟩
    unfold Usage.billed
    rw [hread, hcreation, himage, haudio]
    rfl

theorem counted_of_chat (h : r.format = .openAI) : r.Counted fallbackPromptTokens := by
  cases r with
  | chat => trivial
  | responses | claude | gemini => cases h

/-- An estimate does not change the details that are billed, and where it is not used it changes nothing. -/
theorem usage_estimate {u u₀ : Usage} (hu : r.usage fallbackPromptTokens = some u) (hu₀ : r.usage 0 = some u₀)
    (h : r.HasTokens) :
    (r.Counted fallbackPromptTokens → u = u₀) ∧
      (¬ r.Counted fallbackPromptTokens → u.promptTokens ≠ u₀.promptTokens) := by
  have hsame : r.usage fallbackPromptTokens = r.usage 0 → u = u₀ := by
    intro heq
    rw [heq, hu₀] at hu
    exact (some.inj hu).symm
  cases r with
  | chat | responses | claude =>
    exact ⟨fun _ => hsame rfl, fun hno => absurd trivial hno⟩
  | gemini _ usageMetadata =>
    have hzero : ¬ (usageMetadata.promptTokenCount + usageMetadata.toolUsePromptTokenCount ≤ 0 ∧ (0 : ℤ) < 0) := by
      omega
    constructor
    · intro hcounted
      apply hsame
      rw [usage_gemini h, usage_gemini h]
      have hcounted : fallbackPromptTokens ≤ 0 ∨
          0 < usageMetadata.promptTokenCount + usageMetadata.toolUsePromptTokenCount := hcounted
      have hno : ¬ (usageMetadata.promptTokenCount + usageMetadata.toolUsePromptTokenCount ≤ 0 ∧
          0 < fallbackPromptTokens) := by omega
      simp only [usageFromGeminiMetadata, if_neg hno, if_neg hzero]
    · intro hno
      have hno : ¬ (fallbackPromptTokens ≤ 0 ∨
          0 < usageMetadata.promptTokenCount + usageMetadata.toolUsePromptTokenCount) := hno
      rw [usage_gemini h] at hu hu₀
      obtain rfl := some.inj hu
      obtain rfl := some.inj hu₀
      show (if _ then _ else _) ≠ (if _ then _ else _)
      rw [if_pos (by omega), if_neg hzero]
      omega

end

/-- **When the bill survives.**  Whatever a response with some usage is converted to, it is billed as it would be
without the conversion exactly if billing can read its evidence or it brings none, or else nothing that billing falls
back on is lost on the way. -/
theorem billed_convertResponse_iff (fallbackPromptTokens : ℤ) (target : RelayFormat) (r : Response)
    (result : Response × Option Usage) (hr : r.HasTokens)
    (h : convertResponse fallbackPromptTokens target r = .ok result) :
    billedOf result.2 = billedOf (canonicalUsageFromResponse r) ↔ r.Survives fallbackPromptTokens target := by
  obtain ⟨evidence, hcases, husage⟩ := usage_evidence hr
  obtain ⟨u, hu, hevidence⟩ := husage fallbackPromptTokens
  obtain ⟨u₀, hu₀, hevidence₀⟩ := husage 0
  have hchat := billingUsage_usageFromChatUsage hevidence
  have hcanonical : canonicalUsageFromResponse r = some u₀ := hu₀
  rw [usage_convertResponse h, hcanonical, hu, hu₀, getD_some]
  by_cases husable : evidence.Usable
  · -- billing reads the evidence, which every step has passed on
    have hsurvives : r.Survives fallbackPromptTokens target := by
      refine Or.inl ?_
      intro own hown
      rcases hcases with hsome | ⟨hnone, -⟩
      · obtain rfl := some.inj (hsome.symm.trans hown)
        exact husable
      · rw [hnone] at hown
        cases hown
    refine iff_of_true ?_ hsurvives
    split
    · rfl
    · split
      · rw [billedOf_usable hevidence husable, billedOf_usable hevidence₀ husable]
      · rw [billedOf_usable hchat husable, billedOf_usable hevidence₀ husable]
  · -- billing goes by the counts around the evidence
    obtain ⟨hcounted, huncounted⟩ := usage_estimate hu hu₀ hr
    have hown : r.evidence = some evidence := by
      rcases hcases with hsome | ⟨-, hmade⟩
      · exact hsome
      · exact absurd hmade husable
    have hread : ¬ ∀ own ∈ r.evidence, own.Usable := fun hall => husable (hall evidence hown)
    unfold Response.Survives
    rw [hcanonical, billedOf_unusable hevidence₀ husable]
    by_cases hsame : target = r.format
    · rw [if_pos hsame, billedOf_unusable hevidence₀ husable]
      exact iff_of_true rfl (Or.inr (Or.inl hsame))
    rw [if_neg hsame]
    by_cases hformat : r.format = .openAI
    · rw [if_pos (Or.inl hformat), billedOf_unusable hevidence husable, hcounted (counted_of_chat hformat)]
      exact iff_of_true rfl (Or.inr (Or.inr (Or.inl hformat)))
    by_cases htarget : target = .openAI
    · -- one step: the usage is the source's own, unless it has an estimate
      rw [if_pos (Or.inr htarget), billedOf_unusable hevidence husable]
      constructor
      · intro heq
        refine Or.inr (Or.inr (Or.inr ⟨?_, Or.inl htarget⟩))
        by_contra hno
        exact huncounted hno (congrArg BilledCounts.promptTokens (some.inj heq))
      · rintro (hall | heq | heq | ⟨hcount, -⟩)
        · exact absurd hall hread
        · exact absurd heq hsame
        · exact absurd heq hformat
        · rw [hcounted hcount]
    · -- two steps: the details of the prompt have been moved as well
      have hsteps : ¬ (r.format = .openAI ∨ target = .openAI) := not_or.2 ⟨hformat, htarget⟩
      rw [if_neg hsteps, billedOf_unusable hchat husable]
      constructor
      · intro heq
        have heq := some.inj heq
        have hcount : r.Counted fallbackPromptTokens := by
          by_contra hno
          have hsum : u.promptTokens = u₀.promptTokens := congrArg BilledCounts.promptTokens heq
          exact huncounted hno hsum
        refine Or.inr (Or.inr (Or.inr ⟨hcount, Or.inr ?_⟩))
        intro v hv
        obtain rfl := some.inj hv
        rw [hcounted hcount] at heq
        exact (billed_usageFromChatUsage _).1 heq
      · rintro (hall | heq | heq | ⟨hcount, heq | hplain⟩)
        · exact absurd hall hread
        · exact absurd heq hsame
        · exact absurd heq hformat
        · exact absurd heq htarget
        · rw [hcounted hcount, (billed_usageFromChatUsage u₀).2 (hplain u₀ rfl)]

/-- A Responses usage of 100 tokens, 40 of them cached. -/
def cachedResponse (evidence : Option BillingUsage) : Response :=
  .responses (some { inputTokens := 100, totalTokens := 100, inputTokensDetails := some { cachedTokens := 40 }
                     billingUsage := evidence })

/-- **Cached tokens are billed as new ones.**  With an evidence that says nothing, and converted to Claude's format, none
of the tokens is billed as cached. -/
theorem cachedResponse_not_kept : (cachedResponse (some {})).HasTokens ∧
      ∃ result, convertResponse 0 .claude (cachedResponse (some {})) = .ok result ∧
        (billedOf result.2).map BilledCounts.cacheReadTokens = some 0 ∧
        (billedOf (canonicalUsageFromResponse (cachedResponse (some {})))).map BilledCounts.cacheReadTokens =
          some 40 := by
  refine ⟨⟨_, rfl, ?_⟩, _, rfl, ?_, ?_⟩
  · decide
  · decide +kernel
  · decide +kernel

/-- The same usage without an evidence is billed as it was. -/
theorem billed_convertResponse_cached : ∃ result, convertResponse 0 .claude (cachedResponse none) = .ok result ∧
      billedOf result.2 = billedOf (canonicalUsageFromResponse (cachedResponse none)) := by
  have htokens : (cachedResponse none).HasTokens := by
    refine ⟨_, rfl, ?_⟩
    decide
  refine ⟨_, rfl, (billed_convertResponse_iff 0 .claude (cachedResponse none) _ htokens rfl).2 (Or.inl ?_)⟩
  intro evidence hevidence
  cases hevidence

end NovaMaas.Billing
