/-
  What a response says it used (relaykit/dto: openai_response.go, claude.go, gemini.go, billing_usage.go).

  Three formats count tokens in three ways: OpenAI's totals include what was cached, Claude's leave it out, Gemini lists
  the counts of each kind of content.  `Usage` is the form the gateway settles with; the usage a provider reported in
  its own form travels with it as its `BillingUsage`.

  An evidence holds a whole `Usage` in the source, with room for another evidence inside.  Nothing reads that one: it
  is dropped where an evidence is made or copied, and overwritten where one is used.  So an evidence here holds
  `UsageTokens`.
-/
import Mathlib

namespace NovaMaas.Billing

/-! ## The formats -/

structure InputTokenDetails where
  cachedTokens         : ℤ := 0
  cachedCreationTokens : ℤ := 0
  cacheWriteTokens     : ℤ := 0
  textTokens           : ℤ := 0
  audioTokens          : ℤ := 0
  imageTokens          : ℤ := 0

structure OutputTokenDetails where
  textTokens      : ℤ := 0
  audioTokens     : ℤ := 0
  imageTokens     : ℤ := 0
  reasoningTokens : ℤ := 0

/-- `Usage`, less its evidence. -/
structure UsageTokens where
  promptTokens           : ℤ := 0
  completionTokens       : ℤ := 0
  totalTokens            : ℤ := 0
  promptCacheHitTokens   : ℤ := 0
  usageSemantic          : String := ""
  usageSource            : String := ""
  promptTokensDetails    : InputTokenDetails := {}
  completionTokenDetails : OutputTokenDetails := {}
  inputTokens            : ℤ := 0
  outputTokens           : ℤ := 0
  inputTokensDetails     : Option InputTokenDetails := none
  claudeCacheCreation5mTokens : ℤ := 0
  claudeCacheCreation1hTokens : ℤ := 0
  /-- `Cost`, where it is a float64. -/
  cost                   : ℚ := 0

structure ClaudeCacheCreationUsage where
  ephemeral5mInputTokens : ℤ := 0
  ephemeral1hInputTokens : ℤ := 0

/-- `ClaudeUsage`, less its evidence and the tools of the server. -/
structure ClaudeUsageTokens where
  inputTokens              : ℤ := 0
  cacheCreationInputTokens : ℤ := 0
  cacheReadInputTokens     : ℤ := 0
  outputTokens             : ℤ := 0
  cacheCreation            : Option ClaudeCacheCreationUsage := none
  claudeCacheCreation5mTokens : ℤ := 0
  claudeCacheCreation1hTokens : ℤ := 0

/-- `GeminiPromptTokensDetails`. -/
structure ModalityTokens where
  modality   : String
  tokenCount : ℤ

/-- `GeminiUsageMetadata`, less its evidence. -/
structure GeminiUsageTokens where
  promptTokenCount           : ℤ := 0
  toolUsePromptTokenCount    : ℤ := 0
  candidatesTokenCount       : ℤ := 0
  totalTokenCount            : ℤ := 0
  thoughtsTokenCount         : ℤ := 0
  cachedContentTokenCount    : ℤ := 0
  promptTokensDetails        : List ModalityTokens := []
  toolUsePromptTokensDetails : List ModalityTokens := []
  candidatesTokensDetails    : List ModalityTokens := []

structure BillingUsage where
  source              : String := ""
  semantic            : String := ""
  estimated           : Bool := false
  openAIUsage         : Option UsageTokens := none
  claudeUsage         : Option ClaudeUsageTokens := none
  geminiUsageMetadata : Option GeminiUsageTokens := none

structure Usage extends UsageTokens where
  billingUsage : Option BillingUsage := none

structure ClaudeUsage extends ClaudeUsageTokens where
  billingUsage : Option BillingUsage := none

structure GeminiUsageMetadata extends GeminiUsageTokens where
  billingUsage : Option BillingUsage := none

/-- `CacheCreationTokensTotal`: the larger of the two counts, and nothing for a negative one. -/
def InputTokenDetails.cacheCreationTokensTotal (d : InputTokenDetails) : ℤ :=
  let total := if d.cachedCreationTokens < d.cacheWriteTokens then d.cacheWriteTokens else d.cachedCreationTokens
  if total < 0 then 0 else total

/-! ## The arguments of a billing expression -/

/-- `TokenParams`.  The source has floating point numbers; the counts are whole. -/
structure TokenParams where
  p    : ℤ
  c    : ℤ
  len  : ℤ
  cr   : ℤ
  cc   : ℤ
  cc1h : ℤ
  img  : ℤ
  imgO : ℤ
  ai   : ℤ
  ao   : ℤ

/-- A sub-category is taken out of `p` or `c` where the expression prices it by a name of its own. -/
def lessIfUsed (usedVars : List String) (name : String) (tokens total : ℤ) : ℤ :=
  if name ∈ usedVars then total - tokens else total

/-- The cache creation that `cc` stands for, and the one that `cc1h` stands for. -/
def UsageTokens.cacheCreationTokens (usage : UsageTokens) : ℤ × ℤ :=
  if usage.usageSemantic = "anthropic" then (usage.claudeCacheCreation5mTokens, usage.claudeCacheCreation1hTokens)
  else (usage.promptTokensDetails.cacheCreationTokensTotal, 0)

/-- `BuildTieredTokenParams` (service/tiered_settle.go).  The names an expression uses are a set, or nil: then it uses
none. -/
def buildTieredTokenParams (usage : UsageTokens) (isClaudeUsageSemantic : Bool) (usedVars : Option (List String)) :
    TokenParams :=
  let used := usedVars.getD []
  let cr := usage.promptTokensDetails.cachedTokens
  let cc5m := usage.cacheCreationTokens.1
  let cc1h := usage.cacheCreationTokens.2
  let img := usage.promptTokensDetails.imageTokens
  let ai := usage.promptTokensDetails.audioTokens
  let imgO := usage.completionTokenDetails.imageTokens
  let ao := usage.completionTokenDetails.audioTokens
  let p := if isClaudeUsageSemantic then usage.promptTokens else
    lessIfUsed used "ai" ai (lessIfUsed used "img" img (lessIfUsed used "cc1h" cc1h (lessIfUsed used "cc" cc5m
      (lessIfUsed used "cr" cr usage.promptTokens))))
  let c := if isClaudeUsageSemantic then usage.completionTokens else
    lessIfUsed used "ao" ao (lessIfUsed used "img_o" imgO usage.completionTokens)
  { p := if p < 0 then 0 else p
    c := if c < 0 then 0 else c
    len := if isClaudeUsageSemantic then usage.promptTokens + cr + cc5m + cc1h else usage.promptTokens
    cr := cr
    cc := cc5m
    cc1h := cc1h
    img := img
    imgO := imgO
    ai := ai
    ao := ao }

/-- The sub-categories of the prompt and of the completion, by the name an expression prices them with. -/
def UsageTokens.promptParts (usage : UsageTokens) : List (String × ℤ) :=
  [("cr", usage.promptTokensDetails.cachedTokens), ("cc", usage.cacheCreationTokens.1),
    ("cc1h", usage.cacheCreationTokens.2), ("img", usage.promptTokensDetails.imageTokens),
    ("ai", usage.promptTokensDetails.audioTokens)]

def UsageTokens.completionParts (usage : UsageTokens) : List (String × ℤ) :=
  [("img_o", usage.completionTokenDetails.imageTokens), ("ao", usage.completionTokenDetails.audioTokens)]

/-- The tokens of the parts that an expression prices separately. -/
def pricedTokens (usedVars : List String) (parts : List (String × ℤ)) : ℤ :=
  ((parts.filter fun part => part.1 ∈ usedVars).map Prod.snd).sum

theorem pricedTokens_cons (usedVars : List String) (name : String) (tokens : ℤ) (parts : List (String × ℤ)) :
    pricedTokens usedVars ((name, tokens) :: parts) =
      (if name ∈ usedVars then tokens else 0) + pricedTokens usedVars parts := by
  unfold pricedTokens
  by_cases hname : name ∈ usedVars
  · rw [List.filter_cons_of_pos (by simpa using hname), if_pos hname]
    rfl
  · rw [List.filter_cons_of_neg (by simpa using hname), if_neg hname]
    omega

theorem lessIfUsed_eq (usedVars : List String) (name : String) (tokens total : ℤ) :
    lessIfUsed usedVars name tokens total = total - (if name ∈ usedVars then tokens else 0) := by
  unfold lessIfUsed
  split <;> omega

/-- Of a usage whose totals include their parts, an expression is given what it does not price separately. -/
theorem buildTieredTokenParams_reduced (usage : UsageTokens) (usedVars : List String) :
    (buildTieredTokenParams usage false (some usedVars)).p =
        max 0 (usage.promptTokens - pricedTokens usedVars usage.promptParts) ∧
      (buildTieredTokenParams usage false (some usedVars)).c =
        max 0 (usage.completionTokens - pricedTokens usedVars usage.completionParts) := by
  have hnil : pricedTokens usedVars [] = 0 := rfl
  have hclamp : ∀ n : ℤ, (if n < 0 then 0 else n) = max 0 n := by
    intro n
    split <;> omega
  constructor
  · show (if lessIfUsed usedVars "ai" _ _ < 0 then 0 else lessIfUsed usedVars "ai" _ _) = _
    rw [hclamp]
    unfold UsageTokens.promptParts
    simp only [Option.getD_some, pricedTokens_cons, hnil, lessIfUsed_eq]
    congr 1
    omega
  · show (if lessIfUsed usedVars "ao" _ _ < 0 then 0 else lessIfUsed usedVars "ao" _ _) = _
    rw [hclamp]
    unfold UsageTokens.completionParts
    simp only [Option.getD_some, pricedTokens_cons, hnil, lessIfUsed_eq]
    congr 1
    omega

end NovaMaas.Billing
