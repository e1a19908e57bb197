/-
  The two forms a provider reports its tokens in, and what a billing expression is given of them
  (service/tiered_settle.go, usageSemanticFromUsage of service/text_quota.go).

  OpenAI's prompt includes what was read from the cache and written to it, Claude's leaves it out.  The counts are made
  the same by SUBTRACTING from OpenAI's prompt what an expression prices by a name of its own; nothing is ever added to
  Claude's.  So the two agree as long as there is nothing to add: everything cached has a price of its own.

  `TokenBreakdown` is what was used, and a usage is of a form if it reports that breakdown in it.  Whatever else the
  usage has does not matter.
-/
import NovaMaas.Billing.UsageHops

namespace NovaMaas.Billing

/-- `usageSemanticFromUsage`: the semantic of a usage, or else that of the format the request was sent on in. -/
def usageSemanticFromUsage (finalRequestRelayFormat : RelayFormat) (usage : UsageTokens) : String :=
  if usage.usageSemantic ≠ "" then usage.usageSemantic
  else if finalRequestRelayFormat = .claude then "anthropic" else "openai"

/-- What an expression is given at settlement. -/
def settledTokenParams (finalRequestRelayFormat : RelayFormat) (usage : UsageTokens)
    (usedVars : Option (List String)) : TokenParams :=
  buildTieredTokenParams usage (usageSemanticFromUsage finalRequestRelayFormat usage = "anthropic") usedVars

/-! ## The forms -/

/-- What was used, without images and sound. -/
structure TokenBreakdown where
  textInput       : ℕ
  cacheRead       : ℕ
  cacheCreation5m : ℕ
  cacheCreation1h : ℕ
  completion      : ℕ

def TokenBreakdown.cacheCreation (b : TokenBreakdown) : ℕ := b.cacheCreation5m + b.cacheCreation1h

/-- All tokens of the input. -/
def TokenBreakdown.input (b : TokenBreakdown) : ℕ := b.textInput + b.cacheRead + b.cacheCreation

/-- What the two forms have in common. -/
structure Reports (b : TokenBreakdown) (usage : UsageTokens) : Prop where
  completion  : usage.completionTokens = b.completion
  cached      : usage.promptTokensDetails.cachedTokens = b.cacheRead
  image       : usage.promptTokensDetails.imageTokens = 0
  audio       : usage.promptTokensDetails.audioTokens = 0
  imageOutput : usage.completionTokenDetails.imageTokens = 0
  audioOutput : usage.completionTokenDetails.audioTokens = 0

/-- The form of OpenAI: the prompt includes what was cached. -/
structure OpenAIForm (b : TokenBreakdown) (format : RelayFormat) (usage : UsageTokens) : Prop
    extends Reports b usage where
  semantic : usageSemanticFromUsage format usage = "openai"
  prompt   : usage.promptTokens = b.input
  creation : usage.promptTokensDetails.cacheCreationTokensTotal = b.cacheCreation

/-- The form of Claude: the prompt is the text alone, and what was written to the cache is told by its time to live. -/
structure ClaudeForm (b : TokenBreakdown) (usage : UsageTokens) : Prop extends Reports b usage where
  semantic   : usage.usageSemantic = "anthropic"
  prompt     : usage.promptTokens = b.textInput
  creation5m : usage.claudeCacheCreation5mTokens = b.cacheCreation5m
  creation1h : usage.claudeCacheCreation1hTokens = b.cacheCreation1h

/-- A name an expression uses. -/
def Uses (usedVars : Option (List String)) (name : String) : Prop := name ∈ usedVars.getD []

instance (usedVars : Option (List String)) (name : String) : Decidable (Uses usedVars name) :=
  inferInstanceAs (Decidable (name ∈ usedVars.getD []))

/-- Every token is priced once: in `p`, or by the name of its own that the expression uses. -/
structure PricedOnce (b : TokenBreakdown) (usedVars : Option (List String)) (params : TokenParams) : Prop where
  input      : params.p + (if Uses usedVars "cr" then params.cr else 0) + (if Uses usedVars "cc" then params.cc else 0) +
    (if Uses usedVars "cc1h" then params.cc1h else 0) = b.input
  completion : params.c = b.completion

/-- The two forms give an expression the same, and price every token once. -/
structure UpstreamAgnostic (b : TokenBreakdown) (usedVars : Option (List String)) (openAI claude : TokenParams) :
    Prop where
  p            : openAI.p = claude.p
  c            : openAI.c = claude.c
  len          : openAI.len = claude.len
  cr           : openAI.cr = claude.cr
  creation     : openAI.cc + openAI.cc1h = claude.cc + claude.cc1h
  pricedOpenAI : PricedOnce b usedVars openAI
  pricedClaude : PricedOnce b usedVars claude

/-! ## What an expression is given -/

section
variable {b : TokenBreakdown} {format : RelayFormat} {usage : UsageTokens} (usedVars : Option (List String))

theorem lessIfUsed_zero (names : List String) (name : String) (total : ℤ) : lessIfUsed names name 0 total = total := by
  rw [lessIfUsed_eq]
  split <;> omega

/-- Of OpenAI's prompt is taken what is priced by a name of its own. -/
theorem settled_openAI (h : OpenAIForm b format usage) : (settledTokenParams format usage usedVars).p =
        b.input - (if Uses usedVars "cr" then (b.cacheRead : ℤ) else 0) -
          (if Uses usedVars "cc" then (b.cacheCreation : ℤ) else 0) ∧
      (settledTokenParams format usage usedVars).c = b.completion ∧
      (settledTokenParams format usage usedVars).len = b.input ∧
      (settledTokenParams format usage usedVars).cr = b.cacheRead ∧
      (settledTokenParams format usage usedVars).cc = b.cacheCreation ∧
      (settledTokenParams format usage usedVars).cc1h = 0 := by
  have hsemantic : usage.usageSemantic ≠ "anthropic" := by
    intro hanthropic
    have := h.semantic
    unfold usageSemanticFromUsage at this
    rw [hanthropic, if_pos (by decide)] at this
    exact absurd this (by decide)
  have hclaude : decide (usageSemanticFromUsage format usage = "anthropic") = false := by
    rw [h.semantic]
    rfl
  have hcreation : usage.cacheCreationTokens = ((b.cacheCreation : ℤ), 0) := by
    unfold UsageTokens.cacheCreationTokens
    rw [if_neg hsemantic, h.creation]
  unfold settledTokenParams
  rw [hclaude]
  unfold buildTieredTokenParams
  simp only [hcreation, h.prompt, h.completion, h.cached, h.image, h.audio, h.imageOutput, h.audioOutput,
    lessIfUsed_zero, Bool.false_eq_true, if_false]
  refine ⟨?_, ?_, trivial, trivial, trivial, trivial⟩
  · simp only [lessIfUsed_eq]
    unfold Uses TokenBreakdown.input
    by_cases hcr : "cr" ∈ usedVars.getD []
    · by_cases hcc : "cc" ∈ usedVars.getD []
      · simp only [hcr, hcc, if_true]
        omega
      · simp only [hcr, hcc, if_true, if_false]
        omega
    · by_cases hcc : "cc" ∈ usedVars.getD []
      · simp only [hcr, hcc, if_true, if_false]
        omega
      · simp only [hcr, hcc, if_false]
        omega
  · exact if_neg (by omega)

/-- Claude's prompt is given as it is. -/
theorem settled_claude (h : ClaudeForm b usage) : (settledTokenParams format usage usedVars).p = b.textInput ∧
      (settledTokenParams format usage usedVars).c = b.completion ∧
      (settledTokenParams format usage usedVars).len = b.input ∧
      (settledTokenParams format usage usedVars).cr = b.cacheRead ∧
      (settledTokenParams format usage usedVars).cc = b.cacheCreation5m ∧
      (settledTokenParams format usage usedVars).cc1h = b.cacheCreation1h := by
  have hclaude : decide (usageSemanticFromUsage format usage = "anthropic") = true := by
    unfold usageSemanticFromUsage
    rw [h.semantic]
    rfl
  have hcreation : usage.cacheCreationTokens = ((b.cacheCreation5m : ℤ), (b.cacheCreation1h : ℤ)) := by
    unfold UsageTokens.cacheCreationTokens
    rw [if_pos h.semantic, h.creation5m, h.creation1h]
  unfold settledTokenParams
  rw [hclaude]
  unfold buildTieredTokenParams
  simp only [hcreation, h.prompt, h.completion, h.cached, if_true]
  refine ⟨if_neg (by omega), if_neg (by omega), ?_, trivial, trivial, trivial⟩
  unfold TokenBreakdown.input TokenBreakdown.cacheCreation
  omega

end

/-! ## The two forms compared -/

/-- Everything that was cached has a price of its own. -/
structure CachedPriced (b : TokenBreakdown) (usedVars : Option (List String)) : Prop where
  read       : Uses usedVars "cr" ∨ b.cacheRead = 0
  creation   : Uses usedVars "cc" ∨ b.cacheCreation = 0
  creation1h : Uses usedVars "cc1h" ∨ b.cacheCreation1h = 0

/-- The two forms of a breakdown give an expression the same and price every token once, if and only if the expression
prices everything that was cached by a name of its own. -/
theorem upstreamAgnostic_iff {b : TokenBreakdown} {format format' : RelayFormat} {openAI claude : UsageTokens}
    (usedVars : Option (List String)) (hopenAI : OpenAIForm b format openAI) (hclaude : ClaudeForm b claude) :
    UpstreamAgnostic b usedVars (settledTokenParams format openAI usedVars)
        (settledTokenParams format' claude usedVars) ↔ CachedPriced b usedVars := by
  obtain ⟨hp, hc, hlen, hcr, hcc, hcc1h⟩ := settled_openAI usedVars hopenAI
  obtain ⟨hp', hc', hlen', hcr', hcc', hcc1h'⟩ :=
    @settled_claude b format' claude usedVars hclaude
  have hinput : (b.input : ℤ) = b.textInput + b.cacheRead + b.cacheCreation := by
    unfold TokenBreakdown.input
    omega
  have hcreation : (b.cacheCreation : ℤ) = b.cacheCreation5m + b.cacheCreation1h := by
    unfold TokenBreakdown.cacheCreation
    omega
  constructor
  · intro h
    have hsame := h.p
    have hpriced := h.pricedClaude.input
    rw [hp, hp'] at hsame
    rw [hp', hcr', hcc', hcc1h'] at hpriced
    refine ⟨?_, ?_, ?_⟩
    · by_cases hused : Uses usedVars "cr"
      · exact Or.inl hused
      · rw [if_neg hused] at hsame
        right
        split at hsame <;> omega
    · by_cases hused : Uses usedVars "cc"
      · exact Or.inl hused
      · rw [if_neg hused] at hsame
        right
        split at hsame <;> omega
    · by_cases hused : Uses usedVars "cc1h"
      · exact Or.inl hused
      · rw [if_neg hused] at hpriced
        right
        split at hpriced <;> split at hpriced <;> omega
  · rintro ⟨hread, hwrite, hwrite1h⟩
    have hreadPriced : (if Uses usedVars "cr" then (b.cacheRead : ℤ) else 0) = b.cacheRead := by
      rcases hread with hused | hnone
      · exact if_pos hused
      · rw [hnone]
        exact ite_self _
    have hwritePriced : (if Uses usedVars "cc" then (b.cacheCreation : ℤ) else 0) = b.cacheCreation := by
      rcases hwrite with hused | hnone
      · exact if_pos hused
      · rw [hnone]
        exact ite_self _
    have hwrite5mPriced : (if Uses usedVars "cc" then (b.cacheCreation5m : ℤ) else 0) = b.cacheCreation5m := by
      rcases hwrite with hused | hnone
      · exact if_pos hused
      · have h5m : b.cacheCreation5m = 0 := by omega
        rw [h5m]
        exact ite_self _
    have hwrite1hPriced : (if Uses usedVars "cc1h" then (b.cacheCreation1h : ℤ) else 0) = b.cacheCreation1h := by
      rcases hwrite1h with hused | hnone
      · exact if_pos hused
      · rw [hnone]
        exact ite_self _
    constructor
    · rw [hp, hp', hreadPriced, hwritePriced]
      omega
    · rw [hc, hc']
    · rw [hlen, hlen']
    · rw [hcr, hcr']
    · rw [hcc, hcc1h, hcc', hcc1h']
      omega
    · refine ⟨?_, hc⟩
      rw [hp, hcr, hcc, hcc1h, hreadPriced, hwritePriced, ite_self]
      omega
    · refine ⟨?_, hc'⟩
      rw [hp', hcr', hcc', hcc1h', hreadPriced, hwrite5mPriced, hwrite1hPriced]
      omega

/-! ## A usage in both forms -/

/-- A breakdown as OpenAI reports it. -/
def TokenBreakdown.asOpenAI (b : TokenBreakdown) : UsageTokens where
  promptTokens := b.input
  completionTokens := b.completion
  usageSemantic := "openai"
  promptTokensDetails := { cachedTokens := b.cacheRead, cachedCreationTokens := b.cacheCreation }

/-- A breakdown as Claude reports it. -/
def TokenBreakdown.asClaude (b : TokenBreakdown) : UsageTokens where
  promptTokens := b.textInput
  completionTokens := b.completion
  usageSemantic := "anthropic"
  promptTokensDetails := { cachedTokens := b.cacheRead, cachedCreationTokens := b.cacheCreation }
  claudeCacheCreation5mTokens := b.cacheCreation5m
  claudeCacheCreation1hTokens := b.cacheCreation1h

theorem asOpenAI_form (b : TokenBreakdown) : OpenAIForm b .openAI b.asOpenAI := by
  refine ⟨⟨rfl, rfl, rfl, rfl, rfl, rfl⟩, rfl, rfl, ?_⟩
  unfold InputTokenDetails.cacheCreationTokensTotal TokenBreakdown.asOpenAI
  simp only
  split
  · omega
  · rfl

theorem asClaude_form (b : TokenBreakdown) : ClaudeForm b b.asClaude :=
  ⟨⟨rfl, rfl, rfl, rfl, rfl, rfl⟩, rfl, rfl, rfl, rfl⟩

/-- A text of 1000 tokens, of which 200 were read from the cache. -/
def cachedPrompt : TokenBreakdown :=
  { textInput := 800, cacheRead := 200, cacheCreation5m := 0, cacheCreation1h := 0, completion := 100 }

theorem upstreamAgnostic_iff_cached : UpstreamAgnostic cachedPrompt (some ["p", "c", "cr"])
      (settledTokenParams .openAI cachedPrompt.asOpenAI (some ["p", "c", "cr"]))
      (settledTokenParams .claude cachedPrompt.asClaude (some ["p", "c", "cr"])) :=
  (upstreamAgnostic_iff (some ["p", "c", "cr"]) (asOpenAI_form cachedPrompt) (asClaude_form cachedPrompt)).2
    ⟨Or.inl (by decide), Or.inr rfl, Or.inr rfl⟩

/-- Without a price of their own the 200 tokens are in OpenAI's `p`, and nowhere in Claude's. -/
theorem cached_not_priced : (settledTokenParams .openAI cachedPrompt.asOpenAI (some ["p", "c"])).p = 1000 ∧
      (settledTokenParams .claude cachedPrompt.asClaude (some ["p", "c"])).p = 800 ∧
      ¬ UpstreamAgnostic cachedPrompt (some ["p", "c"])
        (settledTokenParams .openAI cachedPrompt.asOpenAI (some ["p", "c"]))
        (settledTokenParams .claude cachedPrompt.asClaude (some ["p", "c"])) := by
  have hopenAI : (settledTokenParams .openAI cachedPrompt.asOpenAI (some ["p", "c"])).p = 1000 := by decide
  have hclaude : (settledTokenParams .claude cachedPrompt.asClaude (some ["p", "c"])).p = 800 := by decide
  refine ⟨hopenAI, hclaude, fun h => ?_⟩
  have hsame := h.p
  rw [hopenAI, hclaude] at hsame
  exact absurd hsame (by decide)

end NovaMaas.Billing
