/-
  What becomes of the usage of a response that is converted (relaykit/dto/billing_usage.go and relaykit/relayconvert:
  response_registry.go, internal/oai_chat, internal/oai_responses, internal/claude_messages, internal/gemini_chat).

  Every format has a direct converter to chat and one from it, where there is one; between two other formats a response
  goes through chat.  Each step returns the usage it has read off its source, re-based to OpenAI's totals, and with it
  the evidence: what the provider said, as it said it.  An evidence that a source brings along is passed on; a source
  without one gets one made of its own counts.

  A response is modelled by its usage.  What a step writes into the response it makes is there as well: the step after
  it reads that.
-/
import NovaMaas.Billing.Usage
import NovaMaas.Convert.ChatStream

namespace NovaMaas.Billing

/-! ## Evidence -/

/-- `HasOpenAIUsageTokens`. -/
def hasOpenAIUsageTokens (usage : UsageTokens) : Bool :=
  usage.promptTokens ≠ 0 || usage.completionTokens ≠ 0 || usage.totalTokens ≠ 0 || usage.inputTokens ≠ 0 ||
    usage.outputTokens ≠ 0 || usage.promptCacheHitTokens ≠ 0 || usage.claudeCacheCreation5mTokens ≠ 0 ||
    usage.claudeCacheCreation1hTokens ≠ 0 ||
  (usage.promptTokensDetails.cachedTokens ≠ 0 || usage.promptTokensDetails.cachedCreationTokens ≠ 0 ||
    usage.promptTokensDetails.cacheWriteTokens ≠ 0 || usage.promptTokensDetails.textTokens ≠ 0 ||
    usage.promptTokensDetails.imageTokens ≠ 0 || usage.promptTokensDetails.audioTokens ≠ 0) ||
  (usage.completionTokenDetails.reasoningTokens ≠ 0 || usage.completionTokenDetails.textTokens ≠ 0 ||
    usage.completionTokenDetails.imageTokens ≠ 0 || usage.completionTokenDetails.audioTokens ≠ 0) ||
  usage.inputTokensDetails.isSome

/-- `HasClaudeUsageTokens`. -/
def hasClaudeUsageTokens (usage : ClaudeUsageTokens) : Bool :=
  usage.inputTokens ≠ 0 || usage.outputTokens ≠ 0 || usage.cacheCreationInputTokens ≠ 0 ||
    usage.cacheReadInputTokens ≠ 0 || usage.claudeCacheCreation5mTokens ≠ 0 || usage.claudeCacheCreation1hTokens ≠ 0 ||
  usage.cacheCreation.any fun split => split.ephemeral5mInputTokens ≠ 0 || split.ephemeral1hInputTokens ≠ 0

/-- `HasGeminiUsageMetadataTokens`. -/
def hasGeminiUsageMetadataTokens (metadata : GeminiUsageTokens) : Bool :=
  metadata.promptTokenCount ≠ 0 || metadata.toolUsePromptTokenCount ≠ 0 || metadata.candidatesTokenCount ≠ 0 ||
    metadata.totalTokenCount ≠ 0 || metadata.thoughtsTokenCount ≠ 0 || metadata.cachedContentTokenCount ≠ 0 ||
  metadata.promptTokensDetails.any (fun detail => detail.tokenCount ≠ 0) ||
  metadata.toolUsePromptTokensDetails.any (fun detail => detail.tokenCount ≠ 0) ||
  metadata.candidatesTokensDetails.any (fun detail => detail.tokenCount ≠ 0)

/-- `newOpenAIBillingUsage`. -/
def newOpenAIBillingUsage (source : String) (usage : UsageTokens) : Option BillingUsage :=
  if hasOpenAIUsageTokens usage then some { source := source, semantic := "openai", openAIUsage := some usage } else none

/-- `NewOpenAIChatBillingUsage`. -/
def newOpenAIChatBillingUsage (usage : UsageTokens) : Option BillingUsage := newOpenAIBillingUsage "oai_chat" usage

/-- `NewOpenAIResponsesBillingUsage`. -/
def newOpenAIResponsesBillingUsage (usage : UsageTokens) : Option BillingUsage :=
  newOpenAIBillingUsage "oai_responses" usage

/-- `NewClaudeMessagesBillingUsage`. -/
def newClaudeMessagesBillingUsage (usage : ClaudeUsageTokens) : Option BillingUsage :=
  if hasClaudeUsageTokens usage then
    some { source := "claude_messages", semantic := "anthropic", claudeUsage := some usage }
  else none

/-- `NewGeminiChatBillingUsage`. -/
def newGeminiChatBillingUsage (metadata : GeminiUsageTokens) : Option BillingUsage :=
  if hasGeminiUsageMetadataTokens metadata then
    some { source := "gemini_chat", semantic := "gemini", geminiUsageMetadata := some metadata }
  else none

/-! ## Usage of each format, in OpenAI's totals -/

/-- Some count of the details is there. -/
def InputTokenDetails.any (d : InputTokenDetails) : Bool :=
  d.cachedTokens ≠ 0 || d.imageTokens ≠ 0 || d.audioTokens ≠ 0 || d.cachedCreationTokens ≠ 0 ||
    d.cacheWriteTokens ≠ 0 || d.textTokens ≠ 0

/-- `UsageFromChatUsage`: the details of the prompt are moved to those of the input. -/
def usageFromChatUsage (src : Usage) : Usage where
  usageSemantic := src.usageSemantic
  usageSource := src.usageSource
  billingUsage := src.billingUsage <|> newOpenAIChatBillingUsage src.toUsageTokens
  promptTokens := src.promptTokens
  inputTokens := src.promptTokens
  completionTokens := src.completionTokens
  outputTokens := src.completionTokens
  totalTokens := if src.totalTokens ≠ 0 then src.totalTokens else src.promptTokens + src.completionTokens
  inputTokensDetails := if src.promptTokensDetails.any then some src.promptTokensDetails else none
  completionTokenDetails := src.completionTokenDetails
  claudeCacheCreation5mTokens := src.claudeCacheCreation5mTokens
  claudeCacheCreation1hTokens := src.claudeCacheCreation1hTokens

/-- `UsageFromResponsesUsage`: the details of the input are moved to those of the prompt. -/
def usageFromResponsesUsage : Option Usage → Usage
  | none => {}
  | some src =>
    { usageSemantic := src.usageSemantic
      usageSource := src.usageSource
      billingUsage := src.billingUsage <|> newOpenAIResponsesBillingUsage src.toUsageTokens
      promptTokens := src.inputTokens
      inputTokens := src.inputTokens
      completionTokens := src.outputTokens
      outputTokens := src.outputTokens
      totalTokens := if src.totalTokens ≠ 0 then src.totalTokens else src.inputTokens + src.outputTokens
      promptTokensDetails := src.inputTokensDetails.getD {}
      completionTokenDetails := src.completionTokenDetails
      claudeCacheCreation5mTokens := src.claudeCacheCreation5mTokens
      claudeCacheCreation1hTokens := src.claudeCacheCreation1hTokens }

/-- `NormalizeCacheCreationSplit`: what the split leaves out counts as five minutes. -/
def normalizeCacheCreationSplit (totalTokens tokens5m tokens1h : ℤ) : ℤ × ℤ :=
  (tokens5m + max (totalTokens - tokens5m - tokens1h) 0, tokens1h)

/-- `GetCacheCreation5mTokens`. -/
def ClaudeUsageTokens.cacheCreation5mTokens (usage : ClaudeUsageTokens) : ℤ :=
  (usage.cacheCreation.map ClaudeCacheCreationUsage.ephemeral5mInputTokens).getD 0

/-- `GetCacheCreation1hTokens`. -/
def ClaudeUsageTokens.cacheCreation1hTokens (usage : ClaudeUsageTokens) : ℤ :=
  (usage.cacheCreation.map ClaudeCacheCreationUsage.ephemeral1hInputTokens).getD 0

/-- `cacheCreationTokensForOpenAIUsage`: the total, or the split where that is more. -/
def cacheCreationTokensForOpenAIUsage (cachedCreationTokens tokens5m tokens1h : ℤ) : ℤ :=
  if tokens5m + tokens1h = 0 then cachedCreationTokens
  else if tokens5m + tokens1h < cachedCreationTokens then cachedCreationTokens
  else tokens5m + tokens1h

/-- `UsageFromClaudeAPIUsage`, with `buildOpenAIStyleUsageFromClaudeUsage`: Claude's input tokens leave out what was
cached, OpenAI's take it in. -/
def usageFromClaudeAPIUsage (usage : ClaudeUsage) : Usage :=
  let split := normalizeCacheCreationSplit usage.cacheCreationInputTokens usage.cacheCreation5mTokens
    usage.cacheCreation1hTokens
  let cacheCreationTokens := cacheCreationTokensForOpenAIUsage usage.cacheCreationInputTokens
    usage.cacheCreation5mTokens usage.cacheCreation1hTokens
  let totalInputTokens := usage.inputTokens + usage.cacheReadInputTokens + cacheCreationTokens
  { promptTokens := totalInputTokens
    inputTokens := totalInputTokens
    completionTokens := usage.outputTokens
    totalTokens := totalInputTokens + usage.outputTokens
    usageSemantic := "openai"
    usageSource := "anthropic"
    billingUsage := usage.billingUsage <|> newClaudeMessagesBillingUsage usage.toClaudeUsageTokens
    promptTokensDetails := { cachedTokens := usage.cacheReadInputTokens
                             cachedCreationTokens := usage.cacheCreationInputTokens
                             cacheWriteTokens := cacheCreationTokens }
    claudeCacheCreation5mTokens := split.1
    claudeCacheCreation1hTokens := split.2 }

/-- `addGeminiInputTokenDetail`. -/
def addGeminiInputTokenDetail (details : InputTokenDetails) (detail : ModalityTokens) : InputTokenDetails :=
  if detail.modality = "AUDIO" then { details with audioTokens := details.audioTokens + detail.tokenCount }
  else if detail.modality = "IMAGE" then { details with imageTokens := details.imageTokens + detail.tokenCount }
  else if detail.modality = "TEXT" then { details with textTokens := details.textTokens + detail.tokenCount }
  else details

def addGeminiOutputTokenDetail (details : OutputTokenDetails) (detail : ModalityTokens) : OutputTokenDetails :=
  if detail.modality = "IMAGE" then { details with imageTokens := details.imageTokens + detail.tokenCount }
  else if detail.modality = "AUDIO" then { details with audioTokens := details.audioTokens + detail.tokenCount }
  else if detail.modality = "TEXT" then { details with textTokens := details.textTokens + detail.tokenCount }
  else details

/-- The details of the prompt, its tools among them. -/
def GeminiUsageTokens.inputDetails (metadata : GeminiUsageTokens) : InputTokenDetails :=
  metadata.toolUsePromptTokensDetails.foldl addGeminiInputTokenDetail
    (metadata.promptTokensDetails.foldl addGeminiInputTokenDetail { cachedTokens := metadata.cachedContentTokenCount })

def GeminiUsageTokens.outputDetails (metadata : GeminiUsageTokens) : OutputTokenDetails :=
  metadata.candidatesTokensDetails.foldl addGeminiOutputTokenDetail { reasoningTokens := metadata.thoughtsTokenCount }

/-- A prompt without a count for text or sound is all text. -/
def InputTokenDetails.orText (d : InputTokenDetails) (promptTokens : ℤ) : InputTokenDetails :=
  if 0 < promptTokens ∧ d.textTokens = 0 ∧ d.audioTokens = 0 then { d with textTokens := promptTokens } else d

/-- `UsageFromGeminiMetadata`.  A prompt that was not counted is given the gateway's estimate. -/
def usageFromGeminiMetadata (metadata : Option GeminiUsageMetadata) (fallbackPromptTokens : ℤ) : Option Usage :=
  match metadata with
  | none =>
    if fallbackPromptTokens ≤ 0 then none
    else some { promptTokens := fallbackPromptTokens, promptTokensDetails := { textTokens := fallbackPromptTokens } }
  | some metadata =>
    let counted := metadata.promptTokenCount + metadata.toolUsePromptTokenCount
    let promptTokens := if counted ≤ 0 ∧ 0 < fallbackPromptTokens then fallbackPromptTokens else counted
    let completionTokens := metadata.candidatesTokenCount + metadata.thoughtsTokenCount
    some
      { promptTokens := promptTokens
        completionTokens :=
          if 0 < metadata.totalTokenCount ∧ completionTokens ≤ 0 then metadata.totalTokenCount - promptTokens
          else completionTokens
        totalTokens := metadata.totalTokenCount
        billingUsage := metadata.billingUsage <|> newGeminiChatBillingUsage metadata.toGeminiUsageTokens
        promptTokensDetails := metadata.inputDetails.orText promptTokens
        completionTokenDetails := metadata.outputDetails }

/-! ## Usage that a step writes -/

/-- `openAIBillingUsageFromUsage`. -/
def openAIBillingUsageFromUsage (usage : Usage) : Option BillingUsage :=
  match usage.billingUsage with
  | some evidence =>
    if evidence.openAIUsage.isSome ∧
        (evidence.source = "oai_chat" ∨ evidence.source = "oai_responses" ∨ evidence.semantic = "openai") then
      some evidence
    else newOpenAIChatBillingUsage usage.toUsageTokens
  | none => newOpenAIChatBillingUsage usage.toUsageTokens

/-- `buildClaudeUsageFromOpenAIUsage`. -/
def buildClaudeUsageFromOpenAIUsage (oaiUsage : Usage) : ClaudeUsage :=
  let own := oaiUsage.billingUsage.bind fun evidence =>
    if evidence.source = "claude_messages" ∨ evidence.semantic = "anthropic" then evidence.claudeUsage else none
  match own with
  | some usage => { toClaudeUsageTokens := usage }
  | none =>
    let split := normalizeCacheCreationSplit oaiUsage.promptTokensDetails.cachedCreationTokens
      oaiUsage.claudeCacheCreation5mTokens oaiUsage.claudeCacheCreation1hTokens
    let cacheCreationTokens := oaiUsage.promptTokensDetails.cacheCreationTokensTotal
    { inputTokens :=
        if oaiUsage.usageSemantic ≠ "anthropic" then
          max (oaiUsage.promptTokens - oaiUsage.promptTokensDetails.cachedTokens - cacheCreationTokens) 0
        else oaiUsage.promptTokens
      outputTokens := oaiUsage.completionTokens
      cacheCreationInputTokens := cacheCreationTokens
      cacheReadInputTokens := oaiUsage.promptTokensDetails.cachedTokens
      billingUsage := openAIBillingUsageFromUsage oaiUsage
      cacheCreation :=
        if 0 < split.1 ∨ 0 < split.2 then
          some { ephemeral5mInputTokens := split.1, ephemeral1hInputTokens := split.2 }
        else none }

/-- The usage metadata of `ResponseOpenAI2Gemini`. -/
def buildGeminiUsageFromOpenAIUsage (usage : Usage) : GeminiUsageMetadata :=
  let own := usage.billingUsage.bind fun evidence =>
    if evidence.source ≠ "gemini_chat" ∧ evidence.semantic ≠ "gemini" then none else evidence.geminiUsageMetadata
  match own with
  | some metadata => { toGeminiUsageTokens := metadata }
  | none =>
    { promptTokenCount := usage.promptTokens
      candidatesTokenCount := usage.completionTokens
      totalTokenCount := if usage.totalTokens = 0 then usage.promptTokens + usage.completionTokens else usage.totalTokens
      billingUsage := openAIBillingUsageFromUsage usage }

/-! ## The registry -/

inductive RelayFormat where
  | openAI
  | openAIResponses
  | claude
  | gemini
  /-- A format that no response converter is registered for. -/
  | other (name : String)
  deriving DecidableEq

/-- A response, as far as its usage goes.  A Claude response may have it in its message. -/
inductive Response where
  | chat (usage : Usage)
  | responses (usage : Option Usage)
  | claude (usage messageUsage : Option ClaudeUsage)
  | gemini (hasUsageMetadata : Bool) (usageMetadata : GeminiUsageMetadata)

/-- `inferResponseRelayFormat`. -/
def Response.format : Response → RelayFormat
  | chat _ => .openAI
  | responses _ => .openAIResponses
  | claude _ _ => .claude
  | gemini _ _ => .gemini

def Response.typeName : Response → String
  | chat _ => "*dto.OpenAITextResponse"
  | responses _ => "*dto.OpenAIResponsesResponse"
  | claude _ _ => "*dto.ClaudeResponse"
  | gemini _ _ => "*dto.GeminiChatResponse"

/-- `GetUsageMetadata`. -/
def getUsageMetadata (hasUsageMetadata : Bool) (usageMetadata : GeminiUsageMetadata) : Option GeminiUsageMetadata :=
  if hasUsageMetadata || hasGeminiUsageMetadataTokens usageMetadata.toGeminiUsageTokens then some usageMetadata else none

/-- `canonicalUsageFromResponse`, with the gateway's estimate of the prompt where a converter uses it. -/
def Response.usage (fallbackPromptTokens : ℤ) : Response → Option Usage
  | chat usage => some (usageFromChatUsage usage)
  | responses usage => some (usageFromResponsesUsage usage)
  | claude usage messageUsage => (usage <|> messageUsage).map usageFromClaudeAPIUsage
  | gemini hasUsageMetadata usageMetadata =>
    usageFromGeminiMetadata (getUsageMetadata hasUsageMetadata usageMetadata) fallbackPromptTokens

/-- `canonicalUsageFromResponse`. -/
def canonicalUsageFromResponse (response : Response) : Option Usage := response.usage 0

/-- The direct converters. -/
inductive ResponseConverter where
  | oaiChatToOAIResponses
  | oaiResponsesToOAIChat
  | oaiChatToClaudeMessages
  | oaiChatToGeminiChat
  | claudeMessagesToOAIChat
  | geminiChatToOAIChat

/-- `spec.Convert`: the response it makes, and the usage it returns. -/
def ResponseConverter.convert (fallbackPromptTokens : ℤ) (c : ResponseConverter) (response : Response) :
    Except String (Response × Option Usage) :=
  match c, response with
  | .oaiChatToOAIResponses, .chat usage =>
    .ok (.responses (some (usageFromChatUsage usage)), some (usageFromChatUsage usage))
  | .oaiChatToClaudeMessages, .chat usage =>
    .ok (.claude (some (buildClaudeUsageFromOpenAIUsage usage)) none, some (usageFromChatUsage usage))
  | .oaiChatToGeminiChat, .chat usage =>
    .ok (.gemini true (buildGeminiUsageFromOpenAIUsage usage), some (usageFromChatUsage usage))
  | .oaiResponsesToOAIChat, .responses usage =>
    .ok (.chat (usageFromResponsesUsage usage), some (usageFromResponsesUsage usage))
  | .claudeMessagesToOAIChat, .claude usage messageUsage =>
    let read := (Response.claude usage messageUsage).usage fallbackPromptTokens
    .ok (.chat (read.getD {}), read)
  | .geminiChatToOAIChat, .gemini hasUsageMetadata usageMetadata =>
    let read := (Response.gemini hasUsageMetadata usageMetadata).usage fallbackPromptTokens
    .ok (.chat (read.getD {}), read)
  | .oaiResponsesToOAIChat, _ => .error ("expected OAI responses response, got " ++ response.typeName)
  | .claudeMessagesToOAIChat, _ => .error ("expected Claude messages response, got " ++ response.typeName)
  | .geminiChatToOAIChat, _ => .error ("expected Gemini chat response, got " ++ response.typeName)
  | _, _ => .error ("expected OAI chat response, got " ++ response.typeName)

/-- `responseConverterRoutes`, with the steps of the converter that is registered for the route. -/
def lookupResponseRoute : RelayFormat → RelayFormat → Option (List ResponseConverter)
  | .openAI, .openAIResponses => some [.oaiChatToOAIResponses]
  | .openAIResponses, .openAI => some [.oaiResponsesToOAIChat]
  | .openAI, .claude => some [.oaiChatToClaudeMessages]
  | .openAI, .gemini => some [.oaiChatToGeminiChat]
  | .claude, .openAI => some [.claudeMessagesToOAIChat]
  | .gemini, .openAI => some [.geminiChatToOAIChat]
  | .claude, .gemini => some [.claudeMessagesToOAIChat, .oaiChatToGeminiChat]
  | .claude, .openAIResponses => some [.claudeMessagesToOAIChat, .oaiChatToOAIResponses]
  | .gemini, .claude => some [.geminiChatToOAIChat, .oaiChatToClaudeMessages]
  | .gemini, .openAIResponses => some [.geminiChatToOAIChat, .oaiChatToOAIResponses]
  | .openAIResponses, .claude => some [.oaiResponsesToOAIChat, .oaiChatToClaudeMessages]
  | .openAIResponses, .gemini => some [.oaiResponsesToOAIChat, .oaiChatToGeminiChat]
  | _, _ => none

/-- `executeResponseSteps`: the usage is that of the last step. -/
def executeResponseSteps (fallbackPromptTokens : ℤ) :
    List ResponseConverter → Response → Option Usage → Except String (Response × Option Usage)
  | [], current, usage => .ok (current, usage)
  | spec :: specs, current, _ =>
    match spec.convert fallbackPromptTokens current with
    | .error err => .error err
    | .ok r => executeResponseSteps fallbackPromptTokens specs r.1 r.2

def RelayFormat.name : RelayFormat → String
  | openAI => "openai"
  | openAIResponses => "openai_responses"
  | claude => "claude"
  | gemini => "gemini"
  | other name => name

/-- `ConvertResponse`: the response, and the usage that is returned with it. -/
def convertResponse (fallbackPromptTokens : ℤ) (target : RelayFormat) (response : Response) :
    Except String (Response × Option Usage) :=
  if target.name = "" then .error "target relay format is required"
  else if response.format = target then .ok (response, canonicalUsageFromResponse response)
  else
    match lookupResponseRoute response.format target with
    | none =>
      .error ("response converter from " ++ response.format.name ++ " to " ++ target.name ++ " is not registered")
    | some steps => executeResponseSteps fallbackPromptTokens steps response none

end NovaMaas.Billing
