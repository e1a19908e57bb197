/-
  What a text request is charged, and the log it leaves (service/text_quota.go, service/log_info_generate.go).

  The usage to bill by is reduced to counts, the counts are weighted by the ratios of the price, and the decimal is
  rounded and kept within the bounds of a single request.  `calculateTextQuotaSummary` follows the source step by step:
  what is taken off the prompt, what each category is worth, the clamp, the minimum charge, the test of the total.

  `PostTextConsumeQuota` is here for requests that no tiered expression prices.  Of the log it writes there are the keys
  that the usage audit reads; one that is not written reads as the zero value, or as nothing where the audit can tell.

  Ratios and prices are exact numbers, also where the source works out OpenRouter's cost in floats.
-/
import NovaMaas.Billing.TokenForms
import NovaMaas.Billing.EffectiveUsage
import NovaMaas.Billing.Evidence
import NovaMaas.Lib.Merging

namespace NovaMaas.Charge

open Billing Merging

/-! ## Requests -/

structure ToolSurchargeItem where
  name  : String
  count : ℤ
  price : ℚ

/-- `PriceData`, of what the charge reads. -/
structure PriceData where
  modelRatio           : ℚ
  completionRatio      : ℚ
  cacheRatio           : ℚ
  cacheCreationRatio   : ℚ
  cacheCreation5mRatio : ℚ
  cacheCreation1hRatio : ℚ
  imageRatio           : ℚ
  groupRatio           : ℚ
  modelPrice           : ℚ := 0
  usePrice             : Bool := false
  otherRatios          : List (String × ℚ) := []

/-- `RelayInfo` and the context, of what the charge reads. -/
structure RelayInfo where
  originModelName         : String := ""
  priceData               : PriceData
  /-- `ChannelType`, if there is `ChannelMeta`. -/
  channelType             : Option ℕ := none
  relayFormat             : RelayFormat := .openAI
  finalRequestRelayFormat : Option RelayFormat := none
  requestConversionChain  : List RelayFormat := []
  requestPath             : String := ""
  relayModeResponses      : Bool := false
  isLocalCountTokens      : Bool := false
  estimatePromptTokens    : ℤ := 0
  /-- `ResponsesUsageInfo.BuiltInTools`: names with their call counts. -/
  builtInTools            : List (String × ℤ) := []
  claudeWebSearchRequests : ℤ := 0
  geminiGoogleSearchCall  : Bool := false

/-- `GetFinalRequestRelayFormat`. -/
def RelayInfo.getFinalRequestRelayFormat (info : RelayInfo) : RelayFormat :=
  match info.finalRequestRelayFormat with
  | some format => format
  | none => info.requestConversionChain.getLast?.getD info.relayFormat

/-- The settings the charge reads. -/
structure Settings where
  quotaPerUnit : ℚ
  /-- `GetToolPriceForModel`: by the name of the tool and the model. -/
  toolPrice    : String → String → ℚ
  /-- `GetDefaultModelRatioMap`. -/
  defaultModelRatio : String → Option ℚ := fun _ => none

def channelTypeOpenRouter : ℕ := 20

/-- `GetGeminiInputAudioPricePerMillionTokens`. -/
def getGeminiInputAudioPricePerMillionTokens (modelName : String) : ℚ :=
  if hasPrefix modelName "gemini-2.5-flash-preview-native-audio" then 3
  else if hasPrefix modelName "gemini-2.5-flash-preview-lite" then 1 / 2
  else if hasPrefix modelName "gemini-2.5-flash-preview" then 1
  else if hasPrefix modelName "gemini-2.5-flash" then 1
  else if hasPrefix modelName "gemini-2.0-flash" then 7 / 10
  else if hasPrefix modelName "gemini-robotics-er-1.5" then 1
  else 0

/-! ## Tool calls -/

/-- `math.MaxInt`. -/
def maxInt : ℤ := 2 ^ 63 - 1

/-- `collectToolSurchargeItem`. -/
def collectToolSurchargeItem (price : String → ℚ) (items : List ToolSurchargeItem) (call : String × ℤ) :
    List ToolSurchargeItem :=
  if call.2 ≤ 0 then items
  else if price call.1 ≤ 0 then items
  else items ++ [⟨call.1, call.2, price call.1⟩]

/-- The tool calls of a request, in the order they are collected in. -/
def RelayInfo.toolCalls (info : RelayInfo) : List (String × ℤ) :=
  info.builtInTools ++
    (if !info.relayModeResponses && hasSuffix info.originModelName "search-preview" then [("web_search_preview", 1)]
      else []) ++
    [("web_search", info.claudeWebSearchRequests)] ++
    (if info.geminiGoogleSearchCall then [("google_search", 1)] else [])

/-- Items are sorted by name, and by price under one name. -/
def itemKey (item : ToolSurchargeItem) : String ×ₗ ℚ := toLex (item.name, item.price)

def addCount (last item : ToolSurchargeItem) : ToolSurchargeItem :=
  { last with count := if maxInt - last.count < item.count then maxInt else last.count + item.count }

/-- `mergeToolSurchargeItems`. -/
def mergeToolSurchargeItems (items : List ToolSurchargeItem) : List ToolSurchargeItem :=
  mergeNeighbours itemKey addCount (items.insertionSort fun a b => itemKey a ≤ itemKey b)

def toolSurchargeItems (settings : Settings) (info : RelayInfo) : List ToolSurchargeItem :=
  mergeToolSurchargeItems
    (info.toolCalls.foldl (collectToolSurchargeItem fun name => settings.toolPrice name info.originModelName) [])

/-- `calculateTextToolCallSurcharge`: prices are for a thousand calls. -/
def calculateTextToolCallSurcharge (settings : Settings) (info : RelayInfo) : ℚ :=
  ((toolSurchargeItems settings info).map fun item =>
    item.price * item.count / 1000 * info.priceData.groupRatio * settings.quotaPerUnit).sum

/-! ## The counts -/

structure TextQuotaSummary where
  promptTokens           : ℤ
  completionTokens       : ℤ
  totalTokens            : ℤ
  cacheTokens            : ℤ
  cacheCreationTokens    : ℤ
  cacheCreationTokens5m  : ℤ
  cacheCreationTokens1h  : ℤ
  imageTokens            : ℤ
  audioTokens            : ℤ
  usageSemantic          : String
  audioInputPrice        : ℚ
  toolSurchargeItems     : List ToolSurchargeItem
  toolCallSurchargeQuota : ℚ
  quota                  : ℤ

def TextQuotaSummary.isClaudeUsageSemantic (s : TextQuotaSummary) : Bool := s.usageSemantic = "anthropic"

/-- `hasBillableUsage`. -/
def TextQuotaSummary.hasBillableUsage (s : TextQuotaSummary) : Bool :=
  decide (0 < s.totalTokens) || decide (s.toolCallSurchargeQuota ≠ 0)

/-- `cacheWriteTokensTotal`. -/
def cacheWriteTokensTotal (s : TextQuotaSummary) : ℤ :=
  if 0 < s.cacheCreationTokens5m ∨ 0 < s.cacheCreationTokens1h then
    if s.cacheCreationTokens5m + s.cacheCreationTokens1h < s.cacheCreationTokens then s.cacheCreationTokens
    else s.cacheCreationTokens5m + s.cacheCreationTokens1h
  else s.cacheCreationTokens

/-- The usage, or else the estimate. -/
def RelayInfo.usageOrEstimate (info : RelayInfo) (usage : Option Usage) : UsageTokens :=
  match usage with
  | some u => u.toUsageTokens
  | none => { promptTokens := info.estimatePromptTokens, totalTokens := info.estimatePromptTokens }

/-- `isLegacyClaudeDerivedOpenAIUsage`. -/
def isLegacyClaudeDerivedOpenAIUsage (info : RelayInfo) (usage : UsageTokens) : Bool :=
  if info.getFinalRequestRelayFormat = .claude then false
  else if usage.usageSource ≠ "" ∨ usage.usageSemantic ≠ "" then false
  else decide (0 < usage.claudeCacheCreation5mTokens) || decide (0 < usage.claudeCacheCreation1hTokens)

def isOpenRouterClaudeBilling (info : RelayInfo) (usage : UsageTokens) : Bool :=
  decide (info.channelType = some channelTypeOpenRouter) &&
    decide (usageSemanticFromUsage info.getFinalRequestRelayFormat usage = "anthropic")

/-- `hasCustomModelRatio`. -/
def hasCustomModelRatio (settings : Settings) (modelName : String) (currentRatio : ℚ) : Bool :=
  settings.defaultModelRatio modelName ≠ some currentRatio

/-- `isValidOtherRatio`; ratios are finite. -/
def isValidOtherRatio (ratio : ℚ) : Bool := 0 < ratio

/-- `QuotaFromDecimalChecked`, and `QuotaRoundChecked`: the quota, and whether it had to be clamped. -/
def quotaFromDecimalChecked (d : ℚ) : ℤ × Bool :=
  if maxQuota < roundHalfAway d then (maxQuota, true)
  else if roundHalfAway d < -maxQuota - 1 then (-maxQuota - 1, true)
  else (roundHalfAway d, false)

/-- `CalcOpenRouterCacheCreateTokens`: the cache creation that the cost tells.  A price of creation that is the plain one
is divided by, which makes no finite number, and is clamped. -/
def calcOpenRouterCacheCreateTokens (settings : Settings) (usage : UsageTokens) (p : PriceData) : ℤ :=
  if p.cacheCreationRatio = 1 then 0
  else
    let quotaPrice := p.modelRatio / settings.quotaPerUnit
    let promptCacheCreatePrice := quotaPrice * p.cacheCreationRatio
    let promptCacheReadPrice := quotaPrice * p.cacheRatio
    let completionPrice := quotaPrice * p.completionRatio
    let value := (usage.cost - usage.promptTokens * quotaPrice +
        usage.promptTokensDetails.cachedTokens * (quotaPrice - promptCacheReadPrice) -
        usage.completionTokens * completionPrice) / (promptCacheCreatePrice - quotaPrice)
    if promptCacheCreatePrice - quotaPrice = 0 ∨ (quotaFromDecimalChecked value).2 = true then -1
    else (quotaFromDecimalChecked value).1

/-- Cache creation on OpenRouter is inferred from the cost: none is reported, and the prices are those the cost is made of.
`usage.Cost != 0` compares an interface with an int, and holds of every decoded cost. -/
def creationInferred (settings : Settings) (info : RelayInfo) (usage : UsageTokens) : Bool :=
  isOpenRouterClaudeBilling info usage && decide (usage.promptTokensDetails.cacheCreationTokensTotal = 0) &&
    decide (info.priceData.cacheCreationRatio ≠ 1) &&
    !(info.priceData.usePrice || hasCustomModelRatio settings info.originModelName info.priceData.modelRatio)

/-- Cache creation: what is reported, or what the cost tells. -/
def cacheCreation (settings : Settings) (info : RelayInfo) (usage : UsageTokens) (promptTokens : ℤ) : ℤ :=
  if creationInferred settings info usage = true then
    let maybeCacheCreationTokens := calcOpenRouterCacheCreateTokens settings usage info.priceData
    if 0 ≤ maybeCacheCreationTokens ∧ maybeCacheCreationTokens ≤ promptTokens then maybeCacheCreationTokens else 0
  else usage.promptTokensDetails.cacheCreationTokensTotal

/-- The prompt and the cache creation that are charged: OpenRouter's prompt has what was cached taken off. -/
def rebased (settings : Settings) (info : RelayInfo) (usage : UsageTokens) : ℤ × ℤ :=
  if isOpenRouterClaudeBilling info usage then
    let promptTokens := usage.promptTokens - usage.promptTokensDetails.cachedTokens
    let creation := cacheCreation settings info usage promptTokens
    (promptTokens - creation, creation)
  else (usage.promptTokens, usage.promptTokensDetails.cacheCreationTokensTotal)

/-- The counts and the tool calls, without the quota. -/
def summarize (settings : Settings) (info : RelayInfo) (usage : UsageTokens) : TextQuotaSummary where
  promptTokens := (rebased settings info usage).1
  completionTokens := usage.completionTokens
  totalTokens := usage.promptTokens + usage.completionTokens
  cacheTokens := usage.promptTokensDetails.cachedTokens
  cacheCreationTokens := (rebased settings info usage).2
  cacheCreationTokens5m := usage.claudeCacheCreation5mTokens
  cacheCreationTokens1h := usage.claudeCacheCreation1hTokens
  imageTokens := usage.promptTokensDetails.imageTokens
  audioTokens := usage.promptTokensDetails.audioTokens
  usageSemantic := usageSemanticFromUsage info.getFinalRequestRelayFormat usage
  audioInputPrice :=
    if !info.priceData.usePrice && decide (usage.promptTokensDetails.audioTokens ≠ 0) then
      getGeminiInputAudioPricePerMillionTokens info.originModelName
    else 0
  toolSurchargeItems := toolSurchargeItems settings info
  toolCallSurchargeQuota := calculateTextToolCallSurcharge settings info
  quota := 0

/-! ## The quota -/

/-- `ApplyOtherRatiosToDecimal`. -/
def PriceData.applyOtherRatiosToDecimal (p : PriceData) (value : ℚ) : ℚ :=
  p.otherRatios.foldl (fun value other =>
    if isValidOtherRatio other.2 && decide (other.2 ≠ 1) then value * other.2 else value) value

/-- What is charged of the prompt at the plain ratio; `separate` is a prompt that leaves out what was cached. -/
def baseTokens (s : TextQuotaSummary) (separate : Bool) : ℤ :=
  let base := s.promptTokens
  let base := if s.cacheTokens ≠ 0 then (if separate then base else base - s.cacheTokens) else base
  let base :=
    if s.cacheCreationTokens ≠ 0 ∨ 0 < s.cacheCreationTokens5m ∨ 0 < s.cacheCreationTokens1h then
      (if separate then base else base - s.cacheCreationTokens)
    else base
  let base := if s.imageTokens ≠ 0 then base - s.imageTokens else base
  let base := if s.audioTokens ≠ 0 then (if 0 < s.audioInputPrice then base - s.audioTokens else base) else base
  if base < 0 then 0 else base

/-- Cache creation, weighted; it is split by its time to live only where the prompt leaves it out. -/
def cachedCreationTokensWithRatio (p : PriceData) (s : TextQuotaSummary) (separate : Bool) : ℚ :=
  if s.cacheCreationTokens ≠ 0 ∨ 0 < s.cacheCreationTokens5m ∨ 0 < s.cacheCreationTokens1h then
    if !separate then s.cacheCreationTokens * p.cacheCreationRatio
    else
      let remaining := s.cacheCreationTokens - s.cacheCreationTokens5m - s.cacheCreationTokens1h
      ((if remaining < 0 then 0 else remaining : ℤ) : ℚ) * p.cacheCreationRatio +
        s.cacheCreationTokens5m * p.cacheCreation5mRatio + s.cacheCreationTokens1h * p.cacheCreation1hRatio
  else 0

/-- `audioInputQuota`: the price is for a million tokens. -/
def audioInputQuota (settings : Settings) (p : PriceData) (s : TextQuotaSummary) : ℚ :=
  if s.audioTokens ≠ 0 ∧ 0 < s.audioInputPrice then
    s.audioInputPrice / 1000000 * s.audioTokens * p.groupRatio * settings.quotaPerUnit
  else 0

/-- `quotaCalculateDecimal` in ratio mode, before the minimum charge. -/
def ratioDecimal (settings : Settings) (p : PriceData) (s : TextQuotaSummary) (separate : Bool) : ℚ :=
  p.applyOtherRatiosToDecimal
      (((baseTokens s separate : ℚ) + s.cacheTokens * p.cacheRatio + s.imageTokens * p.imageRatio +
            cachedCreationTokensWithRatio p s separate + s.completionTokens * p.completionRatio) *
          (p.modelRatio * p.groupRatio) +
        audioInputQuota settings p s) +
    s.toolCallSurchargeQuota

/-- The quota in either mode. -/
def decimalQuota (settings : Settings) (p : PriceData) (s : TextQuotaSummary) (separate : Bool) : ℤ :=
  if !p.usePrice then
    let d := ratioDecimal settings p s separate
    (quotaFromDecimalChecked (if p.modelRatio * p.groupRatio ≠ 0 ∧ d ≤ 0 then 1 else d)).1
  else
    (quotaFromDecimalChecked (p.applyOtherRatiosToDecimal (p.modelPrice * settings.quotaPerUnit * p.groupRatio) +
      s.toolCallSurchargeQuota)).1

/-- `calculateTextQuotaSummary`, of the usage to bill by. -/
def calculateTextQuotaSummary (settings : Settings) (info : RelayInfo) (billingUsage : Option Usage) :
    TextQuotaSummary :=
  let usage := info.usageOrEstimate billingUsage
  let s := summarize settings info usage
  let quota := decimalQuota settings info.priceData s
    (s.isClaudeUsageSemantic || isLegacyClaudeDerivedOpenAIUsage info usage)
  if !s.hasBillableUsage then { s with quota := 0 }
  else if info.priceData.modelRatio * info.priceData.groupRatio ≠ 0 ∧ quota = 0 then { s with quota := 1 }
  else { s with quota := quota }

/-! ## The log -/

/-- `usageAuditMetadata`: the keys of a log that the audit reads. -/
structure UsageAuditMetadata where
  semantic        : String := ""
  claude          : Bool := false
  cacheRead       : Option ℤ := none
  cacheWrite      : ℤ := 0
  writeTotal      : Option ℤ := none
  write5m         : ℤ := 0
  write1h         : ℤ := 0
  inputTotal      : Option ℤ := none
  modelRatio      : Option ℚ := none
  completionRatio : Option ℚ := none
  groupRatio      : Option ℚ := none
  cacheRatio      : Option ℚ := none
  writeRatio      : Option ℚ := none
  writeRatio5m    : Option ℚ := none
  writeRatio1h    : Option ℚ := none
  modelPrice      : ℚ := 0
  billingMode     : String := ""
  path            : String := ""
  conversion      : List String := []
  task            : Bool := false
  audio           : Bool := false
  image           : Bool := false
  ws              : Bool := false
  perCall         : Bool := false
  otherRatios     : List (String × ℚ) := []
  tools           : List ToolSurchargeItem := []
  billingPath     : String := ""
  localCount      : Bool := false

/-- The names of formats in a log. -/
def conversionName : RelayFormat → String
  | .openAI => "OpenAI Compatible"
  | .claude => "Claude Messages"
  | .gemini => "Google Gemini"
  | .openAIResponses => "OpenAI Responses"
  | .other name => name

/-- `usageBillingPathForLog`. -/
def usageBillingPathForLog (isLocalCountTokens : Bool) (usage : Option Usage) : String :=
  match usageFromBillingUsage usage with
  | none => if isLocalCountTokens then "local" else "upstream"
  | some effective =>
    let estimated := ((usage.bind Usage.billingUsage).map BillingUsage.estimated).getD false
    if effective.usageSemantic = "openai" then
      if estimated then "billing-usage-openai-estimated" else "billing-usage-openai"
    else if effective.usageSemantic = "anthropic" then
      if estimated then "billing-usage-anthropic-estimated" else "billing-usage-anthropic"
    else if effective.usageSemantic = "gemini" then
      if estimated then "billing-usage-gemini-estimated" else "billing-usage-gemini"
    else "upstream"

/-- `GenerateTextOtherInfo`. -/
def generateTextOtherInfo (info : RelayInfo) (s : TextQuotaSummary) : UsageAuditMetadata where
  modelRatio := some info.priceData.modelRatio
  groupRatio := some info.priceData.groupRatio
  completionRatio := some info.priceData.completionRatio
  cacheRead := some s.cacheTokens
  cacheRatio := some info.priceData.cacheRatio
  modelPrice := info.priceData.modelPrice
  localCount := info.isLocalCountTokens
  path := info.requestPath
  conversion := info.requestConversionChain.map conversionName
  claude := info.getFinalRequestRelayFormat = .claude

/-- `GenerateClaudeOtherInfo`. -/
def generateClaudeOtherInfo (info : RelayInfo) (s : TextQuotaSummary) : UsageAuditMetadata :=
  { generateTextOtherInfo info s with
    claude := true
    cacheWrite := s.cacheCreationTokens
    writeRatio := some info.priceData.cacheCreationRatio
    write5m := s.cacheCreationTokens5m
    writeRatio5m := if s.cacheCreationTokens5m ≠ 0 then some info.priceData.cacheCreation5mRatio else none
    write1h := s.cacheCreationTokens1h
    writeRatio1h := if s.cacheCreationTokens1h ≠ 0 then some info.priceData.cacheCreation1hRatio else none }

/-- The keys for cache creation, each written where it is positive. -/
def writeKeys (p : PriceData) (s : TextQuotaSummary) (other : UsageAuditMetadata) : UsageAuditMetadata :=
  { other with
    cacheWrite := if 0 < s.cacheCreationTokens then s.cacheCreationTokens else other.cacheWrite
    writeRatio := if 0 < s.cacheCreationTokens then some p.cacheCreationRatio else other.writeRatio
    write5m := if 0 < s.cacheCreationTokens5m then s.cacheCreationTokens5m else other.write5m
    writeRatio5m := if 0 < s.cacheCreationTokens5m then some p.cacheCreation5mRatio else other.writeRatio5m
    write1h := if 0 < s.cacheCreationTokens1h then s.cacheCreationTokens1h else other.write1h
    writeRatio1h := if 0 < s.cacheCreationTokens1h then some p.cacheCreation1hRatio else other.writeRatio1h
    writeTotal := if 0 < cacheWriteTokensTotal s then some (cacheWriteTokensTotal s) else other.writeTotal }

/-- `input_tokens_total`: only of a usage that names its source. -/
def loggedInputTotal (info : RelayInfo) (billingUsage : Option Usage) : Option ℤ :=
  match billingUsage with
  | none => none
  | some u =>
    if info.getFinalRequestRelayFormat ≠ .claude ∧ u.usageSource ≠ "" ∧ 0 < u.inputTokens then some u.inputTokens
    else none

/-- What a consumption leaves behind: the counts and the quota, and the keys beside them. -/
structure UsageLog where
  isRefund         : Bool := false
  promptTokens     : ℤ
  completionTokens : ℤ
  quota            : ℤ
  /-- `Other`, decoded; nothing if it is not of this form. -/
  other            : Option UsageAuditMetadata

/-- `PostTextConsumeQuota`, without a tiered expression: the quota that is settled is that of the log. -/
def postTextConsumeQuota (settings : Settings) (info : RelayInfo) (usage : Option Usage) : UsageLog :=
  let billingUsage := effectiveBillingUsage usage
  let s := calculateTextQuotaSummary settings info billingUsage
  let other := if s.isClaudeUsageSemantic then { generateClaudeOtherInfo info s with semantic := "anthropic" }
    else generateTextOtherInfo info s
  { promptTokens := s.promptTokens
    completionTokens := s.completionTokens
    quota := s.quota
    other := some { writeKeys info.priceData s other with
      billingPath := usageBillingPathForLog info.isLocalCountTokens usage
      image := s.imageTokens ≠ 0
      tools := s.toolSurchargeItems
      inputTotal := loggedInputTotal info billingUsage } }

end NovaMaas.Charge
