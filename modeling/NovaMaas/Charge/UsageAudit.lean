/-
  The row of the usage audit for a log (service/usage_audit.go).

  The audit knows of a request what its log says.  It works out again which tokens were plain input, which were read
  from the cache or written to it, prices them with the ratios of the log, and puts the result beside the amount that
  was settled.  Where the log does not say enough, or was charged in a way that the audit does not know, the row keeps
  the settled amount and names an issue (`auditRow`, the checks in the order of the source).

  Amounts are exact decimals: a division keeps 16 places, and a text of an amount has 9.  Of a row there are the fields
  that are worked out; those copied from the log, as evidence or to identify the request, are left out.
-/
import NovaMaas.Charge.TextQuota

namespace NovaMaas.Charge

open Billing

/-! ## Decimals -/

/-- `Decimal.Round`. -/
def roundPlaces (places : ℕ) (d : ℚ) : ℚ := roundHalfAway (d * 10 ^ places) / 10 ^ places

/-- `Decimal.Div`. -/
def decimalDiv (d d₂ : ℚ) : ℚ := roundPlaces 16 (d / d₂)

/-- `StringFixed(9)`, read back. -/
def stringFixed9 (d : ℚ) : ℚ := roundPlaces 9 d

/-- `QuotaFromDecimalStrict`. -/
def quotaFromDecimalStrict (d : ℚ) : Option ℤ :=
  if (quotaFromDecimalChecked d).2 then none else some (quotaFromDecimalChecked d).1

/-! ## Rows -/

/-- `BillingCurrency`: its numbers are texts, and may not be numbers at all. -/
structure BillingCurrency where
  rate         : Option ℚ
  quotaPerUnit : Option ℚ

inductive UsageAuditError
  | invalidRecordedQuota
  | invalidCurrency
  deriving DecidableEq

inductive UsageAuditIssue
  | missingUsageEvidence
  | invalidUsageEvidence
  | unsupportedPricing
  | missingPriceEvidence
  | invalidPriceEvidence
  deriving DecidableEq

inductive DuplicateStatus
  | notIdentified
  | excludedCacheWritePresent
  | needsResponseEvidence
  deriving DecidableEq

inductive Protocol
  | anthropic
  | openai
  | other
  deriving DecidableEq

structure UsageAuditTokens where
  input      : ℤ
  cacheRead  : ℤ
  cacheWrite : ℤ
  output     : ℤ
  totalInput : ℤ
  deriving DecidableEq

/-- `UsageAuditCost`, of a request. -/
structure UsageAuditCost where
  input      : ℚ
  cacheRead  : ℚ
  cacheWrite : ℚ
  output     : ℚ
  rounding   : ℚ
  total      : ℚ
  deriving DecidableEq

/-- `UsageAuditCost`, of a million tokens. -/
structure UsageAuditPrices where
  input      : ℚ
  output     : ℚ
  cacheRead  : Option ℚ
  cacheWrite : Option ℚ
  deriving DecidableEq

structure UsageAuditInputRecalculation where
  requestCount   : ℤ
  tokens         : ℤ
  cacheRead      : ℤ
  unpricedTokens : ℤ
  platformAmount : Option ℚ := none
  listAmount     : Option ℚ := none
  deriving DecidableEq

structure UsageAuditRow where
  isRefund                : Bool
  protocol                : Option Protocol := none
  usageSemantic           : String := ""
  groupRatio              : Option ℚ := none
  tokens                  : Option UsageAuditTokens := none
  actualAmount            : ℚ
  listPrices              : Option UsageAuditPrices := none
  listCost                : Option UsageAuditCost := none
  discountedCost          : Option UsageAuditCost := none
  recalculationDifference : Option ℚ := none
  inputRecalculation      : Option UsageAuditInputRecalculation := none
  possibleDuplicateInput  : ℤ := 0
  duplicateStatus         : DuplicateStatus := .notIdentified
  issue                   : Option UsageAuditIssue := none
  deriving DecidableEq

/-! ## The usage -/

def protocolOfPath (path : String) : Protocol :=
  if path = "/v1/messages" then .anthropic
  else if path = "/v1/chat/completions" ∨ path = "/v1/responses" then .openai
  else .other

/-- A usage that was counted here, or estimated. -/
def UsageAuditMetadata.guessed (metadata : UsageAuditMetadata) : Bool :=
  metadata.localCount || decide ("estimated".toList <:+: metadata.billingPath.toList)

/-- A count is missing or not within the bounds of a request. -/
def UsageAuditMetadata.badCounts (log : UsageLog) (metadata : UsageAuditMetadata) : Bool :=
  match metadata.cacheRead with
  | none => true
  | some cacheRead =>
    [cacheRead, metadata.cacheWrite, metadata.write5m, metadata.write1h, log.promptTokens, log.completionTokens].any
      fun count => decide (count < 0) || decide (maxQuota < count)

/-- The cache creation of a log. -/
def UsageAuditMetadata.write (metadata : UsageAuditMetadata) : ℤ :=
  let write := metadata.writeTotal.getD metadata.cacheWrite
  if write = 0 then metadata.write5m + metadata.write1h else write

/-- The convention of the counts of a log; empty if it cannot be told. -/
def UsageAuditMetadata.tokenSemantic (metadata : UsageAuditMetadata) : String :=
  if metadata.semantic ≠ "" then metadata.semantic
  else if hasPrefix metadata.billingPath "billing-usage-anthropic" then "anthropic"
  else if hasPrefix metadata.billingPath "billing-usage-openai" then "openai"
  else if hasPrefix metadata.billingPath "billing-usage-gemini" then "gemini"
  else if metadata.claude then "anthropic"
  else if 0 < metadata.write5m ∨ 0 < metadata.write1h then ""
  else if (metadata.conversion.getLast?.map fun last => hasPrefix last "OpenAI").getD false then "openai"
  else if metadata.cacheRead.getD 0 = 0 ∧ metadata.write = 0 then "openai"
  else ""

/-- The categories of tokens; nothing if the convention is not known. -/
def auditTokens (log : UsageLog) (metadata : UsageAuditMetadata) : Option UsageAuditTokens :=
  let cacheRead := metadata.cacheRead.getD 0
  match metadata.inputTotal with
  | some total => some ⟨total - cacheRead - metadata.write, cacheRead, metadata.write, log.completionTokens, total⟩
  | none =>
    if metadata.tokenSemantic = "anthropic" then
      some ⟨log.promptTokens, cacheRead, metadata.write, log.completionTokens,
        log.promptTokens + cacheRead + metadata.write⟩
    else if metadata.tokenSemantic = "openai" ∨ metadata.tokenSemantic = "gemini" then
      some ⟨log.promptTokens - cacheRead - metadata.write, cacheRead, metadata.write, log.completionTokens,
        log.promptTokens⟩
    else none

/-- Input that an old conversion may have counted twice. -/
def markDuplicate (metadata : UsageAuditMetadata) (tokens : UsageAuditTokens) (row : UsageAuditRow) : UsageAuditRow :=
  if row.protocol = some .anthropic ∧ row.usageSemantic = "openai" ∧ 1 < metadata.conversion.length ∧
      (metadata.conversion.getLast?.map fun last => hasPrefix last "OpenAI").getD false then
    if 0 < tokens.cacheWrite then { row with duplicateStatus := .excludedCacheWritePresent }
    else if 0 < tokens.cacheRead then
      { row with
        possibleDuplicateInput := tokens.cacheRead
        duplicateStatus := .needsResponseEvidence
        inputRecalculation := some {
          requestCount := 1
          tokens := tokens.cacheRead
          cacheRead := tokens.cacheRead
          unpricedTokens := tokens.cacheRead } }
    else row
  else row

/-! ## The price -/

/-- A charge that the audit cannot work out again. -/
def UsageAuditMetadata.unsupported (metadata : UsageAuditMetadata) : Bool :=
  metadata.task || metadata.audio || metadata.image || metadata.ws || metadata.perCall ||
    decide (0 < metadata.modelPrice) ||
    (decide (metadata.billingMode ≠ "") && decide (metadata.billingMode ≠ "ratio")) || !metadata.otherRatios.isEmpty ||
    !metadata.tools.isEmpty

/-- A ratio that is there and within bounds. -/
def validRatio (ratio : Option ℚ) : Option ℚ :=
  match ratio with
  | some r => if r < 0 ∨ maxQuota < r then none else some r
  | none => none

/-- Tokens at a ratio, which has to be known only if there are any. -/
def componentWeight (count : ℤ) (ratio : Option ℚ) : Option ℚ :=
  if count = 0 then some 0 else (validRatio ratio).map fun r => count * r

/-- `usageAuditCost`. -/
def usageAuditCost (parts : Fin 4 → ℚ) (group rate unit : ℚ) (minimumCharge : Bool) : Option UsageAuditCost :=
  let amount : Fin 4 → ℚ := fun i => stringFixed9 (decimalDiv (parts i * group * rate) unit)
  let total := parts 0 * group + parts 1 * group + parts 2 * group + parts 3 * group
  match quotaFromDecimalStrict total with
  | none => none
  | some quota =>
    let quota := if 0 < group ∧ minimumCharge ∧ quota = 0 then 1 else quota
    let rounded := decimalDiv (quota * rate) unit
    some {
      input := amount 0
      cacheRead := amount 1
      cacheWrite := amount 2
      output := amount 3
      rounding := stringFixed9 (rounded - decimalDiv (total * rate) unit)
      total := stringFixed9 rounded }

/-- The duplicate input, priced as plain input. -/
def priceDuplicate (modelRatio groupRatio rate unit : ℚ) (row : UsageAuditRow) : UsageAuditRow :=
  match row.inputRecalculation with
  | none => row
  | some repricing =>
    let amount := decimalDiv (row.possibleDuplicateInput * modelRatio * rate) unit
    { row with inputRecalculation := some { repricing with
        listAmount := some (stringFixed9 amount)
        platformAmount := some (stringFixed9 (amount * groupRatio))
        unpricedTokens := 0 } }

/-- The weight of the cache creation. -/
def writeWeight (metadata : UsageAuditMetadata) (tokens : UsageAuditTokens) : Option ℚ :=
  match componentWeight (tokens.cacheWrite - metadata.write5m - metadata.write1h) metadata.writeRatio,
      componentWeight metadata.write5m metadata.writeRatio5m,
      componentWeight metadata.write1h metadata.writeRatio1h with
  | some plain, some short, some long => some (plain + short + long)
  | _, _, _ => none

/-- The costs of a row, if every price can be told. -/
def costRow (metadata : UsageAuditMetadata) (tokens : UsageAuditTokens) (modelRatio groupRatio rate unit : ℚ)
    (row : UsageAuditRow) : UsageAuditRow :=
  match validRatio metadata.completionRatio, componentWeight tokens.cacheRead metadata.cacheRatio,
      writeWeight metadata tokens with
  | some completionRatio, some read, some write =>
    let parts : Fin 4 → ℚ :=
      ![tokens.input * modelRatio, read * modelRatio, write * modelRatio, tokens.output * modelRatio * completionRatio]
    let minimumCharge := decide (0 < modelRatio) && decide (0 < tokens.totalInput + tokens.output)
    match usageAuditCost parts 1 rate unit minimumCharge, usageAuditCost parts groupRatio rate unit minimumCharge with
    | some list, some discounted =>
      let inputPrice := decimalDiv (modelRatio * 1000000 * rate) unit
      { row with
        listCost := some list
        discountedCost := some discounted
        recalculationDifference := some (stringFixed9 (row.actualAmount - discounted.total))
        listPrices := some {
          input := inputPrice
          output := inputPrice * completionRatio
          cacheRead := metadata.cacheRatio.map (inputPrice * ·)
          cacheWrite :=
            if 0 < tokens.cacheWrite then some (decimalDiv write tokens.cacheWrite * inputPrice) else none } }
    | _, _ => { row with issue := some .invalidPriceEvidence }
  | _, _, _ => { row with issue := some .missingPriceEvidence }

def priceRow (metadata : UsageAuditMetadata) (tokens : UsageAuditTokens) (rate unit : ℚ) (row : UsageAuditRow) :
    UsageAuditRow :=
  if metadata.unsupported || metadata.guessed then { row with issue := some .unsupportedPricing }
  else if row.usageSemantic ≠ "anthropic" ∧ 0 < metadata.write5m + metadata.write1h then
    { row with issue := some .unsupportedPricing }
  else
    match validRatio metadata.modelRatio, validRatio metadata.groupRatio with
    | some modelRatio, some groupRatio =>
      costRow metadata tokens modelRatio groupRatio rate unit (priceDuplicate modelRatio groupRatio rate unit row)
    | _, _ => { row with issue := some .missingPriceEvidence }

/-! ## The row -/

def usageRow (log : UsageLog) (metadata : UsageAuditMetadata) (rate unit : ℚ) (row : UsageAuditRow) : UsageAuditRow :=
  if metadata.guessed then { row with issue := some .missingUsageEvidence }
  else if log.isRefund then { row with issue := some .unsupportedPricing }
  else if metadata.badCounts log then { row with issue := some .missingUsageEvidence }
  else if metadata.write < 0 ∨ maxQuota < metadata.write ∨ metadata.write < metadata.write5m + metadata.write1h then
    { row with issue := some .invalidUsageEvidence }
  else
    let row := { row with usageSemantic := metadata.tokenSemantic }
    match auditTokens log metadata with
    | none => { row with issue := some .missingUsageEvidence }
    | some tokens =>
      if tokens.input < 0 ∨ tokens.totalInput < 0 ∨ 3 * maxQuota < tokens.totalInput then
        { row with issue := some .invalidUsageEvidence }
      else priceRow metadata tokens rate unit (markDuplicate metadata tokens { row with tokens := some tokens })

def auditRow (log : UsageLog) (rate unit : ℚ) : UsageAuditRow :=
  let sign : ℤ := if log.isRefund then -1 else 1
  let row : UsageAuditRow :=
    { isRefund := log.isRefund, actualAmount := stringFixed9 (decimalDiv ((log.quota * sign : ℤ) * rate) unit) }
  match log.other with
  | none => { row with issue := some .missingUsageEvidence }
  | some metadata =>
    usageRow log metadata rate unit { row with
      protocol := some (protocolOfPath metadata.path)
      groupRatio := metadata.groupRatio }

/-- `buildUsageAuditRow`. -/
def buildUsageAuditRow (log : UsageLog) (currency : BillingCurrency) : Except UsageAuditError UsageAuditRow :=
  if log.quota < 0 ∨ maxWalletQuota < log.quota then .error .invalidRecordedQuota
  else
    match currency.rate, currency.quotaPerUnit with
    | some rate, some unit =>
      if rate ≤ 0 ∨ unit ≤ 0 then .error .invalidCurrency else .ok (auditRow log rate unit)
    | _, _ => .error .invalidCurrency

end NovaMaas.Charge
