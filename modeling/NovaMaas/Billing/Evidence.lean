/-
  The evidence corrections and statements read: `model/billing_statement_rates.go`, the projections
  of `model/billing_correction_cost.go`, and the pricing of a task from `model/billing_correction.go`.

  What depends on code or settings outside the billing tables is a field of `CorrectionEnv`:
  floating-point repricing, the live price list, the text form of numbers.  None of them is assumed
  to satisfy anything.
-/
import NovaMaas.Billing.Account

namespace NovaMaas.Billing

/-! ## The environment -/

/-- Prices, number formats and settings the corrections read. -/
structure CorrectionEnv where
  /-- `common.UsingLogDatabase(common.DatabaseTypeClickHouse)`. -/
  usingClickHouse : Bool
  /-- JSON encoding and decoding of a float. -/
  encodeFloat : ℚ → String
  decodeFloat : String → Option ℚ
  /-- `decimal.Decimal.String` and `decimal.NewFromString`. -/
  decimalString : ℚ → String
  parseDecimal : String → Option ℚ
  decimalLength : Decimal → ℕ
  /-- `billingCorrectionPricingQuota`: the repricing function. -/
  pricingQuota : CorrectionPricing → ℚ → Bool → Except BillingError ℤ
  /-- `billingCorrectionTaskPricing` under today's settings and the archived request. -/
  currentPricing : Task → CorrectionPricing × Option BillingError
  /-- `common.QuotaPerUnit`. -/
  quotaPerUnit : ℚ
  /-- `seedancepricing.Lookup`: the price and the base price of a resolution tier. -/
  tierPrice : String → String → Bool → Option (ℚ × ℚ)
  /-- `billingCorrectionRequestID`. -/
  requestID : String → String

/-! ## Historical rates -/

/-- The usage logs of a user. -/
def usageLogs (db : DB) (userID : ℤ) : List Log :=
  db.logs.rows.filter fun log => log.userID = userID && (log.type = .consume || log.type = .refund)

/-- Does a usage log record the amount of this entry? -/
def logMatches (entry : BillingEntry) (log : Log) : Bool :=
  log.modelName = entry.modelName &&
    (if entry.quota < 0 then log.quota = -entry.quota && log.type = .refund
      else log.quota = entry.quota && log.type = .consume)

/-- Group, group ratio and task of a usage log. -/
def rateOfLog (env : CorrectionEnv) (log : Log) : HistoricalRate :=
  match log.other with
  | none => { group := log.group }
  | some metadata =>
    { group := log.group
      taskID := metadata.taskID
      ratio := match metadata.groupRatio with
        | some ratio => if ratio < 0 then "" else env.decimalString ratio
        | none => "" }

/-- `billingEntryHistoricalRates` of one entry: only immutable usage evidence, never today's token or
    pricing configuration.  A missing or ambiguous source has an unknown rate. -/
def historicalRate (env : CorrectionEnv) (db : DB) (userID : ℤ) (entry : BillingEntry) : HistoricalRate :=
  match entry.kind with
  | .rateCorrection => { group := entry.billingGroup, ratio := entry.billingRate }
  | .taskAdjustment =>
    if entry.requestID = "" then {}
    else
      match db.tasks.rows.filter fun t => t.userID = userID && t.taskID = entry.requestID with
      | [task] =>
        match task.billingContext with
        | some bc =>
          if bc.groupRatio < 0 then {}
          else
            { group := task.group
              ratio := env.decimalString bc.groupRatio
              taskID := entry.requestID }
        | none => {}
      | _ => {}
  | _ =>
    let candidates :=
      if entry.sourceLogID > 0 ∧ env.usingClickHouse = false then
        (usageLogs db userID).filter fun log => log.id = entry.sourceLogID
      else if entry.requestID = "" then []
      else (usageLogs db userID).filter fun log => log.requestID = entry.requestID
    match candidates.filter (logMatches entry) with
    | [log] => rateOfLog env log
    | _ => {}

/-! ## The effective sale of a source entry -/

/-- The correction events of a source entry, in ledger order. -/
def correctionsOf (db : DB) (userID sourceID upTo : ℤ) : List BillingEntry :=
  orderBy BillingEntry.sequence (db.entries.rows.filter fun e =>
    e.userID = userID && e.kind = .rateCorrection && e.sourceEntryID = sourceID && e.sequence ≤ upTo)

/-- What a source entry counts for: amount, group and group rate. -/
structure SaleState where
  quota : ℤ
  group : String
  rate : String

/-- One correction event. -/
def SaleState.correct (st : SaleState) (event : BillingEntry) : SaleState :=
  { quota := st.quota + event.quota, group := event.billingGroup, rate := event.billingRate }

/-- The sale of an entry before any correction. -/
def originalSale (env : CorrectionEnv) (db : DB) (userID : ℤ) (entry : BillingEntry) : SaleState :=
  { quota := entry.quota
    group := (historicalRate env db userID entry).group
    rate := (historicalRate env db userID entry).ratio }

/-- The sale of an entry after its correction events. -/
def effectiveSale (env : CorrectionEnv) (db : DB) (userID upTo : ℤ) (entry : BillingEntry) : SaleState :=
  (correctionsOf db userID entry.id upTo).foldl SaleState.correct (originalSale env db userID entry)

/-- A correction event that does not belong to the source, or leaves the range of one request. -/
def eventCorrupt (entry : BillingEntry) (quota : ℤ) (event : BillingEntry) : Bool :=
  event.sequence ≤ entry.sequence || event.modelName ≠ entry.modelName ||
    event.tokenID ≠ entry.tokenID || event.correctionID = "" || event.quota > maxQuota ||
    event.quota < -maxQuota || quota > maxQuota - event.quota || quota < -maxQuota - event.quota

/-- The same projection with the integrity checks of the preview. -/
def checkedSale (entry : BillingEntry) : SaleState → List BillingEntry → Except BillingError SaleState
  | st, [] => .ok st
  | st, event :: events =>
    if eventCorrupt entry st.quota event then .error .evidenceIntegrity
    else checkedSale entry (st.correct event) events

/-! ## The effective cost state of a snapshot -/

structure CostAccountingState where
  quota : ℤ
  latestID : ℤ := 0
  stateID : ℤ := 0
  basis : Option Decimal
  before : Option Decimal := none
  after : Option Decimal := none
  discount : String
  basisVersion : ℤ
  deriving DecidableEq

/-- The state a snapshot was captured with. -/
def snapshotState (snapshot : CostAccountingSnapshot) : CostAccountingState :=
  { quota := snapshot.costQuota
    basis := snapshot.costBasisQuota
    discount := snapshot.costDiscount
    basisVersion := snapshot.snapshotVersion }

/-- The state after one adjustment. -/
def CostAccountingState.adjust (state : CostAccountingState) (adjustment : CostAccountingAdjustment) :
    CostAccountingState :=
  let state := { state with
    quota := state.quota + adjustment.deltaCostQuota
    latestID := adjustment.id
    stateID := if adjustment.action = .reverse then adjustment.previousAdjustmentID else adjustment.id }
  if adjustment.basisVersion > 0 ∨ adjustment.action = .reverse then
    { state with
      basis := adjustment.costBasisQuota
      before := adjustment.costBasisBefore
      after := adjustment.costBasisAfter
      basisVersion := adjustment.basisVersion
      discount := adjustment.costDiscount }
  else if adjustment.costDiscount ≠ "" then
    -- historical discount-only adjustments predate explicit basis fields
    { state with discount := adjustment.costDiscount }
  else state

/-- An adjustment of another snapshot, out of order, or out of range. -/
def adjustmentCorrupt (snapshot : CostAccountingSnapshot) (state : CostAccountingState)
    (adjustment : CostAccountingAdjustment) : Bool :=
  adjustment.snapshotID ≠ snapshot.id || adjustment.id ≤ state.latestID ||
    adjustment.deltaCostQuota > maxQuota - state.quota ||
    adjustment.deltaCostQuota < -maxQuota - state.quota

def adjustAll (snapshot : CostAccountingSnapshot) :
    CostAccountingState → List CostAccountingAdjustment → Except BillingError CostAccountingState
  | state, [] => .ok state
  | state, adjustment :: adjustments =>
    if adjustmentCorrupt snapshot state adjustment then .error .evidenceIntegrity
    else adjustAll snapshot (state.adjust adjustment) adjustments

/-- `effectiveCostAccountingState`. -/
def effectiveCostAccountingState (snapshot : CostAccountingSnapshot)
    (adjustments : List CostAccountingAdjustment) : Except BillingError CostAccountingState :=
  if snapshot.costQuota > maxQuota ∨ snapshot.costQuota < -maxQuota then .error .evidenceIntegrity
  else adjustAll snapshot (snapshotState snapshot) adjustments

/-- The adjustments of a snapshot, in id order. -/
def adjustmentsOf (db : DB) (snapshotID : ℤ) : List CostAccountingAdjustment :=
  orderBy CostAccountingAdjustment.id
    (db.adjustments.rows.filter fun a => a.snapshotID = snapshotID)

/-! ## Discounts and basis quotas -/

/-- `NormalizeCostDiscount`: `""`, or a discount between 0 and 1 with exactly six decimal places. -/
def normalizeCostDiscount (value : String) : Except BillingError String :=
  match (trimSpace value).toList with
  | [] => .ok ""
  | ['0'] => .ok "0.000000"
  | ['1'] => .ok "1.000000"
  | '0' :: '.' :: digits =>
    if digits ≠ [] ∧ digits.length ≤ 6 ∧ digits.all Char.isDigit then
      .ok ("0." ++ String.ofList (digits ++ List.replicate (6 - digits.length) '0'))
    else .error .costDiscountPattern
  | '1' :: '.' :: digits =>
    if digits ≠ [] ∧ digits.length ≤ 6 ∧ digits.all (· = '0') then .ok "1.000000"
    else .error .costDiscountPattern
  | _ => .error .costDiscountPattern

/-- The number a string of decimal digits spells. -/
def digitsValue (digits : List Char) : ℕ := digits.foldl (fun n c => 10 * n + (c.toNat - '0'.toNat)) 0

/-- `decimal.RequireFromString` of a normalized discount. -/
def discountValue (normalized : String) : ℚ :=
  match normalized.toList with
  | whole :: '.' :: digits => digitsValue [whole] + digitsValue digits / (10 ^ digits.length : ℕ)
  | digits => digitsValue digits

/-- The factor a discount stands for: `1` when none is configured. -/
def discountMultiplier (discount : String) : Except BillingError ℚ :=
  if discount = "" then .ok 1 else (normalizeCostDiscount discount).map discountValue

/-- `decimal.Round(0)`: half away from zero. -/
def roundHalfAway (q : ℚ) : ℤ := if 0 ≤ q then (q + 1 / 2).floor else -(-q + 1 / 2).floor

/-- `common.QuotaFromDecimalChecked`: round, and refuse what does not fit an `int32`. -/
def quotaFromDecimalChecked (q : ℚ) : Except BillingError ℤ :=
  if roundHalfAway q > maxQuota ∨ roundHalfAway q < -maxQuota - 1 then .error .quotaClamp
  else .ok (roundHalfAway q)

/-- `costAccountingBasisQuota`: with cumulative amounts, the difference of the rounded products. -/
def costAccountingBasisQuota (basis before after : Option Decimal) (discount : String) : Except BillingError ℤ := do
  let value ← (basis.elim (.error .evidenceIntegrity) .ok : Except BillingError Decimal)
  let multiplier ← discountMultiplier discount
  if before ≠ none ∨ after ≠ none then
    match before, after with
    | some previous, some current =>
      if previous.value < 0 ∨ current.value < 0 ∨ current.value - previous.value ≠ value.value then
        .error .evidenceIntegrity
      else do
        let previousQuota ← quotaFromDecimalChecked (previous.value * multiplier)
        let currentQuota ← quotaFromDecimalChecked (current.value * multiplier)
        .ok (currentQuota - previousQuota)
    | _, _ => .error .evidenceIntegrity
  else quotaFromDecimalChecked (value.value * multiplier)

/-! ## The pricing of a task -/

/-- `billingCorrectionTaskPricing` of the submission: the pricing the task was charged with. -/
def taskPricing (task : Task) : CorrectionPricing × Option BillingError :=
  match task.billingContext with
  | none => ({}, some .correctionBlocked)
  | some bc =>
    let pricing : CorrectionPricing :=
      { pricingMode := if bc.modelPrice < 0 ∧ bc.modelRatio ≥ 0 then .tokens else .perCall
        modelPrice := bc.modelPrice
        modelRatio := bc.modelRatio
        otherRatios := bc.otherRatios
        perCallBilling := bc.perCallBilling }
    match task.totalTokens with
    | none => (pricing, some .correctionBlocked)
    | some tokens => ({ pricing with totalTokens := tokens }, none)

/-- The product of the other ratios; the published tier replaces a stored video ratio. -/
def ratioProduct (env : CorrectionEnv) (pricing : CorrectionPricing) (modelName : String) :
    ℚ → List (String × ℚ) → Except BillingError ℚ
  | value, [] => .ok value
  | value, (key, ratio) :: ratios =>
    if ratio ≤ 0 then .error .correctionBlocked
    else
      match (if key = "video_input" then pricing.hasVideo else none).bind
          (env.tierPrice modelName pricing.resolution) with
      | some (price, base) => ratioProduct env pricing modelName (value * price / base) ratios
      | none => ratioProduct env pricing modelName (value * ratio) ratios

/-- `billingCorrectionCostBasis`: the supplier list price of a pricing. -/
def billingCorrectionCostBasis (env : CorrectionEnv) (pricing : CorrectionPricing) (modelName : String)
    (settled : Bool) : Except BillingError ℚ := do
  if pricing.modelRatio < 0 then .error .correctionBlocked
  else do
    let value ←
      if settled ∧ ¬ pricing.perCallBilling ∧ pricing.pricingMode = .tokens then
        if pricing.totalTokens ≤ 0 ∨ pricing.totalTokens > maxQuota then .error .correctionBlocked
        else .ok (pricing.totalTokens * pricing.modelRatio)
      else if pricing.pricingMode = .tokens then .ok (pricing.modelRatio * env.quotaPerUnit / 2)
      else if pricing.modelPrice < 0 then .error .correctionBlocked
      else .ok (pricing.modelPrice * env.quotaPerUnit)
    let value ← ratioProduct env pricing modelName value pricing.otherRatios
    if value < 0 ∨ value > maxWalletQuota then .error .correctionBlocked else .ok value

/-! ## Exact arithmetic

  The source prices in `float64`.  On amounts a `float64` holds exactly its repricing function is this
  one. -/

/-- `common.QuotaFromFloatStrict`: truncate toward zero, and refuse what does not fit an `int32`. -/
def quotaFromFloatStrict (q : ℚ) : Except BillingError ℤ :=
  if q > maxQuota ∨ q < -maxQuota - 1 then .error .quotaClamp
  else .ok (if 0 ≤ q then q.floor else -(-q).floor)

/-- `billingCorrectionPricingQuota`. -/
def billingCorrectionPricingQuota (quotaPerUnit : ℚ) (pricing : CorrectionPricing) (groupRatio : ℚ)
    (settled : Bool) : Except BillingError ℤ :=
  let multiplier := (pricing.otherRatios.map Prod.snd).foldl (· * ·) 1
  if groupRatio < 0 ∨ groupRatio > 10 ∨ pricing.otherRatios.any (fun r => r.2 ≤ 0) then
    .error .correctionBlocked
  else if settled ∧ ¬ pricing.perCallBilling ∧ pricing.modelRatio > 0 then
    if pricing.totalTokens ≤ 0 ∨ pricing.totalTokens > maxQuota then .error .correctionBlocked
    else quotaFromFloatStrict (pricing.totalTokens * pricing.modelRatio * groupRatio * multiplier)
  else
    let price := if pricing.pricingMode = .tokens then pricing.modelRatio / 2 else pricing.modelPrice
    if price < 0 then .error .correctionBlocked
    else do
      -- the base fee is truncated before the other ratios apply
      let base ← quotaFromFloatStrict (price * quotaPerUnit * groupRatio)
      quotaFromFloatStrict (base * multiplier)

/-- The environment of exact arithmetic: rates are the ones `texts` spells, `current` is the live
    price list. -/
def exactEnv (texts : List (String × ℚ)) (current : Task → CorrectionPricing × Option BillingError) :
    CorrectionEnv where
  usingClickHouse := false
  encodeFloat q := ((texts.find? fun t => t.2 = q).map Prod.fst).getD ""
  decodeFloat s := (texts.find? fun t => t.1 = s).map Prod.snd
  decimalString q := ((texts.find? fun t => t.2 = q).map Prod.fst).getD ""
  parseDecimal s := (texts.find? fun t => t.1 = s).map Prod.snd
  decimalLength d := 1 + d.padding
  pricingQuota := billingCorrectionPricingQuota 500000
  currentPricing := current
  quotaPerUnit := 500000
  tierPrice _ _ _ := none
  requestID key := key

end NovaMaas.Billing
