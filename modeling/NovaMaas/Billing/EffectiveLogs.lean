/-
  Usage logs with their corrections projected onto them: `model/billing_effective.go` and the sums of `model/log.go`.

  A log and the ledger entry it belongs to never change; what a correction made of a charge is read off the events
  behind the entry.  `billingEffectiveLogs` goes through the corrected entries page by page, finds the log of each one
  and returns it with the quota, the group and the rate it has today.  A sum over logs is the sum the log database
  computes, changed by the difference each corrected log makes.

  `LIKE` is the database's; `AccountingEnv` has what it makes of a pattern, or that the pattern is refused.
-/
import NovaMaas.Billing.Evidence
import NovaMaas.Lib.Paging

namespace NovaMaas.Billing

open Paging BillingCorrectionRow

/-! ## Filters -/

inductive AccountingError
  | invalidPattern
  | invalidBucketSize
  | ambiguousLog
  | sharedLog
  | billing (e : BillingError)
  deriving DecidableEq

structure AccountingEnv where
  /-- `common.UsingLogDatabase(common.DatabaseTypeClickHouse)`. -/
  usingClickHouse : Bool
  /-- What `LIKE` matches in the log database, and in the main one. -/
  logPattern : String → Option (String → Bool)
  costPattern : String → Option (String → Bool)

structure CostAccountingFilter where
  includeBillingCorrections : Bool := false
  startTimestamp : ℤ := 0
  endTimestamp : ℤ := 0
  userID : ℤ := 0
  userIDs : List ℤ := []
  username : String := ""
  tokenName : String := ""
  modelName : String := ""
  channelID : ℤ := 0
  channelIDs : List ℤ := []
  group : String := ""
  /-- `none` is `LogTypeUnknown`. -/
  logType : Option LogType := none
  requestID : String := ""
  upstreamRequestID : String := ""

/-- A text is a pattern if it has a `%`, and else it must be equal. -/
def textFilter (pattern : String → Option (String → Bool)) (value : String) : Except AccountingError (String → Bool) :=
  if value = "" then .ok fun _ => true
  else if '%' ∈ value.toList then
    match pattern value with
    | some matching => .ok matching
    | none => .error .invalidPattern
  else .ok fun text => text = value

/-- `applyLogStatisticsFilter`. -/
def applyLogStatisticsFilter (env : AccountingEnv) (filter : CostAccountingFilter) :
    Except AccountingError (Log → Bool) := do
  let username ← textFilter env.logPattern filter.username
  let modelName ← textFilter env.logPattern filter.modelName
  .ok fun log =>
    (filter.includeBillingCorrections || log.type ≠ .billingCorrection) &&
    (filter.startTimestamp = 0 || log.createdAt ≥ filter.startTimestamp) &&
    (filter.endTimestamp = 0 || log.createdAt ≤ filter.endTimestamp) &&
    (filter.userID = 0 || log.userID = filter.userID) &&
    username log.username &&
    (filter.tokenName = "" || log.tokenName = filter.tokenName) &&
    modelName log.modelName &&
    (filter.channelID = 0 || log.channelID = filter.channelID) &&
    (filter.channelIDs = [] || log.channelID ∈ filter.channelIDs) &&
    (filter.group = "" || log.group = filter.group) &&
    (filter.logType = none || some log.type = filter.logType) &&
    (filter.requestID = "" || log.requestID = filter.requestID) &&
    (filter.upstreamRequestID = "" || log.upstreamRequestID = filter.upstreamRequestID)

/-! ## Sums over the log table -/

structure LogStatistics where
  quota : ℤ := 0
  refundQuota : ℤ := 0
  revenueQuota : ℤ := 0
  records : ℤ := 0
  requests : ℤ := 0
  deriving DecidableEq

/-- The column `quota` of the statistics. -/
def chargedQuota (log : Log) : ℤ :=
  if log.type = .consume ∨ (log.type = .billingCorrection ∧ log.quota > 0) then log.quota else 0

/-- The column `refund_quota`. -/
def refundedQuota (log : Log) : ℤ :=
  if log.type = .refund then log.quota
  else if log.type = .billingCorrection ∧ log.quota < 0 then -log.quota
  else 0

/-- The types the statistics count. -/
def countedLog (log : Log) : Bool := log.type = .consume || log.type = .refund || log.type = .billingCorrection

/-- `sumLogFinancialStatistics`. -/
def sumLogFinancialStatistics (env : AccountingEnv) (logs : List Log) (filter : CostAccountingFilter) :
    Except AccountingError LogStatistics := do
  let wanted ← applyLogStatisticsFilter env filter
  let rows := logs.filter wanted
  .ok
    { quota := (rows.map chargedQuota).sum
      refundQuota := (rows.map refundedQuota).sum
      revenueQuota := (rows.map chargedQuota).sum - (rows.map refundedQuota).sum
      records := rows.countP countedLog
      requests := rows.countP fun log => log.type = .consume }

structure CostAccountingBucket where
  bucket : ℤ
  revenueQuota : ℤ := 0
  costQuota : ℤ := 0
  profitQuota : ℤ := 0
  records : ℤ := 0
  deriving DecidableEq

/-- The start of the bucket of a time. -/
def bucketOf (bucketSeconds offsetSeconds time : ℤ) : ℤ :=
  (time + offsetSeconds).tdiv bucketSeconds * bucketSeconds - offsetSeconds

/-- `GROUP BY bucket ORDER BY bucket`: the rows of each bucket there is a row of. -/
def groupBuckets {α : Type} (key : α → ℤ) (rows : List α) : List (ℤ × List α) :=
  (orderBy (fun k => k) (rows.map key).dedup).map fun k => (k, rows.filter fun row => key row = k)

/-- What a log brings in. -/
def logRevenue (log : Log) : ℤ :=
  match log.type with
  | .consume => log.quota
  | .billingCorrection => log.quota
  | .refund => -log.quota
  | .other => 0

/-- `sumLogAccountingBuckets`. -/
def sumLogAccountingBuckets (env : AccountingEnv) (logs : List Log) (filter : CostAccountingFilter)
    (bucketSeconds offsetSeconds : ℤ) : Except AccountingError (List CostAccountingBucket) := do
  if bucketSeconds ≤ 0 then .error .invalidBucketSize
  else do
    let wanted ← applyLogStatisticsFilter env filter
    .ok ((groupBuckets (fun log => bucketOf bucketSeconds offsetSeconds log.createdAt) (logs.filter wanted)).map
      fun group =>
        { bucket := group.1
          revenueQuota := (group.2.map logRevenue).sum
          records := group.2.length })

/-! ## The corrected logs -/

structure BillingEffectiveLog where
  original : Log
  /-- Signed, unlike the quota of a log. -/
  quota : ℤ
  group : String
  rate : String
  pricing : Option CorrectionPricing
  taskID : String
  deriving DecidableEq

structure BillingEffectiveLogKey where
  userID : ℤ
  id : ℤ := 0
  type : Option LogType := none
  createdAt : ℤ := 0
  requestID : String := ""
  modelName : String := ""
  tokenID : ℤ := 0
  channelID : ℤ := 0
  quota : ℤ := 0
  deriving DecidableEq

/-- `billingLogIdentity`: ids of ClickHouse are display values. -/
def billingLogIdentity (env : AccountingEnv) (log : Log) : BillingEffectiveLogKey :=
  if env.usingClickHouse = false ∧ log.id > 0 then { userID := log.userID, id := log.id }
  else
    { userID := log.userID
      type := some log.type
      createdAt := log.createdAt
      requestID := log.requestID
      modelName := log.modelName
      tokenID := log.tokenID
      channelID := log.channelID
      quota := log.quota }

/-- The window of `posted_at` around the filter's times. -/
def postedInside (filter : CostAccountingFilter) (entry : BillingEntry) : Bool :=
  (filter.startTimestamp ≤ 0 || entry.postedAt ≥ max 0 (filter.startTimestamp - 60)) &&
    (filter.endTimestamp = 0 ||
      entry.postedAt ≤ if filter.endTimestamp ≤ 2 ^ 63 - 1 - 60 then filter.endTimestamp + 60 else filter.endTimestamp)

def entryOfUsers (filter : CostAccountingFilter) (entry : BillingEntry) : Bool :=
  if filter.userID ≠ 0 then entry.userID = filter.userID
  else filter.userIDs = [] || entry.userID ∈ filter.userIDs

/-- The entries behind which there are corrections, as the filter limits them, in id order. -/
def correctedSources (db : DB) (filter : CostAccountingFilter) : List BillingEntry :=
  let corrected := (db.entries.rows.filter fun e =>
    e.sourceEntryID > 0 && e.kind = .rateCorrection && entryOfUsers filter e).map BillingEntry.sourceEntryID
  orderBy BillingEntry.id (db.entries.rows.filter fun e =>
    e.kind ≠ .rateCorrection && e.id ∈ corrected && entryOfUsers filter e && postedInside filter e &&
      (filter.modelName = "" || '%' ∈ filter.modelName.toList || e.modelName = filter.modelName))

/-- Is a log of a source found by its id, by its request, or by its task? -/
inductive SourceLink
  | log
  | request
  | task

def sourceLink (env : AccountingEnv) (source : BillingEntry) : SourceLink :=
  if source.sourceLogID > 0 ∧ env.usingClickHouse = false then .log
  else if source.kind ≠ .taskAdjustment ∧ source.requestID ≠ "" then .request
  else .task

/-- The condition of a source in the query of its page. -/
def sourceCondition (env : AccountingEnv) (source : BillingEntry) (log : Log) : Bool :=
  log.userID = source.userID &&
    match sourceLink env source with
    | .log => log.id = source.sourceLogID
    | .request => log.requestID = source.requestID
    | .task => log.modelName = source.modelName && log.tokenID = source.tokenID &&
        log.createdAt ≥ source.postedAt - 60 && log.createdAt ≤ source.postedAt + 60

/-- The logs the sources of a page may be about. -/
def pageLogs (env : AccountingEnv) (db : DB) (page : List BillingEntry) : List Log :=
  db.logs.rows.filter fun log => page.any fun source => sourceCondition env source log

/-- The events behind a source, in their order. -/
def eventsBehind (db : DB) (source : BillingEntry) : List BillingEntry :=
  orderBy BillingEntry.sequence
    (db.entries.rows.filter fun e => e.kind = .rateCorrection && e.sourceEntryID = source.id)

def eventRefused (source : BillingEntry) (quota : ℤ) (event : BillingEntry) : Bool :=
  event.userID ≠ source.userID || event.sequence ≤ source.sequence || event.modelName ≠ source.modelName ||
    event.tokenID ≠ source.tokenID || event.correctionID = "" || event.quota > maxWalletQuota ||
    event.quota < -maxWalletQuota || quota > maxWalletQuota - event.quota || quota < -maxWalletQuota - event.quota

/-- The quota behind the events.  A charge stays a charge, and a refund a refund. -/
def correctedQuota (source : BillingEntry) : ℤ → List BillingEntry → Except AccountingError ℤ
  | quota, [] => .ok quota
  | quota, event :: events =>
    if eventRefused source quota event then .error (.billing .evidenceIntegrity)
    else if (source.quota ≥ 0 ∧ quota + event.quota < 0) ∨ (source.quota < 0 ∧ quota + event.quota > 0) then
      .error (.billing .evidenceIntegrity)
    else correctedQuota source (quota + event.quota) events

/-- The amount and the type the log of a source has. -/
def sourceAmount (source : BillingEntry) : ℤ × LogType :=
  if source.quota < 0 ∨ source.kind = .refund ∨ source.kind = .historyRefund then (-source.quota, .refund)
  else (source.quota, .consume)

/-- Is a log the one of a source? -/
def isSourceLog (env : AccountingEnv) (source : BillingEntry) (log : Log) : Bool :=
  log.userID = source.userID && log.modelName = source.modelName && log.tokenID = source.tokenID &&
    log.type = (sourceAmount source).2 && log.quota = (sourceAmount source).1 &&
    match sourceLink env source with
    | .log => log.id = source.sourceLogID
    | .request => log.requestID = source.requestID
    | .task => source.requestID ≠ "" && log.createdAt ≥ source.postedAt - 60 && log.createdAt ≤ source.postedAt + 60 &&
        log.other.any fun metadata => metadata.taskID = source.requestID

/-- The rows of all batches. -/
def pricingRows (db : DB) : List BillingCorrectionRow := db.corrections.rows.flatMap BillingCorrection.rows

/-- The row of a batch for a source. -/
def pricingRow (db : DB) (batchID : String) (sourceEntryID : ℤ) : Option BillingCorrectionRow :=
  (pricingRows db).find? fun row => row.batchID = batchID && row.sourceEntryID = sourceEntryID

/-- A source with the page it was read on. -/
structure PagedSource where
  source : BillingEntry
  page : List BillingEntry

/-- One page of at most a hundred sources.  Two rows of one batch for one source break the evidence. -/
def sourcePage (db : DB) (filter : CostAccountingFilter) (cursor : ℤ) : Except AccountingError (List PagedSource) :=
  let sources := page BillingEntry.id (correctedSources db filter) cursor 100
  let rows := (pricingRows db).filter fun row => row.sourceEntryID ∈ sources.map BillingEntry.id
  if (rows.map fun row : BillingCorrectionRow => (row.batchID, row.sourceEntryID)).Nodup then
    .ok (sources.map fun source => ⟨source, sources⟩)
  else .error (.billing .evidenceIntegrity)

/-- The effective log of a source and its log. -/
def effectiveLog (db : DB) (source : BillingEntry) (original : Log) (quota : ℤ) (last : BillingEntry) :
    BillingEffectiveLog :=
  let row := pricingRow db last.correctionID source.id
  { original := original
    quota := quota
    group := last.billingGroup
    rate := last.billingRate
    pricing :=
      if "correction:reverse:".isPrefixOf last.eventKey then
        (pricingRow db ((row.map previousBatchID).getD "") source.id).bind
          targetPricing
      else row.bind targetPricing
    taskID := (row.map taskID).getD "" }

/-- What the loop carries: the identities it met, and the logs so far. -/
structure EffectiveLogs where
  used : List BillingEffectiveLogKey := []
  result : List BillingEffectiveLog := []

/-- One source of a page. -/
def addEffectiveLog (env : AccountingEnv) (db : DB) (wanted : Log → Bool) (st : EffectiveLogs) (s : PagedSource) :
    Except AccountingError EffectiveLogs :=
  match (eventsBehind db s.source).getLast? with
  | none => .ok st
  | some last =>
    if s.source.quota > maxWalletQuota ∨ s.source.quota < -maxWalletQuota then .error (.billing .evidenceIntegrity)
    else do
      let quota ← correctedQuota s.source s.source.quota (eventsBehind db s.source)
      match ((pageLogs env db s.page).filter fun log => log.type = LogType.consume || log.type = LogType.refund).filter
          (isSourceLog env s.source) with
      | [] => .ok st -- the log was removed, the ledger evidence stays
      | [original] =>
        let identity := billingLogIdentity env original
        if identity ∈ st.used then .error .sharedLog
        else if ((pageLogs env db s.page).filter wanted).any fun log => billingLogIdentity env log = identity then
          .ok ⟨identity :: st.used, st.result ++ [effectiveLog db s.source original quota last]⟩
        else .ok ⟨identity :: st.used, st.result⟩
      | _ => .error .ambiguousLog

/-- `billingEffectiveLogs`. -/
def billingEffectiveLogs (env : AccountingEnv) (db : DB) (filter : CostAccountingFilter) :
    Except AccountingError (List BillingEffectiveLog) :=
  if filter.logType ≠ none ∧ filter.logType ≠ some .consume ∧ filter.logType ≠ some .refund then .ok []
  else do
    let wanted ← applyLogStatisticsFilter env { filter with group := "", includeBillingCorrections := false }
    let st ← foldPages (fun _ cursor => sourcePage db filter cursor) (fun s => s.source.id)
      (fun ss => ss.length < 100) (addEffectiveLog env db wanted) (db.entries.rows.length + 1) 0 0 {}
    .ok st.result

/-! ## Sums with the corrections -/

/-- `billingProjectionQuotaTotal`, with the errors of the sums: an overflow is an error. -/
def accountingQuotaTotal (total delta : ℤ) : Except AccountingError ℤ :=
  if (delta > 0 ∧ total > 2 ^ 63 - 1 - delta) ∨ (delta < 0 ∧ total < -2 ^ 63 - delta) then
    .error (.billing .evidenceIntegrity)
  else .ok (total + delta)

/-- Does the filter's group take a log in, as it was and as it is? -/
def originalIncluded (filter : CostAccountingFilter) (a : BillingEffectiveLog) : Bool :=
  filter.group = "" || filter.group = a.original.group

def effectiveIncluded (filter : CostAccountingFilter) (a : BillingEffectiveLog) : Bool :=
  filter.group = "" || filter.group = a.group

/-- How many records a corrected log brings into the filter's group. -/
def recordsDelta (filter : CostAccountingFilter) (a : BillingEffectiveLog) : ℤ :=
  if originalIncluded filter a = effectiveIncluded filter a then 0 else if effectiveIncluded filter a then 1 else -1

/-- One corrected log in the statistics. -/
def projectStatistics (filter : CostAccountingFilter) (statistics : LogStatistics) (a : BillingEffectiveLog) :
    Except AccountingError LogStatistics := do
  let old := if originalIncluded filter a then a.original.quota else 0
  if a.original.type = .refund then
    let current := if effectiveIncluded filter a then -a.quota else 0
    let refund ← accountingQuotaTotal statistics.refundQuota (current - old)
    .ok { statistics with refundQuota := refund, records := statistics.records + recordsDelta filter a }
  else
    let current := if effectiveIncluded filter a then a.quota else 0
    let quota ← accountingQuotaTotal statistics.quota (current - old)
    .ok { statistics with
      quota := quota
      records := statistics.records + recordsDelta filter a
      requests := statistics.requests + if a.original.type = .consume then recordsDelta filter a else 0 }

/-- `sumBillingEffectiveLogStatistics`. -/
def sumBillingEffectiveLogStatistics (env : AccountingEnv) (db : DB) (filter : CostAccountingFilter) :
    Except AccountingError LogStatistics :=
  if filter.logType = some .billingCorrection then sumLogFinancialStatistics env db.logs.rows filter
  else do
    let statistics ← sumLogFinancialStatistics env db.logs.rows { filter with includeBillingCorrections := false }
    let adjustments ← billingEffectiveLogs env db filter
    if adjustments = [] then .ok statistics
    else do
      let statistics ← adjustments.foldlM (projectStatistics filter) statistics
      if statistics.quota < 0 ∨ statistics.refundQuota < 0 then .error (.billing .evidenceIntegrity)
      else .ok { statistics with revenueQuota := statistics.quota - statistics.refundQuota }

/-- Change the bucket that starts at `start`; it is added if it is not there. -/
def changeBucket (start : ℤ) (change : CostAccountingBucket → Except AccountingError CostAccountingBucket) :
    List CostAccountingBucket → Except AccountingError (List CostAccountingBucket)
  | [] => do
    let b ← change { bucket := start }
    .ok [b]
  | b :: buckets =>
    if b.bucket = start then do
      let b ← change b
      .ok (b :: buckets)
    else do
      let buckets ← changeBucket start change buckets
      .ok (b :: buckets)

/-- One corrected log in its bucket. -/
def projectBucket (filter : CostAccountingFilter) (a : BillingEffectiveLog) (b : CostAccountingBucket) :
    Except AccountingError CostAccountingBucket := do
  let old := if originalIncluded filter a then
    if a.original.type = .refund then -a.original.quota else a.original.quota else 0
  let current := if effectiveIncluded filter a then a.quota else 0
  let revenue ← accountingQuotaTotal b.revenueQuota (current - old)
  .ok { b with revenueQuota := revenue, records := b.records + recordsDelta filter a }

/-- `sumBillingEffectiveLogBuckets`. -/
def sumBillingEffectiveLogBuckets (env : AccountingEnv) (db : DB) (filter : CostAccountingFilter)
    (bucketSeconds offsetSeconds : ℤ) : Except AccountingError (List CostAccountingBucket) :=
  if filter.logType = some .billingCorrection then
    sumLogAccountingBuckets env db.logs.rows filter bucketSeconds offsetSeconds
  else do
    let buckets ← sumLogAccountingBuckets env db.logs.rows { filter with includeBillingCorrections := false }
      bucketSeconds offsetSeconds
    let adjustments ← billingEffectiveLogs env db filter
    let buckets ← adjustments.foldlM (fun buckets a =>
      changeBucket (bucketOf bucketSeconds offsetSeconds a.original.createdAt) (projectBucket filter a) buckets) buckets
    .ok (orderBy CostAccountingBucket.bucket buckets)

end NovaMaas.Billing
