/-
  The cost of a period in one sum and by buckets: `SumCostAccounting` and `SumCostAccountingBuckets` of
  `model/cost_accounting.go`, and the corrections projected onto them by `model/billing_effective_cost.go`.

  Both add up the cost snapshots the filter takes in.  A channel without a configured discount has usage without
  snapshots, and for it the customer's price stands in for the cost: what the logs of such channels bring in beyond
  what their snapshots do is added to revenue and cost.  The total asks first whether there are more logs than records
  the snapshots are linked to.  The buckets do not ask; they go through the buckets of the logs, and a bucket that has
  snapshots but no log they never see.
-/
import NovaMaas.Billing.EffectiveLogs

namespace NovaMaas.Billing

open CostAccountingBucket

/-! ## Snapshots -/

/-- `applyCostAccountingFilter`. -/
def applyCostAccountingFilter (env : AccountingEnv) (filter : CostAccountingFilter) :
    Except AccountingError (CostAccountingSnapshot → Bool) := do
  let username ← textFilter env.costPattern filter.username
  let modelName ← textFilter env.costPattern filter.modelName
  .ok fun s =>
    (filter.includeBillingCorrections || s.logType ≠ .billingCorrection) &&
    (filter.startTimestamp = 0 || s.occurredAt ≥ filter.startTimestamp) &&
    (filter.endTimestamp = 0 || s.occurredAt ≤ filter.endTimestamp) &&
    (filter.userID = 0 || s.userID = filter.userID) &&
    username s.username &&
    (filter.tokenName = "" || s.tokenName = filter.tokenName) &&
    modelName s.modelName &&
    (filter.channelID = 0 || s.channelID = filter.channelID) &&
    (filter.channelIDs = [] || s.channelID ∈ filter.channelIDs) &&
    (filter.group = "" || s.groupName = filter.group) &&
    (filter.logType = none || some s.logType = filter.logType) &&
    (filter.requestID = "" || s.requestID = filter.requestID) &&
    (filter.upstreamRequestID = "" || s.upstreamRequestID = filter.upstreamRequestID)

/-- The first snapshot is the evidence of a source log; a later one of the same log does not count. -/
def firstOfLog (db : DB) (s : CostAccountingSnapshot) : Bool :=
  s.sourceLogID ≤ 0 || !db.snapshots.rows.any fun earlier => earlier.id < s.id && earlier.sourceLogID = s.sourceLogID

/-- `costAccountingQuery`. -/
def costAccountingQuery (env : AccountingEnv) (db : DB) (filter : CostAccountingFilter) :
    Except AccountingError (List CostAccountingSnapshot) := do
  let wanted ← applyCostAccountingFilter env filter
  .ok ((db.snapshots.rows.filter (firstOfLog db)).filter wanted)

/-- The joined column `adjustment_quota`. -/
def adjustmentQuota (db : DB) (snapshotID : ℤ) : ℤ :=
  ((db.adjustments.rows.filter fun a => a.snapshotID = snapshotID).map CostAccountingAdjustment.deltaCostQuota).sum

def effectiveCostQuota (db : DB) (s : CostAccountingSnapshot) : ℤ := s.costQuota + adjustmentQuota db s.id

structure CostAccountingTotals where
  consumptionQuota : ℤ := 0
  refundQuota : ℤ := 0
  revenueQuota : ℤ := 0
  costQuota : ℤ := 0
  profitQuota : ℤ := 0
  records : ℤ := 0
  linkedRecords : ℤ := 0
  defaultedRecords : ℤ := 0
  defaultedCostQuota : ℤ := 0
  deriving DecidableEq

/-- The logs the snapshots are of, each once, and the snapshots of corrections. -/
def linkedRecords (rows : List CostAccountingSnapshot) : ℤ :=
  ((rows.map CostAccountingSnapshot.sourceLogID).filter (0 < ·)).dedup.length +
    rows.countP fun s => s.source = "correction"

/-- `sumCostAccountingSnapshots`. -/
def sumCostAccountingSnapshots (env : AccountingEnv) (db : DB) (filter : CostAccountingFilter) :
    Except AccountingError CostAccountingTotals := do
  let rows ← costAccountingQuery env db filter
  let revenue := (rows.map CostAccountingSnapshot.revenueQuota).sum
  let cost := (rows.map (effectiveCostQuota db)).sum
  .ok
    { consumptionQuota := (rows.map fun s =>
        if s.logType = .consume ∨ (s.logType = .billingCorrection ∧ s.revenueQuota > 0) then s.revenueQuota else 0).sum
      refundQuota := (rows.map fun s =>
        if s.logType = .refund ∨ (s.logType = .billingCorrection ∧ s.revenueQuota < 0) then -s.revenueQuota else 0).sum
      revenueQuota := revenue
      costQuota := cost
      profitQuota := revenue - cost
      records := rows.length
      linkedRecords := linkedRecords rows }

/-- `sumCostAccountingSnapshotBuckets`. -/
def sumCostAccountingSnapshotBuckets (env : AccountingEnv) (db : DB) (filter : CostAccountingFilter)
    (bucketSeconds offsetSeconds : ℤ) : Except AccountingError (List CostAccountingBucket) := do
  if bucketSeconds ≤ 0 then .error .invalidBucketSize
  else do
    let rows ← costAccountingQuery env db filter
    .ok ((groupBuckets (fun s => bucketOf bucketSeconds offsetSeconds s.occurredAt) rows).map fun group =>
      let revenue := (group.2.map CostAccountingSnapshot.revenueQuota).sum
      let cost := (group.2.map (effectiveCostQuota db)).sum
      { bucket := group.1
        revenueQuota := revenue
        costQuota := cost
        profitQuota := revenue - cost
        records := group.2.length })

/-- `unconfiguredCostChannelIDs`. -/
def unconfiguredCostChannelIDs (db : DB) (filter : CostAccountingFilter) : List ℤ :=
  (db.channels.rows.filter fun c =>
    c.costDiscount.toList.all (· = ' ') && (filter.channelID = 0 || c.id = filter.channelID) &&
      (filter.channelIDs = [] || c.id ∈ filter.channelIDs)).map Channel.id

/-! ## The costs of corrected logs -/

/-- `matchesLogAccountingSnapshot`. -/
def matchesLogAccountingSnapshot (log : Log) (view : CostAccountingSnapshot) : Bool :=
  view.logType = log.type && view.userID = log.userID && view.occurredAt = log.createdAt &&
    view.revenueQuota = (if log.type = .refund then -log.quota else log.quota) && view.channelID = log.channelID &&
    view.modelName = log.modelName && (view.requestID = "" || view.requestID = log.requestID)

/-- The snapshots that may be of a log: those of its id, and then those of its request. -/
def snapshotCandidates (views : List CostAccountingSnapshot) (log : Log) : List CostAccountingSnapshot :=
  (views.filter fun v => v.sourceLogID > 0 && v.sourceLogID = log.id) ++
    views.filter fun v => v.requestID ≠ "" && v.requestID = log.requestID

/-- The cost of each log, from a snapshot no log before it has taken. -/
def takeSnapshots (db : DB) (views : List CostAccountingSnapshot) : List ℤ → List Log → List (Option ℤ)
  | _, [] => []
  | used, log :: logs =>
    if countedLog log then
      match (snapshotCandidates views log).find? fun v => v.id ∉ used && matchesLogAccountingSnapshot log v with
      | some view => some (effectiveCostQuota db view) :: takeSnapshots db views (view.id :: used) logs
      | none => none :: takeSnapshots db views used logs
    else none :: takeSnapshots db views used logs

/-- `AttachLogAccounting`: the cost quota of each log. -/
def attachLogAccounting (env : AccountingEnv) (db : DB) (logs : List Log) : Except AccountingError (List (Option ℤ)) := do
  let logIDs := ((logs.filter countedLog).map Log.id).filter (0 < ·)
  let requestIDs := ((logs.filter countedLog).map Log.requestID).filter (· ≠ "")
  if logIDs = [] ∧ requestIDs = [] then .ok (logs.map fun _ => none)
  else do
    let rows ← costAccountingQuery env db { includeBillingCorrections := true }
    .ok (takeSnapshots db (rows.filter fun s => s.sourceLogID ∈ logIDs || s.requestID ∈ requestIDs) [] logs)

/-- A corrected log, the cost of a snapshot of it, and the cost it counts with. -/
structure CostChange where
  log : BillingEffectiveLog
  attached : Option ℤ
  cost : Option ℤ

/-- `billingEffectiveCostChanges`.  The costs are kept by identity, so the last one stands. -/
def billingEffectiveCostChanges (env : AccountingEnv) (db : DB) (filter : CostAccountingFilter) :
    Except AccountingError (List CostChange) := do
  let adjustments ← billingEffectiveLogs env db filter
  if adjustments = [] then .ok []
  else do
    let attached ← attachLogAccounting env db (adjustments.map BillingEffectiveLog.original)
    let fallback := unconfiguredCostChannelIDs db filter
    let costs := (adjustments.zip attached).filterMap fun p =>
      let identity := billingLogIdentity env p.1.original
      match p.2 with
      | some cost => some (identity, cost)
      | none =>
        if p.1.original.channelID ∈ fallback then
          some (identity, if p.1.original.type = .refund then -p.1.original.quota else p.1.original.quota)
        else none
    .ok ((adjustments.zip attached).map fun p =>
      { log := p.1
        attached := p.2
        cost := (costs.reverse.find? fun c => c.1 = billingLogIdentity env p.1.original).map Prod.snd })

/-- Does a corrected log leave or enter the filter's group with a cost? -/
def CostChange.moved (filter : CostAccountingFilter) (c : CostChange) : Option ℤ :=
  if originalIncluded filter c.log = effectiveIncluded filter c.log then none
  else c.cost.map fun cost => if effectiveIncluded filter c.log then cost else -cost

/-- One corrected log in the totals. -/
def moveTotals (filter : CostAccountingFilter) (totals : CostAccountingTotals) (c : CostChange) :
    Except AccountingError CostAccountingTotals :=
  match c.moved filter with
  | none => .ok totals
  | some cost => do
    let direction : ℤ := if effectiveIncluded filter c.log then 1 else -1
    let total ← accountingQuotaTotal totals.costQuota cost
    if c.attached ≠ none then
      .ok { totals with
        costQuota := total
        linkedRecords := totals.linkedRecords + direction
        records := totals.records + direction }
    else do
      let defaulted ← accountingQuotaTotal totals.defaultedCostQuota cost
      .ok { totals with
        costQuota := total
        defaultedRecords := totals.defaultedRecords + direction
        defaultedCostQuota := defaulted }

/-- `projectBillingCostTotals`. -/
def projectBillingCostTotals (env : AccountingEnv) (db : DB) (filter : CostAccountingFilter)
    (totals : CostAccountingTotals) : Except AccountingError CostAccountingTotals := do
  let changes ← billingEffectiveCostChanges env db filter
  if changes = [] then .ok totals
  else do
    let statistics ← sumBillingEffectiveLogStatistics env db filter
    let totals ← changes.foldlM (moveTotals filter) totals
    .ok { totals with
      consumptionQuota := statistics.quota
      refundQuota := statistics.refundQuota
      revenueQuota := statistics.revenueQuota
      profitQuota := statistics.revenueQuota - totals.costQuota }

/-- One corrected log in its bucket. -/
def moveBuckets (filter : CostAccountingFilter) (seconds offset : ℤ) (buckets : List CostAccountingBucket)
    (c : CostChange) : Except AccountingError (List CostAccountingBucket) :=
  match c.moved filter with
  | none => .ok buckets
  | some cost =>
    changeBucket (bucketOf seconds offset c.log.original.createdAt)
      (fun b => do
        let total ← accountingQuotaTotal b.costQuota cost
        .ok { b with costQuota := total }) buckets

def CostAccountingBucket.withProfit (b : CostAccountingBucket) : CostAccountingBucket :=
  { b with profitQuota := b.revenueQuota - b.costQuota }

/-- `projectBillingCostBuckets`. -/
def projectBillingCostBuckets (env : AccountingEnv) (db : DB) (filter : CostAccountingFilter)
    (buckets : List CostAccountingBucket) (seconds offset : ℤ) : Except AccountingError (List CostAccountingBucket) := do
  let changes ← billingEffectiveCostChanges env db filter
  if changes = [] then .ok buckets
  else do
    let buckets ← changes.foldlM (moveBuckets filter seconds offset) buckets
    let financial ← sumBillingEffectiveLogBuckets env db filter seconds offset
    let cleared := buckets.map fun b => { b with revenueQuota := 0, records := 0 }
    let buckets ← financial.foldlM (fun buckets current =>
      changeBucket current.bucket (fun b =>
        .ok { b with revenueQuota := current.revenueQuota, records := current.records }) buckets) cleared
    .ok (orderBy bucket (buckets.map withProfit))

/-! ## The two sums -/

/-- Corrections are only counted where they are asked for. -/
def accountingFilter (filter : CostAccountingFilter) : CostAccountingFilter :=
  if filter.logType = some .billingCorrection then filter else { filter with includeBillingCorrections := false }

/-- The same question for the channels without a discount. -/
def fallbackFilter (db : DB) (filter : CostAccountingFilter) : CostAccountingFilter :=
  { filter with channelID := 0, channelIDs := unconfiguredCostChannelIDs db filter }

/-- `SumCostAccounting` behind its filter. -/
def sumWithFallback (env : AccountingEnv) (db : DB) (filter : CostAccountingFilter) :
    Except AccountingError CostAccountingTotals := do
  let totals ← sumCostAccountingSnapshots env db filter
  if unconfiguredCostChannelIDs db filter = [] then .ok totals
  else do
    let statistics ← sumLogFinancialStatistics env db.logs.rows (fallbackFilter db filter)
    let snapshots ← sumCostAccountingSnapshots env db (fallbackFilter db filter)
    if statistics.records ≤ snapshots.linkedRecords then .ok totals
    else
      let defaulted := statistics.revenueQuota - snapshots.revenueQuota
      .ok { totals with
        defaultedRecords := statistics.records - snapshots.linkedRecords
        defaultedCostQuota := defaulted
        consumptionQuota := totals.consumptionQuota + (statistics.quota - snapshots.consumptionQuota)
        refundQuota := totals.refundQuota + (statistics.refundQuota - snapshots.refundQuota)
        revenueQuota := totals.revenueQuota + defaulted
        costQuota := totals.costQuota + defaulted
        profitQuota := totals.revenueQuota + defaulted - (totals.costQuota + defaulted) }

/-- `SumCostAccounting`. -/
def sumCostAccounting (env : AccountingEnv) (db : DB) (filter : CostAccountingFilter) :
    Except AccountingError CostAccountingTotals := do
  let totals ← sumWithFallback env db (accountingFilter filter)
  projectBillingCostTotals env db (accountingFilter filter) totals

/-- `snapshotRevenueByBucket`. -/
def revenueByBucket (buckets : List CostAccountingBucket) (bucket : ℤ) : ℤ :=
  ((buckets.find? fun b => b.bucket = bucket).map revenueQuota).getD 0

/-- A bucket of logs: what it brings in beyond its snapshots. -/
def addFallback (snapshots : List CostAccountingBucket) (buckets : List CostAccountingBucket)
    (logs : CostAccountingBucket) : Except AccountingError (List CostAccountingBucket) :=
  let fallbackCost := logs.revenueQuota - revenueByBucket snapshots logs.bucket
  if fallbackCost = 0 then .ok buckets
  else changeBucket logs.bucket (fun b =>
    .ok { b with revenueQuota := b.revenueQuota + fallbackCost, costQuota := b.costQuota + fallbackCost }) buckets

/-- `SumCostAccountingBuckets` behind its filter. -/
def bucketsWithFallback (env : AccountingEnv) (db : DB) (filter : CostAccountingFilter)
    (bucketSeconds offsetSeconds : ℤ) : Except AccountingError (List CostAccountingBucket) := do
  let buckets ← sumCostAccountingSnapshotBuckets env db filter bucketSeconds offsetSeconds
  if unconfiguredCostChannelIDs db filter = [] then .ok buckets
  else do
    let logBuckets ← sumLogAccountingBuckets env db.logs.rows (fallbackFilter db filter) bucketSeconds offsetSeconds
    let snapshotBuckets ←
      sumCostAccountingSnapshotBuckets env db (fallbackFilter db filter) bucketSeconds offsetSeconds
    let buckets ← logBuckets.foldlM (addFallback snapshotBuckets) buckets
    .ok (orderBy bucket (buckets.map withProfit))

/-- `SumCostAccountingBuckets`. -/
def sumCostAccountingBuckets (env : AccountingEnv) (db : DB) (filter : CostAccountingFilter)
    (bucketSeconds offsetSeconds : ℤ) : Except AccountingError (List CostAccountingBucket) := do
  let buckets ← bucketsWithFallback env db (accountingFilter filter) bucketSeconds offsetSeconds
  projectBillingCostBuckets env db (accountingFilter filter) buckets bucketSeconds offsetSeconds

end NovaMaas.Billing
