/-
  When the cost totals are the sums of the cost buckets.

  Both calls start from the same snapshots and end with the same corrections, so what they differ in is the fallback
  for channels without a discount (`fallbackTotal` against `fallbackBuckets`).  Everything else is grouping: a sum over
  the rows is the sum over the buckets (`sum_groupBuckets`), and a change of one bucket is a change of the sum
  (`changeBucket_total`).

  The total adds the difference between logs and snapshots if there are more logs than linked records, and nothing
  otherwise.  The buckets always add it, but only where there are logs.  `FallbacksMeet` is when the two are the same.
-/
import NovaMaas.Billing.CostTotals
import NovaMaas.Lib.Tally

open List Except

namespace NovaMaas.Billing

open CostAccountingBucket

/-! ## Groups -/

section Groups

variable {α : Type} {key : α → ℤ} {f : α → ℤ}

/-- The sums of some groups are the sum of their rows. -/
theorem sum_of_keys (key f : α → ℤ) (rows : List α) : ∀ {ks : List ℤ}, ks.Nodup →
    (ks.map fun k => ((rows.filter fun row => key row = k).map f).sum).sum =
      ((rows.filter fun row => key row ∈ ks).map f).sum := by
  intro ks
  induction ks with
  | nil =>
    intro _
    simp
  | cons k ks ih =>
    intro hnodup
    rw [nodup_cons] at hnodup
    rw [map_cons, sum_cons, ih hnodup.2, List.sum_map_filter, List.sum_map_filter, List.sum_map_filter, ← sum_map_add]
    refine congrArg sum (map_congr_left fun row _ => ?_)
    by_cases hk : key row = k
    · have hnot : ¬ key row ∈ ks := hk ▸ hnodup.1
      simp [hk, hk ▸ hnot]
    · simp [hk]

theorem sum_map_sub (f g : α → ℤ) (l : List α) : (l.map fun a => f a - g a).sum = (l.map f).sum - (l.map g).sum := by
  induction l with
  | nil => rfl
  | cons _ _ ih =>
    simp only [map_cons, sum_cons, ih]
    omega

variable (rows : List α)

theorem groupBuckets_keys : (groupBuckets key rows).map Prod.fst = orderBy (fun k => k) (rows.map key).dedup := by
  unfold groupBuckets
  rw [map_map]
  exact map_id _

theorem groupBuckets_nodup : ((groupBuckets key rows).map Prod.fst).Nodup := by
  rw [groupBuckets_keys]
  exact (orderBy_perm _ _).nodup_iff.2 (nodup_dedup _)

theorem mem_groupBuckets_keys {rows : List α} {k : ℤ} :
    k ∈ (groupBuckets key rows).map Prod.fst ↔ ∃ row ∈ rows, key row = k := by
  rw [groupBuckets_keys, mem_orderBy, mem_dedup, mem_map]

/-- A sum over the rows is the sum over the groups. -/
theorem sum_groupBuckets : ((groupBuckets key rows).map fun group => (group.2.map f).sum).sum = (rows.map f).sum := by
  unfold groupBuckets
  rw [map_map]
  show ((orderBy (fun k => k) (rows.map key).dedup).map
    fun k => ((rows.filter fun row => key row = k).map f).sum).sum = _
  rw [sum_orderBy, sum_of_keys key f rows (nodup_dedup _)]
  refine congrArg sum (congrArg _ (filter_eq_self.2 fun row hrow => ?_))
  exact decide_eq_true (mem_dedup.2 (mem_map_of_mem hrow))

end Groups

/-! ## Buckets -/

/-- What the buckets add up to. -/
def bucketSum (field : CostAccountingBucket → ℤ) (buckets : List CostAccountingBucket) : ℤ := (buckets.map field).sum

section Buckets

variable {field : CostAccountingBucket → ℤ} {start d : ℤ} {buckets buckets' : List CostAccountingBucket}
  {change : CostAccountingBucket → Except AccountingError CostAccountingBucket}

theorem bucketSum_orderBy (buckets : List CostAccountingBucket) :
    bucketSum field (orderBy bucket buckets) = bucketSum field buckets :=
  sum_orderBy _ _ _

/-- What changing a bucket adds to a field, it adds to the sum. -/
theorem changeBucket_total (hzero : field { bucket := start } = 0)
    (hchange : ∀ b ∈ { bucket := start } :: buckets, b.bucket = start → ∀ b', change b = .ok b' →
      field b' = field b + d)
    (h : changeBucket start change buckets = .ok buckets') : bucketSum field buckets' = bucketSum field buckets + d := by
  induction buckets generalizing buckets' with
  | nil =>
    rw [changeBucket] at h
    obtain ⟨b', hb', h⟩ := bind_eq_ok.1 h
    cases h
    have hfield := hchange _ mem_cons_self rfl b' hb'
    simp only [bucketSum, map_cons, map_nil, sum_cons, sum_nil, hfield, hzero]
    omega
  | cons b _ ih =>
    rw [changeBucket] at h
    split_ifs at h with hb
    · obtain ⟨b', hb', h⟩ := bind_eq_ok.1 h
      cases h
      have hfield := hchange b (mem_cons_of_mem _ mem_cons_self) hb b' hb'
      simp only [bucketSum, map_cons, sum_cons, hfield]
      omega
    · obtain ⟨rest, hrest, h⟩ := bind_eq_ok.1 h
      cases h
      have hsum := ih (fun b' hb' => hchange b' (by
        rcases mem_cons.1 hb' with rfl | hmem
        · exact mem_cons_self
        · exact mem_cons_of_mem _ (mem_cons_of_mem _ hmem))) hrest
      simp only [bucketSum, map_cons, sum_cons] at hsum ⊢
      omega

theorem changeBucket_keys (hbucket : ∀ b b', change b = .ok b' → b'.bucket = b.bucket)
    (h : changeBucket start change buckets = .ok buckets') :
    buckets'.map bucket = if start ∈ buckets.map bucket then buckets.map bucket
      else buckets.map bucket ++ [start] := by
  induction buckets generalizing buckets' with
  | nil =>
    rw [changeBucket] at h
    obtain ⟨b', hb', h⟩ := bind_eq_ok.1 h
    cases h
    rw [map_singleton, hbucket _ _ hb']
    rfl
  | cons b buckets ih =>
    rw [changeBucket] at h
    split_ifs at h with hb
    · obtain ⟨b', hb', h⟩ := bind_eq_ok.1 h
      cases h
      rw [if_pos (hb ▸ mem_cons_self), map_cons, map_cons, hbucket _ _ hb']
    · obtain ⟨rest, hrest, h⟩ := bind_eq_ok.1 h
      cases h
      rw [map_cons, ih hrest, map_cons]
      by_cases hmem : start ∈ buckets.map bucket
      · rw [if_pos hmem, if_pos (mem_cons_of_mem _ hmem)]
      · have hnot : start ∉ b.bucket :: buckets.map bucket := by
          rintro hstart
          rcases mem_cons.1 hstart with heq | hstart
          · exact hb heq.symm
          · exact hmem hstart
        rw [if_neg hmem, if_neg hnot, cons_append]

theorem changeBucket_nodup (hbucket : ∀ b b', change b = .ok b' → b'.bucket = b.bucket)
    (h : changeBucket start change buckets = .ok buckets')
    (hnodup : (buckets.map bucket).Nodup) :
    (buckets'.map bucket).Nodup := by
  rw [changeBucket_keys hbucket h]
  split_ifs with hmem
  · exact hnodup
  · rw [nodup_append_comm, singleton_append, nodup_cons]
    exact ⟨hmem, hnodup⟩

/-- The other buckets are the ones that were there. -/
theorem mem_changeBucket (hbucket : ∀ b b', change b = .ok b' → b'.bucket = b.bucket)
    (h : changeBucket start change buckets = .ok buckets') {b : CostAccountingBucket} (hb : b ∈ buckets') :
    b ∈ buckets ∨ b.bucket = start := by
  induction buckets generalizing buckets' with
  | nil =>
    rw [changeBucket] at h
    obtain ⟨b', hb', h⟩ := bind_eq_ok.1 h
    cases h
    rw [mem_singleton.1 hb]
    exact Or.inr (hbucket _ _ hb')
  | cons _ _ ih =>
    rw [changeBucket] at h
    split_ifs at h with hx
    · obtain ⟨x', hx', h⟩ := bind_eq_ok.1 h
      cases h
      rcases mem_cons.1 hb with rfl | hmem
      · exact Or.inr ((hbucket _ _ hx').trans hx)
      · exact Or.inl (mem_cons_of_mem _ hmem)
    · obtain ⟨rest, hrest, h⟩ := bind_eq_ok.1 h
      cases h
      rcases mem_cons.1 hb with rfl | hmem
      · exact Or.inl mem_cons_self
      · exact (ih hrest hmem).imp_left (mem_cons_of_mem _)

end Buckets

/-! ## The revenue of the logs -/

variable {env : AccountingEnv} {db : DB} {filter : CostAccountingFilter} {seconds offset : ℤ}

theorem revenue_of_charges (log : Log) : chargedQuota log - refundedQuota log = logRevenue log := by
  unfold chargedQuota refundedQuota logRevenue
  cases htype : log.type with
  | consume => simp
  | refund => simp
  | billingCorrection =>
    by_cases hpos : 0 < log.quota
    · have hneg : ¬ log.quota < 0 := by omega
      simp [hpos, hneg]
    · by_cases hneg : log.quota < 0
      · simp [hpos, hneg]
      · have hzero : log.quota = 0 := by omega
        simp [hzero]
  | other => simp

theorem sum_revenue (rows : List Log) :
    (rows.map chargedQuota).sum - (rows.map refundedQuota).sum = (rows.map logRevenue).sum := by
  induction rows with
  | nil => rfl
  | cons log =>
    have hlog := revenue_of_charges log
    simp only [map_cons, sum_cons]
    omega

variable {statistics : LogStatistics}

variable {buckets : List CostAccountingBucket}

/-- The buckets of the logs add up to the statistics. -/
theorem logBuckets_sum {logs : List Log} (hstatistics : sumLogFinancialStatistics env logs filter = .ok statistics)
    (hbuckets : sumLogAccountingBuckets env logs filter seconds offset = .ok buckets) :
    statistics.quota - statistics.refundQuota = bucketSum revenueQuota buckets ∧
      statistics.revenueQuota = statistics.quota - statistics.refundQuota ∧
      (buckets.map bucket).Nodup := by
  obtain ⟨wanted, hwanted, hstatistics⟩ := bind_eq_ok.1 hstatistics
  unfold sumLogAccountingBuckets at hbuckets
  split_ifs at hbuckets
  obtain ⟨wanted', hwanted', hbuckets⟩ := bind_eq_ok.1 hbuckets
  rw [hwanted] at hwanted'
  cases hwanted'
  cases hstatistics
  cases hbuckets
  refine ⟨?_, rfl, ?_⟩
  · show _ = (((groupBuckets _ _).map _).map _).sum
    rw [map_map]
    exact (sum_revenue _).trans (sum_groupBuckets _).symm
  · rw [map_map]
    exact groupBuckets_nodup _

theorem projection_ok {total delta total' : ℤ} (h : accountingQuotaTotal total delta = .ok total') :
    total' = total + delta := by
  unfold accountingQuotaTotal at h
  split_ifs at h
  cases h
  rfl

/-- The difference a corrected log makes to the revenue. -/
def revenueDelta (filter : CostAccountingFilter) (a : BillingEffectiveLog) : ℤ :=
  (if effectiveIncluded filter a then a.quota else 0) -
    if originalIncluded filter a then if a.original.type = .refund then -a.original.quota else a.original.quota else 0

theorem projectStatistics_revenue {statistics statistics' : LogStatistics} {a : BillingEffectiveLog}
    (h : projectStatistics filter statistics a = .ok statistics') :
    statistics'.quota - statistics'.refundQuota =
      statistics.quota - statistics.refundQuota + revenueDelta filter a := by
  unfold revenueDelta
  by_cases hrefund : a.original.type = .refund
  · simp only [projectStatistics, if_pos hrefund] at h
    obtain ⟨refund, hrefundQuota, h⟩ := bind_eq_ok.1 h
    cases h
    have hsum := projection_ok hrefundQuota
    show statistics.quota - refund = _
    rw [hsum, if_pos hrefund]
    split_ifs <;> omega
  · simp only [projectStatistics, if_neg hrefund] at h
    obtain ⟨quota, hquota, h⟩ := bind_eq_ok.1 h
    cases h
    have hsum := projection_ok hquota
    show quota - statistics.refundQuota = _
    rw [hsum, if_neg hrefund]
    omega

theorem projectBucket_ok {a : BillingEffectiveLog} {b b' : CostAccountingBucket}
    (h : projectBucket filter a b = .ok b') :
    b'.bucket = b.bucket ∧ b'.revenueQuota = b.revenueQuota + revenueDelta filter a := by
  obtain ⟨revenue, hrevenue, h⟩ := bind_eq_ok.1 h
  cases h
  exact ⟨rfl, projection_ok hrevenue⟩

/-- Corrected or not, the buckets add up to the statistics. -/
theorem effectiveRevenue_agrees (hstatistics : sumBillingEffectiveLogStatistics env db filter = .ok statistics)
    (hbuckets : sumBillingEffectiveLogBuckets env db filter seconds offset = .ok buckets) :
    statistics.revenueQuota = bucketSum revenueQuota buckets ∧ (buckets.map bucket).Nodup := by
  unfold sumBillingEffectiveLogStatistics at hstatistics
  unfold sumBillingEffectiveLogBuckets at hbuckets
  split_ifs at hstatistics hbuckets with hcorrection
  · obtain ⟨hsum, hrevenue, hnodup⟩ := logBuckets_sum hstatistics hbuckets
    exact ⟨hrevenue.trans hsum, hnodup⟩
  · obtain ⟨base, hbase, hrest⟩ := bind_eq_ok.1 hstatistics
    obtain ⟨adjustments, hadjustments, hprojection⟩ := bind_eq_ok.1 hrest
    obtain ⟨baseBuckets, hbaseBuckets, hrest'⟩ := bind_eq_ok.1 hbuckets
    obtain ⟨adjustments', hadjustments', hloop⟩ := bind_eq_ok.1 hrest'
    obtain rfl : adjustments = adjustments' := ok.inj (hadjustments.symm.trans hadjustments')
    obtain ⟨projected, hprojected, hsorted⟩ := bind_eq_ok.1 hloop
    cases hsorted
    obtain ⟨hsum, hrevenue, hnodup⟩ := logBuckets_sum hbase hbaseBuckets
    have htotal := foldlM_total (t := bucketSum revenueQuota) (d := revenueDelta filter)
      (fun buckets a buckets' hstep => changeBucket_total rfl
        (fun b _ _ b' hb' => (projectBucket_ok hb').2) hstep) hprojected
    have hkeys : (projected.map bucket).Nodup :=
      foldlM_keeps (I := fun buckets => (buckets.map bucket).Nodup)
        (fun buckets a buckets' hstep hnodup => changeBucket_nodup (fun b b' hb' => (projectBucket_ok hb').1) hstep hnodup)
        hprojected hnodup
    refine ⟨?_, ?_⟩
    · rw [bucketSum_orderBy, htotal, ← hsum]
      split_ifs at hprojection with hempty
      · cases hprojection
        subst hempty
        rw [hrevenue, map_nil, sum_nil, Int.add_zero]
      · obtain ⟨final, hfinal, hchecked⟩ := bind_eq_ok.1 hprojection
        split_ifs at hchecked
        cases hchecked
        exact foldlM_total (t := fun st : LogStatistics => st.quota - st.refundQuota)
          (fun st a st' hstep => projectStatistics_revenue hstep) hfinal
    · exact ((orderBy_perm _ _).map _).nodup_iff.2 hkeys

/-! ## Snapshots and the fallback -/

/-- The rows of a filter, and none if it is refused. -/
def logRows (env : AccountingEnv) (db : DB) (filter : CostAccountingFilter) : List Log :=
  match applyLogStatisticsFilter env filter with
  | .ok wanted => db.logs.rows.filter wanted
  | .error _ => []

def costRows (env : AccountingEnv) (db : DB) (filter : CostAccountingFilter) : List CostAccountingSnapshot :=
  match costAccountingQuery env db filter with
  | .ok rows => rows
  | .error _ => []

variable {totals : CostAccountingTotals}

theorem snapshots_ok (h : sumCostAccountingSnapshots env db filter = .ok totals) :
    totals.revenueQuota = ((costRows env db filter).map CostAccountingSnapshot.revenueQuota).sum ∧
      totals.costQuota = ((costRows env db filter).map (effectiveCostQuota db)).sum ∧
      totals.profitQuota = totals.revenueQuota - totals.costQuota ∧
      totals.linkedRecords = linkedRecords (costRows env db filter) := by
  obtain ⟨rows, hrows, h⟩ := bind_eq_ok.1 h
  cases h
  unfold costRows
  rw [hrows]
  exact ⟨rfl, rfl, rfl, rfl⟩

theorem statistics_ok (h : sumLogFinancialStatistics env db.logs.rows filter = .ok statistics) :
    statistics.revenueQuota = ((logRows env db filter).map logRevenue).sum ∧
      statistics.records = (logRows env db filter).countP countedLog := by
  obtain ⟨wanted, hwanted, h⟩ := bind_eq_ok.1 h
  cases h
  unfold logRows
  rw [hwanted]
  exact ⟨sum_revenue _, rfl⟩

/-- The bucket of a snapshot, and of a log. -/
def snapshotBucket (seconds offset : ℤ) (s : CostAccountingSnapshot) : ℤ := bucketOf seconds offset s.occurredAt

def logBucket (seconds offset : ℤ) (log : Log) : ℤ := bucketOf seconds offset log.createdAt

theorem snapshotBuckets_ok (h : sumCostAccountingSnapshotBuckets env db filter seconds offset = .ok buckets) :
    bucketSum revenueQuota buckets = ((costRows env db filter).map CostAccountingSnapshot.revenueQuota).sum ∧
      bucketSum costQuota buckets = ((costRows env db filter).map (effectiveCostQuota db)).sum ∧
      bucketSum profitQuota buckets = bucketSum revenueQuota buckets - bucketSum costQuota buckets ∧
      ∀ k, revenueByBucket buckets k =
        (((costRows env db filter).filter fun s => snapshotBucket seconds offset s = k).map
          CostAccountingSnapshot.revenueQuota).sum := by
  unfold sumCostAccountingSnapshotBuckets at h
  split_ifs at h
  obtain ⟨rows, hrows, h⟩ := bind_eq_ok.1 h
  cases h
  have hcost : costRows env db filter = rows := by
    unfold costRows
    rw [hrows]
  rw [hcost]
  refine ⟨?_, ?_, ?_, ?_⟩
  · unfold bucketSum
    rw [map_map]
    exact sum_groupBuckets _
  · unfold bucketSum
    rw [map_map]
    exact sum_groupBuckets _
  · unfold bucketSum
    rw [map_map, map_map, map_map]
    generalize groupBuckets (fun s => bucketOf seconds offset s.occurredAt) rows = groups
    induction groups with
    | nil => rfl
    | cons group _ ih =>
      rw [map_cons, map_cons, map_cons, sum_cons, sum_cons, sum_cons, ih]
      show (group.2.map _).sum - (group.2.map _).sum + _ = (group.2.map _).sum + _ - ((group.2.map _).sum + _)
      omega
  · intro k
    unfold revenueByBucket
    cases hfind : ((groupBuckets (fun s => bucketOf seconds offset s.occurredAt) rows).map fun group =>
      ({ bucket := group.1
         revenueQuota := (group.2.map CostAccountingSnapshot.revenueQuota).sum
         costQuota := (group.2.map (effectiveCostQuota db)).sum
         profitQuota := (group.2.map CostAccountingSnapshot.revenueQuota).sum -
           (group.2.map (effectiveCostQuota db)).sum
         records := group.2.length } : CostAccountingBucket)).find? fun b => b.bucket = k with
    | none =>
      have hempty : (rows.filter fun s => snapshotBucket seconds offset s = k) = [] := by
        refine filter_eq_nil_iff.2 fun s hs heq => ?_
        obtain ⟨group, hgroup, hkey⟩ :=
          mem_map.1 (mem_groupBuckets_keys.2 ⟨s, hs, of_decide_eq_true heq⟩)
        have hnot := find?_eq_none.1 hfind _ (mem_map_of_mem hgroup)
        exact hnot (decide_eq_true hkey)
      rw [hempty]
      rfl
    | some b =>
      obtain ⟨group, hgroup, rfl⟩ := mem_map.1 (mem_of_find?_eq_some hfind)
      have hkey : group.1 = k := by simpa using find?_some hfind
      obtain ⟨k', -, rfl⟩ := mem_map.1 hgroup
      subst hkey
      rfl

/-! ## The fallback -/

/-- The snapshots in buckets that have a log, and those in buckets without any. -/
def metByLogs (env : AccountingEnv) (db : DB) (filter : CostAccountingFilter) (seconds offset : ℤ)
    (s : CostAccountingSnapshot) : Bool :=
  snapshotBucket seconds offset s ∈ (logRows env db filter).map (logBucket seconds offset)

/-- What the total adds for the channels without a discount. -/
def fallbackTotal (env : AccountingEnv) (db : DB) (filter : CostAccountingFilter) : ℤ :=
  if ((logRows env db filter).countP countedLog : ℤ) ≤ linkedRecords (costRows env db filter) then 0
  else ((logRows env db filter).map logRevenue).sum -
    ((costRows env db filter).map CostAccountingSnapshot.revenueQuota).sum

/-- What the buckets add for them. -/
def fallbackBuckets (env : AccountingEnv) (db : DB) (filter : CostAccountingFilter) (seconds offset : ℤ) : ℤ :=
  ((logRows env db filter).map logRevenue).sum -
    (((costRows env db filter).filter (metByLogs env db filter seconds offset)).map
      CostAccountingSnapshot.revenueQuota).sum

theorem logBuckets_ok (h : sumLogAccountingBuckets env db.logs.rows filter seconds offset = .ok buckets) :
    bucketSum revenueQuota buckets = ((logRows env db filter).map logRevenue).sum ∧ (buckets.map bucket).Nodup ∧
      ∀ k, k ∈ buckets.map bucket ↔ k ∈ (logRows env db filter).map (logBucket seconds offset) := by
  unfold sumLogAccountingBuckets at h
  split_ifs at h
  obtain ⟨wanted, hwanted, h⟩ := bind_eq_ok.1 h
  cases h
  have hrows : logRows env db filter = db.logs.rows.filter wanted := by
    unfold logRows
    rw [hwanted]
  rw [hrows]
  refine ⟨?_, ?_, ?_⟩
  · unfold bucketSum
    rw [map_map]
    exact sum_groupBuckets _
  · rw [map_map]
    exact groupBuckets_nodup _
  · intro k
    rw [map_map]
    exact mem_groupBuckets_keys.trans mem_map.symm

variable {buckets' : List CostAccountingBucket}

theorem addFallback_total {field : CostAccountingBucket → ℤ} {snapshots : List CostAccountingBucket}
    {logs : CostAccountingBucket}
    (hfield : field = revenueQuota ∨ field = costQuota)
    (h : addFallback snapshots buckets logs = .ok buckets') :
    bucketSum field buckets' =
      bucketSum field buckets + (logs.revenueQuota - revenueByBucket snapshots logs.bucket) := by
  unfold addFallback at h
  by_cases hzero : logs.revenueQuota - revenueByBucket snapshots logs.bucket = 0
  · rw [if_pos hzero] at h
    cases h
    omega
  · rw [if_neg hzero] at h
    rcases hfield with rfl | rfl
    · exact changeBucket_total rfl (fun b _ _ b' hb' => by cases hb'; rfl) h
    · exact changeBucket_total rfl (fun b _ _ b' hb' => by cases hb'; rfl) h

theorem bucketSum_withProfit (buckets : List CostAccountingBucket) : bucketSum revenueQuota (buckets.map withProfit) =
        bucketSum revenueQuota buckets ∧
      bucketSum costQuota (buckets.map withProfit) = bucketSum costQuota buckets ∧
      bucketSum profitQuota (buckets.map withProfit) =
        bucketSum revenueQuota buckets - bucketSum costQuota buckets := by
  unfold bucketSum
  rw [map_map, map_map, map_map]
  refine ⟨rfl, rfl, ?_⟩
  induction buckets with
  | nil => rfl
  | cons b _ ih =>
    simp only [map_cons, sum_cons]
    rw [ih]
    show b.revenueQuota - b.costQuota + _ = _
    omega

/-- What two sums have to do with each other when the total is short of the buckets by `d`. -/
structure ShortBy (d : ℤ) (totals : CostAccountingTotals) (buckets : List CostAccountingBucket) : Prop where
  revenue : bucketSum revenueQuota buckets = totals.revenueQuota + d
  cost : bucketSum costQuota buckets = totals.costQuota + d
  profit : totals.profitQuota = totals.revenueQuota - totals.costQuota
  profits : bucketSum profitQuota buckets = bucketSum revenueQuota buckets - bucketSum costQuota buckets

/-- How far the buckets are ahead of the total behind the fallback. -/
def fallbackGap (env : AccountingEnv) (db : DB) (filter : CostAccountingFilter) (seconds offset : ℤ) : ℤ :=
  if unconfiguredCostChannelIDs db filter = [] then 0
  else fallbackBuckets env db (fallbackFilter db filter) seconds offset - fallbackTotal env db (fallbackFilter db filter)

theorem fallback_shortBy (htotals : sumWithFallback env db filter = .ok totals)
    (hbuckets : bucketsWithFallback env db filter seconds offset = .ok buckets) :
    ShortBy (fallbackGap env db filter seconds offset) totals buckets := by
  obtain ⟨base, hbase, htotals⟩ := bind_eq_ok.1 htotals
  obtain ⟨baseBuckets, hbaseBuckets, hbuckets⟩ := bind_eq_ok.1 hbuckets
  obtain ⟨hrevenue, hcost, hprofit, -⟩ := snapshots_ok hbase
  obtain ⟨hrevenues, hcosts, hprofits, -⟩ := snapshotBuckets_ok hbaseBuckets
  unfold fallbackGap
  by_cases hconfigured : unconfiguredCostChannelIDs db filter = []
  · rw [if_pos hconfigured] at htotals hbuckets ⊢
    cases htotals
    cases hbuckets
    exact ⟨by omega, by omega, hprofit, hprofits⟩
  · rw [if_neg hconfigured] at htotals hbuckets ⊢
    obtain ⟨statistics, hstatistics, htotals⟩ := bind_eq_ok.1 htotals
    obtain ⟨snapshots, hsnapshots, htotals⟩ := bind_eq_ok.1 htotals
    obtain ⟨logs, hlogs, hbuckets⟩ := bind_eq_ok.1 hbuckets
    obtain ⟨snapshotBuckets, hsnapshotBuckets, hbuckets⟩ := bind_eq_ok.1 hbuckets
    obtain ⟨filled, hfilled, hbuckets⟩ := bind_eq_ok.1 hbuckets
    cases hbuckets
    obtain ⟨hlogRevenue, hrecords⟩ := statistics_ok hstatistics
    obtain ⟨hsnapshotRevenue, -, -, hlinked⟩ := snapshots_ok hsnapshots
    obtain ⟨-, -, -, hmet⟩ := snapshotBuckets_ok hsnapshotBuckets
    obtain ⟨hlogSum, hlogNodup, hlogKeys⟩ := logBuckets_ok hlogs
    -- what the loop over the buckets of the logs adds
    have hloop : (logs.map fun b => b.revenueQuota - revenueByBucket snapshotBuckets b.bucket).sum =
        fallbackBuckets env db (fallbackFilter db filter) seconds offset := by
      unfold fallbackBuckets
      rw [sum_map_sub, ← hlogSum]
      refine congrArg _ ?_
      have hkeys := sum_of_keys (snapshotBucket seconds offset) CostAccountingSnapshot.revenueQuota
        (costRows env db (fallbackFilter db filter)) hlogNodup
      rw [map_map] at hkeys
      refine (congrArg sum (map_congr_left fun b _ => hmet b.bucket)).trans (hkeys.trans ?_)
      refine congrArg sum (congrArg _ (filter_congr fun s _ => ?_))
      exact decide_eq_decide.2 (hlogKeys _)
    obtain ⟨hsum, hsumCost, hsumProfit⟩ := bucketSum_withProfit filled
    have hfill (field : CostAccountingBucket → ℤ)
        (hfield : field = revenueQuota ∨ field = costQuota) :
        bucketSum field filled =
          bucketSum field baseBuckets + fallbackBuckets env db (fallbackFilter db filter) seconds offset := by
      rw [← hloop]
      exact foldlM_total (t := bucketSum field) (fun st b st' hstep => addFallback_total hfield hstep) hfilled
    have hfillRevenue := hfill _ (Or.inl rfl)
    have hfillCost := hfill _ (Or.inr rfl)
    rw [hrecords, hlinked] at htotals
    unfold fallbackTotal
    constructor
    · rw [bucketSum_orderBy, hsum]
      split_ifs at htotals ⊢
      · cases htotals
        omega
      · cases htotals
        show _ = base.revenueQuota + (statistics.revenueQuota - snapshots.revenueQuota) + _
        omega
    · rw [bucketSum_orderBy, hsumCost]
      split_ifs at htotals ⊢
      · cases htotals
        omega
      · cases htotals
        show _ = base.costQuota + (statistics.revenueQuota - snapshots.revenueQuota) + _
        omega
    · split_ifs at htotals
      · cases htotals
        exact hprofit
      · cases htotals
        rfl
    · rw [bucketSum_orderBy, bucketSum_orderBy, bucketSum_orderBy, hsum, hsumCost, hsumProfit]

/-! ## Corrections -/

/-- What a corrected log adds to the cost. -/
def costMoved (filter : CostAccountingFilter) (c : CostChange) : ℤ := (c.moved filter).getD 0

theorem moveTotals_cost {totals' : CostAccountingTotals} {c : CostChange}
    (h : moveTotals filter totals c = .ok totals') : totals'.costQuota = totals.costQuota + costMoved filter c := by
  unfold moveTotals at h
  unfold costMoved
  cases hmoved : c.moved filter with
  | none =>
    rw [hmoved] at h
    cases h
    exact (Int.add_zero _).symm
  | some =>
    rw [hmoved] at h
    obtain ⟨total, htotal, hrest⟩ := bind_eq_ok.1 h
    by_cases hattached : c.attached ≠ none
    · rw [if_pos hattached] at hrest
      cases hrest
      exact projection_ok htotal
    · rw [if_neg hattached] at hrest
      obtain ⟨defaulted, hdefaulted, hrest⟩ := bind_eq_ok.1 hrest
      cases hrest
      exact projection_ok htotal

theorem moveBuckets_cost {c : CostChange} (h : moveBuckets filter seconds offset buckets c = .ok buckets') :
    bucketSum costQuota buckets' = bucketSum costQuota buckets + costMoved filter c := by
  unfold moveBuckets at h
  unfold costMoved
  cases hmoved : c.moved filter with
  | none =>
    rw [hmoved] at h
    cases h
    exact (Int.add_zero _).symm
  | some =>
    rw [hmoved] at h
    refine changeBucket_total rfl (fun b _ _ b' hb' => ?_) h
    obtain ⟨total, htotal, hb'⟩ := bind_eq_ok.1 hb'
    cases hb'
    exact projection_ok htotal

/-- Writing the revenue of different buckets into buckets that have none adds it up, and leaves the cost. -/
theorem writeRevenue_sum {financial : List CostAccountingBucket} (hnodup : (financial.map bucket).Nodup) :
    ∀ {buckets buckets' : List CostAccountingBucket},
      (∀ b ∈ buckets, b.bucket ∈ financial.map bucket → b.revenueQuota = 0) →
      financial.foldlM (fun buckets current => changeBucket current.bucket (fun b =>
          .ok { b with revenueQuota := current.revenueQuota, records := current.records }) buckets) buckets =
        ok (ε := AccountingError) buckets' →
      bucketSum revenueQuota buckets' = bucketSum revenueQuota buckets + bucketSum revenueQuota financial ∧
        bucketSum costQuota buckets' = bucketSum costQuota buckets := by
  induction financial with
  | nil =>
    intro buckets buckets' _ h
    cases h
    exact ⟨(Int.add_zero _).symm, rfl⟩
  | cons current financial ih =>
    intro buckets buckets' hblank h
    rw [map_cons, nodup_cons] at hnodup
    rw [foldlM_cons] at h
    obtain ⟨mid, hmid, hrest⟩ := bind_eq_ok.1 h
    have hkeep : ∀ b b' : CostAccountingBucket, ok (ε := AccountingError)
        { b with revenueQuota := current.revenueQuota, records := current.records } = .ok b' →
          b'.bucket = b.bucket := by
      intro b b' hb'
      cases hb'
      rfl
    have hrevenue : bucketSum revenueQuota mid = bucketSum revenueQuota buckets + current.revenueQuota := by
      refine changeBucket_total rfl (fun b hb hstart b' hb' => ?_) hmid
      cases hb'
      have hzero : b.revenueQuota = 0 := by
        rcases mem_cons.1 hb with rfl | hb
        · rfl
        · exact hblank b hb (hstart ▸ mem_cons_self)
      rw [hzero]
      exact (Int.zero_add _).symm
    have hcost : bucketSum costQuota mid = bucketSum costQuota buckets + 0 :=
      changeBucket_total rfl (fun b _ _ b' hb' => by cases hb'; exact (Int.add_zero _).symm) hmid
    have hblank' : ∀ b ∈ mid, b.bucket ∈ financial.map bucket → b.revenueQuota = 0 := by
      intro b hb hlater
      rcases mem_changeBucket hkeep hmid hb with hold | hstart
      · exact hblank b hold (mem_cons_of_mem _ hlater)
      · exact absurd (hstart ▸ hlater) hnodup.1
    obtain ⟨hsum, hcosts⟩ := ih hnodup.2 hblank' hrest
    refine ⟨?_, hcosts.trans (hcost.trans (Int.add_zero _))⟩
    rw [hsum, hrevenue]
    show _ = _ + (current.revenueQuota + bucketSum revenueQuota financial)
    omega

/-- What the corrections make of the gap: they overwrite the revenue, and move the cost by the same amounts. -/
theorem projected_agree {d : ℤ} {totals' : CostAccountingTotals}
    (hshort : ShortBy d totals buckets) (htotals : projectBillingCostTotals env db filter totals = .ok totals')
    (hbuckets : projectBillingCostBuckets env db filter buckets seconds offset = .ok buckets') :
    (totals'.revenueQuota = bucketSum revenueQuota buckets' ∧ totals'.costQuota = bucketSum costQuota buckets' ∧
        totals'.profitQuota = bucketSum profitQuota buckets') ↔ d = 0 := by
  obtain ⟨changes, hchanges, htotals⟩ := bind_eq_ok.1 htotals
  obtain ⟨changes', hchanges', hbuckets⟩ := bind_eq_ok.1 hbuckets
  obtain rfl : changes = changes' := ok.inj (hchanges.symm.trans hchanges')
  have hrevenue := hshort.revenue
  have hcost := hshort.cost
  have hprofit := hshort.profit
  have hprofits := hshort.profits
  by_cases hnone : changes = []
  · rw [if_pos hnone] at htotals hbuckets
    cases htotals
    cases hbuckets
    constructor
    · rintro ⟨h, -, -⟩
      omega
    · rintro rfl
      exact ⟨by omega, by omega, by omega⟩
  · rw [if_neg hnone] at htotals hbuckets
    obtain ⟨statistics, hstatistics, htotals⟩ := bind_eq_ok.1 htotals
    obtain ⟨moved, hmoved, htotals⟩ := bind_eq_ok.1 htotals
    obtain ⟨movedBuckets, hmovedBuckets, hbuckets⟩ := bind_eq_ok.1 hbuckets
    obtain ⟨financial, hfinancial, hbuckets⟩ := bind_eq_ok.1 hbuckets
    obtain ⟨written, hwritten, hbuckets⟩ := bind_eq_ok.1 hbuckets
    cases htotals
    cases hbuckets
    obtain ⟨hagree, hnodup⟩ := effectiveRevenue_agrees hstatistics hfinancial
    have hcostTotal := foldlM_total (t := CostAccountingTotals.costQuota)
      (fun st c st' hstep => moveTotals_cost hstep) hmoved
    have hcostBuckets := foldlM_total (t := bucketSum costQuota)
      (fun st c st' hstep => moveBuckets_cost hstep) hmovedBuckets
    obtain ⟨hwrittenRevenue, hwrittenCost⟩ := writeRevenue_sum hnodup (by
      intro b hb _
      obtain ⟨b', -, rfl⟩ := mem_map.1 hb
      rfl) hwritten
    have hcleared : bucketSum revenueQuota
        (movedBuckets.map fun b => { b with revenueQuota := 0, records := 0 }) = 0 := by
      unfold bucketSum
      rw [map_map]
      exact sum_eq_zero fun x hx => by
        obtain ⟨b, -, rfl⟩ := mem_map.1 hx
        rfl
    have hclearedCost : bucketSum costQuota
        (movedBuckets.map fun b => { b with revenueQuota := 0, records := 0 }) =
          bucketSum costQuota movedBuckets := by
      unfold bucketSum
      rw [map_map]
      rfl
    obtain ⟨hsum, hsumCost, hsumProfit⟩ := bucketSum_withProfit written
    rw [bucketSum_orderBy, bucketSum_orderBy, bucketSum_orderBy, hsum, hsumCost, hsumProfit]
    show (statistics.revenueQuota = _ ∧ moved.costQuota = _ ∧ statistics.revenueQuota - moved.costQuota = _) ↔ d = 0
    constructor
    · rintro ⟨-, h, -⟩
      omega
    · rintro rfl
      exact ⟨by omega, by omega, by omega⟩

/-! ## The theorem -/

/-- No channel of the filter is without a discount; or there are more logs than linked records, and the snapshots in
    buckets without a log bring in nothing; or there are not, and the logs bring in what the snapshots beside them do. -/
def FallbacksMeet (env : AccountingEnv) (db : DB) (filter : CostAccountingFilter) (seconds offset : ℤ) : Prop :=
  unconfiguredCostChannelIDs db filter = [] ∨ if ((logRows env db (fallbackFilter db filter)).countP countedLog : ℤ) ≤
        linkedRecords (costRows env db (fallbackFilter db filter)) then
      ((logRows env db (fallbackFilter db filter)).map logRevenue).sum =
        (((costRows env db (fallbackFilter db filter)).filter
          (metByLogs env db (fallbackFilter db filter) seconds offset)).map CostAccountingSnapshot.revenueQuota).sum
    else (((costRows env db (fallbackFilter db filter)).filter fun s =>
        !metByLogs env db (fallbackFilter db filter) seconds offset s).map CostAccountingSnapshot.revenueQuota).sum = 0

theorem sum_split {α : Type} (p : α → Bool) (f : α → ℤ) (l : List α) :
    (l.map f).sum = ((l.filter p).map f).sum + ((l.filter fun a => !p a).map f).sum := by
  induction l with
  | nil => rfl
  | cons a =>
    simp only [map_cons, sum_cons, filter_cons]
    cases hp : p a with
    | true =>
      simp only [if_true, Bool.not_true, Bool.false_eq_true, if_false, map_cons, sum_cons]
      omega
    | false =>
      simp only [Bool.not_false, Bool.false_eq_true, if_false, if_true, map_cons, sum_cons]
      omega

theorem fallbackGap_iff : fallbackGap env db filter seconds offset = 0 ↔ FallbacksMeet env db filter seconds offset := by
  unfold fallbackGap FallbacksMeet
  by_cases hconfigured : unconfiguredCostChannelIDs db filter = []
  · rw [if_pos hconfigured]
    exact ⟨fun _ => Or.inl hconfigured, fun _ => rfl⟩
  · rw [if_neg hconfigured, or_iff_right hconfigured]
    unfold fallbackBuckets fallbackTotal
    have hsplit := sum_split (metByLogs env db (fallbackFilter db filter) seconds offset)
      CostAccountingSnapshot.revenueQuota (costRows env db (fallbackFilter db filter))
    split_ifs
    · omega
    · omega

/-- The revenue, the cost and the profit of the total are the sums over the buckets exactly if the fallbacks meet. -/
theorem totals_agree_iff (env : AccountingEnv) (db : DB) (filter : CostAccountingFilter) (seconds offset : ℤ)
    (totals : CostAccountingTotals) (buckets : List CostAccountingBucket)
    (htotals : sumCostAccounting env db filter = .ok totals)
    (hbuckets : sumCostAccountingBuckets env db filter seconds offset = .ok buckets) :
    (totals.revenueQuota = bucketSum revenueQuota buckets ∧ totals.costQuota = bucketSum costQuota buckets ∧
        totals.profitQuota = bucketSum profitQuota buckets) ↔
      FallbacksMeet env db (accountingFilter filter) seconds offset := by
  obtain ⟨base, hbase, hprojected⟩ := bind_eq_ok.1 htotals
  obtain ⟨baseBuckets, hbaseBuckets, hprojectedBuckets⟩ := bind_eq_ok.1 hbuckets
  exact (projected_agree (fallback_shortBy hbase hbaseBuckets) hprojected hprojectedBuckets).trans fallbackGap_iff

def plainAccounting : AccountingEnv where
  usingClickHouse := false
  logPattern _ := none
  costPattern _ := none

/-- A channel without a discount, and a log nobody recorded a cost of. -/
def unlinkedUsage : DB :=
  { DB.empty with
    channels := Table.empty.put { id := 1 }
    logs := Table.empty.put { id := 11, userID := 7, type := .consume, quota := 100, channelID := 1, createdAt := 100 } }

def unlinkedTotals : CostAccountingTotals where
  consumptionQuota := 100
  revenueQuota := 100
  costQuota := 100
  defaultedRecords := 1
  defaultedCostQuota := 100

theorem totals_agree_unlinkedUsage : unlinkedTotals.revenueQuota = bucketSum revenueQuota [⟨0, 100, 100, 0, 0⟩] ∧
      unlinkedTotals.costQuota = bucketSum costQuota [⟨0, 100, 100, 0, 0⟩] ∧
      unlinkedTotals.profitQuota = bucketSum profitQuota [⟨0, 100, 100, 0, 0⟩] :=
  (totals_agree_iff plainAccounting unlinkedUsage {} 3600 0 unlinkedTotals [⟨0, 100, 100, 0, 0⟩]
    (by decide +kernel) (by decide +kernel)).2 (by unfold FallbacksMeet; decide +kernel)

/-- The same, and two hours later a snapshot whose log was removed. -/
def removedLog : DB :=
  unlinkedUsage.putSnapshot
    { id := 1, eventKey := "log:12:2", sourceLogID := 12, userID := 7, channelID := 1, logType := .consume,
      occurredAt := 7300, revenueQuota := 50, costQuota := 50 }

/-- One log and one linked snapshot: the total has the snapshot alone, the buckets have both. -/
theorem totals_disagree_removedLog : ∃ totals buckets, sumCostAccounting plainAccounting removedLog {} = .ok totals ∧
      sumCostAccountingBuckets plainAccounting removedLog {} 3600 0 = .ok buckets ∧
      totals.revenueQuota = 50 ∧ bucketSum revenueQuota buckets = 150 :=
  ⟨⟨50, 0, 50, 50, 0, 1, 1, 0, 0⟩, [⟨0, 100, 100, 0, 0⟩, ⟨7200, 50, 50, 0, 1⟩], by decide +kernel, by decide +kernel,
    rfl, rfl⟩

end NovaMaas.Billing
