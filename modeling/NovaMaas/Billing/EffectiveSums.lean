/-
  The sums over corrected logs, by differences and by projecting every log first.

  `projectBillingEffectiveLogs` rewrites the logs a page shows, and `applyBillingEffectiveGroup` is the condition under
  which a log belongs to a group today.  The sums never read the projected logs: they take the sums of the log database
  and add, for each corrected log, what it counts today less what it counted.

  A corrected log stands in the log table once, so the difference is taken once (`sum_changed`); that the loop over the
  ledger finds each log once is what its `used` identities are for (`effectiveLogs_sound`).  So the statistics agree,
  and the revenue and the records of every bucket.  The list of buckets need not: a bucket is entered for a corrected
  log even when the log belongs to the group neither before nor after, and a bucket whose last log has left the group
  stays.  `BucketsKept` is when there is no such bucket.
-/
import NovaMaas.Billing.CostTotalsAgree

open List Except

namespace NovaMaas.Billing

open Paging CostAccountingBucket

/-! ## The projection -/

/-- What the projection needs of JSON: the number of a rate, and whether the metadata of a log are a broken text. -/
structure ProjectionEnv where
  decodeRate : String → Option ℚ
  brokenMetadata : Log → Bool

/-- The projected log of an adjustment. -/
def projectedLog (p : ProjectionEnv) (log : Log) (a : BillingEffectiveLog) : Except AccountingError Log :=
  let quota := if log.type = .refund then -a.quota else a.quota
  if quota < 0 ∨ quota > maxWalletQuota ∨ p.brokenMetadata log then .error (.billing .evidenceIntegrity)
  else
    match p.decodeRate a.rate with
    | none => .error (.billing .evidenceIntegrity)
    | some rate =>
      if rate < 0 ∨ rate > 10 then .error (.billing .evidenceIntegrity)
      else
        let metadata := log.other.getD {}
        .ok { log with
          quota := quota
          group := a.group
          other := some
            { taskID := if a.taskID ≠ "" then a.taskID else metadata.taskID
              groupRatio := some rate } }

/-- The adjustment of a log.  They are kept by identity, so the last one stands. -/
def adjustmentOf (env : AccountingEnv) (adjustments : List BillingEffectiveLog) (log : Log) :
    Option BillingEffectiveLog :=
  adjustments.reverse.find? fun a => billingLogIdentity env a.original = billingLogIdentity env log

/-- One log of `projectBillingEffectiveLogs`. -/
def projectLog (env : AccountingEnv) (p : ProjectionEnv) (adjustments : List BillingEffectiveLog) (log : Log) :
    Except AccountingError Log :=
  match adjustmentOf env adjustments log with
  | some a => projectedLog p log a
  | none => .ok log

/-- `projectBillingEffectiveLogs`. -/
def projectBillingEffectiveLogs (env : AccountingEnv) (p : ProjectionEnv) (adjustments : List BillingEffectiveLog)
    (logs : List Log) : Except AccountingError (List Log) :=
  logs.mapM (projectLog env p adjustments)

/-- Does a log have the id, or else the columns, of a corrected one? -/
def ofCorrected (env : AccountingEnv) (a : BillingEffectiveLog) (log : Log) : Bool :=
  if env.usingClickHouse = false ∧ a.original.id > 0 then log.id = a.original.id
  else
    log.userID = a.original.userID && log.requestID = a.original.requestID && log.type = a.original.type &&
      log.createdAt = a.original.createdAt && log.modelName = a.original.modelName &&
      log.quota = a.original.quota && log.tokenID = a.original.tokenID && log.channelID = a.original.channelID

/-- `applyBillingEffectiveGroup`. -/
def applyBillingEffectiveGroup (env : AccountingEnv) (group : String) (adjustments : List BillingEffectiveLog)
    (log : Log) : Bool :=
  group = "" ||
    ((log.group = group &&
        !adjustments.any fun a => a.group ≠ group && a.original.group = group && ofCorrected env a log) ||
      adjustments.any fun a => a.group = group && a.original.group ≠ group && ofCorrected env a log)

/-- A filter that lets every log pass. -/
def everyLog : CostAccountingFilter := { includeBillingCorrections := true }

/-- The filter of an effective sum but for the group. -/
def groupless (filter : CostAccountingFilter) : CostAccountingFilter :=
  if filter.logType = some .billingCorrection then { filter with group := "" }
  else { filter with group := "", includeBillingCorrections := false }

/-- The logs of a filter as they are today: every log projected, then those the filter wants and the group has. -/
def effectiveRows (env : AccountingEnv) (p : ProjectionEnv) (logs : List Log) (adjustments : List BillingEffectiveLog)
    (filter : CostAccountingFilter) : Except AccountingError (List Log) := do
  let wanted ← applyLogStatisticsFilter env (groupless filter)
  let projected ← projectBillingEffectiveLogs env p adjustments logs
  .ok (((logs.zip projected).filter fun row =>
    wanted row.1 && applyBillingEffectiveGroup env filter.group adjustments row.1).map Prod.snd)

/-! ## The logs behind the adjustments -/

/-- What holds of a corrected log: it stands in the table once, it is a charge or a refund, and a log like it is
wanted. -/
structure IsAdjusted (env : AccountingEnv) (logs : List Log) (wanted : Log → Bool) (a : BillingEffectiveLog) :
    Prop where
  once : logs.count a.original = 1
  charged : a.original.type = .consume ∨ a.original.type = .refund
  met : ∃ log ∈ logs, wanted log = true ∧ billingLogIdentity env log = billingLogIdentity env a.original

/-- What the loop over the ledger keeps. -/
structure EffectiveLogsSound (env : AccountingEnv) (logs : List Log) (wanted : Log → Bool) (st : EffectiveLogs) :
    Prop where
  used : ∀ a ∈ st.result, billingLogIdentity env a.original ∈ st.used
  distinct : (st.result.map fun a => billingLogIdentity env a.original).Nodup
  adjusted : ∀ a ∈ st.result, IsAdjusted env logs wanted a

theorem count_of_filter_singleton {α : Type} [DecidableEq α] {q : α → Bool} {l : List α} {a : α}
    (h : l.filter q = [a]) : l.count a = 1 := by
  have hmem : a ∈ l.filter q := h ▸ mem_cons_self
  have hcount := count_filter (l := l) (mem_filter.1 hmem).2
  rw [h, count_singleton_self] at hcount
  exact hcount.symm

variable {env : AccountingEnv} {p : ProjectionEnv} {db : DB} {filter : CostAccountingFilter} {wanted : Log → Bool}
  {adjustments : List BillingEffectiveLog} {seconds offset : ℤ}

theorem addEffectiveLog_sound {st st' : EffectiveLogs} {s : PagedSource}
    (h : addEffectiveLog env db wanted st s = .ok st') (hst : EffectiveLogsSound env db.logs.rows wanted st) :
    EffectiveLogsSound env db.logs.rows wanted st' := by
  unfold addEffectiveLog at h
  split at h
  · cases h
    exact hst
  · rename_i last _
    split_ifs at h
    obtain ⟨quota, _, h⟩ := bind_eq_ok.1 h
    split at h
    · cases h
      exact hst
    · rename_i original hfound
      dsimp only at h
      split_ifs at h with hused hmet
      · -- the log is wanted: one more adjustment
        cases h
        rw [pageLogs, filter_filter, filter_filter] at hfound
        have hmem : original ∈ db.logs.rows.filter _ := hfound ▸ mem_cons_self
        have htype := (mem_filter.1 hmem).2
        simp only [Bool.and_eq_true, Bool.or_eq_true, decide_eq_true_eq] at htype
        obtain ⟨log, hlog, hidentity⟩ := any_eq_true.1 hmet
        rw [pageLogs, filter_filter, mem_filter, Bool.and_eq_true] at hlog
        have hnew : IsAdjusted env db.logs.rows wanted (effectiveLog db s.source original quota last) :=
          { once := count_of_filter_singleton hfound
            charged := htype.1.2
            met := ⟨log, hlog.1, hlog.2.1, of_decide_eq_true hidentity⟩ }
        refine ⟨?_, ?_, ?_⟩
        · intro a ha
          rcases mem_append.1 ha with ha | ha
          · exact mem_cons_of_mem _ (hst.used a ha)
          · rw [mem_singleton.1 ha]
            exact mem_cons_self
        · rw [map_append, map_singleton, nodup_append_comm, singleton_append, nodup_cons]
          refine ⟨?_, hst.distinct⟩
          rintro hold
          obtain ⟨a, ha, heq⟩ := mem_map.1 hold
          have hidentity' : billingLogIdentity env a.original = billingLogIdentity env original := heq
          exact hused (hidentity' ▸ hst.used a ha)
        · intro a ha
          rcases mem_append.1 ha with ha | ha
          · exact hst.adjusted a ha
          · rw [mem_singleton.1 ha]
            exact hnew
      · cases h
        exact ⟨fun a ha => mem_cons_of_mem _ (hst.used a ha), hst.distinct, hst.adjusted⟩
    · cases h

/-- The adjustments are about different logs, each of which stands in the table once. -/
theorem effectiveLogs_sound (h : billingEffectiveLogs env db filter = .ok adjustments)
    (hwanted : applyLogStatisticsFilter env (groupless filter) = .ok wanted) :
    (adjustments.map fun a => billingLogIdentity env a.original).Nodup ∧
      ∀ a ∈ adjustments, IsAdjusted env db.logs.rows wanted a := by
  unfold billingEffectiveLogs at h
  split_ifs at h with htype
  · cases h
    exact ⟨nodup_nil, fun a ha => absurd ha not_mem_nil⟩
  · obtain ⟨wanted', hwanted', h⟩ := bind_eq_ok.1 h
    obtain ⟨st, hst, h⟩ := bind_eq_ok.1 h
    cases h
    have hcorrection : ¬ filter.logType = some .billingCorrection := by
      rintro hcorrection
      rw [hcorrection] at htype
      exact htype ⟨by decide, by decide, by decide⟩
    rw [groupless, if_neg hcorrection] at hwanted
    obtain rfl : wanted = wanted' := ok.inj (hwanted.symm.trans hwanted')
    have hsound : EffectiveLogsSound env db.logs.rows wanted st :=
      foldPages_keeps (fun st s st' hstep hI => addEffectiveLog_sound hstep hI) hst
        ⟨fun a ha => absurd ha not_mem_nil, nodup_nil, fun a ha => absurd ha not_mem_nil⟩
    exact ⟨hsound.distinct, hsound.adjusted⟩

/-! ## What a projection is -/

/-- No other log has the identity of a corrected one.  Of a database that numbers its logs this holds by itself. -/
def OwnIdentity (env : AccountingEnv) (logs : List Log) (adjustments : List BillingEffectiveLog) : Prop :=
  ∀ a ∈ adjustments, ∀ log ∈ logs, (ofCorrected env a log = true ∨
    billingLogIdentity env log = billingLogIdentity env a.original) → log = a.original

theorem ofCorrected_self (env : AccountingEnv) (a : BillingEffectiveLog) : ofCorrected env a a.original = true := by
  unfold ofCorrected
  split_ifs <;> simp

/-- What the sums need of a projection `today`. -/
structure IsProjection (env : AccountingEnv) (logs : List Log) (adjustments : List BillingEffectiveLog)
    (wanted : Log → Bool) (today : Log → Log) : Prop where
  once : ∀ a ∈ adjustments, logs.count a.original = 1
  distinct : (adjustments.map BillingEffectiveLog.original).Nodup
  charged : ∀ a ∈ adjustments, a.original.type = .consume ∨ a.original.type = .refund
  met : ∀ a ∈ adjustments, wanted a.original = true
  kept : ∀ log ∈ logs, log ∉ adjustments.map BillingEffectiveLog.original → today log = log
  type : ∀ a ∈ adjustments, (today a.original).type = a.original.type
  createdAt : ∀ a ∈ adjustments, (today a.original).createdAt = a.original.createdAt
  quota : ∀ a ∈ adjustments, (today a.original).quota = if a.original.type = .refund then -a.quota else a.quota
  groupKept : ∀ log ∈ logs, log ∉ adjustments.map BillingEffectiveLog.original → ∀ group,
    applyBillingEffectiveGroup env group adjustments log = (decide (group = "") || decide (log.group = group))
  groupChanged : ∀ a ∈ adjustments, ∀ group,
    applyBillingEffectiveGroup env group adjustments a.original = (decide (group = "") || decide (a.group = group))

/-- A log as the projection leaves it. -/
def logToday (env : AccountingEnv) (p : ProjectionEnv) (adjustments : List BillingEffectiveLog) (log : Log) : Log :=
  (projectLog env p adjustments log).toOption.getD log

theorem projected_eq {logs projected : List Log}
    (h : projectBillingEffectiveLogs env p adjustments logs = .ok projected) :
    projected = logs.map (logToday env p adjustments) ∧
      ∀ log ∈ logs, projectLog env p adjustments log = .ok (logToday env p adjustments log) := by
  unfold projectBillingEffectiveLogs at h
  have htoday : ∀ {log log'}, projectLog env p adjustments log = .ok log' → logToday env p adjustments log = log' := by
    intro log log' hlog
    rw [logToday, hlog]
    rfl
  refine ⟨?_, ?_⟩
  · have hmap : (projected.map fun log => log) = logs.map (logToday env p adjustments) :=
      map_of_mapM h fun log log' hlog => (htoday hlog).symm
    rw [map_id'] at hmap
    exact hmap
  · intro log hlog
    obtain ⟨log', -, hlog'⟩ := (mapM_ok h).exists_of_mem_left hlog
    rw [htoday hlog']
    exact hlog'

variable {a : BillingEffectiveLog}

theorem projectedLog_ok {log log' : Log} (h : projectedLog p log a = .ok log') :
    log'.type = log.type ∧ log'.createdAt = log.createdAt ∧
      log'.quota = if log.type = .refund then -a.quota else a.quota := by
  simp only [projectedLog] at h
  generalize (if log.type = .refund then -a.quota else a.quota) = quota at h ⊢
  split at h
  · cases h
  · split at h
    · cases h
    · split at h
      · cases h
      · cases h
        exact ⟨rfl, rfl, rfl⟩

theorem adjustmentOf_some {log : Log} (h : adjustmentOf env adjustments log = some a) :
    a ∈ adjustments ∧ billingLogIdentity env a.original = billingLogIdentity env log := by
  refine ⟨mem_reverse.1 (mem_of_find?_eq_some h), ?_⟩
  have hidentity := find?_some h
  exact of_decide_eq_true hidentity

/-- The last adjustment of an identity is the only one. -/
theorem adjustmentOf_original (hdistinct : (adjustments.map fun a => billingLogIdentity env a.original).Nodup)
    (ha : a ∈ adjustments) : adjustmentOf env adjustments a.original = some a := by
  cases hfound : adjustmentOf env adjustments a.original with
  | none =>
    have hnot := find?_eq_none.1 hfound a (mem_reverse.2 ha)
    exact absurd (decide_eq_true rfl) hnot
  | some =>
    obtain ⟨hb, hidentity⟩ := adjustmentOf_some hfound
    rw [inj_on_of_nodup_map hdistinct hb ha hidentity]

theorem isProjection (hadjustments : billingEffectiveLogs env db filter = .ok adjustments)
    (hwanted : applyLogStatisticsFilter env (groupless filter) = .ok wanted)
    (hown : OwnIdentity env db.logs.rows adjustments) {projected : List Log}
    (hprojected : projectBillingEffectiveLogs env p adjustments db.logs.rows = .ok projected) :
    IsProjection env db.logs.rows adjustments wanted (logToday env p adjustments) := by
  obtain ⟨hdistinct, hadjusted⟩ := effectiveLogs_sound hadjustments hwanted
  obtain ⟨-, hall⟩ := projected_eq hprojected
  have hmem : ∀ a ∈ adjustments, a.original ∈ db.logs.rows := by
    intro a ha
    have honce := (hadjusted a ha).once
    exact count_pos_iff.1 (by omega)
  have hprojection : ∀ a ∈ adjustments, projectedLog p a.original a = .ok (logToday env p adjustments a.original) := by
    intro a ha
    have hproject := hall a.original (hmem a ha)
    unfold projectLog at hproject
    rw [adjustmentOf_original hdistinct ha] at hproject
    exact hproject
  have hinj : ∀ a ∈ adjustments, ∀ b ∈ adjustments, a.original = b.original → a = b := by
    intro a ha b hb heq
    refine inj_on_of_nodup_map hdistinct ha hb ?_
    show billingLogIdentity env a.original = billingLogIdentity env b.original
    rw [heq]
  refine ⟨fun a ha => (hadjusted a ha).once, ?_, fun a ha => (hadjusted a ha).charged, ?_, ?_,
    fun a ha => (projectedLog_ok (hprojection a ha)).1, fun a ha => (projectedLog_ok (hprojection a ha)).2.1,
    fun a ha => (projectedLog_ok (hprojection a ha)).2.2, ?_, ?_⟩
  · exact hdistinct.of_map.map_on hinj
  · intro a ha
    obtain ⟨log, hlog, hmet, hidentity⟩ := (hadjusted a ha).met
    rw [hown a ha log hlog (Or.inr hidentity)] at hmet
    exact hmet
  · intro log hlog hnot
    unfold logToday projectLog
    cases hfound : adjustmentOf env adjustments log with
    | none => rfl
    | some a =>
      obtain ⟨ha, hidentity⟩ := adjustmentOf_some hfound
      exact absurd (mem_map.2 ⟨a, ha, (hown a ha log hlog (Or.inr hidentity.symm)).symm⟩) hnot
  · intro log hlog hnot group
    have hother : ∀ a ∈ adjustments, ofCorrected env a log = false := by
      intro a ha
      rw [← Bool.not_eq_true]
      rintro hof
      exact hnot (mem_map.2 ⟨a, ha, (hown a ha log hlog (Or.inl hof)).symm⟩)
    have hany : ∀ q : BillingEffectiveLog → Bool, (adjustments.any fun a => q a && ofCorrected env a log) = false := by
      intro q
      rw [any_eq_false]
      intro a ha
      simp [hother a ha]
    unfold applyBillingEffectiveGroup
    rw [hany, hany]
    simp
  · intro a ha group
    -- of the adjustments only this one is about the log
    have hany : ∀ q : BillingEffectiveLog → Bool,
        (adjustments.any fun b => q b && ofCorrected env b a.original) = q a := by
      intro q
      rw [Bool.eq_iff_iff, any_eq_true]
      constructor
      · rintro ⟨b, hb, hq⟩
        rw [Bool.and_eq_true] at hq
        have heq := hown b hb a.original (hmem a ha) (Or.inl hq.2)
        rw [hinj a ha b hb heq]
        exact hq.1
      · intro hq
        exact ⟨a, ha, by rw [hq, ofCorrected_self]; rfl⟩
    unfold applyBillingEffectiveGroup
    rw [hany, hany]
    by_cases hgroup : group = ""
    · simp [hgroup]
    · by_cases hold : a.original.group = group
      · by_cases hnew : a.group = group
        · simp [hold, hnew]
        · simp [hold, hnew]
      · by_cases hnew : a.group = group
        · simp [hold, hnew]
        · simp [hold, hnew]

/-! ## Sums of the projected logs -/

/-- A sum over a list whose elements differ from another sum only at places that stand in the list once. -/
theorem sum_changed {α β : Type} [DecidableEq α] {F G : α → ℤ} {D : β → ℤ} {o : β → α} {as : List β} {l : List α}
    (honce : ∀ a ∈ as, l.count (o a) = 1) (hdistinct : (as.map o).Nodup)
    (hsame : ∀ x ∈ l, x ∉ as.map o → F x = G x) (hchanged : ∀ a ∈ as, F (o a) = G (o a) + D a) :
    (l.map F).sum = (l.map G).sum + (as.map D).sum := by
  have hperm : (l.filter fun x => decide (x ∈ as.map o)).Perm (as.map o) := by
    rw [perm_iff_count]
    intro x
    by_cases hx : x ∈ as.map o
    · obtain ⟨a, ha, rfl⟩ := mem_map.1 hx
      have hkeep := count_filter (p := fun x => decide (x ∈ as.map o)) (l := l) (decide_eq_true hx)
      rw [hkeep, honce a ha, count_eq_one_of_mem hdistinct hx]
    · rw [count_eq_zero.2 hx, count_eq_zero]
      intro hmem
      exact hx (of_decide_eq_true (mem_filter.1 hmem).2)
  have hdiff : (l.map fun x => F x - G x).sum = (as.map D).sum := by
    calc (l.map fun x => F x - G x).sum
        = (l.map fun x => if decide (x ∈ as.map o) = true then F x - G x else 0).sum := by
          refine congrArg sum (map_congr_left fun x hx => ?_)
          by_cases hmem : x ∈ as.map o
          · rw [if_pos (decide_eq_true hmem)]
          · rw [if_neg (by simpa using hmem), hsame x hx hmem, Int.sub_self]
      _ = ((l.filter fun x => decide (x ∈ as.map o)).map fun x => F x - G x).sum :=
          (List.sum_map_filter _ _ _).symm
      _ = ((as.map o).map fun x => F x - G x).sum := (hperm.map _).sum_eq
      _ = (as.map D).sum := by
          rw [map_map]
          refine congrArg sum (map_congr_left fun a ha => ?_)
          have ha' := hchanged a ha
          show F (o a) - G (o a) = D a
          omega
  rw [sum_map_sub] at hdiff
  omega

/-- The filter of the sum over the log table. -/
def baseFilter (filter : CostAccountingFilter) : CostAccountingFilter :=
  if filter.logType = some .billingCorrection then filter else { filter with includeBillingCorrections := false }

theorem groupless_eq (filter : CostAccountingFilter) : groupless filter = { baseFilter filter with group := "" } := by
  unfold groupless baseFilter
  split_ifs <;> rfl

theorem baseFilter_group (filter : CostAccountingFilter) : (baseFilter filter).group = filter.group := by
  unfold baseFilter
  split_ifs <;> rfl

/-- A filter wants what it wants without its group, if the group is right. -/
theorem wanted_group {f : CostAccountingFilter} {w : Log → Bool} (h : applyLogStatisticsFilter env f = .ok w) :
    ∃ w', applyLogStatisticsFilter env { f with group := "" } = .ok w' ∧
      ∀ log, w log = (w' log && (decide (f.group = "") || decide (log.group = f.group))) := by
  obtain ⟨username, husername, h⟩ := bind_eq_ok.1 h
  obtain ⟨modelName, hmodelName, h⟩ := bind_eq_ok.1 h
  cases h
  refine ⟨_, bind_eq_ok.2 ⟨username, husername, bind_eq_ok.2 ⟨modelName, hmodelName, rfl⟩⟩, ?_⟩
  intro log
  simp only [decide_true, Bool.true_or, Bool.and_true]
  generalize (decide (f.group = "") || decide (log.group = f.group)) = g
  cases g <;> simp

theorem everyLog_wanted (env : AccountingEnv) : ∃ w, applyLogStatisticsFilter env everyLog = .ok w ∧ ∀ log, w log = true := by
  exact ⟨_, rfl, fun log => rfl⟩

/-- The logs of a filter as they are in the table. -/
def baseRows (logs : List Log) (wanted : Log → Bool) (group : String) : List Log :=
  logs.filter fun log => wanted log && (decide (group = "") || decide (log.group = group))

/-- Those of today. -/
def todayRows (env : AccountingEnv) (logs : List Log) (adjustments : List BillingEffectiveLog) (wanted : Log → Bool)
    (group : String) : List Log :=
  logs.filter fun log => wanted log && applyBillingEffectiveGroup env group adjustments log

/-- What a corrected log changes in the sum of `f`. -/
def todayDelta (filter : CostAccountingFilter) (today : Log → Log) (f : Log → ℤ) (a : BillingEffectiveLog) : ℤ :=
  (if effectiveIncluded filter a then f (today a.original) else 0) - if originalIncluded filter a then f a.original else 0

theorem included_comm (group g : String) : (decide (group = "") || decide (group = g)) =
    (decide (group = "") || decide (g = group)) :=
  congrArg _ (decide_eq_decide.2 eq_comm)

section Today

variable {logs : List Log} {today : Log → Log}

/-- The sum over the logs of today is the sum over the table, changed for each corrected log. -/
theorem sum_today (h : IsProjection env logs adjustments wanted today) (f : Log → ℤ) :
    (((todayRows env logs adjustments wanted filter.group).map today).map f).sum =
      ((baseRows logs wanted filter.group).map f).sum + (adjustments.map (todayDelta filter today f)).sum := by
  unfold todayRows baseRows
  rw [map_map, List.sum_map_filter, List.sum_map_filter]
  refine sum_changed h.once h.distinct ?_ ?_
  · intro log hlog hnot
    rw [h.groupKept log hlog hnot, Function.comp_apply, h.kept log hlog hnot]
  · intro a ha
    rw [h.groupChanged a ha, h.met a ha, Bool.true_and, Bool.true_and, ← included_comm, ← included_comm]
    show (if effectiveIncluded filter a = true then f (today a.original) else 0) =
      (if originalIncluded filter a = true then f a.original else 0) + todayDelta filter today f a
    unfold todayDelta
    omega

/-! ## The statistics -/

/-- The statistics of some rows. -/
def statisticsOf (rows : List Log) : LogStatistics where
  quota := (rows.map chargedQuota).sum
  refundQuota := (rows.map refundedQuota).sum
  revenueQuota := (rows.map chargedQuota).sum - (rows.map refundedQuota).sum
  records := rows.countP countedLog
  requests := rows.countP fun log => log.type = .consume

theorem sumLog_ok {f : CostAccountingFilter} {w : Log → Bool} (hw : applyLogStatisticsFilter env f = .ok w) :
    sumLogFinancialStatistics env logs f = .ok (statisticsOf (logs.filter w)) :=
  bind_eq_ok.2 ⟨w, hw, rfl⟩

theorem sum_of_countP (q : Log → Bool) (rows : List Log) :
    (rows.countP q : ℤ) = (rows.map fun log => if q log = true then (1 : ℤ) else 0).sum := by
  induction rows with
  | nil => rfl
  | cons _ _ ih =>
    rw [countP_cons, map_cons, sum_cons, ← ih]
    split_ifs <;> push_cast <;> omega

/-- What a corrected log changes in the charges, and in the refunds. -/
def chargedDelta (filter : CostAccountingFilter) (a : BillingEffectiveLog) : ℤ :=
  if a.original.type = .refund then 0
  else (if effectiveIncluded filter a then a.quota else 0) - if originalIncluded filter a then a.original.quota else 0

def refundedDelta (filter : CostAccountingFilter) (a : BillingEffectiveLog) : ℤ :=
  if a.original.type = .refund then
    (if effectiveIncluded filter a then -a.quota else 0) - if originalIncluded filter a then a.original.quota else 0
  else 0

variable {a : BillingEffectiveLog}

theorem projectStatistics_ok {st st' : LogStatistics} (h : projectStatistics filter st a = .ok st') :
    st'.quota = st.quota + chargedDelta filter a ∧ st'.refundQuota = st.refundQuota + refundedDelta filter a ∧
      st'.records = st.records + recordsDelta filter a ∧
      st'.requests = st.requests + if a.original.type = .consume then recordsDelta filter a else 0 := by
  unfold chargedDelta refundedDelta
  by_cases hrefund : a.original.type = .refund
  · simp only [projectStatistics, if_pos hrefund] at h
    obtain ⟨refund, hquota, h⟩ := bind_eq_ok.1 h
    cases h
    have hconsume : ¬ a.original.type = .consume := by
      rw [hrefund]
      decide
    rw [if_pos hrefund, if_pos hrefund, if_neg hconsume, Int.add_zero, Int.add_zero]
    exact ⟨rfl, projection_ok hquota, rfl, rfl⟩
  · simp only [projectStatistics, if_neg hrefund] at h
    obtain ⟨quota, hquota, h⟩ := bind_eq_ok.1 h
    cases h
    rw [if_neg hrefund, if_neg hrefund, Int.add_zero]
    exact ⟨projection_ok hquota, rfl, rfl, rfl⟩

theorem todayDelta_records (h : IsProjection env logs adjustments wanted today)
    (ha : a ∈ adjustments) {q : Log → Bool} {n : Bool} (hq : ∀ log : Log, log.type = a.original.type → q log = n) :
    todayDelta filter today (fun log => if q log = true then 1 else 0) a = if n then recordsDelta filter a else 0 := by
  unfold todayDelta recordsDelta
  dsimp only
  rw [hq _ (h.type a ha), hq _ rfl]
  cases n <;> cases effectiveIncluded filter a <;> cases originalIncluded filter a <;> rfl

theorem todayDelta_charged (h : IsProjection env logs adjustments wanted today)
    (ha : a ∈ adjustments) : todayDelta filter today chargedQuota a = chargedDelta filter a := by
  have htype := h.type a ha
  have hquota := h.quota a ha
  unfold todayDelta chargedDelta chargedQuota
  rcases h.charged a ha with hconsume | hrefund
  · rw [hconsume] at htype hquota
    simp [htype, hconsume, hquota]
  · rw [hrefund] at htype hquota
    simp [htype, hrefund]

theorem todayDelta_refunded (h : IsProjection env logs adjustments wanted today)
    (ha : a ∈ adjustments) : todayDelta filter today refundedQuota a = refundedDelta filter a := by
  have htype := h.type a ha
  have hquota := h.quota a ha
  unfold todayDelta refundedDelta refundedQuota
  rcases h.charged a ha with hconsume | hrefund
  · rw [hconsume] at htype hquota
    simp [htype, hconsume]
  · rw [hrefund] at htype hquota
    simp [htype, hrefund, hquota]

/-- After the loop over the corrected logs the statistics are those of the logs of today. -/
theorem statistics_today (h : IsProjection env logs adjustments wanted today) {st : LogStatistics}
    (hloop : adjustments.foldlM (projectStatistics filter) (statisticsOf (baseRows logs wanted filter.group)) = .ok st) :
    { st with revenueQuota := st.quota - st.refundQuota } =
      statisticsOf ((todayRows env logs adjustments wanted filter.group).map today) := by
  have hquota := foldlM_total (t := LogStatistics.quota) (d := chargedDelta filter)
    (fun st a st' hstep => (projectStatistics_ok hstep).1) hloop
  have hrefund := foldlM_total (t := LogStatistics.refundQuota) (d := refundedDelta filter)
    (fun st a st' hstep => (projectStatistics_ok hstep).2.1) hloop
  have hrecords := foldlM_total (t := LogStatistics.records) (d := recordsDelta filter)
    (fun st a st' hstep => (projectStatistics_ok hstep).2.2.1) hloop
  have hrequests := foldlM_total (t := LogStatistics.requests)
    (d := fun a => if a.original.type = .consume then recordsDelta filter a else 0)
    (fun st a st' hstep => (projectStatistics_ok hstep).2.2.2) hloop
  have hquota' : st.quota =
      (((todayRows env logs adjustments wanted filter.group).map today).map chargedQuota).sum := by
    rw [hquota, sum_today h, map_congr_left fun a ha => todayDelta_charged h ha]
    rfl
  have hrefund' : st.refundQuota =
      (((todayRows env logs adjustments wanted filter.group).map today).map refundedQuota).sum := by
    rw [hrefund, sum_today h, map_congr_left fun a ha => todayDelta_refunded h ha]
    rfl
  have hrecords' : st.records =
      ((todayRows env logs adjustments wanted filter.group).map today).countP countedLog := by
    have hcounted : ∀ a ∈ adjustments, ∀ log : Log, log.type = a.original.type → countedLog log = true := by
      intro a ha log htype
      rcases h.charged a ha with hcharged | hcharged <;> simp [countedLog, htype, hcharged]
    rw [hrecords, sum_of_countP, sum_today h,
      map_congr_left fun a ha => todayDelta_records h ha (hcounted a ha), ← sum_of_countP]
    rfl
  have hrequests' : st.requests =
      ((todayRows env logs adjustments wanted filter.group).map today).countP fun log => log.type = .consume := by
    rw [hrequests, sum_of_countP, sum_today h,
      map_congr_left fun a ha => todayDelta_records h ha (n := decide (a.original.type = .consume))
        (fun log htype => by rw [htype]), ← sum_of_countP]
    simp only [decide_eq_true_eq]
    rfl
  unfold statisticsOf
  rw [← hquota', ← hrefund', ← hrecords', ← hrequests']

/-! ## The buckets -/

section Rows

variable {key : Log → ℤ}

/-- A field of the buckets that start at `k`. -/
def fieldAt (k : ℤ) (field : CostAccountingBucket → ℤ) (b : CostAccountingBucket) : ℤ :=
  if b.bucket = k then field b else 0

theorem fieldAt_zero (field : CostAccountingBucket → ℤ) {k : ℤ} : ∀ {buckets : List CostAccountingBucket},
    k ∉ buckets.map bucket → bucketSum (fieldAt k field) buckets = 0 := by
  intro buckets
  induction buckets with
  | nil =>
    intro _
    rfl
  | cons _ _ ih =>
    intro hnot
    rw [map_cons, mem_cons, not_or] at hnot
    have hrest := ih hnot.2
    simp only [bucketSum, map_cons, sum_cons] at hrest ⊢
    rw [hrest, fieldAt, if_neg fun heq => hnot.1 heq.symm]
    rfl

theorem fieldAt_mem (field : CostAccountingBucket → ℤ) : ∀ {buckets : List CostAccountingBucket},
    (buckets.map bucket).Nodup → ∀ {b}, b ∈ buckets → bucketSum (fieldAt b.bucket field) buckets = field b := by
  intro buckets
  induction buckets with
  | nil =>
    intro _ b hb
    cases hb
  | cons x _ ih =>
    intro hnodup b hb
    rw [map_cons, nodup_cons] at hnodup
    rcases mem_cons.1 hb with rfl | hb
    · have hrest := fieldAt_zero field hnodup.1
      simp only [bucketSum, map_cons, sum_cons] at hrest ⊢
      rw [hrest, fieldAt, if_pos rfl, Int.add_zero]
    · have hne : x.bucket ≠ b.bucket := by
        rintro heq
        exact hnodup.1 (heq ▸ mem_map_of_mem hb)
      have hrest := ih hnodup.2 hb
      simp only [bucketSum, map_cons, sum_cons] at hrest ⊢
      rw [hrest, fieldAt, if_neg hne, Int.zero_add]

/-- A sum over the group of a key is the sum over the rows that have it. -/
theorem sum_group_at (f : Log → ℤ) (k : ℤ) (rows : List Log) :
    ((groupBuckets key rows).map fun group => if group.1 = k then (group.2.map f).sum else 0).sum =
      (rows.map fun row => if key row = k then f row else 0).sum := by
  have hgroups : ((groupBuckets key rows).map fun group =>
      (group.2.map fun row => if key row = k then f row else 0).sum).sum =
      (rows.map fun row => if key row = k then f row else 0).sum := sum_groupBuckets rows
  rw [← hgroups]
  refine congrArg sum (map_congr_left fun group hgroup => ?_)
  obtain ⟨k', -, rfl⟩ := mem_map.1 hgroup
  show (if k' = k then ((rows.filter fun row => key row = k').map f).sum else 0) =
    ((rows.filter fun row => key row = k').map fun row => if key row = k then f row else 0).sum
  rw [List.sum_map_filter, List.sum_map_filter]
  by_cases hk : k' = k
  · subst hk
    rw [if_pos rfl]
    refine congrArg sum (map_congr_left fun row _ => ?_)
    by_cases hrow : key row = k' <;> simp [hrow]
  · rw [if_neg hk]
    refine (sum_eq_zero fun x hx => ?_).symm
    obtain ⟨row, -, rfl⟩ := mem_map.1 hx
    by_cases hrow : key row = k'
    · have hne : key row ≠ k := fun heq => hk (hrow.symm.trans heq)
      simp [hne]
    · simp [hrow]

/-- Buckets that have the revenue and the number of some rows, and start where `starts` wants one. -/
structure BucketsOf (key : Log → ℤ) (rows : List Log) (starts : ℤ → Prop) (buckets : List CostAccountingBucket) :
    Prop where
  sorted : buckets.Pairwise fun b c => b.bucket ≤ c.bucket
  nodup : (buckets.map bucket).Nodup
  starts : ∀ k, k ∈ buckets.map bucket ↔ starts k
  revenue : ∀ k, bucketSum (fieldAt k revenueQuota) buckets =
    (rows.map fun row => if key row = k then logRevenue row else 0).sum
  records : ∀ k, bucketSum (fieldAt k records) buckets = (rows.map fun row => if key row = k then 1 else 0).sum
  cost : ∀ k, bucketSum (fieldAt k costQuota) buckets = 0
  profit : ∀ k, bucketSum (fieldAt k profitQuota) buckets = 0

theorem BucketsOf.subset {rows : List Log} {starts starts' : ℤ → Prop} {xs ys : List CostAccountingBucket}
    (hx : BucketsOf key rows starts xs) (hy : BucketsOf key rows starts' ys) (hstarts : ∀ k, starts k ↔ starts' k)
    {b : CostAccountingBucket} (hb : b ∈ xs) : b ∈ ys := by
  have hstart := (hy.starts b.bucket).2 ((hstarts _).1 ((hx.starts b.bucket).1 (mem_map_of_mem hb)))
  obtain ⟨c, hc, hcb⟩ := mem_map.1 hstart
  have hfield : ∀ field : CostAccountingBucket → ℤ,
      bucketSum (fieldAt b.bucket field) xs = bucketSum (fieldAt b.bucket field) ys → field b = field c := by
    intro field heq
    have hxs := fieldAt_mem field hx.nodup hb
    have hys := fieldAt_mem field hy.nodup hc
    rw [hcb] at hys
    rw [← hxs, ← hys, heq]
  have heq : b = c := by
    obtain ⟨bucket, revenueQuota, costQuota, profitQuota, records⟩ := b
    obtain ⟨bucket', revenueQuota', costQuota', profitQuota', records'⟩ := c
    have h1 := hfield CostAccountingBucket.revenueQuota ((hx.revenue _).trans (hy.revenue _).symm)
    have h2 := hfield CostAccountingBucket.costQuota ((hx.cost _).trans (hy.cost _).symm)
    have h3 := hfield CostAccountingBucket.profitQuota ((hx.profit _).trans (hy.profit _).symm)
    have h4 := hfield CostAccountingBucket.records ((hx.records _).trans (hy.records _).symm)
    simp only at h1 h2 h3 h4 hcb
    rw [hcb, h1, h2, h3, h4]
  rw [heq]
  exact hc

/-- Two lists of buckets of the same rows are equal if they start at the same places, and only then. -/
theorem BucketsOf.eq_iff {rows : List Log} {starts starts' : ℤ → Prop} {xs ys : List CostAccountingBucket}
    (hx : BucketsOf key rows starts xs) (hy : BucketsOf key rows starts' ys) :
    xs = ys ↔ ∀ k, starts k ↔ starts' k := by
  constructor
  · rintro rfl k
    rw [← hx.starts, hy.starts]
  · intro hstarts
    have hperm : xs.Perm ys := (perm_ext_iff_of_nodup hx.nodup.of_map hy.nodup.of_map).2 fun b =>
      ⟨fun hb => hx.subset hy hstarts hb, fun hb => hy.subset hx (fun k => (hstarts k).symm) hb⟩
    refine hperm.eq_of_pairwise (fun b c hb hc hbc hcb => ?_) hx.sorted hy.sorted
    exact inj_on_of_nodup_map hx.nodup hb (hperm.mem_iff.2 hc) (Int.le_antisymm hbc hcb)

/-- The buckets of some rows. -/
def bucketsOf (key : Log → ℤ) (rows : List Log) : List CostAccountingBucket :=
  (groupBuckets key rows).map fun group =>
    { bucket := group.1
      revenueQuota := (group.2.map logRevenue).sum
      records := group.2.length }

theorem bucketsOf_keys (rows : List Log) :
    (bucketsOf key rows).map bucket = (groupBuckets key rows).map Prod.fst := by
  unfold bucketsOf
  rw [map_map]
  rfl

theorem bucketsOf_ok (key : Log → ℤ) (rows : List Log) :
    BucketsOf key rows (fun k => ∃ row ∈ rows, key row = k) (bucketsOf key rows) := by
  refine ⟨?_, ?_, ?_, ?_, ?_, ?_, ?_⟩
  · have hsorted := orderBy_pairwise (fun k : ℤ => k) (rows.map key).dedup
    rw [← groupBuckets_keys, ← bucketsOf_keys, pairwise_map] at hsorted
    exact hsorted
  · rw [bucketsOf_keys]
    exact groupBuckets_nodup _
  · intro k
    rw [bucketsOf_keys]
    exact mem_groupBuckets_keys
  · intro k
    rw [← sum_group_at, bucketSum, bucketsOf, map_map]
    rfl
  · intro k
    rw [← sum_group_at, bucketSum, bucketsOf, map_map]
    refine congrArg sum (map_congr_left fun group _ => ?_)
    show (if group.1 = k then (group.2.length : ℤ) else 0) = _
    rw [map_const', sum_replicate, nsmul_eq_mul, mul_one]
  · intro k
    rw [bucketSum, bucketsOf, map_map]
    refine sum_eq_zero fun x hx => ?_
    obtain ⟨group, -, rfl⟩ := mem_map.1 hx
    exact ite_self _
  · intro k
    rw [bucketSum, bucketsOf, map_map]
    refine sum_eq_zero fun x hx => ?_
    obtain ⟨group, -, rfl⟩ := mem_map.1 hx
    exact ite_self _

end Rows

variable {a : BillingEffectiveLog}

theorem projectBucket_rest {b b' : CostAccountingBucket} (h : projectBucket filter a b = .ok b') :
    b'.records = b.records + recordsDelta filter a ∧ b'.costQuota = b.costQuota ∧ b'.profitQuota = b.profitQuota := by
  obtain ⟨revenue, hrevenue, h⟩ := bind_eq_ok.1 h
  cases h
  exact ⟨rfl, rfl, rfl⟩

/-- One turn of the loop over the corrected logs. -/
def projectBuckets (filter : CostAccountingFilter) (seconds offset : ℤ) (buckets : List CostAccountingBucket)
    (a : BillingEffectiveLog) : Except AccountingError (List CostAccountingBucket) :=
  changeBucket (logBucket seconds offset a.original) (projectBucket filter a) buckets

variable {buckets : List CostAccountingBucket}

/-- A turn changes the fields of the bucket of its log. -/
theorem projectBuckets_total {buckets' : List CostAccountingBucket}
    {field : CostAccountingBucket → ℤ} {d : ℤ} (hzero : ∀ start, field { bucket := start } = 0)
    (hfield : ∀ b b', projectBucket filter a b = .ok b' → field b' = field b + d)
    (h : projectBuckets filter seconds offset buckets a = .ok buckets') (k : ℤ) :
    bucketSum (fieldAt k field) buckets' =
      bucketSum (fieldAt k field) buckets + if logBucket seconds offset a.original = k then d else 0 := by
  refine changeBucket_total ?_ ?_ h
  · unfold fieldAt
    rw [hzero, ite_self]
  · intro b _ hstart b' hb'
    unfold fieldAt
    rw [(projectBucket_ok hb').1, hstart, hfield b b' hb']
    split_ifs <;> omega

theorem todayDelta_revenue (h : IsProjection env logs adjustments wanted today) (ha : a ∈ adjustments) (k : ℤ) :
    todayDelta filter today (fun log => if logBucket seconds offset log = k then logRevenue log else 0) a =
      if logBucket seconds offset a.original = k then revenueDelta filter a else 0 := by
  have htype := h.type a ha
  have hquota := h.quota a ha
  have hbucket : logBucket seconds offset (today a.original) = logBucket seconds offset a.original := by
    unfold logBucket
    rw [h.createdAt a ha]
  unfold todayDelta revenueDelta
  dsimp only
  rw [hbucket]
  by_cases hk : logBucket seconds offset a.original = k
  · rw [if_pos hk, if_pos hk, if_pos hk]
    unfold logRevenue
    rcases h.charged a ha with hconsume | hrefund
    · rw [hconsume] at htype hquota
      simp [htype, hconsume, hquota]
    · rw [hrefund] at htype hquota
      simp [htype, hrefund, hquota]
  · rw [if_neg hk, if_neg hk, if_neg hk, ite_self, ite_self]
    rfl

theorem todayDelta_number (h : IsProjection env logs adjustments wanted today) (ha : a ∈ adjustments) (k : ℤ) :
    todayDelta filter today (fun log => if logBucket seconds offset log = k then 1 else 0) a =
      if logBucket seconds offset a.original = k then recordsDelta filter a else 0 := by
  have hbucket : logBucket seconds offset (today a.original) = logBucket seconds offset a.original := by
    unfold logBucket
    rw [h.createdAt a ha]
  unfold todayDelta recordsDelta
  dsimp only
  rw [hbucket]
  by_cases hk : logBucket seconds offset a.original = k
  · rw [if_pos hk, if_pos hk]
    cases effectiveIncluded filter a <;> cases originalIncluded filter a <;> rfl
  · rw [if_neg hk, if_neg hk, ite_self, ite_self]
    rfl

theorem loop_starts {buckets' : List CostAccountingBucket} {as : List BillingEffectiveLog}
    (h : as.foldlM (projectBuckets filter seconds offset) buckets = .ok buckets') (k : ℤ) :
    k ∈ buckets'.map bucket ↔ k ∈ buckets.map bucket ∨ ∃ a ∈ as, logBucket seconds offset a.original = k := by
  induction as generalizing buckets with
  | nil =>
    cases h
    simp
  | cons a _ ih =>
    rw [foldlM_cons] at h
    obtain ⟨mid, hmid, h⟩ := bind_eq_ok.1 h
    have hkeys : k ∈ mid.map bucket ↔ k ∈ buckets.map bucket ∨ logBucket seconds offset a.original = k := by
      rw [changeBucket_keys (fun b b' hb' => (projectBucket_ok hb').1) hmid]
      split_ifs with hmem
      · constructor
        · exact Or.inl
        · rintro (hk | rfl)
          · exact hk
          · exact hmem
      · rw [mem_append, mem_singleton]
        exact or_congr_right eq_comm
    rw [ih h, hkeys, exists_mem_cons_iff, or_assoc]

/-- After the loop the buckets have the revenue and the number of the logs of today, and one starts wherever a log or a
corrected log stood. -/
theorem buckets_today (h : IsProjection env logs adjustments wanted today)
    (hloop : adjustments.foldlM (projectBuckets filter seconds offset)
      (bucketsOf (logBucket seconds offset) (baseRows logs wanted filter.group)) = .ok buckets) :
    BucketsOf (logBucket seconds offset) ((todayRows env logs adjustments wanted filter.group).map today)
      (fun k => (∃ log ∈ baseRows logs wanted filter.group, logBucket seconds offset log = k) ∨
        ∃ a ∈ adjustments, logBucket seconds offset a.original = k)
      (orderBy bucket buckets) := by
  have hbase := bucketsOf_ok (logBucket seconds offset) (baseRows logs wanted filter.group)
  have hsum : ∀ (field : CostAccountingBucket → ℤ) (d : BillingEffectiveLog → ℤ),
      (∀ start, field { bucket := start } = 0) →
      (∀ a b b', projectBucket filter a b = .ok b' → field b' = field b + d a) → ∀ k,
      bucketSum (fieldAt k field) (orderBy bucket buckets) =
        bucketSum (fieldAt k field) (bucketsOf (logBucket seconds offset) (baseRows logs wanted filter.group)) +
          (adjustments.map fun a => if logBucket seconds offset a.original = k then d a else 0).sum := by
    intro field d hzero hfield k
    rw [bucketSum_orderBy]
    exact foldlM_total (t := bucketSum (fieldAt k field))
      (d := fun a => if logBucket seconds offset a.original = k then d a else 0)
      (fun bs a bs' hstep => projectBuckets_total hzero (hfield a) hstep k) hloop
  have hnothing : ∀ k : ℤ,
      (adjustments.map fun a => if logBucket seconds offset a.original = k then (0 : ℤ) else 0).sum = 0 := by
    intro k
    simp
  refine ⟨orderBy_pairwise _ _, ?_, ?_, ?_, ?_, ?_, ?_⟩
  · refine ((orderBy_perm _ _).map _).nodup_iff.2 ?_
    exact foldlM_keeps (I := fun bs => (bs.map bucket).Nodup)
      (fun bs a bs' hstep hnodup => changeBucket_nodup (fun b b' hb' => (projectBucket_ok hb').1) hstep hnodup)
      hloop hbase.nodup
  · intro k
    rw [((orderBy_perm _ _).map _).mem_iff, loop_starts hloop, hbase.starts]
  · intro k
    rw [hsum _ (revenueDelta filter) (fun _ => rfl) (fun a b b' hb' => (projectBucket_ok hb').2), hbase.revenue,
      sum_today h, map_congr_left fun a ha => todayDelta_revenue h ha k]
  · intro k
    rw [hsum _ (recordsDelta filter) (fun _ => rfl) (fun a b b' hb' => (projectBucket_rest hb').1), hbase.records,
      sum_today h, map_congr_left fun a ha => todayDelta_number h ha k]
  · intro k
    rw [hsum _ (fun _ => 0) (fun _ => rfl) (fun a b b' hb' => by rw [(projectBucket_rest hb').2.1, Int.add_zero]),
      hbase.cost, hnothing, Int.add_zero]
  · intro k
    rw [hsum _ (fun _ => 0) (fun _ => rfl) (fun a b b' hb' => by rw [(projectBucket_rest hb').2.2, Int.add_zero]),
      hbase.profit, hnothing, Int.add_zero]

end Today

/-! ## The agreement -/

/-- Wherever a log stood before the corrections, or a corrected one stands, one stands today. -/
def BucketsKept (env : AccountingEnv) (logs : List Log) (adjustments : List BillingEffectiveLog) (wanted : Log → Bool)
    (group : String) (seconds offset : ℤ) : Prop :=
  (∀ log ∈ baseRows logs wanted group, ∃ log' ∈ todayRows env logs adjustments wanted group,
      logBucket seconds offset log' = logBucket seconds offset log) ∧
    ∀ a ∈ adjustments, ∃ log' ∈ todayRows env logs adjustments wanted group,
      logBucket seconds offset log' = logBucket seconds offset a.original

variable {logs : List Log}

theorem todayRows_base {today : Log → Log} (h : IsProjection env logs adjustments wanted today)
    {group : String} {log : Log} (hlog : log ∈ todayRows env logs adjustments wanted group) :
    log ∈ baseRows logs wanted group ∨ ∃ a ∈ adjustments, a.original = log := by
  obtain ⟨hmem, hmet⟩ := mem_filter.1 hlog
  by_cases horiginal : log ∈ adjustments.map BillingEffectiveLog.original
  · exact Or.inr (mem_map.1 horiginal)
  · rw [h.groupKept log hmem horiginal] at hmet
    exact Or.inl (mem_filter.2 ⟨hmem, hmet⟩)

theorem bucketsKept_iff {today : Log → Log} (h : IsProjection env logs adjustments wanted today)
    {group : String} :
    (∀ k, ((∃ log ∈ baseRows logs wanted group, logBucket seconds offset log = k) ∨
        ∃ a ∈ adjustments, logBucket seconds offset a.original = k) ↔
      ∃ row ∈ (todayRows env logs adjustments wanted group).map today, logBucket seconds offset row = k) ↔
      BucketsKept env logs adjustments wanted group seconds offset := by
  have hbucket : ∀ log ∈ logs, logBucket seconds offset (today log) = logBucket seconds offset log := by
    intro log hlog
    unfold logBucket
    by_cases horiginal : log ∈ adjustments.map BillingEffectiveLog.original
    · obtain ⟨a, ha, rfl⟩ := mem_map.1 horiginal
      rw [h.createdAt a ha]
    · rw [h.kept log hlog horiginal]
  have hrows : ∀ k, (∃ row ∈ (todayRows env logs adjustments wanted group).map today, logBucket seconds offset row = k) ↔
      ∃ log ∈ todayRows env logs adjustments wanted group, logBucket seconds offset log = k := by
    intro k
    constructor
    · rintro ⟨row, hrow, hk⟩
      obtain ⟨log, hlog, rfl⟩ := mem_map.1 hrow
      exact ⟨log, hlog, (hbucket log (mem_filter.1 hlog).1).symm.trans hk⟩
    · rintro ⟨log, hlog, hk⟩
      exact ⟨today log, mem_map_of_mem hlog, (hbucket log (mem_filter.1 hlog).1).trans hk⟩
  constructor
  · intro hall
    refine ⟨fun log hlog => ?_, fun a ha => ?_⟩
    · exact (hrows _).1 ((hall _).1 (Or.inl ⟨log, hlog, rfl⟩))
    · exact (hrows _).1 ((hall _).1 (Or.inr ⟨a, ha, rfl⟩))
  · rintro ⟨hbase, hcorrected⟩ k
    rw [hrows]
    constructor
    · rintro (⟨log, hlog, rfl⟩ | ⟨a, ha, rfl⟩)
      · exact hbase log hlog
      · exact hcorrected a ha
    · rintro ⟨log, hlog, rfl⟩
      rcases todayRows_base h hlog with hlog | ⟨a, ha, rfl⟩
      · exact Or.inl ⟨log, hlog, rfl⟩
      · exact Or.inr ⟨a, ha, rfl⟩

theorem zip_map_filter {α : Type} (q : α → Bool) (f : α → α) (l : List α) :
    ((l.zip (l.map f)).filter fun row => q row.1).map Prod.snd = (l.filter q).map f := by
  induction l with
  | nil => rfl
  | cons a _ ih =>
    rw [map_cons, zip_cons_cons, filter_cons, filter_cons]
    cases q a
    · exact ih
    · show f a :: _ = f a :: _
      rw [← ih]

theorem corrections_none (hcorrection : filter.logType = some .billingCorrection)
    (h : billingEffectiveLogs env db filter = .ok adjustments) : adjustments = [] := by
  unfold billingEffectiveLogs at h
  rw [hcorrection, if_pos (by decide)] at h
  cases h
  rfl

/-- The sum of the statistics is the loop over the corrected logs. -/
theorem effectiveStatistics_loop {statistics : LogStatistics} {f : Log → Bool}
    (hf : applyLogStatisticsFilter env (baseFilter filter) = .ok f)
    (hadjustments : billingEffectiveLogs env db filter = .ok adjustments)
    (h : sumBillingEffectiveLogStatistics env db filter = .ok statistics) :
    ∃ st, adjustments.foldlM (projectStatistics filter) (statisticsOf (db.logs.rows.filter f)) = .ok st ∧
      statistics = { st with revenueQuota := st.quota - st.refundQuota } := by
  unfold sumBillingEffectiveLogStatistics at h
  unfold baseFilter at hf
  split_ifs at h hf with hcorrection
  · obtain rfl := corrections_none hcorrection hadjustments
    rw [sumLog_ok hf] at h
    cases h
    exact ⟨_, rfl, rfl⟩
  · rw [sumLog_ok hf, hadjustments] at h
    replace h : (if adjustments = [] then ok (statisticsOf (db.logs.rows.filter f)) else do
      let statistics ← adjustments.foldlM (projectStatistics filter) (statisticsOf (db.logs.rows.filter f))
      if statistics.quota < 0 ∨ statistics.refundQuota < 0 then .error (.billing .evidenceIntegrity)
      else .ok { statistics with revenueQuota := statistics.quota - statistics.refundQuota }) = ok statistics := h
    split_ifs at h with hempty
    · subst hempty
      cases h
      exact ⟨_, rfl, rfl⟩
    · obtain ⟨st, hst, h⟩ := bind_eq_ok.1 h
      split_ifs at h
      cases h
      exact ⟨st, hst, rfl⟩

theorem sumLogBuckets_ok {f : CostAccountingFilter} {w : Log → Bool} (hseconds : ¬ seconds ≤ 0)
    (hw : applyLogStatisticsFilter env f = .ok w) :
    sumLogAccountingBuckets env logs f seconds offset =
      .ok (bucketsOf (logBucket seconds offset) (logs.filter w)) := by
  unfold sumLogAccountingBuckets
  rw [if_neg hseconds]
  exact bind_eq_ok.2 ⟨w, hw, rfl⟩

theorem orderBy_bucketsOf (key : Log → ℤ) (rows : List Log) :
    orderBy bucket (bucketsOf key rows) = bucketsOf key rows :=
  orderBy_of_sorted (bucketsOf_ok key rows).sorted

theorem effectiveBuckets_loop {buckets : List CostAccountingBucket} {f : Log → Bool}
    (hf : applyLogStatisticsFilter env (baseFilter filter) = .ok f)
    (hadjustments : billingEffectiveLogs env db filter = .ok adjustments)
    (h : sumBillingEffectiveLogBuckets env db filter seconds offset = .ok buckets) :
    ¬ seconds ≤ 0 ∧ ∃ projected, adjustments.foldlM (projectBuckets filter seconds offset)
        (bucketsOf (logBucket seconds offset) (db.logs.rows.filter f)) = .ok projected ∧
      buckets = orderBy bucket projected := by
  unfold sumBillingEffectiveLogBuckets at h
  unfold baseFilter at hf
  have hseconds : ¬ seconds ≤ 0 := by
    intro hle
    unfold sumLogAccountingBuckets at h
    rw [if_pos hle, if_pos hle] at h
    split_ifs at h
    cases h
  refine ⟨hseconds, ?_⟩
  split_ifs at h hf with hcorrection
  · obtain rfl := corrections_none hcorrection hadjustments
    rw [sumLogBuckets_ok hseconds hf] at h
    cases h
    exact ⟨_, rfl, (orderBy_bucketsOf _ _).symm⟩
  · rw [sumLogBuckets_ok hseconds hf, hadjustments] at h
    obtain ⟨base, hbase, hrest⟩ := bind_eq_ok.1 h
    cases hbase
    obtain ⟨as, has, hloop⟩ := bind_eq_ok.1 hrest
    cases has
    obtain ⟨projected, hprojected, hsorted⟩ := bind_eq_ok.1 hloop
    cases hsorted
    exact ⟨projected, hprojected, rfl⟩

/-- The statistics are those of the logs of today, and the buckets are if every bucket is kept, and only then. -/
theorem effectiveSums_agree (env : AccountingEnv) (p : ProjectionEnv) (db : DB) (filter : CostAccountingFilter)
    (seconds offset : ℤ) (wanted : Log → Bool) (adjustments : List BillingEffectiveLog) (rows : List Log)
    (statistics : LogStatistics) (buckets : List CostAccountingBucket)
    (hwanted : applyLogStatisticsFilter env (groupless filter) = .ok wanted)
    (hadjustments : billingEffectiveLogs env db filter = .ok adjustments)
    (hrows : effectiveRows env p db.logs.rows adjustments filter = .ok rows)
    (hstatistics : sumBillingEffectiveLogStatistics env db filter = .ok statistics)
    (hbuckets : sumBillingEffectiveLogBuckets env db filter seconds offset = .ok buckets)
    (hown : OwnIdentity env db.logs.rows adjustments) :
    sumLogFinancialStatistics env rows everyLog = .ok statistics ∧
      (sumLogAccountingBuckets env rows everyLog seconds offset = .ok buckets ↔
        BucketsKept env db.logs.rows adjustments wanted filter.group seconds offset) := by
  obtain ⟨wanted', hwanted', hrows⟩ := bind_eq_ok.1 hrows
  obtain rfl : wanted = wanted' := ok.inj (hwanted.symm.trans hwanted')
  obtain ⟨projected, hprojected, hrows⟩ := bind_eq_ok.1 hrows
  cases hrows
  have hprojection := isProjection hadjustments hwanted hown hprojected
  obtain ⟨rfl, -⟩ := projected_eq hprojected
  have hzip := zip_map_filter (fun log => wanted log && applyBillingEffectiveGroup env filter.group adjustments log)
    (logToday env p adjustments) db.logs.rows
  rw [hzip]
  change sumLogFinancialStatistics env ((todayRows env db.logs.rows adjustments wanted filter.group).map
    (logToday env p adjustments)) everyLog = _ ∧ (sumLogAccountingBuckets env ((todayRows env db.logs.rows adjustments
      wanted filter.group).map (logToday env p adjustments)) everyLog seconds offset = _ ↔ _)
  -- the filter of the sums over the table
  have hbase : ∃ f, applyLogStatisticsFilter env (baseFilter filter) = .ok f ∧
      db.logs.rows.filter f = baseRows db.logs.rows wanted filter.group := by
    cases hf : applyLogStatisticsFilter env (baseFilter filter) with
    | error =>
      exfalso
      unfold sumBillingEffectiveLogStatistics at hstatistics
      unfold baseFilter at hf
      split_ifs at hstatistics hf
      · rw [sumLogFinancialStatistics, hf] at hstatistics
        cases hstatistics
      · rw [sumLogFinancialStatistics, hf] at hstatistics
        cases hstatistics
    | ok f =>
      obtain ⟨w, hw, hgroup⟩ := wanted_group hf
      rw [← groupless_eq, hwanted] at hw
      cases hw
      refine ⟨f, rfl, filter_congr fun log _ => ?_⟩
      rw [hgroup log, baseFilter_group]
  obtain ⟨f, hf, hfilter⟩ := hbase
  obtain ⟨every, hevery, htrue⟩ := everyLog_wanted env
  have hall : ∀ l : List Log, l.filter every = l := fun l => filter_eq_self.2 fun log _ => htrue log
  refine ⟨?_, ?_⟩
  · obtain ⟨st, hst, rfl⟩ := effectiveStatistics_loop hf hadjustments hstatistics
    rw [hfilter] at hst
    rw [sumLog_ok hevery, hall, statistics_today hprojection hst]
  · obtain ⟨hseconds, projected, hloop, rfl⟩ := effectiveBuckets_loop hf hadjustments hbuckets
    rw [hfilter] at hloop
    rw [sumLogBuckets_ok hseconds hevery, hall, ok.injEq, eq_comm,
      (buckets_today hprojection hloop).eq_iff (bucketsOf_ok _ _), bucketsKept_iff hprojection]

def halfRate : ProjectionEnv where
  decodeRate text := if text = "0.5" then some (1 / 2) else none
  brokenMetadata _ := false

def chargeOfA : Log where
  id := 11
  userID := 7
  type := .consume
  quota := 100
  channelID := 1
  createdAt := 100
  group := "a"
  modelName := "m"
  requestID := "r"

/-- One charge of group a, which a correction moved to group b at half the rate. -/
def movedCharge : DB :=
  { DB.empty with
    entries :=
      { rows :=
          [{ id := 1, eventKey := "log:11", userID := 7, sequence := 1, postedAt := 100, kind := .usage, quota := 100,
             requestID := "r", modelName := "m", sourceLogID := 11, billingGroup := "a", billingRate := "1" },
            { id := 2, eventKey := "correction:apply:k:1", userID := 7, sequence := 2, postedAt := 200,
              kind := .rateCorrection, quota := -50, requestID := "r", modelName := "m", correctionID := "k",
              sourceEntryID := 1, billingGroup := "b", billingRate := "0.5" }]
        id_nodup := by decide
        eventKey_nodup := by decide
        sequence_nodup := by decide }
    logs := Table.empty.put chargeOfA }

/-- The charge as it is today. -/
def movedAdjustment : BillingEffectiveLog where
  original := chargeOfA
  quota := 50
  group := "b"
  rate := "0.5"
  pricing := none
  taskID := ""

def chargeOfB : Log :=
  { chargeOfA with quota := 50, group := "b", other := some { taskID := "", groupRatio := some (1 / 2) } }

theorem effectiveSums_agree_movedCharge :
    sumLogFinancialStatistics plainAccounting [chargeOfB] everyLog = .ok ⟨50, 0, 50, 1, 1⟩ ∧
      (sumLogAccountingBuckets plainAccounting [chargeOfB] everyLog 3600 0 = .ok [⟨0, 50, 0, 0, 1⟩] ↔
        BucketsKept plainAccounting movedCharge.logs.rows [movedAdjustment]
          (fun log => decide (log.type ≠ .billingCorrection)) "" 3600 0) :=
  effectiveSums_agree plainAccounting halfRate movedCharge {} 3600 0 (fun log => decide (log.type ≠ .billingCorrection))
    [movedAdjustment] [chargeOfB] ⟨50, 0, 50, 1, 1⟩ [⟨0, 50, 0, 0, 1⟩]
    (congrArg ok (funext fun log => by simp [groupless])) (by decide +kernel) (by decide +kernel)
    (by decide +kernel) (by decide +kernel) (by unfold OwnIdentity; decide +kernel)

/-- Group a has no log left, but keeps an empty bucket. -/
theorem effectiveSums_emptyBucket :
    billingEffectiveLogs plainAccounting movedCharge { group := "a" } = .ok [movedAdjustment] ∧
      effectiveRows plainAccounting halfRate movedCharge.logs.rows [movedAdjustment] { group := "a" } = .ok [] ∧
      sumBillingEffectiveLogBuckets plainAccounting movedCharge { group := "a" } 3600 0 = .ok [⟨0, 0, 0, 0, 0⟩] ∧
      sumLogAccountingBuckets plainAccounting [] everyLog 3600 0 = .ok [] := by
  decide +kernel

end NovaMaas.Billing
