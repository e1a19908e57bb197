/-
  The sales corrections of a task add up to one charge.

  Every row of a task walks the task's entries again, from the first to its own, against the amounts
  the task stood at and should stand at (`saleWalk`).  Its corrected amount is the difference of two
  states of that walk, so over the rows of a task the amounts telescope: to the repriced final amount
  for a task that succeeded, to nothing for a task that failed.

  That is, IF all rows walk against the same amounts.  The amounts of a row come from the pricing the
  claiming batch set for its own entry (group rate), or from its own effective rate (model pricing).
  `SameBasis` says that they agree along the task, and `sales_telescope` that this is enough;
  `mixedBasis_sum` is a preview where they do not and the task is charged neither price.
-/
import NovaMaas.Billing.CorrectionStack
import NovaMaas.Lib.Telescope

open List

namespace NovaMaas.Billing

open Txn Telescope BillingCorrectionRow

/-! ## The walk of a row is a lookup in one trace -/

/-- The corrected amount of the task after each entry. -/
def saleTrace (t : SaleTargets) (success : Bool) : ℤ → List BillingEntry → List (BillingEntry × ℤ)
  | _, [] => []
  | previous, source :: rest =>
    (source, if rest = [] ∧ success then t.newFinal else (t.state (previous + source.quota)).getD 0) ::
      saleTrace t success (previous + source.quota) rest

variable (t : SaleTargets) (success : Bool)

theorem map_fst_saleTrace : ∀ (entries : List BillingEntry)
    (previous : ℤ), (saleTrace t success previous entries).map Prod.fst = entries := by
  intro entries
  induction entries with
  | nil =>
    intro previous
    rfl
  | cons _ _ ih =>
    intro previous
    rw [saleTrace, map_cons, ih]

theorem saleWalk_eq (entryID : ℤ) : ∀ (entries : List BillingEntry)
    (first : Bool) (previous before : ℤ) (blocked : Option Blocked),
    entryID ∈ entries.map BillingEntry.id →
      stepAt BillingEntry.id entryID before (saleTrace t success previous entries) =
        some ((saleWalk t success entryID first previous before blocked entries).1,
          (saleWalk t success entryID first previous before blocked entries).2.1) := by
  intro entries
  induction entries with
  | nil =>
    intro first previous before blocked hmem
    exact absurd hmem not_mem_nil
  | cons source _ ih =>
    intro first previous before blocked hmem
    rw [saleTrace, stepAt, saleWalk]
    by_cases hid : source.id = entryID
    · rw [if_pos hid, if_pos hid]
    · rw [if_neg hid, if_neg hid]
      refine ih _ _ _ _ ?_
      rcases mem_cons.mp hmem with heq | hmem
      · exact absurd heq.symm hid
      · exact hmem

/-- A task that succeeded ends at the repriced amount; any other ends where its entries add up to. -/
theorem lastState_saleTrace : ∀ (entries : List BillingEntry)
    (previous before : ℤ), entries ≠ [] → lastState before (saleTrace t success previous entries) =
        if success then t.newFinal
        else (t.state (previous + (entries.map BillingEntry.quota).sum)).getD 0 := by
  intro entries
  induction entries with
  | nil =>
    intro previous before hne
    exact absurd rfl hne
  | cons _ rest ih =>
    intro previous before _
    rw [saleTrace, lastState]
    cases rest with
    | nil =>
      cases success with
      | true => rfl
      | false => simp [saleTrace, lastState]
    | cons source' rest =>
      rw [ih _ _ (cons_ne_nil _ _), map_cons (l := source' :: rest), sum_cons, Int.add_assoc]

variable {entries : List BillingEntry}

/-- The corrected amounts along a task. -/
theorem sum_saleWalk (hnodup : (entries.map BillingEntry.id).Nodup) (hne : entries ≠ []) :
    (entries.map fun e => worth id (stepAt BillingEntry.id e.id 0 (saleTrace t success 0 entries))).sum =
      if success then t.newFinal
      else (t.state (entries.map BillingEntry.quota).sum).getD 0 := by
  rw [sum_worth_of_trace BillingEntry.id id (map_fst_saleTrace t success entries 0) hnodup,
    lastState_saleTrace t success entries 0 0 hne, Int.zero_add, id, id, Int.sub_zero]

/-! ## An unblocked row -/

variable {blocked : Option Blocked}

theorem blockIf_eq_none {c : Prop} [Decidable c] {reason : Blocked} :
    blockIf c reason blocked = none ↔ ¬ c ∧ blocked = none := by
  unfold blockIf
  split
  · rename_i hc
    simp [hc]
  · rename_i hc
    simp [hc]

theorem saleWalk_unblocked (entryID : ℤ) :
    ∀ (entries : List BillingEntry) (first : Bool) (previous before : ℤ) (blocked : Option Blocked),
      (saleWalk t success entryID first previous before blocked entries).2.2 = none → blocked = none := by
  intro entries
  induction entries with
  | nil =>
    intro first previous before blocked h
    exact h
  | cons source _ ih =>
    intro first previous before blocked h
    have hlast : ∀ b : Option Blocked, (if first ∧ (previous ≠ 0 ∨ source.quota ≠ t.oldSubmission) then
        some Blocked.originalPriceMismatch else if (t.state (previous + source.quota)).isNone then
        some Blocked.originalPriceMismatch else if previous + source.quota < 0 ∨
        previous + source.quota > maxQuota then some Blocked.originalPriceMismatch else b) = none → b = none := by
      intro b hb
      split at hb
      · cases hb
      split at hb
      · cases hb
      split at hb
      · cases hb
      · exact hb
    rw [saleWalk] at h
    split at h
    · exact hlast blocked h
    · exact hlast blocked (ih _ _ _ _ h)

/-- The amounts a row of the task is corrected against. -/
def rowTargets (env : CorrectionEnv) (db : DB) (batch : BillingCorrection) (target : ℚ) (task : Task)
    (bc : TaskBillingContext) (entry : BillingEntry) : SaleTargets :=
  saleTargets env db batch.mode
    (rowPricing env db batch.mode target task entry.id
      (effectiveSale env db batch.userID batch.sourceSequence entry).rate) task bc entry.id

/-- The price the row of an entry is corrected to: a pricing and a group rate. -/
def newBasis (env : CorrectionEnv) (db : DB) (batch : BillingCorrection) (target : ℚ) (task : Task)
    (entry : BillingEntry) : CorrectionPricing × ℚ :=
  let p := rowPricing env db batch.mode target task entry.id
    (effectiveSale env db batch.userID batch.sourceSequence entry).rate
  (p.new, p.target)

/-- What an unblocked row says about its task, and its corrected amount. -/
structure SaleOf (env : CorrectionEnv) (db : DB) (batch : BillingCorrection) (target : ℚ) (task : Task)
    (bc : TaskBillingContext) (lifecycle : List BillingEntry) (entry : BillingEntry)
    (row : BillingCorrectionRow) : Prop where
  context : task.billingContext = some bc
  finished : task.status = .success ∨ task.status = .failure
  refunded : task.status = .failure → (lifecycle.map BillingEntry.quota).sum = 0
  settled : task.status = .success → (rowTargets env db batch target task bc entry).oldFinal = task.quota
  corrected : row.correctedQuota = worth id (stepAt BillingEntry.id entry.id 0
    (saleTrace (rowTargets env db batch target task bc entry) (task.status = .success) 0 lifecycle))
  model : row.modelName = bc.originModelName
  pricing : row.targetPricing = some (newBasis env db batch target task entry).1

variable {env : CorrectionEnv} {entry : BillingEntry} {rate : HistoricalRate} {db : DB}

variable {lifecycle : List BillingEntry}

variable {bc : TaskBillingContext} {mode : CorrectionMode} {task : Task} {p : RowPricing}

/-- The corrected amount of a row, blocked or not, is its step in the walk. -/
theorem saleCorrection_amount (hmem : entry ∈ lifecycle) :
    (saleCorrection env db mode rate p task bc lifecycle entry blocked).2 =
      worth id (stepAt BillingEntry.id entry.id 0
        (saleTrace (saleTargets env db mode p task bc entry.id) (task.status = .success) 0 lifecycle)) := by
  rw [saleWalk_eq _ _ _ _ true 0 0 (blockIf (task.status = .success ∧ ¬ p.old.perCallBilling ∧
    p.old.pricingMode = .tokens ∧ lifecycle.length = 1 ∧
      task.quota = (saleTargets env db mode p task bc entry.id).oldSubmission) .incompleteTaskRange
    (blockIf (env.encodeFloat bc.groupRatio ≠ rate.ratio ∨ task.tokenID ≠ entry.tokenID)
      .originalPriceMismatch blocked)) (mem_map_of_mem hmem)]
  rfl

/-- A row that is not blocked was not blocked before, and its task ends where it should: a failed one
    at nothing, a successful one at its original price. -/
theorem saleCorrection_unblocked

    (hopen : (saleCorrection env db mode rate p task bc lifecycle entry blocked).1 = none) :
    blocked = none ∧ (task.status = .failure → (lifecycle.map BillingEntry.quota).sum = 0) ∧
      (task.status = .success → (saleTargets env db mode p task bc entry.id).oldFinal = task.quota) := by
  unfold saleCorrection at hopen
  dsimp only at hopen
  rw [blockIf_eq_none, blockIf_eq_none, blockIf_eq_none] at hopen
  obtain ⟨-, hfinal, hcomplete, hwalk⟩ := hopen
  have hstart := saleWalk_unblocked _ _ _ _ _ _ _ _ hwalk
  rw [blockIf_eq_none, blockIf_eq_none] at hstart
  refine ⟨hstart.2.2, ?_, ?_⟩
  · intro hfailed
    by_contra hrest
    exact hfinal ⟨⟨hcomplete, hwalk⟩, Or.inl ⟨hfailed, hrest⟩⟩
  · intro hsuccess
    by_contra hrest
    refine hfinal ⟨⟨hcomplete, hwalk⟩, Or.inr (Or.inl ⟨hsuccess, ?_⟩)⟩
    rw [not_not.mp hcomplete]
    exact fun heq => hrest heq.symm

theorem taskBlocked_eq_none {effectiveRate : String}
    (hopen : taskBlocked env mode rate p task entry effectiveRate = none) :
    (∃ bc, task.billingContext = some bc ∧ entry.modelName = bc.originModelName) ∧
      (task.status = .success ∨ task.status = .failure) := by
  rw [taskBlocked, blockIf_eq_none, blockIf_eq_none, blockIf_eq_none] at hopen
  obtain ⟨-, -, hsupported, -⟩ := hopen
  constructor
  · cases hbc : task.billingContext with
    | none =>
      rw [hbc] at hsupported
      exact absurd (Or.inl rfl) hsupported
    | some bc =>
      refine ⟨bc, rfl, ?_⟩
      by_contra hmodel
      refine hsupported (Or.inl ?_)
      rw [hbc, Option.all_some, decide_eq_true_eq]
      exact fun heq => hmodel heq.symm
  · by_contra hstatus
    exact hsupported (Or.inr (Or.inr (Or.inr (not_or.mp hstatus))))

variable {batch : BillingCorrection}

variable {target : ℚ}

theorem taskRow_sale {sale : SaleState} (hsale : sale = effectiveSale env db batch.userID batch.sourceSequence entry)
    (hmem : entry ∈ taskEntries env db batch.userID entries task.taskID)
    (hopen : (taskRow env db batch target entries entry rate sale task).blocked = none) :
    ∃ bc, SaleOf env db batch target task bc (taskEntries env db batch.userID entries task.taskID) entry
      (taskRow env db batch target entries entry rate sale task) := by
  subst hsale
  cases hbc : task.billingContext with
  | none =>
    -- a task without a billing context is blocked
    simp only [taskRow, hbc] at hopen
    obtain ⟨⟨bc, hsome, -⟩, -⟩ := taskBlocked_eq_none hopen
    rw [hbc] at hsome
    cases hsome
  | some bc =>
    simp only [taskRow, hbc] at hopen
    obtain ⟨hblocked, hrefunded, hsettled⟩ := saleCorrection_unblocked hopen
    obtain ⟨⟨bc', hbc', hmodel⟩, hfinished⟩ := taskBlocked_eq_none hblocked
    rw [hbc] at hbc'
    cases hbc'
    refine ⟨bc, hbc, hfinished, hrefunded, hsettled, ?_, hmodel, rfl⟩
    simp only [taskRow, hbc]
    rw [if_pos hopen, saleCorrection_amount hmem]
    rfl

variable {row : BillingCorrectionRow}

/-- A row that is not blocked belongs to exactly one task. -/
theorem correctionRow_sale (h : correctionRow env db batch target entries entry = .ok row) (hentry : entry ∈ entries)
    (hopen : row.blocked = none) :
    ∃ task bc, tasksOf db batch.userID row.taskID = [task] ∧
      SaleOf env db batch target task bc (taskEntries env db batch.userID entries row.taskID) entry row := by
  have htask := (correctionRow_of h).task
  rw [correctionRow, Except.bind_eq_ok] at h
  obtain ⟨sale, hsale, h⟩ := h
  split at h
  · cases h
  · split at h
    · rename_i task htasks
      cases h
      have hid : task.taskID = (historicalRate env db batch.userID entry).taskID := by
        have hmem : task ∈ tasksOf db batch.userID (historicalRate env db batch.userID entry).taskID := by
          rw [htasks]
          exact mem_singleton_self task
        rw [tasksOf, mem_filter, Bool.and_eq_true, decide_eq_true_eq, decide_eq_true_eq] at hmem
        exact hmem.2.2
      have hmem : entry ∈ taskEntries env db batch.userID entries task.taskID := by
        rw [taskEntries, mem_filter, decide_eq_true_eq]
        exact ⟨hentry, hid.symm⟩
      obtain ⟨bc, hof⟩ := taskRow_sale (checkedSale_ok hsale) hmem hopen
      rw [hid] at hof
      refine ⟨task, bc, ?_, ?_⟩
      · rw [htask]
        exact htasks
      · rw [htask]
        exact hof
    · cases h
      cases hopen

/-! ## One basis for the whole task -/

/-- All rows of a task are corrected to the same price. -/
def SameBasis (env : CorrectionEnv) (db : DB) (batch : BillingCorrection) (target : ℚ) (task : Task)
    (lifecycle : List BillingEntry) : Prop :=
  ∀ e ∈ lifecycle, ∀ e' ∈ lifecycle, newBasis env db batch target task e = newBasis env db batch target task e'

theorem rowPricing_old (env : CorrectionEnv) (db : DB) (mode : CorrectionMode) (target : ℚ) (task : Task)
    (sourceID : ℤ) (effectiveRate : String) :
    (rowPricing env db mode target task sourceID effectiveRate).old = (taskPricing task).1 := by
  cases mode with
  | groupRate => rfl
  | modelPricing => rfl

/-- What a task comes to at a price: by its tokens, where the pricing goes by them; nothing if it failed. -/
def repricedFinal (env : CorrectionEnv) (task : Task) (basis : CorrectionPricing × ℚ) : ℤ :=
  if task.status = .success then
    orZero (env.pricingQuota basis.1 basis.2 (decide (0 < basis.1.modelRatio ∧ ¬ basis.1.perCallBilling)))
  else 0

/-- The amount that the walk of a row ends at. -/
theorem newFinal_eq {batch : BillingCorrection} (bc : TaskBillingContext) (e : BillingEntry)
    (hsuccess : task.status = .success) : (rowTargets env db batch target task bc e).newFinal =
      repricedFinal env task (newBasis env db batch target task e) := by
  simp only [rowTargets, saleTargets, repricedFinal, newBasis, hsuccess, if_true, and_true]
  split_ifs with hratio
  · exact congrArg (fun final => orZero (env.pricingQuota _ _ final)) (decide_eq_true hratio).symm
  · exact congrArg (fun final => orZero (env.pricingQuota _ _ final)) (decide_eq_false hratio).symm

/-- Rows that are not blocked and have the same price walk against the same amounts. -/
theorem rowTargets_eq
    {e e' : BillingEntry} {row' : BillingCorrectionRow} (h : SaleOf env db batch target task bc lifecycle e row)
    (h' : SaleOf env db batch target task bc lifecycle e' row')
    (hbasis : newBasis env db batch target task e = newBasis env db batch target task e') :
    rowTargets env db batch target task bc e = rowTargets env db batch target task bc e' := by
  have hfinal : (rowTargets env db batch target task bc e).oldFinal =
      (rowTargets env db batch target task bc e').oldFinal := by
    by_cases hsuccess : task.status = .success
    · rw [h.settled hsuccess, h'.settled hsuccess]
    · simp only [rowTargets, saleTargets, rowPricing_old, hsuccess, and_false, if_false]
  have hnew := congrArg Prod.fst hbasis
  have htarget := congrArg Prod.snd hbasis
  simp only [newBasis] at hnew htarget
  simp only [rowTargets, saleTargets] at hfinal ⊢
  rw [SaleTargets.mk.injEq]
  refine ⟨?_, hfinal, ?_, ?_⟩
  · rw [rowPricing_old, rowPricing_old]
  · rw [hnew, htarget]
  · rw [hnew, htarget]

/-- The source entries of a batch that belong to one task. -/
def lifecycleOf (env : CorrectionEnv) (db : DB) (batch : BillingCorrection) (startSequence : ℤ)
    (taskID : String) : List BillingEntry :=
  taskEntries env db batch.userID (correctionSources db batch startSequence) taskID

theorem lifecycleOf_nodup (env : CorrectionEnv) (db : DB) (batch : BillingCorrection)
    (startSequence : ℤ) (taskID : String) :
    ((lifecycleOf env db batch startSequence taskID).map BillingEntry.id).Nodup :=
  (correctionSources_nodup db batch startSequence).sublist (filter_sublist.map _)

variable {startSequence : ℤ}

variable {taskID : String}

theorem lifecycleOf_eq {e e' : BillingEntry} (he : e ∈ lifecycleOf env db batch startSequence taskID)
    (he' : e' ∈ lifecycleOf env db batch startSequence taskID) (hid : e.id = e'.id) : e = e' :=
  inj_on_of_nodup_map (lifecycleOf_nodup env db batch startSequence taskID) he he' hid

variable {rows : List BillingCorrectionRow}

/-- The rows of a task are one per entry of the task. -/
theorem evidence_perm (h : billingCorrectionEvidence env db batch startSequence = .ok rows) (taskID : String) :
    ((rows.filter fun row => row.taskID = taskID).map sourceEntryID).Perm
      ((lifecycleOf env db batch startSequence taskID).map BillingEntry.id) := by
  obtain ⟨target, sales, -, hsales, hrows⟩ := evidence_stages h
  have hcosts : (rows.map fun row => (row.taskID, row.sourceEntryID)) =
      (orderBy sourceEntryID sales).map fun row => (row.taskID, row.sourceEntryID) := by
    refine Except.map_of_mapM hrows ?_
    intro row row' hrow
    rw [(costRow_of hrow).sale]
    rfl
  have hids : (sales.map fun row => (row.taskID, row.sourceEntryID)) =
      (correctionSources db batch startSequence).map fun e =>
        ((historicalRate env db batch.userID e).taskID, e.id) := by
    refine Except.map_of_mapM hsales ?_
    intro e row hrow
    rw [(correctionRow_of hrow).task, (correctionRow_of hrow).source]
  have hperm := ((orderBy_perm sourceEntryID sales).map
    fun row => (row.taskID, row.sourceEntryID))
  rw [← hcosts, hids] at hperm
  have hselected := (hperm.filter fun p => p.1 = taskID).map Prod.snd
  rw [filter_map, filter_map, map_map, map_map] at hselected
  exact hselected

/-- A sum over the rows of a task is a sum over its entries. -/
theorem evidence_sum (h : billingCorrectionEvidence env db batch startSequence = .ok rows)
    {f : BillingCorrectionRow → ℤ} {g : ℤ → ℤ}
    (hf : ∀ row ∈ rows, row.taskID = taskID → f row = g row.sourceEntryID) :
    ((rows.filter fun row => row.taskID = taskID).map f).sum =
      ((lifecycleOf env db batch startSequence taskID).map fun e => g e.id).sum := by
  have hrows : ((rows.filter fun row => row.taskID = taskID).map f) =
      (rows.filter fun row => row.taskID = taskID).map fun row => g row.sourceEntryID := by
    refine map_congr_left ?_
    intro row hrow
    rw [mem_filter, decide_eq_true_eq] at hrow
    exact hf row hrow.1 hrow.2
  have hsum := ((evidence_perm h taskID).map g).sum_eq
  rw [map_map, map_map] at hsum
  rw [hrows]
  exact hsum

/-- Every row that is not blocked reads back to its task and its entry. -/
theorem evidence_sale (h : billingCorrectionEvidence env db batch startSequence = .ok rows)
    (hrow : row ∈ rows) (hopen : row.blocked = none) :
    ∃ target task bc, targetRate env batch = .ok target ∧ tasksOf db batch.userID row.taskID = [task] ∧
      ∃ e ∈ lifecycleOf env db batch startSequence row.taskID, row.sourceEntryID = e.id ∧
        SaleOf env db batch target task bc (lifecycleOf env db batch startSequence row.taskID) e row := by
  obtain ⟨target, sales, htarget, hsales, hrows⟩ := evidence_stages h
  obtain ⟨sale, hsale, hcost⟩ := Except.exists_of_mem_mapM hrows hrow
  obtain ⟨e, he, hof⟩ := Except.exists_of_mem_mapM hsales (mem_orderBy.mp hsale)
  obtain ⟨task, bc, htasks, hsaleof⟩ := correctionRow_sale hof he (costRow_unblocked hcost hopen)
  have htask : row.taskID = sale.taskID := by
    rw [(costRow_of hcost).sale]
    rfl
  refine ⟨target, task, bc, htarget, ?_, e, ?_, ?_, ?_⟩
  · rw [htask]
    exact htasks
  · rw [htask, lifecycleOf, taskEntries, mem_filter, decide_eq_true_eq]
    exact ⟨he, (correctionRow_of hof).task.symm⟩
  · rw [(costRow_of hcost).sale]
    exact (correctionRow_of hof).source
  · rw [htask, (costRow_of hcost).sale]
    exact ⟨hsaleof.context, hsaleof.finished, hsaleof.refunded, hsaleof.settled, hsaleof.corrected,
      hsaleof.model, hsaleof.pricing⟩

/-- The rows of a task are rows of one task. -/
theorem evidence_task (h : billingCorrectionEvidence env db batch startSequence = .ok rows)
    (hsome : ∃ row ∈ rows, row.taskID = taskID) (hopen : ∀ row ∈ rows, row.taskID = taskID → row.blocked = none) :
    ∃ target task bc, targetRate env batch = .ok target ∧ tasksOf db batch.userID taskID = [task] ∧
      lifecycleOf env db batch startSequence taskID ≠ [] ∧
      (∀ e ∈ lifecycleOf env db batch startSequence taskID, ∃ row ∈ rows, row.taskID = taskID ∧
        row.sourceEntryID = e.id) ∧
      ∀ row ∈ rows, row.taskID = taskID → ∃ e ∈ lifecycleOf env db batch startSequence taskID,
        row.sourceEntryID = e.id ∧
        SaleOf env db batch target task bc (lifecycleOf env db batch startSequence taskID) e row := by
  obtain ⟨row0, hrow0, rfl⟩ := hsome
  obtain ⟨target, task, bc, htarget, htasks, e0, he0, -, hsale0⟩ :=
    evidence_sale h hrow0 (hopen row0 hrow0 rfl)
  refine ⟨target, task, bc, htarget, htasks, ne_nil_of_mem he0, ?_, ?_⟩
  · intro e he
    have hid := (evidence_perm h row0.taskID).mem_iff.mpr (mem_map_of_mem he)
    obtain ⟨row, hrow, hsource⟩ := mem_map.mp hid
    rw [mem_filter, decide_eq_true_eq] at hrow
    exact ⟨row, hrow.1, hrow.2, hsource⟩
  · intro row hrow hid
    obtain ⟨target', task', bc', htarget', htasks', e, he, hsource, hsale⟩ :=
      evidence_sale h hrow (hopen row hrow hid)
    rw [hid] at htasks' he hsale
    rw [htarget] at htarget'
    cases htarget'
    rw [htasks] at htasks'
    cases htasks'
    have hbc := hsale.context
    rw [hsale0.context] at hbc
    cases hbc
    exact ⟨e, he, hsource, hsale⟩

/-- **Sales corrections telescope.**  Where no row of a task is blocked, the task is one task, it has
    finished, and, if all its rows are corrected to the same price, their corrected amounts add up
    to the repriced final amount of a task that succeeded and to nothing for a task that failed.  The
    repricing function is arbitrary. -/
theorem sales_telescope (env : CorrectionEnv) (db : DB) (batch : BillingCorrection) (startSequence : ℤ)
    (rows : List BillingCorrectionRow)
    (h : billingCorrectionEvidence env db batch startSequence = .ok rows) (taskID : String)
    (hsome : ∃ row ∈ rows, row.taskID = taskID)
    (hopen : ∀ row ∈ rows, row.taskID = taskID → row.blocked = none) :
    ∃ target task bc, targetRate env batch = .ok target ∧ tasksOf db batch.userID taskID = [task] ∧
      task.billingContext = some bc ∧ (task.status = .success ∨ task.status = .failure) ∧
      lifecycleOf env db batch startSequence taskID ≠ [] ∧
      (SameBasis env db batch target task (lifecycleOf env db batch startSequence taskID) →
        ∀ e ∈ lifecycleOf env db batch startSequence taskID,
          ((rows.filter fun row => row.taskID = taskID).map BillingCorrectionRow.correctedQuota).sum =
            repricedFinal env task (newBasis env db batch target task e)) := by
  obtain ⟨target, task, bc, htarget, htasks, hne, hcover, hof⟩ := evidence_task h hsome hopen
  obtain ⟨row0, hrow0, hid0⟩ := hsome
  obtain ⟨_, _, _, hsale0⟩ := hof row0 hrow0 hid0
  refine ⟨target, task, bc, htarget, htasks, hsale0.context, hsale0.finished, hne, ?_⟩
  intro hbasis e he
  obtain ⟨row, hrow, hid, hsource⟩ := hcover e he
  obtain ⟨e', he', hsource', hsale⟩ := hof row hrow hid
  cases lifecycleOf_eq he' he (hsource'.symm.trans hsource)
  -- against the amounts of `e` every row is a step of the same walk
  rw [evidence_sum h (g := fun k => worth id (stepAt BillingEntry.id k 0
    (saleTrace (rowTargets env db batch target task bc e) (task.status = .success) 0
      (lifecycleOf env db batch startSequence taskID))))]
  · rw [sum_saleWalk _ _ (lifecycleOf_nodup env db batch startSequence taskID) hne]
    rcases hsale.finished with hsuccess | hfailure
    · rw [if_pos (decide_eq_true hsuccess), newFinal_eq bc e hsuccess]
    · have hno : ¬ task.status = .success := by
        rw [hfailure]
        decide
      rw [repricedFinal, if_neg hno, if_neg (by rw [decide_eq_true_eq]; exact hno), hsale.refunded hfailure]
      rfl
  · intro row' hrow' hid'
    obtain ⟨e', he', hsource', hsale'⟩ := hof row' hrow' hid'
    rw [hsale'.corrected, hsource', rowTargets_eq hsale' hsale (hbasis e' he' e he)]

/-! ## A task with one price and a task with two -/

/-- A task that is submitted at 250000 and settled at 300000. -/
def tokenTask : Task where
  id := 1
  taskID := "t"
  userID := 1
  group := "vip"
  quota := 250000
  status := .success
  totalTokens := some 300000
  billingContext := some { modelPrice := 1 / 2, modelRatio := 1, groupRatio := 1, originModelName := "m" }

/-- Its customer. -/
def oneTokenTask : DB :=
  { DB.empty with
    users := Table.empty.put
      { id := 1, username := "u", group := "vip", quota := 5000000, usedQuota := 250000 }
    tasks := Table.empty.put tokenTask
    logs := Table.empty.put
      { id := 1, userID := 1, type := .consume, modelName := "m", quota := 250000, group := "vip"
        requestID := "r", other := some { taskID := "t", groupRatio := some 1 } }
    channels := Table.empty.put { id := 0 } }

/-- Submit the task. -/
def submitTokenTask : List BillingCall :=
  [.save 1000 1 0 "" "" (some 0),
    .ledger (.begin 2000 { id := "o", userID := 1, requestID := "r", modelName := "m", reserved := 250000 }),
    .ledger (.finish 2001 "o" 1 250000 false)]

/-- Settle it by its tokens. -/
def settleTokenTask : BillingCall := .ledger (.taskQuota 2100 "u" tokenTask 300000 "m")

/-- The correction to the group rate 2. -/
def toRateTwo : BillingCorrectionInput where
  userID := 1
  startAt := 1000
  endAt := 3000
  models := ["m"]
  mode := .groupRate
  targetGroup := "vip"
  reason := "rate"

/-- The live price list charges twice as much as the task was charged. -/
def doubledPrices : CorrectionEnv :=
  exactEnv [("1", 1), ("2", 2)] fun task =>
    ({ (taskPricing task).1 with
        modelPrice := 2 * (taskPricing task).1.modelPrice
        modelRatio := 2 * (taskPricing task).1.modelRatio }, (taskPricing task).2)

/-- Submitted and settled. -/
def tokenSettled : DB :=
  run (BillingCall.exec doubledPrices) oneTokenTask (submitTokenTask ++ [settleTokenTask])

/-- The batch a preview of its correction starts from. -/
def tokenBatch : BillingCorrection :=
  { newBatch 4000 "p2" toRateTwo 9 "2" "vip" with sourceSequence := 2 }

/-- Both rows at the group rate 2: 500000 for the submission and 100000 for the settlement make the
    600000 of the repriced task. -/
theorem sales_telescope_tokenTask :
    ∃ rows, billingCorrectionEvidence doubledPrices tokenSettled tokenBatch 0 = .ok rows ∧
      rows.map BillingCorrectionRow.correctedQuota = [500000, 100000] ∧
      ∃ target task, tasksOf tokenSettled 1 "t" = [task] ∧ SameBasis doubledPrices tokenSettled tokenBatch target task
          (lifecycleOf doubledPrices tokenSettled tokenBatch 0 "t") ∧
        ∀ e ∈ lifecycleOf doubledPrices tokenSettled tokenBatch 0 "t",
          ((rows.filter fun row => row.taskID = "t").map BillingCorrectionRow.correctedQuota).sum =
            repricedFinal doubledPrices task (newBasis doubledPrices tokenSettled tokenBatch target task e) := by
  have hkept : (billingCorrectionEvidence doubledPrices tokenSettled tokenBatch 0).map (fun rows =>
      rows.map fun row => (row.taskID, row.blocked, row.correctedQuota)) =
        .ok [("t", none, 500000), ("t", none, 100000)] := by
    decide +kernel
  cases hrows : billingCorrectionEvidence doubledPrices tokenSettled tokenBatch 0 with
  | error =>
    rw [hrows] at hkept
    cases hkept
  | ok rows =>
    rw [hrows] at hkept
    have hmap : (rows.map fun row => (row.taskID, row.blocked, row.correctedQuota)) =
        [("t", none, 500000), ("t", none, 100000)] := Except.ok.inj hkept
    have hall : ∀ row ∈ rows, row.taskID = "t" ∧ row.blocked = none := by
      intro row hrow
      have hmem := mem_map_of_mem (f := fun row : BillingCorrectionRow =>
        (row.taskID, row.blocked, row.correctedQuota)) hrow
      rw [hmap] at hmem
      rcases mem_cons.mp hmem with heq | hmem
      · rw [Prod.mk.injEq, Prod.mk.injEq] at heq
        exact ⟨heq.1, heq.2.1⟩
      · rw [mem_singleton, Prod.mk.injEq, Prod.mk.injEq] at hmem
        exact ⟨hmem.1, hmem.2.1⟩
    have hsome : ∃ row ∈ rows, row.taskID = "t" := by
      cases rows with
      | nil => cases hmap
      | cons row => exact ⟨row, mem_cons_self, (hall row mem_cons_self).1⟩
    obtain ⟨target, task, bc, htarget, htasks, -, -, -, hsum⟩ := sales_telescope doubledPrices
      tokenSettled tokenBatch 0 rows hrows "t" hsome fun row hrow _ => (hall row hrow).2
    have hbasis : ∀ task ∈ tasksOf tokenSettled 1 "t", SameBasis doubledPrices tokenSettled tokenBatch 2 task
        (lifecycleOf doubledPrices tokenSettled tokenBatch 0 "t") := by
      unfold SameBasis
      decide +kernel
    have htwo : targetRate doubledPrices tokenBatch = .ok 2 := by decide +kernel
    rw [htwo] at htarget
    cases htarget
    have hsame := hbasis task (by rw [show tasksOf tokenSettled 1 "t" = [task] from htasks]; simp)
    refine ⟨rows, rfl, ?_, 2, task, htasks, hsame, hsum hsame⟩
    have := congrArg (map fun x : String × Option Blocked × ℤ => x.2.2) hmap
    rw [map_map] at this
    exact this

/-- Submitted and previewed at the live price list before it is settled. -/
def pricedTokenTask : DB :=
  run (BillingCall.exec doubledPrices) oneTokenTask (submitTokenTask ++ [.preview 2050 "p1"
      { userID := 1, startAt := 1000, endAt := 2040, models := ["m"], mode := .modelPricing
        targetGroup := "", reason := "price" } 9 "" "vip"])

/-- That correction is applied, then the task settled, then the group rate previewed: the submission
    keeps the live price list, the settlement the original one. -/
def mixedPreviewed : DB :=
  run (BillingCall.exec doubledPrices) pricedTokenTask
    [.correct { requestFor pricedTokenTask "p1" "" false with
        userGroup := "vip", now := 2060, clock := fun _ => 2060, finishedAt := 2060 },
      settleTokenTask, .preview 4000 "p2" toRateTwo 9 "2" "vip"]

/-- No row is blocked and the preview can be applied, but the task is charged 1100000: neither the
    1200000 of the live price list nor the 600000 of the original one. -/
theorem mixedBasis_sum : (mixedPreviewed.corrections.get? "p2").map (fun batch =>
        (batch.canApply, batch.rows.map fun row => (row.taskID, row.blocked, row.correctedQuota))) =
      some (true, [("t", none, 1000000), ("t", none, 100000)]) ∧
    (mixedPreviewed.corrections.get? "p2").map (fun batch => (tasksOf mixedPreviewed 1 "t").map fun task =>
        (task.status, (lifecycleOf doubledPrices mixedPreviewed batch 0 "t").map fun e =>
          repricedFinal doubledPrices task (newBasis doubledPrices mixedPreviewed batch 2 task e))) =
      some [(.success, [1200000, 600000])] := by
  decide +kernel

end NovaMaas.Billing
