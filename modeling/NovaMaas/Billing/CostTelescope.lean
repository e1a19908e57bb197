/-
  The cost corrections of a task add up to one rounded cost.

  A row with cumulative amounts costs the DIFFERENCE of two rounded products, so along a chain of
  cumulative amounts the costs telescope to the rounded cost of the last amount, whatever the
  discount (`sum_of_cumulative`).  A model-pricing correction freezes such a chain: its rows look
  their amounts up in one walk over the task (`costWalk`), from zero to the supplier price of the
  task.  A group-rate correction keeps the amounts its sources have, so it telescopes on sources that
  were corrected before.

  A source that was never corrected has no cumulative amounts.  There every row is rounded on its
  own, and `roundedRowByRow` is a preview where the rows do not add up to the rounded cost.
-/
import NovaMaas.Billing.SaleTelescope

open List Except

namespace NovaMaas.Billing

open Txn Telescope

/-! ## Chains of cumulative amounts -/

/-- What an amount costs at a discount. -/
def costAt (multiplier amount : ℚ) : ℤ := roundHalfAway (amount * multiplier)

@[simp] theorem costAt_zero (multiplier : ℚ) : costAt multiplier 0 = 0 := by
  rw [costAt, zero_mul]
  decide +kernel

theorem quotaFromDecimalChecked_ok {q : ℚ} {n : ℤ} (h : quotaFromDecimalChecked q = .ok n) : n = roundHalfAway q := by
  rw [quotaFromDecimalChecked] at h
  split at h
  · cases h
  · cases h
    rfl

variable {discount : String}

variable {multiplier : ℚ}

theorem costAccountingBasisQuota_cumulative {basis : Option Decimal} {before after : Decimal}
    {quota : ℤ} (hm : discountMultiplier discount = .ok multiplier)
    (h : costAccountingBasisQuota basis (some before) (some after) discount = .ok quota) :
    quota = costAt multiplier after.value - costAt multiplier before.value := by
  rw [costAccountingBasisQuota, bind_eq_ok] at h
  obtain ⟨value, -, h⟩ := h
  rw [hm, bind_eq_ok] at h
  obtain ⟨_, hmul, h⟩ := h
  cases hmul
  rw [if_pos (Or.inl (Option.some_ne_none _))] at h
  dsimp only at h
  split at h
  · cases h
  · rw [bind_eq_ok] at h
    obtain ⟨previous, hprevious, h⟩ := h
    rw [bind_eq_ok] at h
    obtain ⟨current, hcurrent, h⟩ := h
    cases h
    rw [quotaFromDecimalChecked_ok hprevious, quotaFromDecimalChecked_ok hcurrent, costAt, costAt]

theorem costAccountingBasisQuota_plain {basis : Decimal} {quota : ℤ}
    (hm : discountMultiplier discount = .ok multiplier)
    (h : costAccountingBasisQuota (some basis) none none discount = .ok quota) :
    quota = costAt multiplier basis.value := by
  rw [costAccountingBasisQuota, bind_eq_ok] at h
  obtain ⟨value, hvalue, h⟩ := h
  cases hvalue
  rw [hm, bind_eq_ok] at h
  obtain ⟨_, hmul, h⟩ := h
  cases hmul
  rw [if_neg (by simp)] at h
  exact quotaFromDecimalChecked_ok h

theorem discountMultiplier_of_quota {basis before after : Option Decimal} {quota : ℤ}
    (h : costAccountingBasisQuota basis before after discount = .ok quota) :
    ∃ multiplier, discountMultiplier discount = .ok multiplier := by
  rw [costAccountingBasisQuota, bind_eq_ok] at h
  obtain ⟨_, -, h⟩ := h
  rw [bind_eq_ok] at h
  obtain ⟨multiplier, hm, -⟩ := h
  exact ⟨multiplier, hm⟩

/-- Every amount starts where the one before it ended. -/
def Cumulative : ℚ → List CostBasis → ℚ → Prop
  | first, [], last => first = last
  | first, b :: bs, last => ∃ before after, b.before = some before ∧ b.after = some after ∧
      before.value = first ∧ Cumulative after.value bs last

/-- The cost of a basis. -/
def basisQuota (discount : String) (b : CostBasis) : Except BillingError ℤ :=
  costAccountingBasisQuota b.basis b.before b.after discount

/-- Along a chain the costs telescope. -/
theorem sum_of_cumulative
    (hm : discountMultiplier discount = .ok multiplier) : ∀ {bs : List CostBasis} {first last : ℚ}
    {quotas : List ℤ}, Cumulative first bs last →
      List.Forall₂ (fun b quota => basisQuota discount b = .ok quota) bs quotas →
        quotas.sum = costAt multiplier last - costAt multiplier first := by
  intro bs
  induction bs with
  | nil =>
    intro first last quotas hchain hquotas
    cases hquotas
    cases hchain
    exact (Int.sub_self _).symm
  | cons _ _ ih =>
    intro first last quotas hchain hquotas
    obtain ⟨before, after, hbefore, hafter, rfl, hrest⟩ := hchain
    cases hquotas with
    | cons hb hbs =>
      rw [basisQuota, hbefore, hafter] at hb
      rw [sum_cons, ih hrest hbs, costAccountingBasisQuota_cumulative hm hb]
      omega

/-! ## The walk of a row is a lookup in one trace -/

/-- What a task that stood at `cumulative` costs the supplier. -/
def costState (oldSubmission taskQuota : ℤ) (pre final : ℚ) (cumulative : ℤ) : Option ℚ :=
  if cumulative = 0 then some 0 else if cumulative = oldSubmission then some pre
  else if cumulative = taskQuota then some final else none

/-- The supplier amount of the task after each entry. -/
def costTrace (oldSubmission taskQuota : ℤ) (pre final : ℚ) (success : Bool) :
    ℤ → List BillingEntry → List (BillingEntry × ℚ)
  | _, [] => []
  | cumulative, source :: rest =>
    (source, if rest = [] ∧ success then final
      else (costState oldSubmission taskQuota pre final (cumulative + source.quota)).getD 0) ::
      costTrace oldSubmission taskQuota pre final success (cumulative + source.quota) rest

variable (oldSubmission taskQuota : ℤ) (pre final : ℚ) (success : Bool)

theorem map_fst_costTrace : ∀ (entries : List BillingEntry) (cumulative : ℤ),
      (costTrace oldSubmission taskQuota pre final success cumulative entries).map Prod.fst = entries := by
  intro entries
  induction entries with
  | nil =>
    intro cumulative
    rfl
  | cons _ _ ih =>
    intro cumulative
    rw [costTrace, map_cons, ih]

theorem costWalk_eq (entryID : ℤ) : ∀ (entries : List BillingEntry) (cumulative : ℤ) (previous : ℚ) (walk : ℚ × ℚ),
      costWalk oldSubmission taskQuota pre final success entryID cumulative previous entries = .ok walk →
      entryID ∈ entries.map BillingEntry.id → stepAt BillingEntry.id entryID previous
          (costTrace oldSubmission taskQuota pre final success cumulative entries) = some walk := by
  intro entries
  induction entries with
  | nil =>
    intro cumulative previous walk _ hmem
    exact absurd hmem not_mem_nil
  | cons source _ ih =>
    intro cumulative previous walk h hmem
    rw [costWalk] at h
    split at h
    · cases h
    · rename_i state hstate
      rw [costTrace, stepAt, costState, hstate, Option.getD_some]
      by_cases hid : source.id = entryID
      · rw [if_pos hid] at h ⊢
        cases h
        rfl
      · rw [if_neg hid] at h ⊢
        refine ih _ _ _ h ?_
        rcases mem_cons.mp hmem with heq | hmem
        · exact absurd heq.symm hid
        · exact hmem

theorem lastState_costTrace : ∀ (entries : List BillingEntry) (cumulative : ℤ) (previous : ℚ), entries ≠ [] →
      lastState previous (costTrace oldSubmission taskQuota pre final success cumulative entries) =
        if success then final
        else (costState oldSubmission taskQuota pre final
          (cumulative + (entries.map BillingEntry.quota).sum)).getD 0 := by
  intro entries
  induction entries with
  | nil =>
    intro cumulative previous hne
    exact absurd rfl hne
  | cons _ rest ih =>
    intro cumulative previous _
    rw [costTrace, lastState]
    cases rest with
    | nil =>
      cases success with
      | true => rfl
      | false => simp [costTrace, lastState]
    | cons source' rest =>
      rw [ih _ _ (cons_ne_nil _ _), map_cons (l := source' :: rest), sum_cons, Int.add_assoc]

/-! ## The frozen cost of a row -/

/-- The basis a cost is corrected to. -/
def BillingCorrectionCost.targetCostBasis (cost : BillingCorrectionCost) : CostBasis where
  basis := cost.targetBasis
  before := cost.targetBefore
  after := cost.targetAfter
  version := cost.targetBasisVersion

/-- The basis a cost is corrected from. -/
def BillingCorrectionCost.currentCostBasis (cost : BillingCorrectionCost) : CostBasis where
  basis := cost.currentBasis
  before := cost.currentBefore
  after := cost.currentAfter
  version := cost.currentBasisVersion

/-- How the cost of a row was frozen. -/
inductive FrozenBy (env : CorrectionEnv) (db : DB) (batch : BillingCorrection)
    (rows : List BillingCorrectionRow) (row : BillingCorrectionRow) (cost : BillingCorrectionCost) : Prop
  | groupRate (snapshot : CostAccountingSnapshot) (state : CostAccountingState)
      (mode : batch.mode = .groupRate)
      (current : cost.currentCostBasis = ⟨state.basis, state.before, state.after, state.basisVersion⟩)
      (target : groupRateBasis env row snapshot state = .ok cost.targetCostBasis)
  | modelPricing (task : Task) (bc : TaskBillingContext) (pricing : CorrectionPricing)
      (mode : batch.mode = .modelPricing)
      (last : (tasksOf db batch.userID row.taskID).getLast? = some task)
      (context : task.billingContext = some bc) (new : row.targetPricing = some pricing)
      (target : modelPricingBasis env db batch rows row task bc pricing = .ok cost.targetCostBasis)

variable {env : CorrectionEnv} {cost : BillingCorrectionCost} {db : DB}

variable {row row' : BillingCorrectionRow}

theorem freezeCost_frozen {snapshot : CostAccountingSnapshot}
    {state : CostAccountingState} {channelDiscount discount : String} {b : CostBasis} (hnone : row.targetCost = none)
    (h : freezeCost env db row snapshot state channelDiscount discount b = .ok row')
    (hcost : row'.targetCost = some cost) :
    cost.targetCostBasis = b ∧
      cost.currentCostBasis = ⟨state.basis, state.before, state.after, state.basisVersion⟩ := by
  rw [freezeCost, bind_eq_ok] at h
  obtain ⟨target, -, h⟩ := h
  split at h
  · cases h
    rw [costBlocked, hnone] at hcost
    cases hcost
  · split at h
    · cases h
      rw [costBlocked, hnone] at hcost
      cases hcost
    · cases h
      cases hcost
      exact ⟨rfl, rfl⟩

variable {rows : List BillingCorrectionRow} {batch : BillingCorrection}

theorem snapshotRow_frozen {channelDiscount : String}
    {snapshot : CostAccountingSnapshot} (hnone : row.targetCost = none)
    (h : snapshotRow env db batch rows row channelDiscount snapshot = .ok row')
    (hcost : row'.targetCost = some cost) :
    FrozenBy env db batch rows row cost := by
  rw [snapshotRow] at h
  split at h
  · cases h
  rw [bind_eq_ok] at h
  obtain ⟨state, -, h⟩ := h
  split at h
  · cases h
    rw [hnone] at hcost
    cases hcost
  split at h
  · rename_i hmode
    rw [bind_eq_ok] at h
    obtain ⟨b, hb, h⟩ := h
    obtain ⟨rfl, hcurrent⟩ := freezeCost_frozen hnone h hcost
    exact .groupRate snapshot state hmode hcurrent hb
  · rename_i hmode
    split at h
    · rename_i task bc pricing htask hpricing
      rw [bind_eq_ok] at h
      obtain ⟨b, hb, h⟩ := h
      obtain ⟨rfl, -⟩ := freezeCost_frozen hnone h hcost
      obtain ⟨task', hlast, hmap⟩ := Option.bind_eq_some_iff.mp htask
      obtain ⟨bc', hbc, heq⟩ := Option.map_eq_some_iff.mp hmap
      cases heq
      exact .modelPricing task bc pricing hmode hlast hbc hpricing hb
    · cases h
      rw [costBlocked, hnone] at hcost
      cases hcost

theorem costRow_frozen (hnone : row.targetCost = none)
    (h : costRow env db batch rows row = .ok row') (hcost : row'.targetCost = some cost) :
    FrozenBy env db batch rows row cost := by
  rw [costRow] at h
  split at h
  · cases h
    rw [hnone] at hcost
    cases hcost
  rw [bind_eq_ok] at h
  obtain ⟨logID, -, h⟩ := h
  rw [bind_eq_ok] at h
  obtain ⟨channelDiscount, -, h⟩ := h
  split at h
  · split at h
    · cases h
      rw [costBlocked, hnone] at hcost
      cases hcost
    · cases h
      rw [hnone] at hcost
      cases hcost
  · exact snapshotRow_frozen hnone h hcost

/-! ## The costs of a task -/

/-- The supplier amounts a task of a model-pricing correction can stand at. -/
structure SupplierPrice (env : CorrectionEnv) (task : Task) (bc : TaskBillingContext) (oldSubmission : ℤ)
    (pre final : ℚ) : Prop where
  submission : env.pricingQuota (taskPricing task).1 bc.groupRatio false = .ok oldSubmission
  pre : billingCorrectionCostBasis env (env.currentPricing task).1 bc.originModelName false = .ok pre
  final : finalCostBasis env (env.currentPricing task).1 bc.originModelName task = .ok final

variable {bc : TaskBillingContext}

theorem SupplierPrice.unique {task : Task} {o o' : ℤ} {pre pre' final final' : ℚ}
    (h : SupplierPrice env task bc o pre final)
    (h' : SupplierPrice env task bc o' pre' final') : o = o' ∧ pre = pre' ∧ final = final' :=
  ⟨ok.inj (h.submission.symm.trans h'.submission), ok.inj (h.pre.symm.trans h'.pre),
    ok.inj (h.final.symm.trans h'.final)⟩

theorem modelPricingBasis_ok {row : BillingCorrectionRow} {task : Task} {b : CostBasis}
    (hmodel : row.modelName = bc.originModelName)
    (h : modelPricingBasis env db batch rows row task bc (env.currentPricing task).1 = .ok b) :
    ∃ oldSubmission pre final walk, SupplierPrice env task bc oldSubmission pre final ∧
      costWalk oldSubmission task.quota pre final (task.status = .success) row.sourceEntryID 0 0
        (costLifecycle db batch.userID rows row.taskID) = .ok walk ∧
      b.before = some { value := walk.1 } ∧ b.after = some { value := walk.2 } := by
  rw [modelPricingBasis] at h
  split at h
  · cases h
  · rw [bind_eq_ok] at h
    obtain ⟨oldSubmission, hold, h⟩ := h
    rw [bind_eq_ok] at h
    obtain ⟨pre, hpre, h⟩ := h
    rw [bind_eq_ok] at h
    obtain ⟨final, hfinal, h⟩ := h
    rw [bind_eq_ok] at h
    obtain ⟨walk, hwalk, h⟩ := h
    cases h
    rw [hmodel] at hpre hfinal
    exact ⟨oldSubmission, pre, final, walk, ⟨hold, hpre, hfinal⟩, hwalk, rfl, rfl⟩

/-- Only the sources and tasks of the rows select the entries. -/
theorem costLifecycle_congr {userID : ℤ} {rows rows' : List BillingCorrectionRow}
    (h : (rows.map fun row => (row.taskID, row.sourceEntryID)) = rows'.map fun row => (row.taskID, row.sourceEntryID))
    (taskID : String) :
    costLifecycle db userID rows taskID = costLifecycle db userID rows' taskID := by
  have hany : ∀ (rows : List BillingCorrectionRow) (id : ℤ),
      (rows.any fun row => row.sourceEntryID = id && row.taskID = taskID) =
        (rows.map fun row => (row.taskID, row.sourceEntryID)).any fun p => p.2 = id && p.1 = taskID := by
    intro rows id
    rw [any_map]
    rfl
  simp only [costLifecycle, hany, h]

variable {startSequence : ℤ}

/-- The costs walk over the same entries as the sales. -/
theorem costLifecycle_perm (h : billingCorrectionEvidence env db batch startSequence = .ok rows) (taskID : String) :
    (costLifecycle db batch.userID rows taskID).Perm (lifecycleOf env db batch startSequence taskID) := by
  have hnodup : (costLifecycle db batch.userID rows taskID).Nodup := by
    refine (orderBy_perm _ _).nodup_iff.mpr ?_
    exact (List.Nodup.of_map _ db.entries.id_nodup).filter _
  refine (perm_ext_iff_of_nodup hnodup
    (List.Nodup.of_map _ (lifecycleOf_nodup env db batch startSequence taskID))).mpr ?_
  intro e
  have hid : (∃ row ∈ rows, row.sourceEntryID = e.id ∧ row.taskID = taskID) ↔
      e.id ∈ (lifecycleOf env db batch startSequence taskID).map BillingEntry.id := by
    rw [← (evidence_perm h taskID).mem_iff, mem_map]
    constructor
    · rintro ⟨row, hrow, hsource, htask⟩
      exact ⟨row, mem_filter.mpr ⟨hrow, decide_eq_true htask⟩, hsource⟩
    · rintro ⟨row, hrow, hsource⟩
      rw [mem_filter, decide_eq_true_eq] at hrow
      exact ⟨row, hrow.1, hsource, hrow.2⟩
  have hentry : ∀ e' ∈ lifecycleOf env db batch startSequence taskID,
      e' ∈ db.entries.rows ∧ e'.userID = batch.userID := by
    intro e' he'
    have hsource := mem_filter.mp (mem_orderBy.mp (mem_filter.mp he').1)
    simp only [Bool.and_eq_true, decide_eq_true_eq] at hsource
    exact ⟨hsource.1, hsource.2.1.1.1.1.1.1⟩
  rw [costLifecycle, mem_orderBy, mem_filter, Bool.and_eq_true, decide_eq_true_eq, any_eq_true]
  simp only [Bool.and_eq_true, decide_eq_true_eq]
  rw [hid]
  constructor
  · rintro ⟨he, -, hmem⟩
    obtain ⟨e', he', heq⟩ := mem_map.mp hmem
    rw [← inj_on_of_nodup_map db.entries.id_nodup (hentry e' he').1 he heq]
    exact he'
  · intro he
    exact ⟨(hentry e he).1, (hentry e he).2, mem_map_of_mem he⟩

/-- Amounts that are the steps of one walk form a chain. -/
theorem cumulative_of_steps {basis : BillingEntry → CostBasis} : ∀ {trace : List (BillingEntry × ℚ)}
    {entries : List BillingEntry} {v : ℚ},
    List.Forall₂ (fun e step => (basis e).before = some { value := step.1 } ∧
      (basis e).after = some { value := step.2 }) entries (steps v trace) →
    Cumulative v (entries.map basis) (lastState v trace) := by
  intro trace
  induction trace with
  | nil =>
    intro entries v h
    cases h
    rfl
  | cons _ _ ih =>
    intro entries v h
    cases h with
    | cons he hes => exact ⟨_, _, he.1, he.2, rfl, ih hes⟩

/-- A row of a model-pricing correction: its amounts are a step of the walk over its task. -/
theorem modelPricing_step (h : billingCorrectionEvidence env db batch startSequence = .ok rows)
    (hmode : batch.mode = .modelPricing) {row : BillingCorrectionRow} (hrow : row ∈ rows)
    (hcost : row.targetCost = some cost) {target : ℚ} {task : Task}
    {lifecycle : List BillingEntry} {e : BillingEntry} (htasks : tasksOf db batch.userID row.taskID = [task])
    (hsale : SaleOf env db batch target task bc lifecycle e row) :
    ∃ oldSubmission pre final before after, SupplierPrice env task bc oldSubmission pre final ∧
      stepAt BillingEntry.id row.sourceEntryID 0 (costTrace oldSubmission task.quota pre final
        (task.status = .success) 0 (costLifecycle db batch.userID rows row.taskID)) = some (before, after) ∧
      cost.targetBefore = some { value := before } ∧ cost.targetAfter = some { value := after } := by
  obtain ⟨_, sales, -, hsales, hrows⟩ := evidence_stages h
  obtain ⟨sale, hmem, hcostRow⟩ := exists_of_mem_mapM hrows hrow
  obtain ⟨_, _, hof⟩ := exists_of_mem_mapM hsales (mem_orderBy.mp hmem)
  have hkept := (costRow_of hcostRow).sale
  have hlifecycle : costLifecycle db batch.userID (orderBy BillingCorrectionRow.sourceEntryID sales) =
      costLifecycle db batch.userID rows := by
    funext taskID
    refine costLifecycle_congr ?_ taskID
    refine (map_of_mapM hrows ?_).symm
    intro row row' hrow
    rw [(costRow_of hrow).sale]
    rfl
  cases costRow_frozen (correctionRow_targetCost hof) hcostRow hcost with
  | groupRate _ _ hmode' =>
    rw [hmode] at hmode'
    cases hmode'
  | modelPricing _ _ pricing _ hlast hbc hpricing hbasis =>
    -- the row and its sale agree on the task, the model and the new pricing
    have htaskID : sale.taskID = row.taskID := by rw [hkept]; rfl
    have hmodel : sale.modelName = row.modelName := by rw [hkept]; rfl
    have hnew : sale.targetPricing = row.targetPricing := by rw [hkept]; rfl
    have hsource : sale.sourceEntryID = row.sourceEntryID := by rw [hkept]; rfl
    rw [htaskID, htasks, getLast?_singleton] at hlast
    cases hlast
    rw [hsale.context] at hbc
    cases hbc
    have hcurrent : pricing = (env.currentPricing task).1 := by
      rw [hnew, hsale.pricing, newBasis, hmode] at hpricing
      exact (Option.some.inj hpricing).symm
    rw [hcurrent] at hbasis
    obtain ⟨oldSubmission, pre, final, walk, hprice, hwalk, hbefore, hafter⟩ :=
      modelPricingBasis_ok (hmodel.trans hsale.model) hbasis
    rw [hlifecycle, hsource, htaskID] at hwalk
    refine ⟨oldSubmission, pre, final, walk.1, walk.2, hprice, ?_, hbefore, hafter⟩
    refine costWalk_eq _ _ _ _ _ _ _ _ _ _ hwalk ?_
    refine (((costLifecycle_perm h row.taskID).map BillingEntry.id).mem_iff).mpr ?_
    refine (evidence_perm h row.taskID).mem_iff.mp ?_
    exact mem_map_of_mem (mem_filter.mpr ⟨hrow, decide_eq_true rfl⟩)

/-- The amounts a model-pricing correction freezes for a task form a chain, from nothing to the
    supplier price of the task. -/
theorem modelPricing_cumulative (h : billingCorrectionEvidence env db batch startSequence = .ok rows)
    (hmode : batch.mode = .modelPricing) {taskID : String} (hsome : ∃ row ∈ rows, row.taskID = taskID)
    (hopen : ∀ row ∈ rows, row.taskID = taskID → row.blocked = none) {cost : ℤ → BillingCorrectionCost}
    (hcost : ∀ row ∈ rows, row.taskID = taskID → row.targetCost = some (cost row.sourceEntryID)) :
    ∃ (task : Task) (bc : TaskBillingContext) (final : ℚ) (order : List BillingEntry),
      tasksOf db batch.userID taskID = [task] ∧ task.billingContext = some bc ∧
      finalCostBasis env (env.currentPricing task).1 bc.originModelName task = .ok final ∧
      order.Perm (lifecycleOf env db batch startSequence taskID) ∧
      Cumulative 0 (order.map fun e => (cost e.id).targetCostBasis) final := by
  obtain ⟨target, task, bc, -, htasks, hne, hcover, hof⟩ := evidence_task h hsome hopen
  have hperm := costLifecycle_perm h taskID
  -- one row fixes the amounts of the walk, the others agree with it
  have hstep : ∀ row ∈ rows, row.taskID = taskID → ∃ oldSubmission pre final before after,
      SupplierPrice env task bc oldSubmission pre final ∧
      stepAt BillingEntry.id row.sourceEntryID 0 (costTrace oldSubmission task.quota pre final
        (task.status = .success) 0 (costLifecycle db batch.userID rows taskID)) = some (before, after) ∧
      (cost row.sourceEntryID).targetBefore = some { value := before } ∧
      (cost row.sourceEntryID).targetAfter = some { value := after } := by
    intro row hrow hid
    obtain ⟨e, -, -, hsale⟩ := hof row hrow hid
    have := modelPricing_step h hmode hrow (hcost row hrow hid) (hid.symm ▸ htasks) hsale
    rw [hid] at this
    exact this
  obtain ⟨row0, hrow0, hid0⟩ := hsome
  obtain ⟨e0, -, -, hsale0⟩ := hof row0 hrow0 hid0
  obtain ⟨oldSubmission, pre, final, -, -, hprice, -⟩ := hstep row0 hrow0 hid0
  have hnodup : ((costLifecycle db batch.userID rows taskID).map BillingEntry.id).Nodup :=
    (hperm.map _).nodup_iff.mpr (lifecycleOf_nodup env db batch startSequence taskID)
  have hsteps := forall₂_steps BillingEntry.id (map_fst_costTrace oldSubmission task.quota pre final
    (task.status = .success) (costLifecycle db batch.userID rows taskID) 0) hnodup 0
    (R := fun e step => ((cost e.id).targetCostBasis).before = some { value := step.1 } ∧
      ((cost e.id).targetCostBasis).after = some { value := step.2 }) (by
      intro e he step hfound
      obtain ⟨row, hrow, hid, hsource⟩ := hcover e (hperm.mem_iff.mp he)
      obtain ⟨o', pre', final', before, after, hprice', hat, hbefore, hafter⟩ := hstep row hrow hid
      obtain ⟨rfl, rfl, rfl⟩ := hprice.unique hprice'
      rw [hsource, hfound] at hat
      cases hat
      rw [hsource] at hbefore hafter
      exact ⟨hbefore, hafter⟩)
  have hlast : lastState 0 (costTrace oldSubmission task.quota pre final (task.status = .success) 0
      (costLifecycle db batch.userID rows taskID)) = final := by
    rw [lastState_costTrace _ _ _ _ _ _ _ _ (fun hnil => hne (by rw [hnil] at hperm; exact hperm.symm.eq_nil))]
    rcases hsale0.finished with hsuccess | hfailure
    · rw [if_pos (decide_eq_true hsuccess)]
    · have hno : ¬ task.status = .success := by
        rw [hfailure]
        decide
      have hfinal := hprice.final
      rw [finalCostBasis, if_neg hno] at hfinal
      rw [if_neg (by rw [decide_eq_true_eq]; exact hno), (hperm.map BillingEntry.quota).sum_eq,
        hsale0.refunded hfailure]
      exact ok.inj hfinal
  refine ⟨task, bc, final, costLifecycle db batch.userID rows taskID, htasks, hsale0.context, hprice.final, hperm, ?_⟩
  rw [← hlast]
  exact cumulative_of_steps hsteps

/-- A group-rate correction keeps the amounts of a source that was corrected before. -/
theorem groupRate_keeps (h : billingCorrectionEvidence env db batch startSequence = .ok rows)
    (hmode : batch.mode = .groupRate) {row : BillingCorrectionRow} (hrow : row ∈ rows)
    (hcost : row.targetCost = some cost) (hversion : correctedBasisVersion ≤ cost.currentBasisVersion) :
    cost.targetCostBasis = cost.currentCostBasis := by
  obtain ⟨_, sales, -, hsales, hrows⟩ := evidence_stages h
  obtain ⟨sale, hmem, hcostRow⟩ := exists_of_mem_mapM hrows hrow
  obtain ⟨_, _, hof⟩ := exists_of_mem_mapM hsales (mem_orderBy.mp hmem)
  cases costRow_frozen (correctionRow_targetCost hof) hcostRow hcost with
  | groupRate _ state _ hcurrent hbasis =>
    have hstate : cost.currentBasisVersion = state.basisVersion := congrArg CostBasis.version hcurrent
    rw [groupRateBasis, if_neg (by omega)] at hbasis
    rw [hcurrent]
    exact (ok.inj hbasis).symm
  | modelPricing _ _ _ hmode' =>
    rw [hmode] at hmode'
    cases hmode'

/-- The corrected cost of a row. -/
def rowCost (row : BillingCorrectionRow) : ℤ := row.targetCost.elim 0 BillingCorrectionCost.targetQuota

/-- The costs of a task telescope along any chain its target amounts form. -/
theorem sum_rowCost (h : billingCorrectionEvidence env db batch startSequence = .ok rows) {taskID : String}
    (hm : discountMultiplier discount = .ok multiplier) {cost : ℤ → BillingCorrectionCost}
    (hcost : ∀ row ∈ rows, row.taskID = taskID → row.targetCost = some (cost row.sourceEntryID) ∧
      (cost row.sourceEntryID).targetDiscount = discount)
    {order : List BillingEntry} (hperm : order.Perm (lifecycleOf env db batch startSequence taskID)) {last : ℚ}
    (hchain : Cumulative 0 (order.map fun e => (cost e.id).targetCostBasis) last) :
    ((rows.filter fun row => row.taskID = taskID).map rowCost).sum = costAt multiplier last := by
  have hquotas : List.Forall₂ (fun b quota => basisQuota discount b = .ok quota)
      (order.map fun e => (cost e.id).targetCostBasis) (order.map fun e => (cost e.id).targetQuota) := by
    rw [forall₂_map_left_iff, forall₂_map_right_iff, forall₂_same]
    intro e he
    have hid := (evidence_perm h taskID).mem_iff.mpr (mem_map_of_mem (hperm.mem_iff.mp he))
    obtain ⟨row, hrow, hsource⟩ := mem_map.mp hid
    rw [mem_filter, decide_eq_true_eq] at hrow
    obtain ⟨hfrozen, hdiscount⟩ := hcost row hrow.1 hrow.2
    rw [hsource] at hfrozen hdiscount
    obtain ⟨state, hof⟩ := (evidence_row h hrow.1).2 _ hfrozen
    rw [← hdiscount]
    exact hof.target
  rw [evidence_sum h (g := fun k => (cost k).targetQuota), ← (hperm.map _).sum_eq,
    sum_of_cumulative hm hchain hquotas, costAt_zero, Int.sub_zero]
  intro row hrow hid
  rw [rowCost, (hcost row hrow hid).1]
  rfl

/-! ## The result -/

/-- **Cost corrections telescope.**  Along every chain of cumulative amounts that starts at nothing,
    and at every discount, the costs of the rows add up to the rounded cost of the last amount.  The
    rows of a task in a model-pricing correction form such a chain, up to the supplier price of the
    task; so do the rows of a group-rate correction whose sources were corrected before.  A row
    without cumulative amounts is rounded on its own. -/
theorem costs_telescope : (∀ (discount : String) (multiplier : ℚ), discountMultiplier discount = .ok multiplier →
      ∀ (bs : List CostBasis) (last : ℚ) (quotas : List ℤ), Cumulative 0 bs last →
        bs.mapM (basisQuota discount) = .ok quotas → quotas.sum = costAt multiplier last) ∧
    ∀ (env : CorrectionEnv) (db : DB) (batch : BillingCorrection) (startSequence : ℤ)
      (rows : List BillingCorrectionRow), billingCorrectionEvidence env db batch startSequence = .ok rows →
      ∀ taskID : String, (∃ row ∈ rows, row.taskID = taskID) →
      (∀ row ∈ rows, row.taskID = taskID → row.blocked = none) →
      ∀ (discount : String) (cost : ℤ → BillingCorrectionCost),
      (∀ row ∈ rows, row.taskID = taskID → row.targetCost = some (cost row.sourceEntryID) ∧
        (cost row.sourceEntryID).targetDiscount = discount) →
      ∃ multiplier, discountMultiplier discount = .ok multiplier ∧
        (batch.mode = .modelPricing → ∃ task bc final, tasksOf db batch.userID taskID = [task] ∧
          task.billingContext = some bc ∧
          finalCostBasis env (env.currentPricing task).1 bc.originModelName task = .ok final ∧
          ((rows.filter fun row => row.taskID = taskID).map rowCost).sum = costAt multiplier final) ∧
        (batch.mode = .groupRate → ∀ (order : List BillingEntry) (last : ℚ),
          order.Perm (lifecycleOf env db batch startSequence taskID) →
          (∀ e ∈ order, correctedBasisVersion ≤ (cost e.id).currentBasisVersion) →
          Cumulative 0 (order.map fun e => (cost e.id).currentCostBasis) last →
            ((rows.filter fun row => row.taskID = taskID).map rowCost).sum = costAt multiplier last) ∧
        (∀ row ∈ rows, row.taskID = taskID → ∀ basis, (cost row.sourceEntryID).targetBasis = some basis →
          (cost row.sourceEntryID).targetBefore = none → (cost row.sourceEntryID).targetAfter = none →
            rowCost row = costAt multiplier basis.value) := by
  refine ⟨?_, ?_⟩
  · intro discount multiplier hm bs last quotas hchain hquotas
    rw [sum_of_cumulative hm hchain (mapM_ok hquotas), costAt_zero, Int.sub_zero]
  · intro env db batch startSequence rows h taskID hsome hopen discount cost hcost
    have hquota : ∀ row ∈ rows, row.taskID = taskID →
        costAccountingBasisQuota (cost row.sourceEntryID).targetBasis (cost row.sourceEntryID).targetBefore
          (cost row.sourceEntryID).targetAfter discount = .ok (cost row.sourceEntryID).targetQuota := by
      intro row hrow hid
      obtain ⟨hfrozen, hdiscount⟩ := hcost row hrow hid
      obtain ⟨state, hof⟩ := (evidence_row h hrow).2 _ hfrozen
      rw [← hdiscount]
      exact hof.target
    obtain ⟨row0, hrow0, hid0⟩ := hsome
    obtain ⟨multiplier, hm⟩ := discountMultiplier_of_quota (hquota row0 hrow0 hid0)
    refine ⟨multiplier, hm, ?_, ?_, ?_⟩
    · intro hmode
      obtain ⟨task, bc, final, order, htasks, hbc, hfinal, hperm, hchain⟩ := modelPricing_cumulative h
        hmode ⟨row0, hrow0, hid0⟩ hopen fun row hrow hid => (hcost row hrow hid).1
      exact ⟨task, bc, final, htasks, hbc, hfinal, sum_rowCost h hm hcost hperm hchain⟩
    · intro hmode order last hperm hversion hchain
      refine sum_rowCost h hm hcost hperm ?_
      have hkept : (order.map fun e => (cost e.id).targetCostBasis) =
          order.map fun e => (cost e.id).currentCostBasis := by
        refine map_congr_left ?_
        intro e he
        have hid := (evidence_perm h taskID).mem_iff.mpr (mem_map_of_mem (hperm.mem_iff.mp he))
        obtain ⟨row, hrow, hsource⟩ := mem_map.mp hid
        rw [mem_filter, decide_eq_true_eq] at hrow
        refine groupRate_keeps h hmode hrow.1 ?_ (hversion e he)
        rw [← hsource]
        exact (hcost row hrow.1 hrow.2).1
      rw [hkept]
      exact hchain
    · intro row hrow hid basis hbasis hbefore hafter
      have hq := hquota row hrow hid
      rw [hbasis, hbefore, hafter] at hq
      rw [rowCost, (hcost row hrow hid).1]
      exact costAccountingBasisQuota_plain hm hq

/-! ## A preview that telescopes and one that rounds row by row -/

/-- The token task with its supplier costs captured: bases of 100.5 and 50.5 at a discount of 0.9. -/
def costedTask : DB :=
  { oneTokenTask with
    logs := (Table.empty.put
      { id := 1, userID := 1, type := .consume, modelName := "m", quota := 250000, group := "vip"
        requestID := "r", createdAt := 2001, other := some { taskID := "t", groupRatio := some 1 } }).put
      { id := 2, userID := 1, type := .consume, modelName := "m", quota := 50000, group := "vip"
        createdAt := 2100, other := some { taskID := "t", groupRatio := some 1 } }
    snapshots := (Table.empty.put
      { id := 1, eventKey := "k1", sourceLogID := 1, userID := 1, modelName := "m", logType := .consume
        revenueQuota := 250000, costBasisQuota := some { value := 201 / 2 }, costDiscount := "0.900000"
        costQuota := 90, snapshotVersion := 4 }).put
      { id := 2, eventKey := "k2", sourceLogID := 2, userID := 1, modelName := "m", logType := .consume
        revenueQuota := 50000, costBasisQuota := some { value := 101 / 2 }, costDiscount := "0.900000"
        costQuota := 45, snapshotVersion := 4 } }

/-- Submitted and settled. -/
def costedSettled : DB :=
  run (BillingCall.exec doubledPrices) costedTask (submitTokenTask ++ [settleTokenTask])

/-- The first correction to the group rate 2 keeps the captured bases and rounds them one by one: 135,
    where the rounded cost of the task is 136. -/
theorem roundedRowByRow : (billingCorrectionEvidence doubledPrices costedSettled tokenBatch 0).map (fun rows =>
        rows.map fun row => (row.taskID, row.blocked, row.costDiscount, rowCost row)) =
      .ok [("t", none, "0.900000", 90), ("t", none, "0.900000", 45)] ∧
    discountMultiplier "0.900000" = .ok (9 / 10) ∧ costAt (9 / 10) (201 / 2 + 101 / 2) = 136 := by
  decide +kernel

/-- The correction of the same entries to the live price list. -/
def pricedTokenBatch : BillingCorrection := { tokenBatch with mode := .modelPricing }

/-- The correction to the live price list costs 450000 for the submission and nothing for the
    settlement: the rounded cost of the list price 500000. -/
theorem costs_telescope_costedTask :
    ∃ rows, billingCorrectionEvidence doubledPrices costedSettled pricedTokenBatch 0 = .ok rows ∧
      rows.map rowCost = [450000, 0] ∧
      ∃ multiplier, discountMultiplier "0.900000" = .ok multiplier ∧
        ∃ task bc final, tasksOf costedSettled 1 "t" = [task] ∧ task.billingContext = some bc ∧
          finalCostBasis doubledPrices (doubledPrices.currentPricing task).1 bc.originModelName task = .ok final ∧
          ((rows.filter fun row => row.taskID = "t").map rowCost).sum = costAt multiplier final := by
  have hkept : (billingCorrectionEvidence doubledPrices costedSettled pricedTokenBatch 0).map (fun rows =>
      rows.map fun row => (row.taskID, row.blocked, row.sourceEntryID)) =
      .ok [("t", none, 1), ("t", none, 2)] := by
    decide +kernel
  have hcosts : (billingCorrectionEvidence doubledPrices costedSettled pricedTokenBatch 0).map (fun rows =>
      rows.map fun row => (row.targetCost.map BillingCorrectionCost.targetDiscount, rowCost row)) =
      .ok [(some "0.900000", 450000), (some "0.900000", 0)] := by
    decide +kernel
  cases hrows : billingCorrectionEvidence doubledPrices costedSettled pricedTokenBatch 0 with
  | error =>
    rw [hrows] at hkept
    cases hkept
  | ok rows =>
    rw [hrows] at hkept hcosts
    have hmap := ok.inj hkept
    have hcost := ok.inj hcosts
    rcases rows with _ | ⟨row, _ | ⟨row', _ | ⟨row'', rows⟩⟩⟩
    · cases hmap
    · simp at hmap
    · simp only [map_cons, map_nil, cons.injEq, Prod.mk.injEq, and_true, Option.map_eq_some_iff] at hmap hcost
      obtain ⟨⟨htask, hblocked, hsource⟩, htask', hblocked', hsource'⟩ := hmap
      obtain ⟨⟨⟨c, hc, hdiscount⟩, hquota⟩, ⟨c', hc', hdiscount'⟩, hquota'⟩ := hcost
      obtain ⟨multiplier, hm, hmodel, -, -⟩ := costs_telescope.2 doubledPrices costedSettled
        pricedTokenBatch 0 [row, row'] hrows "t"
        ⟨row, mem_cons_self, htask⟩ (by simp [hblocked, hblocked']) "0.900000"
        (fun k => if k = 1 then c else c')
        (by simp [hsource, hsource', hc, hc', hdiscount, hdiscount'])
      exact ⟨[row, row'], rfl, by simp [hquota, hquota'], multiplier, hm, hmodel rfl⟩
    · simp at hmap

end NovaMaas.Billing
