/-
  What the rows of a preview are.

  `RowOf` reads the sale side of a row back to its source entry: the sale it starts from is the
  EFFECTIVE sale, the projection of all earlier corrections of the entry.  `Frozen` reads its cost
  side back to the snapshot it prices.  `evidence_rows` puts both together for
  `billingCorrectionEvidence`: one row per source entry, sorted, each of this form.
-/
import NovaMaas.Billing.Correction
import NovaMaas.Lib.Except

open Except

namespace NovaMaas.Billing

open BillingCorrectionRow

/-! ## Sales -/

variable {entry : BillingEntry}

/-- The checks of the preview change nothing about the projection. -/
theorem checkedSale_ok : ∀ {events : List BillingEntry} {st st' : SaleState}, checkedSale entry st events = .ok st' →
      st' = events.foldl SaleState.correct st := by
  intro events
  induction events with
  | nil =>
    intro st st' h
    cases h
    rfl
  | cons event events ih =>
    intro st st' h
    rw [checkedSale] at h
    split at h
    · cases h
    · exact ih h

/-- A row and the sale of its source entry. -/
structure RowOf (env : CorrectionEnv) (db : DB) (batch : BillingCorrection) (entry : BillingEntry)
    (row : BillingCorrectionRow) : Prop where
  source : row.sourceEntryID = entry.id
  model : row.modelName = entry.modelName
  token : row.tokenID = entry.tokenID
  task : row.taskID = (historicalRate env db batch.userID entry).taskID
  original : row.originalQuota = entry.quota ∧ row.originalGroup = (historicalRate env db batch.userID entry).group ∧
    row.originalRate = (historicalRate env db batch.userID entry).ratio
  effective : ({ quota := row.effectiveQuota, group := row.effectiveGroup, rate := row.effectiveRate } :
    SaleState) = effectiveSale env db batch.userID batch.sourceSequence entry
  previous : row.previousBatchID = claimOf db entry.id
  delta : row.delta = row.correctedQuota - row.effectiveQuota

variable {batch : BillingCorrection} {env : CorrectionEnv} {db : DB}

theorem baseRow_of {sale : SaleState} (hsale : sale = effectiveSale env db batch.userID batch.sourceSequence entry) :
    RowOf env db batch entry (baseRow db batch (historicalRate env db batch.userID entry) sale entry) :=
  ⟨rfl, rfl, rfl, rfl, ⟨rfl, rfl, rfl⟩, hsale, rfl, (Int.sub_self _).symm⟩

theorem correctionRow_of {target : ℚ} {entries : List BillingEntry} {row : BillingCorrectionRow}
    (h : correctionRow env db batch target entries entry = .ok row) : RowOf env db batch entry row := by
  rw [correctionRow, bind_eq_ok] at h
  obtain ⟨sale, hsale, h⟩ := h
  have hbase := baseRow_of (checkedSale_ok hsale)
  split at h
  · cases h
  · split at h
    · cases h
      exact ⟨hbase.source, hbase.model, hbase.token, hbase.task, hbase.original, hbase.effective, hbase.previous, rfl⟩
    · cases h
      exact ⟨hbase.source, hbase.model, hbase.token, hbase.task, hbase.original, hbase.effective,
        hbase.previous, hbase.delta⟩

theorem correctionRow_targetCost {target : ℚ} {entries : List BillingEntry} {row : BillingCorrectionRow}
    (h : correctionRow env db batch target entries entry = .ok row) : row.targetCost = none := by
  rw [correctionRow, bind_eq_ok] at h
  obtain ⟨sale, -, h⟩ := h
  split at h
  · cases h
  · split at h <;> cases h <;> rfl

/-! ## Costs -/

/-- The row `row` with the cost fields of `row'`. -/
def BillingCorrectionRow.withCostOf (row row' : BillingCorrectionRow) : BillingCorrectionRow :=
  { row with
    blocked := row'.blocked, costBlocked := row'.costBlocked, targetCost := row'.targetCost
    costDiscount := row'.costDiscount, currentCostQuota := row'.currentCostQuota
    correctedCostQuota := row'.correctedCostQuota, costDelta := row'.costDelta
    costChanged := row'.costChanged }

/-- A cost target is what the discount makes of the basis; the current side is the state of the
    snapshot. -/
structure Frozen (db : DB) (state : CostAccountingState) (frozen : BillingCorrectionCost) : Prop where
  snapshot : ∃ snapshot, db.snapshots.get? frozen.snapshotID = some snapshot ∧
    effectiveCostAccountingState snapshot (adjustmentsOf db frozen.snapshotID) = .ok state
  quota : frozen.currentQuota = state.quota
  basis : frozen.currentBasis = state.basis
  before : frozen.currentBefore = state.before
  after : frozen.currentAfter = state.after
  discount : frozen.currentDiscount = state.discount
  version : frozen.currentBasisVersion = state.basisVersion
  stateID : frozen.stateAdjustmentID = state.stateID
  target : costAccountingBasisQuota frozen.targetBasis frozen.targetBefore frozen.targetAfter
    frozen.targetDiscount = .ok frozen.targetQuota

/-- What the cost pass makes of a row. -/
structure CostOf (db : DB) (row row' : BillingCorrectionRow) : Prop where
  sale : row' = row.withCostOf row'
  frozen : ∀ frozen, row'.targetCost = some frozen → row.targetCost = some frozen ∨ ∃ state, Frozen db state frozen

theorem CostOf.refl (db : DB) (row : BillingCorrectionRow) : CostOf db row row :=
  ⟨rfl, fun _ h => Or.inl h⟩

theorem CostOf.blocked (db : DB) (row : BillingCorrectionRow) (reason : Blocked) :
    CostOf db row (costBlocked row reason) :=
  ⟨rfl, fun _ h => Or.inl h⟩

variable {row row' : BillingCorrectionRow} {snapshot : CostAccountingSnapshot}

theorem freezeCost_of {state : CostAccountingState} {channelDiscount discount : String} {b : CostBasis}
    (hrow : db.snapshots.get? snapshot.id = some snapshot)
    (hstate : effectiveCostAccountingState snapshot (adjustmentsOf db snapshot.id) = .ok state)
    (h : freezeCost env db row snapshot state channelDiscount discount b = .ok row') :
    CostOf db row row' := by
  rw [freezeCost, bind_eq_ok] at h
  obtain ⟨target, htarget, h⟩ := h
  split at h
  · cases h
    exact CostOf.blocked ..
  · split at h
    · cases h
      exact CostOf.blocked ..
    · cases h
      refine ⟨rfl, ?_⟩
      rintro frozen hfrozen
      cases hfrozen
      exact Or.inr ⟨state, ⟨snapshot, hrow, hstate⟩, rfl, rfl, rfl, rfl, rfl, rfl, rfl, htarget⟩

theorem costSnapshot_row {userID logID : ℤ} (h : costSnapshot db userID logID = some snapshot) :
    db.snapshots.get? snapshot.id = some snapshot := by
  have hmem := List.mem_of_mem_head? (Option.mem_def.mpr h)
  exact Table.get?_of_mem (List.mem_filter.mp (mem_orderBy.mp hmem)).1

variable {rows : List BillingCorrectionRow}

theorem snapshotRow_of {channelDiscount : String} (hrow : db.snapshots.get? snapshot.id = some snapshot)
    (h : snapshotRow env db batch rows row channelDiscount snapshot = .ok row') :
    CostOf db row row' := by
  rw [snapshotRow] at h
  split at h
  · cases h
  rw [bind_eq_ok] at h
  obtain ⟨state, hstate, h⟩ := h
  split at h
  · cases h
    exact CostOf.refl ..
  split at h
  · rw [bind_eq_ok] at h
    obtain ⟨b, -, h⟩ := h
    exact freezeCost_of hrow hstate h
  · split at h
    · rw [bind_eq_ok] at h
      obtain ⟨b, -, h⟩ := h
      exact freezeCost_of hrow hstate h
    · cases h
      exact CostOf.blocked ..

theorem costRow_of (h : costRow env db batch rows row = .ok row') : CostOf db row row' := by
  rw [costRow] at h
  split at h
  · cases h
    exact CostOf.refl ..
  rw [bind_eq_ok] at h
  obtain ⟨logID, -, h⟩ := h
  rw [bind_eq_ok] at h
  obtain ⟨channelDiscount, -, h⟩ := h
  split at h
  · split at h
    · cases h
      exact CostOf.blocked ..
    · cases h
      exact CostOf.refl ..
  · rename_i snapshot hsnapshot
    obtain ⟨id, -, hid⟩ := Option.bind_eq_some_iff.mp hsnapshot
    exact snapshotRow_of (costSnapshot_row hid) h

/-- The cost pass unblocks no row. -/
theorem costRow_unblocked (h : costRow env db batch rows row = .ok row')
    (hopen : row'.blocked = none) : row.blocked = none := by
  by_contra hblocked
  rw [costRow, if_pos hblocked] at h
  cases h
  exact hblocked hopen

theorem RowOf.cost (h : RowOf env db batch entry row) (hcost : CostOf db row row') :
    RowOf env db batch entry row' := by
  rw [hcost.sale]
  exact ⟨h.source, h.model, h.token, h.task, h.original, h.effective, h.previous, h.delta⟩

/-! ## The evidence of a batch -/

/-- The three stages of the evidence: sales in ledger order, sorted by source, then costs. -/
theorem evidence_stages {startSequence : ℤ} (h : billingCorrectionEvidence env db batch startSequence = .ok rows) :
    ∃ target sales, targetRate env batch = .ok target ∧
      (correctionSources db batch startSequence).mapM (correctionRow env db batch target
        (correctionSources db batch startSequence)) = .ok sales ∧
      (orderBy sourceEntryID sales).mapM (costRow env db batch (orderBy sourceEntryID sales)) = .ok rows := by
  simp only [billingCorrectionEvidence] at h
  split at h
  · cases h
  rw [bind_eq_ok] at h
  obtain ⟨target, htarget, h⟩ := h
  rw [bind_eq_ok] at h
  obtain ⟨sales, hsales, h⟩ := h
  rw [billingCorrectionCostEvidence, bind_eq_ok] at h
  obtain ⟨_, -, h⟩ := h
  rw [bind_eq_ok] at h
  obtain ⟨_, -, h⟩ := h
  exact ⟨target, sales, htarget, hsales, h⟩

theorem correctionSources_nodup (db : DB) (batch : BillingCorrection) (startSequence : ℤ) :
    ((correctionSources db batch startSequence).map BillingEntry.id).Nodup := by
  refine ((orderBy_perm _ _).map _).nodup_iff.mpr ?_
  exact db.entries.id_nodup.sublist (List.filter_sublist.map _)

/-- One row per source entry. -/
theorem evidence_nodup {startSequence : ℤ} (h : billingCorrectionEvidence env db batch startSequence = .ok rows) :
    (rows.map sourceEntryID).Nodup := by
  obtain ⟨target, sales, -, hsales, hrows⟩ := evidence_stages h
  have hcosts : rows.map sourceEntryID = (orderBy sourceEntryID sales).map sourceEntryID := by
    refine map_of_mapM hrows ?_
    intro row row' hrow
    rw [(costRow_of hrow).sale]
    rfl
  have hids : sales.map sourceEntryID = (correctionSources db batch startSequence).map BillingEntry.id :=
    map_of_mapM hsales fun entry row hrow => (correctionRow_of hrow).source
  rw [hcosts, ((orderBy_perm _ _).map _).nodup_iff, hids]
  exact correctionSources_nodup db batch startSequence

/-- Every row belongs to a source entry, and every cost it froze to a snapshot. -/
theorem evidence_row {startSequence : ℤ} (h : billingCorrectionEvidence env db batch startSequence = .ok rows)
    {row : BillingCorrectionRow} (hrow : row ∈ rows) :
    (∃ entry ∈ correctionSources db batch startSequence, RowOf env db batch entry row) ∧
      ∀ frozen, row.targetCost = some frozen → ∃ state, Frozen db state frozen := by
  obtain ⟨target, sales, -, hsales, hrows⟩ := evidence_stages h
  obtain ⟨sale, hsale, hcost⟩ := exists_of_mem_mapM hrows hrow
  obtain ⟨entry, hentry, hof⟩ := exists_of_mem_mapM hsales (mem_orderBy.mp hsale)
  refine ⟨⟨entry, hentry, (correctionRow_of hof).cost (costRow_of hcost)⟩, ?_⟩
  intro frozen hfrozen
  rcases (costRow_of hcost).frozen frozen hfrozen with hnone | hstate
  · rw [correctionRow_targetCost hof] at hnone
    cases hnone
  · exact hstate

end NovaMaas.Billing
