/-
  Repricing a supplier cost by hand: `AdjustCostAccountingSnapshots` of `model/cost_accounting.go`.

  A snapshot of a cost is never overwritten.  An adjustment is a row of its own, and the cost of today is what the
  rows of a snapshot make of it (`effectiveCostAccountingState`): the quota goes on by the delta of each row, and the
  basis and the discount are those of the last row that has a basis version.  A row without one dates from before
  there was a basis; it sets the discount if it names one.

  A target asks for a quota, and may name a discount, a basis, or neither.  The basis a target does not name is
  taken from the state before; the discount is written as it came.
-/
import NovaMaas.Billing.CorrectionSpec

namespace NovaMaas.Billing

open Txn

/-! ## Targets -/

/-- A text that may hold an amount. -/
inductive AmountText
  | blank
  | malformed
  | amount (d : Decimal)
  deriving DecidableEq

/-- `decimal.NewFromString`. -/
def AmountText.parse : AmountText → Option Decimal
  | .amount d => some d
  | _ => none

structure CostAccountingAdjustmentTarget where
  snapshotID : ℤ
  newCostQuota : ℤ
  costDiscount : String := ""
  costBasisQuota : AmountText := .blank
  costBasisBefore : AmountText := .blank
  costBasisAfter : AmountText := .blank
  basisVersion : ℤ := 0
  expectedAdjustmentID : Option ℤ := none

inductive CostAdjustError
  | invalidMetadata
  | invalidTarget
  | targetNotFound
  | negativeConsumption
  | positiveRefund
  | invalidBasis
  | invalidCumulativeBasis
  | billing (e : BillingError)

/-- An error of the functions of the corrections. -/
def asAdjustError {α : Type} : Except BillingError α → Except CostAdjustError α
  | .ok a => .ok a
  | .error e => .error (.billing e)

def targetDiscount (target : CostAccountingAdjustmentTarget) : Except CostAdjustError String :=
  if target.costDiscount = "" then .ok "" else asAdjustError (normalizeCostDiscount target.costDiscount)

/-- The targets in the order of their snapshots, with their discounts normalized.  `last` is the snapshot of the target
    before. -/
def checkTargets (last : Option ℤ) :
    List CostAccountingAdjustmentTarget → Except CostAdjustError (List CostAccountingAdjustmentTarget)
  | [] => .ok []
  | target :: targets =>
    if target.snapshotID ≤ 0 ∨ target.newCostQuota < -maxQuota ∨ target.newCostQuota > maxQuota ∨
        last = some target.snapshotID then .error .invalidTarget
    else do
      let discount ← targetDiscount target
      let rest ← checkTargets (some target.snapshotID) targets
      .ok ({ target with costDiscount := discount } :: rest)

/-! ## One target -/

/-- The basis the row is written with: the target's, if it has a version, and else that of the state. -/
def targetBasis (env : CorrectionEnv) (snapshot : CostAccountingSnapshot) (state : CostAccountingState)
    (target : CostAccountingAdjustmentTarget) : Except CostAdjustError CostBasis :=
  if target.basisVersion > 0 then
    match target.costBasisQuota.parse with
    | none => .error .invalidBasis
    | some value =>
      if columnLength env (some value) > 64 ∨ columnLength env target.costBasisBefore.parse > 64 ∨
          columnLength env target.costBasisAfter.parse > 64 ∨ (snapshot.logType = .consume ∧ value.value < 0) ∨
          (snapshot.logType = .refund ∧ value.value > 0) then .error .invalidBasis
      else if target.costBasisBefore ≠ .blank ∨ target.costBasisAfter ≠ .blank then
        match target.costBasisBefore.parse, target.costBasisAfter.parse with
        | some prior, some current =>
          if prior.value < 0 ∨ current.value < 0 ∨ current.value - prior.value ≠ value.value then
            .error .invalidCumulativeBasis
          else .ok ⟨some value, some prior, some current, target.basisVersion⟩
        | _, _ => .error .invalidCumulativeBasis
      else .ok ⟨some value, none, none, target.basisVersion⟩
  else .ok ⟨state.basis, state.before, state.after, state.basisVersion⟩

/-- What the rows of one call have in common. -/
structure AdjustmentHeader where
  reason : String
  actorID : ℤ
  batchID : String
  createdAt : ℤ

/-- The row of a target. -/
def targetRow (header : AdjustmentHeader) (state : CostAccountingState) (b : CostBasis)
    (target : CostAccountingAdjustmentTarget) : CostAccountingAdjustment where
  snapshotID := target.snapshotID
  deltaCostQuota := target.newCostQuota - state.quota
  newCostQuota := target.newCostQuota
  costDiscount := target.costDiscount
  costBasisQuota := b.basis
  costBasisBefore := b.before
  costBasisAfter := b.after
  basisVersion := b.version
  reason := header.reason
  actorID := header.actorID
  batchID := header.batchID
  createdAt := header.createdAt

/-- Does a target differ from the state? -/
def targetDiffers (state : CostAccountingState) (b : CostBasis) (target : CostAccountingAdjustmentTarget) : Bool :=
  target.newCostQuota - state.quota ≠ 0 || b.basis ≠ state.basis || b.before ≠ state.before ||
    b.after ≠ state.after || b.version ≠ state.basisVersion || target.costDiscount ≠ state.discount

/-- The row a target adds, if any. -/
def adjustTarget (env : CorrectionEnv) (header : AdjustmentHeader) (db : DB)
    (target : CostAccountingAdjustmentTarget) : Except CostAdjustError (Option CostAccountingAdjustment) :=
  match db.snapshots.get? target.snapshotID with
  | none => .error .targetNotFound
  | some snapshot =>
    if snapshot.logType = .consume ∧ target.newCostQuota < 0 then .error .negativeConsumption
    else if snapshot.logType = .refund ∧ target.newCostQuota > 0 then .error .positiveRefund
    else do
      let state ← asAdjustError (effectiveCostAccountingState snapshot (adjustmentsOf db target.snapshotID))
      if target.expectedAdjustmentID.any (· ≠ state.latestID) then .error (.billing .conflict)
      else do
        let b ← targetBasis env snapshot state target
        .ok (if targetDiffers state b target then some (targetRow header state b target) else none)

/-- The rows of all targets.  Every state is read before the first row is written. -/
def adjustTargets (env : CorrectionEnv) (header : AdjustmentHeader) (db : DB) :
    List CostAccountingAdjustmentTarget → Except CostAdjustError (List CostAccountingAdjustment)
  | [] => .ok []
  | target :: targets => do
    let row ← adjustTarget env header db target
    let rows ← adjustTargets env header db targets
    .ok (row.toList ++ rows)

/-! ## The call -/

/-- One row of `CreateInBatches`; the rows of a call by hand have no event key. -/
def insertAdjustment (created : List CostAccountingAdjustment) (row : CostAccountingAdjustment) :
    Txn DB CostAdjustError (List CostAccountingAdjustment) := do
  let db ← get
  let row := { row with id := nextRowID (db.adjustments.rows.map CostAccountingAdjustment.id) }
  modify (·.putAdjustment row)
  pure (created ++ [row])

def adjustInTransaction (env : CorrectionEnv) (header : AdjustmentHeader)
    (targets : List CostAccountingAdjustmentTarget) : Txn DB CostAdjustError (List CostAccountingAdjustment) := do
  let db ← get
  rejectIf (targets.any fun target => (db.snapshots.get? target.snapshotID).isNone) .targetNotFound
  let rows ← ofExcept (adjustTargets env header db targets)
  forEach insertAdjustment [] rows

/-- `AdjustCostAccountingSnapshots`. -/
def adjustCostAccountingSnapshots (env : CorrectionEnv) (now : ℤ) (targets : List CostAccountingAdjustmentTarget)
    (reason : String) (actorID : ℤ) (batchID : String) : Txn DB CostAdjustError (List CostAccountingAdjustment) :=
  if targets = [] then pure []
  else do
    rejectIf (trimSpace reason = "" ∨ (trimSpace reason).utf8ByteSize > 500 ∨ (trimSpace batchID).utf8ByteSize > 64)
      .invalidMetadata
    let targets ← ofExcept (checkTargets none (orderBy CostAccountingAdjustmentTarget.snapshotID targets))
    transaction (adjustInTransaction env ⟨trimSpace reason, actorID, trimSpace batchID, now⟩ targets)

end NovaMaas.Billing
