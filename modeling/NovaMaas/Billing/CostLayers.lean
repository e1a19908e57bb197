/-
  The layers of a supplier cost over every run of adjustments and corrections.

  A snapshot carries the quota and the discount a cost was booked with; every change is a row behind it.  What holds of
  every run is that the layers add up (`CostAgrees`): the quota read off the rows is the snapshot's quota plus the
  deltas, it is the new quota of the last row, and the discount is the one that was named last.

  A discount is named by the snapshot, by a target that has one, by a target that comes with a basis (then an empty
  discount takes it away), and by a correction.  A target with neither only asks for a quota.  For such a target the code
  carries the basis of the state on, and not the discount: where one is in force, the row takes it away if the snapshot
  has a basis version, and if it has none the row is written again at every retry.

  `namesDiscounts` asks of a call that its targets without discount and basis find no discount.  In every run of such
  calls the layers agree, and a call made once more changes nothing.
-/
import NovaMaas.Billing.CostAdjust
import NovaMaas.Lib.Except

open Option

open List hiding drop

namespace NovaMaas.Billing

open Txn CostAccountingAdjustmentTarget

/-! ## What an accepted target has read -/

/-- The state and the basis behind the row of a target. -/
structure TargetRead (env : CorrectionEnv) (header : AdjustmentHeader) (db : DB)
    (target : CostAccountingAdjustmentTarget) (row : Option CostAccountingAdjustment)
    (snapshot : CostAccountingSnapshot) (state : CostAccountingState) (b : CostBasis) : Prop where
  snapshot_row : db.snapshots.get? target.snapshotID = some snapshot
  state_ok : effectiveCostAccountingState snapshot (adjustmentsOf db target.snapshotID) = .ok state
  basis_ok : targetBasis env snapshot state target = .ok b
  row_eq : row = if targetDiffers state b target then some (targetRow header state b target) else none

theorem asAdjustError_ok {α : Type} {x : Except BillingError α} {a : α} (h : asAdjustError x = .ok a) : x = .ok a := by
  cases x with
  | error => cases h
  | ok =>
    cases h
    rfl

variable {env : CorrectionEnv} {header : AdjustmentHeader} {db db' : DB} {target : CostAccountingAdjustmentTarget}
  {targets : List CostAccountingAdjustmentTarget} {snapshot : CostAccountingSnapshot} {state : CostAccountingState}
  {b : CostBasis}

theorem adjustTarget_ok {row : Option CostAccountingAdjustment} (h : adjustTarget env header db target = .ok row) :
    ∃ snapshot state b, TargetRead env header db target row snapshot state b := by
  unfold adjustTarget at h
  split at h
  · cases h
  · rename_i snapshot hsnapshot
    split_ifs at h
    cases hstate : asAdjustError (effectiveCostAccountingState snapshot (adjustmentsOf db target.snapshotID)) with
    | error =>
      rw [hstate] at h
      cases h
    | ok state =>
      rw [hstate] at h
      change (if target.expectedAdjustmentID.any (· ≠ state.latestID) then _ else _) = _ at h
      split_ifs at h
      cases hb : targetBasis env snapshot state target with
      | error =>
        rw [hb] at h
        cases h
      | ok b =>
        rw [hb] at h
        exact ⟨snapshot, state, b, hsnapshot, asAdjustError_ok hstate, hb, (Except.ok.inj h).symm⟩

/-- A basis with a version is the target's own, whatever the state. -/
theorem targetBasis_own (hversion : 0 < target.basisVersion) (state' : CostAccountingState) :
    targetBasis env snapshot state' target = targetBasis env snapshot state target := by
  unfold targetBasis
  rw [if_pos hversion, if_pos hversion]

theorem targetBasis_carried (hversion : target.basisVersion ≤ 0) :
    targetBasis env snapshot state target = .ok ⟨state.basis, state.before, state.after, state.basisVersion⟩ :=
  if_neg (Int.not_lt.2 hversion)

theorem targetBasis_version (hversion : 0 < target.basisVersion) (h : targetBasis env snapshot state target = .ok b) :
    b.version = target.basisVersion := by
  unfold targetBasis at h
  rw [if_pos hversion] at h
  split at h
  · cases h
  · split_ifs at h
    · split at h
      · split_ifs at h
        cases h
        rfl
      · cases h
    · cases h
      rfl

theorem targetDiffers_false : targetDiffers state b target = false ↔
    target.newCostQuota = state.quota ∧ b.basis = state.basis ∧ b.before = state.before ∧ b.after = state.after ∧
      b.version = state.basisVersion ∧ target.costDiscount = state.discount := by
  simp only [targetDiffers, Bool.or_eq_false_iff, decide_eq_false_iff_not, ne_eq, not_not, Int.sub_eq_zero, and_assoc]

/-! ## The state behind a row -/

/-- A target that says what the discount is to be. -/
def CostAccountingAdjustmentTarget.namesDiscount (target : CostAccountingAdjustmentTarget) : Bool :=
  target.costDiscount ≠ "" || target.basisVersion > 0

theorem names_false : target.namesDiscount = false ↔ target.costDiscount = "" ∧ target.basisVersion ≤ 0 := by
  simp [namesDiscount]

variable {id : ℤ}

variable {a : CostAccountingAdjustment}

theorem adjust_versioned (h : a.basisVersion > 0 ∨ a.action = .reverse) : state.adjust a =
      { quota := state.quota + a.deltaCostQuota
        latestID := a.id
        stateID := if a.action = .reverse then a.previousAdjustmentID else a.id
        basis := a.costBasisQuota
        before := a.costBasisBefore
        after := a.costBasisAfter
        discount := a.costDiscount
        basisVersion := a.basisVersion } := by
  unfold CostAccountingState.adjust
  exact if_pos h

theorem adjust_unversioned (h : ¬ (a.basisVersion > 0 ∨ a.action = .reverse)) : state.adjust a = { state with
        quota := state.quota + a.deltaCostQuota
        latestID := a.id
        stateID := if a.action = .reverse then a.previousAdjustmentID else a.id
        discount := if a.costDiscount ≠ "" then a.costDiscount else state.discount } := by
  simp only [CostAccountingState.adjust, if_neg h]
  split_ifs <;> rfl

theorem row_unversioned (header : AdjustmentHeader) (state : CostAccountingState)
    (target : CostAccountingAdjustmentTarget) (hversion : b.version ≤ 0) :
    ¬ ((targetRow header state b target).basisVersion > 0 ∨ (targetRow header state b target).action = .reverse) := by
  rintro (hpos | hreverse)
  · exact absurd hpos (Int.not_lt.2 hversion)
  · cases hreverse

/-- The discount behind the row of a target that names one, or that finds none. -/
theorem discount_row (hb : targetBasis env snapshot state target = .ok b)
    (hnames : target.namesDiscount = true ∨ state.discount = "") :
    (state.adjust { targetRow header state b target with id := id }).discount = target.costDiscount := by
  by_cases hversion : 0 < b.version
  · rw [adjust_versioned (Or.inl hversion)]
    rfl
  · have hplain := row_unversioned header state target (Int.not_lt.1 hversion)
    rw [adjust_unversioned (a := { targetRow header state b target with id := id }) hplain]
    by_cases hdiscount : target.costDiscount = ""
    · have hnone : ¬ 0 < target.basisVersion := fun hpos => hversion (targetBasis_version hpos hb ▸ hpos)
      have hstate : state.discount = "" := by
        rcases hnames with hnames | hstate
        · rw [names_false.2 ⟨hdiscount, Int.not_lt.1 hnone⟩] at hnames
          cases hnames
        · exact hstate
      show (if target.costDiscount ≠ "" then target.costDiscount else state.discount) = _
      rw [if_neg (not_not.2 hdiscount), hstate, hdiscount]
    · exact if_pos hdiscount

/-- A target behind its own row finds nothing to change. -/
theorem row_settles {b' : CostBasis} (hb : targetBasis env snapshot state target = .ok b)
    (hnames : target.namesDiscount = true ∨ state.discount = "")
    (hb' : targetBasis env snapshot (state.adjust { targetRow header state b target with id := id }) target = .ok b') :
    targetDiffers (state.adjust { targetRow header state b target with id := id }) b' target = false := by
  have hdiscount := @discount_row _ header _ _ _ _ id hb hnames
  rw [targetDiffers_false]
  by_cases hown : 0 < target.basisVersion
  · rw [targetBasis_own hown, hb] at hb'
    cases hb'
    have hversion : 0 < b.version := targetBasis_version hown hb ▸ hown
    rw [adjust_versioned (Or.inl hversion)]
    refine ⟨?_, rfl, rfl, rfl, rfl, rfl⟩
    show target.newCostQuota = state.quota + (target.newCostQuota - state.quota)
    omega
  · rw [targetBasis_carried (Int.not_lt.1 hown)] at hb hb'
    cases hb
    cases hb'
    -- the row has the basis of the state before, so the state behind it has it too
    refine ⟨?_, rfl, rfl, rfl, rfl, hdiscount.symm⟩
    rw [adjust_quota]
    show target.newCostQuota = state.quota + (target.newCostQuota - state.quota)
    omega

/-! ## A call by hand -/

/-- A new row is the last one of its snapshot. -/
theorem insertAdjustment_spec (created : List CostAccountingAdjustment) (row : CostAccountingAdjustment) (s : DB) :
    wp (insertAdjustment created row) (fun _ s' => ∃ id, (∀ k, adjustmentsOf s' k = adjustmentsOf s k ++
          if row.snapshotID = k then [{ row with id := id }] else []) ∧
        s'.snapshots = s.snapshots) s := by
  rw [insertAdjustment, wp_bind, wp_get, wp_bind, wp_modify, wp_pure]
  have hlt : ∀ a ∈ s.adjustments.rows, a.id < nextRowID (s.adjustments.rows.map CostAccountingAdjustment.id) :=
    fun a ha => lt_nextRowID (mem_map_of_mem ha)
  exact ⟨_, fun k => adjustmentsOf_put hlt k, rfl⟩

/-- The rows of one call, each behind those of its own snapshot. -/
structure Inserted (rows : List CostAccountingAdjustment) (s s' : DB) : Prop where
  each : ∀ row ∈ rows, ∃ id, adjustmentsOf s' row.snapshotID =
    adjustmentsOf s row.snapshotID ++ [{ row with id := id }]
  others : ∀ k, (∀ row ∈ rows, row.snapshotID ≠ k) → adjustmentsOf s' k = adjustmentsOf s k
  snapshots : s'.snapshots = s.snapshots

variable {rows : List CostAccountingAdjustment}

theorem insert_rows (hapart : rows.Pairwise fun a b => a.snapshotID ≠ b.snapshotID) (s : DB) :
    wp (forEach insertAdjustment [] rows) (fun _ s' => Inserted rows s s') s := by
  refine wp_forEach _ (fun _ done s' => Inserted done s s') rows [] s ?_ ?_
  · exact ⟨fun _ hrow => absurd hrow not_mem_nil, fun _ _ => rfl, rfl⟩
  · intro created done row rest s₁ hsplit hdone
    refine wp_mono (insertAdjustment_spec created row s₁) ?_
    rintro _ s₂ ⟨id, hrows, hsnapshots⟩
    rw [hsplit, pairwise_append] at hapart
    have hfresh : ∀ r ∈ done, r.snapshotID ≠ row.snapshotID := fun r hr =>
      hapart.2.2 r hr row mem_cons_self
    constructor
    · intro r hr
      rcases mem_append.1 hr with hr | hr
      · obtain ⟨id', hr'⟩ := hdone.each r hr
        exact ⟨id', by rw [hrows, if_neg (hfresh r hr).symm, append_nil, hr']⟩
      · rw [mem_singleton.1 hr]
        exact ⟨id, by rw [hrows, if_pos rfl, hdone.others _ hfresh]⟩
    · intro k hk
      have hrow : row.snapshotID ≠ k := hk row (mem_append_right _ mem_cons_self)
      rw [hrows, if_neg hrow, append_nil, hdone.others k fun r hr => hk r (mem_append_left _ hr)]
    · rw [hsnapshots, hdone.snapshots]

theorem adjustTarget_snapshotID {row : CostAccountingAdjustment}
    (h : adjustTarget env header db target = .ok (some row)) : row.snapshotID = target.snapshotID := by
  obtain ⟨snapshot, state, b, hread⟩ := adjustTarget_ok h
  have hrow := hread.row_eq
  split_ifs at hrow
  cases hrow
  rfl

/-- Each target answers for itself, and each row comes from a target. -/
theorem adjustTargets_ok (h : adjustTargets env header db targets = .ok rows) :
    (∀ target ∈ targets, ∃ row, adjustTarget env header db target = .ok row ∧ ∀ r ∈ row, r ∈ rows) ∧
      ∀ r ∈ rows, ∃ target ∈ targets, adjustTarget env header db target = .ok (some r) := by
  induction targets generalizing rows with
  | nil =>
    cases h
    exact ⟨fun _ ht => absurd ht not_mem_nil, fun _ hr => absurd hr not_mem_nil⟩
  | cons target _ ih =>
    rw [adjustTargets] at h
    obtain ⟨row, hrow, h⟩ := Except.bind_eq_ok.1 h
    obtain ⟨rest, hrest, h⟩ := Except.bind_eq_ok.1 h
    cases h
    obtain ⟨hread, hfrom⟩ := ih hrest
    constructor
    · intro t ht
      rcases mem_cons.1 ht with rfl | ht
      · exact ⟨row, hrow, fun r hr => mem_append_left _ (mem_toList.2 hr)⟩
      · obtain ⟨row', hrow', hmem⟩ := hread t ht
        exact ⟨row', hrow', fun r hr => mem_append_right _ (hmem r hr)⟩
    · intro r hr
      rcases mem_append.1 hr with hr | hr
      · rw [mem_toList.1 hr] at hrow
        exact ⟨target, mem_cons_self, hrow⟩
      · obtain ⟨t, ht, hfound⟩ := hfrom r hr
        exact ⟨t, mem_cons_of_mem _ ht, hfound⟩

theorem adjustTargets_apart (hapart : targets.Pairwise fun a b => a.snapshotID ≠ b.snapshotID)
    (h : adjustTargets env header db targets = .ok rows) :
    rows.Pairwise fun a b => a.snapshotID ≠ b.snapshotID := by
  induction targets generalizing rows with
  | nil =>
    cases h
    exact List.Pairwise.nil
  | cons _ _ ih =>
    rw [pairwise_cons] at hapart
    rw [adjustTargets] at h
    obtain ⟨row, hrow, h⟩ := Except.bind_eq_ok.1 h
    obtain ⟨rest, hrest, h⟩ := Except.bind_eq_ok.1 h
    cases h
    cases row with
    | none => exact ih hapart.2 hrest
    | some =>
      refine pairwise_cons.2 ⟨?_, ih hapart.2 hrest⟩
      intro r' hr'
      obtain ⟨t, ht, hfound⟩ := (adjustTargets_ok hrest).2 r' hr'
      rw [adjustTarget_snapshotID hrow, adjustTarget_snapshotID hfound]
      exact hapart.1 t ht

/-- Checked targets are of different snapshots. -/
theorem checkTargets_ok {last : Option ℤ} {checked : List CostAccountingAdjustmentTarget}
    (hsorted : targets.Pairwise fun a b => a.snapshotID ≤ b.snapshotID)
    (h : checkTargets last targets = .ok checked) :
    checked.map snapshotID = targets.map snapshotID ∧ (∀ target ∈ checked.head?, last ≠ some target.snapshotID) ∧
      checked.Pairwise fun a b => a.snapshotID < b.snapshotID := by
  induction targets generalizing last checked with
  | nil =>
    cases h
    exact ⟨rfl, fun _ ht => absurd ht (not_mem_none _), List.Pairwise.nil⟩
  | cons target targets ih =>
    rw [pairwise_cons] at hsorted
    rw [checkTargets] at h
    split_ifs at h with hbad
    obtain ⟨discount, -, h⟩ := Except.bind_eq_ok.1 h
    obtain ⟨rest, hrest, h⟩ := Except.bind_eq_ok.1 h
    cases h
    obtain ⟨hids, hhead, hrise⟩ := ih hsorted.2 hrest
    have hle : ∀ r ∈ rest, target.snapshotID ≤ r.snapshotID := by
      intro r hr
      have hmem : r.snapshotID ∈ targets.map snapshotID :=
        hids ▸ mem_map_of_mem hr
      obtain ⟨t, ht, heq⟩ := mem_map.1 hmem
      exact heq ▸ hsorted.1 t ht
    refine ⟨by rw [map_cons, map_cons, hids], ?_, pairwise_cons.2 ⟨?_, hrise⟩⟩
    · intro t ht hlast
      cases ht
      exact hbad (Or.inr (Or.inr (Or.inr hlast)))
    · intro r hr
      show target.snapshotID < r.snapshotID
      cases rest with
      | nil => cases hr
      | cons first =>
        have hne : target.snapshotID ≠ first.snapshotID := fun heq =>
          hhead first rfl (congrArg some heq)
        have hfirst := hle first mem_cons_self
        rcases mem_cons.1 hr with rfl | hr
        · omega
        · have hlater := (pairwise_cons.1 hrise).1 r hr
          omega

/-- What an accepted call does with the targets it checked. -/
structure AdjustedBy (env : CorrectionEnv) (header : AdjustmentHeader)
    (targets : List CostAccountingAdjustmentTarget) (s s' : DB) : Prop where
  each : ∀ target ∈ targets, ∃ row, adjustTarget env header s target = .ok row ∧
    ((row = none ∧ adjustmentsOf s' target.snapshotID = adjustmentsOf s target.snapshotID) ∨
      ∃ r id, row = some r ∧ adjustmentsOf s' target.snapshotID =
        adjustmentsOf s target.snapshotID ++ [{ r with id := id }])
  others : ∀ k, (∀ target ∈ targets, target.snapshotID ≠ k) → adjustmentsOf s' k = adjustmentsOf s k
  snapshots : s'.snapshots = s.snapshots
  /-- Nothing is written for nothing. -/
  idle : (∀ target ∈ targets, adjustTarget env header s target = .ok none) → s' = s

theorem adjustInTransaction_spec (env : CorrectionEnv) (header : AdjustmentHeader)
    (hrise : targets.Pairwise fun a b => a.snapshotID < b.snapshotID) (s : DB) :
    wp (adjustInTransaction env header targets) (fun _ s' => AdjustedBy env header targets s s') s := by
  rw [adjustInTransaction, wp_bind, wp_get, wp_bind, wp_rejectIf]
  intro _
  rw [wp_bind, wp_ofExcept]
  intro rows hrows
  have hapart : targets.Pairwise fun a b => a.snapshotID ≠ b.snapshotID := hrise.imp fun hlt => Int.ne_of_lt hlt
  obtain ⟨hread, hfrom⟩ := adjustTargets_ok hrows
  intro created s' hrun
  have hins : Inserted rows s s' := insert_rows (adjustTargets_apart hapart hrows) s created s' hrun
  have hown : ∀ r ∈ rows, ∀ t ∈ targets, r.snapshotID = t.snapshotID → adjustTarget env header s t = .ok (some r) := by
    intro r hr t ht hid
    obtain ⟨t', ht', hfound⟩ := hfrom r hr
    have hsame : t' = t := by
      refine inj_on_of_nodup_map (pairwise_map.2 hapart) ht' ht ?_
      rw [← hid, adjustTarget_snapshotID hfound]
    exact hsame ▸ hfound
  constructor
  · intro t ht
    obtain ⟨row, hrow, hmem⟩ := hread t ht
    refine ⟨row, hrow, ?_⟩
    cases row with
    | none =>
      refine Or.inl ⟨rfl, hins.others _ fun r hr hid => ?_⟩
      rw [hown r hr t ht hid] at hrow
      cases hrow
    | some r =>
      obtain ⟨id, hr⟩ := hins.each r (hmem r rfl)
      refine Or.inr ⟨r, id, rfl, ?_⟩
      rw [← adjustTarget_snapshotID hrow]
      exact hr
  · intro k hk
    refine hins.others k fun r hr hid => ?_
    obtain ⟨t, ht, hfound⟩ := hfrom r hr
    exact hk t ht (adjustTarget_snapshotID hfound ▸ hid)
  · exact hins.snapshots
  · intro hnone
    have hempty : rows = [] := by
      refine eq_nil_iff_forall_not_mem.2 fun r hr => ?_
      obtain ⟨t, ht, hfound⟩ := hfrom r hr
      rw [hnone t ht] at hfound
      cases hfound
    subst hempty
    cases hrun
    rfl

/-! ## Runs -/

/-- What happens to the costs: a snapshot is recorded, costs are adjusted by hand, or a correction applies or reverses
    its costs. -/
inductive CostMove
  | record (snapshot : CostAccountingSnapshot)
  | adjust (now : ℤ) (targets : List CostAccountingAdjustmentTarget) (reason : String) (actorID : ℤ) (batchID : String)
  | correct (now : ℤ) (batch : BillingCorrection) (actorID : ℤ) (reverse : Bool) (reason : String)

/-- The database behind a transaction, if it is committed. -/
def committed {ε α : Type} (m : Txn DB ε α) (db : DB) : Option DB :=
  match m db with
  | (.ok _, db') => some db'
  | (.error _, _) => none

def CostMove.exec (env : CorrectionEnv) : CostMove → DB → Option DB
  | .record snapshot, db => committed (createSnapshot snapshot) db
  | .adjust now targets reason actorID batchID, db =>
      committed (adjustCostAccountingSnapshots env now targets reason actorID batchID) db
  | .correct now batch actorID reverse reason, db =>
      committed (billingCorrectionApplyCosts now batch actorID reverse reason) db

/-- The targets of a call by hand as it checks them. -/
def checkedTargets (targets : List CostAccountingAdjustmentTarget) : List CostAccountingAdjustmentTarget :=
  match checkTargets none (orderBy snapshotID targets) with
  | .ok checked => checked
  | .error _ => []

/-- The discount a correction sets, or sets back. -/
def correctionDiscount (reverse : Bool) (frozen : BillingCorrectionCost) : String :=
  if reverse then frozen.currentDiscount else frozen.targetDiscount

def correctionNames (reverse : Bool) (frozen : BillingCorrectionCost) : Bool :=
  reverse || frozen.targetBasisVersion > 0 || frozen.targetDiscount ≠ ""

/-- The discounts a move names, by snapshot. -/
def CostMove.discounts : CostMove → List (ℤ × String)
  | .record _ => []
  | .adjust _ targets _ _ _ =>
      ((checkedTargets targets).filter namesDiscount).map fun t =>
        (t.snapshotID, t.costDiscount)
  | .correct _ batch _ reverse _ =>
      ((costTargets batch.rows).filter fun t => correctionNames reverse t.2).map fun t =>
        (t.2.snapshotID, correctionDiscount reverse t.2)

/-- The books of the costs, and beside them the discount that was named last for each snapshot. -/
structure CostBooks where
  db : DB
  named : ℤ → Option String := fun _ => none

def nameAll (named : ℤ → Option String) (discounts : List (ℤ × String)) (id : ℤ) : Option String :=
  match discounts.find? fun d => d.1 = id with
  | some d => some d.2
  | none => named id

/-- The books behind a committed move. -/
def CostBooks.after (books : CostBooks) (move : CostMove) (db : DB) : CostBooks where
  db := db
  named := nameAll books.named move.discounts

def CostBooks.step (env : CorrectionEnv) (books : CostBooks) (move : CostMove) : CostBooks :=
  match move.exec env books.db with
  | some db => books.after move db
  | none => books

open CostBooks

def CostBooks.run (env : CorrectionEnv) (books : CostBooks) (moves : List CostMove) : CostBooks :=
  moves.foldl (step env) books

/-- The discount in force for a snapshot: the one named last, or the one it was recorded with. -/
def CostBooks.discount (books : CostBooks) (id : ℤ) : String :=
  (books.named id).getD ((books.db.snapshots.get? id).elim "" CostAccountingSnapshot.costDiscount)

/-- Does every target name a discount, or find none in force? -/
def CostMove.namesDiscounts (books : CostBooks) : CostMove → Bool
  | .adjust _ targets _ _ _ =>
      (checkedTargets targets).all fun t => t.namesDiscount || books.discount t.snapshotID = ""
  | _ => true

/-- The same for every move of a run. -/
def namesDiscounts (env : CorrectionEnv) : CostBooks → List CostMove → Bool
  | _, [] => true
  | books, move :: moves => move.namesDiscounts books && namesDiscounts env (books.step env move) moves

/-! ## What holds of every run -/

open CostAccountingAdjustment hiding basisVersion costDiscount snapshotID

/-- The layers of a snapshot add up. -/
structure CostAgrees (books : CostBooks) (snapshot : CostAccountingSnapshot) (state : CostAccountingState) : Prop where
  quota_sum : state.quota = snapshot.costQuota + ((adjustmentsOf books.db snapshot.id).map deltaCostQuota).sum
  quota_last : ∀ last ∈ (adjustmentsOf books.db snapshot.id).getLast?, state.quota = last.newCostQuota
  discount : state.discount = books.discount snapshot.id

structure BooksAgree (books : CostBooks) : Prop where
  agrees : ∀ snapshot ∈ books.db.snapshots.rows, ∀ state,
    effectiveCostAccountingState snapshot (adjustmentsOf books.db snapshot.id) = .ok state →
      CostAgrees books snapshot state
  /-- There is nothing behind a snapshot that is not there. -/
  rooted : ∀ id, books.db.snapshots.get? id = none → adjustmentsOf books.db id = [] ∧ books.named id = none

theorem committed_some {ε α : Type} {m : Txn DB ε α} (h : committed m db = some db') : ∃ a, m db = (.ok a, db') := by
  unfold committed at h
  split at h
  · rename_i a db'' heq
    cases h
    exact ⟨a, heq⟩
  · cases h

variable {books books' : CostBooks}

/-- One more row, which goes from the state before it to its own quota and to the discount now in force. -/
theorem CostAgrees.append {state' : CostAccountingState} (h : CostAgrees books snapshot state)
    (hstate : effectiveCostAccountingState snapshot (adjustmentsOf books.db snapshot.id) = .ok state)
    (hadj : adjustmentsOf books'.db snapshot.id = adjustmentsOf books.db snapshot.id ++ [a])
    (hdelta : a.deltaCostQuota = a.newCostQuota - state.quota)
    (hdiscount : (state.adjust a).discount = books'.discount snapshot.id)
    (hstate' : effectiveCostAccountingState snapshot (adjustmentsOf books'.db snapshot.id) = .ok state') :
    CostAgrees books' snapshot state' := by
  rw [hadj, effectiveCostAccountingState_concat, hstate] at hstate'
  change (if adjustmentCorrupt snapshot state a then _ else _) = _ at hstate'
  split_ifs at hstate'
  cases hstate'
  constructor
  · rw [adjust_quota, hadj, map_append, sum_append, map_singleton, sum_singleton, h.quota_sum]
    omega
  · intro last hlast
    rw [hadj, getLast?_concat] at hlast
    cases hlast
    rw [adjust_quota, hdelta]
    omega
  · exact hdiscount

/-- What may happen to the rows behind a snapshot in one move: nothing, and the discount in force is still the one of
    the state; or one row that sets it. -/
def SnapshotMove (books books' : CostBooks) (snapshot : CostAccountingSnapshot) : Prop :=
  (adjustmentsOf books'.db snapshot.id = adjustmentsOf books.db snapshot.id ∧
      ∀ state, effectiveCostAccountingState snapshot (adjustmentsOf books.db snapshot.id) = .ok state →
        state.discount = books.discount snapshot.id → state.discount = books'.discount snapshot.id) ∨
    ∃ state a, effectiveCostAccountingState snapshot (adjustmentsOf books.db snapshot.id) = .ok state ∧
      adjustmentsOf books'.db snapshot.id = adjustmentsOf books.db snapshot.id ++ [a] ∧
      a.deltaCostQuota = a.newCostQuota - state.quota ∧
      (state.discount = books.discount snapshot.id → (state.adjust a).discount = books'.discount snapshot.id)

theorem BooksAgree.extend (h : BooksAgree books) (hsnapshots : books'.db.snapshots = books.db.snapshots)
    (hmove : ∀ snapshot ∈ books.db.snapshots.rows, SnapshotMove books books' snapshot)
    (hrooted : ∀ id, books.db.snapshots.get? id = none →
      adjustmentsOf books'.db id = adjustmentsOf books.db id ∧ books'.named id = books.named id) :
    BooksAgree books' := by
  constructor
  · intro snapshot hmem state' hstate'
    rw [hsnapshots] at hmem
    rcases hmove snapshot hmem with ⟨hadj, hdiscount⟩ | ⟨state, a, hstate, hadj, hdelta, hdiscount⟩
    · rw [hadj] at hstate'
      have hagree := h.agrees snapshot hmem state' hstate'
      constructor
      · rw [hadj]
        exact hagree.quota_sum
      · rw [hadj]
        exact hagree.quota_last
      · exact hdiscount state' hstate' hagree.discount
    · have hagree := h.agrees snapshot hmem state hstate
      exact hagree.append hstate hadj hdelta (hdiscount hagree.discount) hstate'
  · intro id hid
    rw [hsnapshots] at hid
    obtain ⟨hadj, hnamed⟩ := hrooted id hid
    rw [hadj, hnamed]
    exact h.rooted id hid

/-! ## Names -/

section Names

variable {τ : Type} {l : List τ} {key : τ → ℤ} {p : τ → Bool} {d : τ → String} {named : ℤ → Option String}

theorem nameAll_other {k : ℤ} (h : ∀ t ∈ l, key t ≠ k) :
    nameAll named ((l.filter p).map fun t => (key t, d t)) k = named k := by
  have hnone : (((l.filter p).map fun t => (key t, d t)).find? fun e => e.1 = k) = none := by
    refine find?_eq_none.2 fun e he => ?_
    obtain ⟨t, ht, rfl⟩ := mem_map.1 he
    simpa using h t (mem_filter.1 ht).1
  rw [nameAll, hnone]

/-- Among targets that agree where they meet, each is heard. -/
theorem nameAll_own {t : τ} (hsame : ∀ t' ∈ l, key t' = key t → p t' = p t ∧ d t' = d t) (ht : t ∈ l) :
    nameAll named ((l.filter p).map fun t => (key t, d t)) (key t) = if p t then some (d t) else named (key t) := by
  unfold nameAll
  cases hfind : ((l.filter p).map fun t => (key t, d t)).find? fun e => e.1 = key t with
  | none =>
    have hp : p t = false := by
      rw [Bool.eq_false_iff]
      intro hp
      have hmem : (key t, d t) ∈ (l.filter p).map fun t => (key t, d t) :=
        mem_map.2 ⟨t, mem_filter.2 ⟨ht, hp⟩, rfl⟩
      simpa using find?_eq_none.1 hfind _ hmem
    rw [hp]
    rfl
  | some =>
    obtain ⟨t', ht', rfl⟩ := mem_map.1 (mem_of_find?_eq_some hfind)
    have hkey : key t' = key t := by simpa using find?_some hfind
    obtain ⟨hp, hd⟩ := hsame t' (mem_filter.1 ht').1 hkey
    have hpt : p t = true := hp ▸ (mem_filter.1 ht').2
    rw [if_pos hpt, hd]

end Names

theorem discount_of_mem (hmem : snapshot ∈ books.db.snapshots.rows) :
    books.discount snapshot.id = (books.named snapshot.id).getD snapshot.costDiscount := by
  unfold discount
  rw [Table.get?_of_mem hmem]
  rfl

theorem discount_after {move : CostMove} (hmem : snapshot ∈ db'.snapshots.rows) :
    (books.after move db').discount snapshot.id =
      (nameAll books.named move.discounts snapshot.id).getD snapshot.costDiscount :=
  discount_of_mem hmem

/-! ## The moves -/

theorem checkedTargets_rise (targets : List CostAccountingAdjustmentTarget) :
    (checkedTargets targets).Pairwise fun a b => a.snapshotID < b.snapshotID := by
  unfold checkedTargets
  split
  · rename_i checked hchecked
    exact (checkTargets_ok (orderBy_pairwise _ _) hchecked).2.2
  · exact List.Pairwise.nil

theorem checkedTargets_same {t t' : CostAccountingAdjustmentTarget} (ht : t ∈ checkedTargets targets)
    (ht' : t' ∈ checkedTargets targets) (h : t'.snapshotID = t.snapshotID) : t' = t := by
  have hapart : ((checkedTargets targets).map snapshotID).Nodup :=
    pairwise_map.2 ((checkedTargets_rise targets).imp fun hlt => Int.ne_of_lt hlt)
  exact inj_on_of_nodup_map hapart ht' ht h

variable {now actorID : ℤ} {reason batchID : String}

open CostMove

theorem adjust_spec (h : (adjust now targets reason actorID batchID).exec env db = some db') :
    ∃ header, AdjustedBy env header (checkedTargets targets) db db' := by
  obtain ⟨rows, hrun⟩ := committed_some h
  unfold adjustCostAccountingSnapshots at hrun
  split_ifs at hrun with hempty
  · cases hrun
    subst hempty
    exact ⟨⟨reason, actorID, batchID, now⟩, fun _ ht => absurd ht not_mem_nil, fun _ _ => rfl, rfl, fun _ => rfl⟩
  · have hspec : wp (do
        rejectIf (trimSpace reason = "" ∨ (trimSpace reason).utf8ByteSize > 500 ∨
          (trimSpace batchID).utf8ByteSize > 64) CostAdjustError.invalidMetadata
        let checked ← ofExcept (checkTargets none (orderBy snapshotID targets))
        transaction (adjustInTransaction env ⟨trimSpace reason, actorID, trimSpace batchID, now⟩ checked))
        (fun _ s' => ∃ header, AdjustedBy env header (checkedTargets targets) db s') db := by
      rw [wp_bind, wp_rejectIf]
      intro _
      rw [wp_bind, wp_ofExcept]
      intro checked hchecked
      have hsame : checkedTargets targets = checked := by
        unfold checkedTargets
        rw [hchecked]
      rw [wp_transaction]
      refine wp_mono (adjustInTransaction_spec env _ (hsame ▸ checkedTargets_rise targets) db) ?_
      intro _ s' hadjusted
      exact ⟨_, hsame ▸ hadjusted⟩
    exact hspec rows db' hrun

theorem adjust_agrees (h : BooksAgree books)
    (hnames : (adjust now targets reason actorID batchID).namesDiscounts books = true)
    (hexec : (adjust now targets reason actorID batchID).exec env books.db = some db') :
    BooksAgree (books.after (.adjust now targets reason actorID batchID) db') := by
  obtain ⟨header, hadjusted⟩ := adjust_spec hexec
  have hother (k : ℤ) (hk : ∀ t ∈ checkedTargets targets, t.snapshotID ≠ k) :
      nameAll books.named (adjust now targets reason actorID batchID).discounts k = books.named k :=
    nameAll_other hk
  refine h.extend hadjusted.snapshots ?_ ?_
  · intro snapshot hmem
    by_cases htarget : ∃ t ∈ checkedTargets targets, t.snapshotID = snapshot.id
    · obtain ⟨t, ht, hid⟩ := htarget
      have hcheck : t.namesDiscount = true ∨ books.discount snapshot.id = "" := by
        have := all_eq_true.1 hnames t ht
        rw [Bool.or_eq_true, decide_eq_true_eq, hid] at this
        exact this
      have hnow : nameAll books.named (adjust now targets reason actorID batchID).discounts snapshot.id =
          if t.namesDiscount then some t.costDiscount else books.named snapshot.id := by
        rw [← hid]
        exact nameAll_own (fun t' ht' hkey => by rw [checkedTargets_same ht ht' hkey]; exact ⟨rfl, rfl⟩) ht
      -- a target that names no discount finds none, so its empty discount is the one in force
      have hforce (hd : t.namesDiscount = true ∨ t.costDiscount = books.discount snapshot.id) :
          t.costDiscount = (books.after (.adjust now targets reason actorID batchID) db').discount snapshot.id := by
        have hmem' : snapshot ∈ db'.snapshots.rows := hadjusted.snapshots ▸ hmem
        rw [discount_after hmem', hnow]
        by_cases hname : t.namesDiscount = true
        · rw [if_pos hname]
          rfl
        · rw [if_neg hname, ← discount_of_mem hmem]
          exact hd.resolve_left hname
      obtain ⟨row, hrow, hafter⟩ := hadjusted.each t ht
      obtain ⟨snapshot', state, b, hread⟩ := adjustTarget_ok hrow
      have hsnapshot : snapshot' = snapshot := by
        have hget := hread.snapshot_row
        rw [hid, Table.get?_of_mem hmem] at hget
        exact (some.inj hget).symm
      subst hsnapshot
      have hstate := hread.state_ok
      have hrow_eq := hread.row_eq
      rw [hid] at hstate hafter
      rcases hafter with ⟨hnone, hadj⟩ | ⟨r, id, hsome, hadj⟩
      · refine Or.inl ⟨hadj, fun state' hstate' hold => ?_⟩
        rw [hstate] at hstate'
        cases hstate'
        rw [hnone] at hrow_eq
        have hsame : targetDiffers state b t = false := by
          rw [Bool.eq_false_iff]
          intro hdiffers
          rw [if_pos hdiffers] at hrow_eq
          cases hrow_eq
        have hdiscount := (targetDiffers_false.1 hsame).2.2.2.2.2
        rw [← hdiscount]
        exact hforce (Or.inr (hdiscount.trans hold))
      · rw [hsome] at hrow_eq
        split_ifs at hrow_eq
        cases hrow_eq
        refine Or.inr ⟨state, _, hstate, hadj, rfl, fun hold => ?_⟩
        have hfinds : t.namesDiscount = true ∨ state.discount = "" := hcheck.imp_right hold.trans
        rw [discount_row hread.basis_ok hfinds]
        refine hforce ?_
        by_cases hname : t.namesDiscount = true
        · exact Or.inl hname
        · refine Or.inr ?_
          rw [(names_false.1 (Bool.eq_false_iff.2 hname)).1, hcheck.resolve_left hname]
    · have hno : ∀ t ∈ checkedTargets targets, t.snapshotID ≠ snapshot.id := fun t ht hid => htarget ⟨t, ht, hid⟩
      refine Or.inl ⟨hadjusted.others _ hno, fun state _ hold => ?_⟩
      have hmem' : snapshot ∈ db'.snapshots.rows := hadjusted.snapshots ▸ hmem
      rw [hold, discount_of_mem hmem, discount_after hmem', hother _ hno]
  · intro id hid
    have hno : ∀ t ∈ checkedTargets targets, t.snapshotID ≠ id := by
      intro t ht heq
      obtain ⟨row, hrow, -⟩ := hadjusted.each t ht
      obtain ⟨snapshot, state, b, hread⟩ := adjustTarget_ok hrow
      rw [← heq, hread.snapshot_row] at hid
      cases hid
    exact ⟨hadjusted.others _ hno, hother _ hno⟩

variable {batch : BillingCorrection} {reverse : Bool}

/-- Behind the row of a correction the discount is the one it names, or the one before. -/
theorem discount_correction {reason : String} {frozen : BillingCorrectionCost} :
    (state.adjust { costAdjustment now batch actorID reverse reason state frozen with id := id }).discount =
      if correctionNames reverse frozen then correctionDiscount reverse frozen else state.discount := by
  cases reverse with
  | true =>
    rw [adjust_versioned (Or.inr rfl)]
    rfl
  | false =>
    by_cases hversion : 0 < frozen.targetBasisVersion
    · have hnames : correctionNames false frozen = true := by simp [correctionNames, hversion]
      rw [adjust_versioned (Or.inl hversion), if_pos hnames]
      rfl
    · have hplain : ¬ ((costAdjustment now batch actorID false reason state frozen).basisVersion > 0 ∨
          (costAdjustment now batch actorID false reason state frozen).action = .reverse) := by
        rintro (hpos | hreverse)
        · exact hversion hpos
        · cases hreverse
      rw [adjust_unversioned (a := { costAdjustment now batch actorID false reason state frozen with id := id }) hplain]
      by_cases hdiscount : frozen.targetDiscount = ""
      · have hnames : correctionNames false frozen = false := by simp [correctionNames, hversion, hdiscount]
        rw [hnames]
        exact if_neg (not_not.2 hdiscount)
      · have hnames : correctionNames false frozen = true := by simp [correctionNames, hdiscount]
        rw [hnames]
        exact if_pos hdiscount

theorem correct_spec {reason : String} (h : (correct now batch actorID reverse reason).exec env db = some db') :
    ∃ ordered, (∀ t, t ∈ ordered ↔ t ∈ costTargets batch.rows) ∧
      CostsApplied now batch actorID reverse reason ordered db db' := by
  obtain ⟨rows, hrun⟩ := committed_some h
  refine ⟨orderBy (fun t => t.2.snapshotID) (costTargets batch.rows), fun t => mem_orderBy, ?_⟩
  have hspec : wp (billingCorrectionApplyCosts now batch actorID reverse reason) (fun _ s' =>
      CostsApplied now batch actorID reverse reason
        (orderBy (fun t => t.2.snapshotID) (costTargets batch.rows)) db s') db := by
    rw [billingCorrectionApplyCosts, wp_bind, wp_rejectIf]
    intro _
    rw [drop, wp_bind]
    refine wp_mono (applyCosts_spec now batch actorID reverse reason _ (orderBy_pairwise _ _) db) ?_
    intro _ s' happlied
    rw [wp_pure]
    exact happlied
  exact hspec rows db' hrun

theorem correct_agrees {reason : String} (h : BooksAgree books)
    (hexec : (correct now batch actorID reverse reason).exec env books.db = some db') :
    BooksAgree (books.after (.correct now batch actorID reverse reason) db') := by
  obtain ⟨ordered, hmems, happlied⟩ := correct_spec hexec
  have hsnapshots : db'.snapshots = books.db.snapshots := by rw [happlied.frame]
  have hother (k : ℤ) (hk : ∀ t ∈ costTargets batch.rows, t.2.snapshotID ≠ k) :
      nameAll books.named (correct now batch actorID reverse reason).discounts k = books.named k :=
    nameAll_other hk
  refine h.extend hsnapshots ?_ ?_
  · intro snapshot hmem
    have hmem' : snapshot ∈ db'.snapshots.rows := hsnapshots ▸ hmem
    by_cases htarget : ∃ t ∈ costTargets batch.rows, t.2.snapshotID = snapshot.id
    · obtain ⟨t, ht, hid⟩ := htarget
      obtain ⟨snapshot', state, id, happ⟩ := happlied.applied t ((hmems t).2 ht)
      have hstate := happ.state_ok
      have hadj := happ.adjusted
      -- two targets of one snapshot have left the same row
      have hsame : ∀ t' ∈ costTargets batch.rows, t'.2.snapshotID = t.2.snapshotID →
          correctionNames reverse t'.2 = correctionNames reverse t.2 ∧
            correctionDiscount reverse t'.2 = correctionDiscount reverse t.2 := by
        intro t' ht' hkey
        obtain ⟨snapshot'', state', id', happ'⟩ := happlied.applied t' ((hmems t').2 ht')
        have hadj' := happ'.adjusted
        rw [hkey, hadj] at hadj'
        have hrow := singleton_inj.1 (append_cancel_left hadj')
        have hdiscount : correctionDiscount reverse t.2 = correctionDiscount reverse t'.2 :=
          congrArg CostAccountingAdjustment.costDiscount hrow
        refine ⟨?_, hdiscount.symm⟩
        cases reverse with
        | true => rfl
        | false =>
          have hversion : t.2.targetBasisVersion = t'.2.targetBasisVersion :=
            congrArg CostAccountingAdjustment.basisVersion hrow
          have hdiscount : t.2.targetDiscount = t'.2.targetDiscount := hdiscount
          simp only [correctionNames, hversion, hdiscount]
      have hnow := @nameAll_own _ _ (fun t => t.2.snapshotID) (fun t => correctionNames reverse t.2)
        (fun t => correctionDiscount reverse t.2) books.named t hsame ht
      have hsnapshot : snapshot' = snapshot := by
        have hget := happ.snapshot_row
        rw [hid, Table.get?_of_mem hmem] at hget
        exact (some.inj hget).symm
      subst hsnapshot
      rw [hid] at hstate hadj hnow
      refine Or.inr ⟨state, _, hstate, hadj, rfl, fun hold => ?_⟩
      rw [discount_correction, discount_after hmem']
      show _ = getD (nameAll books.named
        (((costTargets batch.rows).filter fun t => correctionNames reverse t.2).map fun t =>
          (t.2.snapshotID, correctionDiscount reverse t.2)) snapshot'.id) _
      rw [hnow]
      by_cases hnames : correctionNames reverse t.2 = true
      · rw [if_pos hnames, if_pos hnames]
        rfl
      · rw [if_neg hnames, if_neg hnames, hold, discount_of_mem hmem]
    · have hno : ∀ t ∈ costTargets batch.rows, t.2.snapshotID ≠ snapshot.id := fun t ht hid => htarget ⟨t, ht, hid⟩
      refine Or.inl ⟨happlied.others _ fun t ht => hno t ((hmems t).1 ht), fun state _ hold => ?_⟩
      rw [hold, discount_of_mem hmem, discount_after hmem', hother _ hno]
  · intro id hid
    have hno : ∀ t ∈ costTargets batch.rows, t.2.snapshotID ≠ id := by
      intro t ht heq
      obtain ⟨snapshot, state, id', happ⟩ := happlied.applied t ((hmems t).2 ht)
      rw [← heq, happ.snapshot_row] at hid
      cases hid
    exact ⟨happlied.others _ fun t ht => hno t ((hmems t).1 ht), hother _ hno⟩

theorem record_agrees (h : BooksAgree books) (hexec : (record snapshot).exec env books.db = some db') :
    BooksAgree (books.after (.record snapshot) db') := by
  obtain ⟨_, hrun⟩ := committed_some hexec
  have hlt : ∀ s ∈ books.db.snapshots.rows,
      s.id < nextRowID (books.db.snapshots.rows.map CostAccountingSnapshot.id) :=
    fun s hs => lt_nextRowID (mem_map_of_mem hs)
  generalize hnew : nextRowID (books.db.snapshots.rows.map CostAccountingSnapshot.id) = new at hlt
  have hdb : db' = books.db.putSnapshot { snapshot with id := new } := by
    have hspec : wp (createSnapshot snapshot) (fun _ s' => s' = books.db.putSnapshot { snapshot with id := new })
        books.db := by
      rw [createSnapshot, wp_bind, wp_get, wp_bind, wp_rejectIf]
      intro _
      rw [wp_modify, hnew]
    exact hspec _ db' hrun
  have hfresh : books.db.snapshots.get? new = none :=
    Table.get?_eq_none.2 fun s hs => Int.ne_of_lt (hlt s hs)
  obtain ⟨hnoRows, hnoName⟩ := h.rooted new hfresh
  have hrows : db'.snapshots.rows = books.db.snapshots.rows ++ [{ snapshot with id := new }] := by
    rw [hdb]
    exact Table.rows_put_of_fresh fun s hs => Int.ne_of_lt (hlt s hs)
  have hadj (k : ℤ) : adjustmentsOf db' k = adjustmentsOf books.db k := by
    rw [hdb]
    rfl
  constructor
  · intro s hs state hstate
    change s ∈ db'.snapshots.rows at hs
    have hdiscount : (books.after (.record snapshot) db').discount s.id =
        (books.named s.id).getD s.costDiscount := discount_after hs
    change effectiveCostAccountingState s (adjustmentsOf db' s.id) = .ok state at hstate
    rw [hadj] at hstate
    rw [hrows, mem_append, mem_singleton] at hs
    rcases hs with hs | rfl
    · have hagree := h.agrees s hs state hstate
      refine ⟨?_, ?_, ?_⟩
      · show state.quota = s.costQuota + ((adjustmentsOf db' s.id).map deltaCostQuota).sum
        rw [hadj]
        exact hagree.quota_sum
      · show ∀ last ∈ (adjustmentsOf db' s.id).getLast?, state.quota = last.newCostQuota
        rw [hadj]
        exact hagree.quota_last
      · rw [hagree.discount, discount_of_mem hs, hdiscount]
    · -- the new snapshot has no rows yet
      change effectiveCostAccountingState _ (adjustmentsOf books.db new) = _ at hstate
      rw [hnoRows] at hstate
      unfold effectiveCostAccountingState at hstate
      split_ifs at hstate
      cases hstate
      refine ⟨?_, ?_, ?_⟩
      · show snapshot.costQuota = snapshot.costQuota + ((adjustmentsOf db' new).map deltaCostQuota).sum
        rw [hadj, hnoRows]
        exact (Int.add_zero _).symm
      · show ∀ last ∈ (adjustmentsOf db' new).getLast?, _
        rw [hadj, hnoRows]
        exact fun last hlast => absurd hlast (not_mem_none _)
      · rw [hdiscount, hnoName]
        rfl
  · intro k hk
    have hold : books.db.snapshots.get? k = none := by
      refine Table.get?_eq_none.2 fun s hs => ?_
      refine Table.get?_eq_none.1 hk s ?_
      show s ∈ db'.snapshots.rows
      rw [hrows]
      exact mem_append_left _ hs
    exact ⟨(hadj k).trans (h.rooted k hold).1, (h.rooted k hold).2⟩

/-! ## The theorem -/

theorem BooksAgree.step {move : CostMove} (h : BooksAgree books) (hnames : move.namesDiscounts books = true) :
    BooksAgree (books.step env move) := by
  unfold CostBooks.step
  cases hexec : move.exec env books.db with
  | none => exact h
  | some =>
    cases move with
    | record => exact record_agrees h hexec
    | adjust => exact adjust_agrees h hnames hexec
    | correct => exact correct_agrees h hexec

theorem BooksAgree.run {moves : List CostMove} (h : BooksAgree books)
    (hnames : namesDiscounts env books moves = true) : BooksAgree (books.run env moves) := by
  induction moves generalizing books with
  | nil => exact h
  | cons _ _ ih =>
    rw [namesDiscounts, Bool.and_eq_true] at hnames
    exact ih (h.step hnames.1) hnames.2

/-- An accepted call, made again, finds every target settled. -/
theorem adjust_again {now now' actorID : ℤ} {db'' : DB} (h : BooksAgree books)
    (hnames : (adjust now targets reason actorID batchID).namesDiscounts books = true)
    (hexec : (adjust now targets reason actorID batchID).exec env books.db = some db')
    (hagain : (adjust now' targets reason actorID batchID).exec env db' = some db'') : db'' = db' := by
  obtain ⟨header, hadjusted⟩ := adjust_spec hexec
  obtain ⟨header', hadjusted'⟩ := adjust_spec hagain
  refine hadjusted'.idle fun t ht => ?_
  obtain ⟨row, hrow, hafter⟩ := hadjusted.each t ht
  obtain ⟨row', hrow', -⟩ := hadjusted'.each t ht
  obtain ⟨snapshot, state, b, hread⟩ := adjustTarget_ok hrow
  obtain ⟨snapshot', state', b', hread'⟩ := adjustTarget_ok hrow'
  have hsnapshot : snapshot' = snapshot := by
    have hget := hread'.snapshot_row
    rw [hadjusted.snapshots, hread.snapshot_row] at hget
    exact (some.inj hget).symm
  subst hsnapshot
  have hid : snapshot'.id = t.snapshotID := Table.key_of_get? hread.snapshot_row
  have hfinds : t.namesDiscount = true ∨ state.discount = "" := by
    have hcheck := all_eq_true.1 hnames t ht
    rw [Bool.or_eq_true, decide_eq_true_eq, ← hid] at hcheck
    refine hcheck.imp_right fun hnone => ?_
    have hstate := hread.state_ok
    rw [← hid] at hstate
    rw [← hnone]
    exact (h.agrees snapshot' (Table.mem_of_get? hread.snapshot_row) state hstate).discount
  have hsettled : targetDiffers state' b' t = false := by
    have hstate' := hread'.state_ok
    have hrow_eq := hread.row_eq
    rcases hafter with ⟨hnone, hadj⟩ | ⟨r, id, hsome, hadj⟩
    · rw [hadj, hread.state_ok] at hstate'
      cases hstate'
      have hb := hread'.basis_ok
      rw [hread.basis_ok] at hb
      cases hb
      rw [hnone] at hrow_eq
      rw [Bool.eq_false_iff]
      intro hdiffers
      rw [if_pos hdiffers] at hrow_eq
      cases hrow_eq
    · rw [hsome] at hrow_eq
      split_ifs at hrow_eq
      cases hrow_eq
      rw [hadj, effectiveCostAccountingState_concat, hread.state_ok] at hstate'
      change (if adjustmentCorrupt snapshot' state _ then _ else _) = _ at hstate'
      split_ifs at hstate'
      cases hstate'
      exact row_settles hread.basis_ok hfinds hread'.basis_ok
  rw [hrow', hread'.row_eq, hsettled]
  rfl

/-- Books in which nothing was adjusted yet. -/
def CostBooks.opened (db : DB) : CostBooks := { db := db }

theorem opened_agrees (hnone : db.adjustments.rows = []) : BooksAgree (.opened db) := by
  have hno (k : ℤ) : adjustmentsOf db k = [] := by
    unfold adjustmentsOf
    rw [hnone]
    rfl
  constructor
  · intro snapshot hmem state hstate
    change effectiveCostAccountingState snapshot (adjustmentsOf db snapshot.id) = _ at hstate
    rw [hno] at hstate
    unfold effectiveCostAccountingState at hstate
    split_ifs at hstate
    cases hstate
    refine ⟨?_, ?_, ?_⟩
    · show snapshot.costQuota = snapshot.costQuota + ((adjustmentsOf db snapshot.id).map deltaCostQuota).sum
      rw [hno]
      exact (Int.add_zero _).symm
    · show ∀ last ∈ (adjustmentsOf db snapshot.id).getLast?, _
      rw [hno]
      exact fun last hlast => absurd hlast (not_mem_none _)
    · have hdiscount : (opened db).discount snapshot.id = _ := discount_of_mem hmem
      rw [hdiscount]
      rfl
  · exact fun k _ => ⟨hno k, rfl⟩

/-- The layers of every snapshot add up after every run whose targets name a discount or find none, and a call made
    again leaves the books as they are. -/
theorem layers_agree (env : CorrectionEnv) (db : DB) (hnone : db.adjustments.rows = []) (moves : List CostMove)
    (hnames : namesDiscounts env (.opened db) moves = true) :
    (∀ snapshot ∈ ((opened db).run env moves).db.snapshots.rows, ∀ state, effectiveCostAccountingState snapshot
          (adjustmentsOf ((opened db).run env moves).db snapshot.id) = .ok state →
        CostAgrees ((opened db).run env moves) snapshot state) ∧
      ∀ now now' targets reason actorID batchID db' db'', (adjust now targets reason actorID batchID).namesDiscounts
            ((opened db).run env moves) = true →
          (adjust now targets reason actorID batchID).exec env ((opened db).run env moves).db = some db' →
            (adjust now' targets reason actorID batchID).exec env db' = some db'' → db'' = db' := by
  have hagree := (opened_agrees hnone).run hnames
  exact ⟨hagree.agrees, fun _ _ _ _ _ _ _ _ hname hexec hagain => adjust_again hagree hname hexec hagain⟩

/-- A consumption of 1000 at a supplier discount of 0.6. -/
def discountedSale : CostAccountingSnapshot where
  id := 1
  eventKey := "task:abc:initial"
  sourceLogID := 11
  userID := 7
  logType := .consume
  revenueQuota := 1000
  costBasisQuota := some ⟨1250, 6⟩
  costDiscount := "0.600000"
  costQuota := 750
  snapshotVersion := 4

def discountedBooks : DB := DB.empty.putSnapshot discountedSale

def repriced : CostMove :=
  .adjust 100 [{ snapshotID := 1, newCostQuota := 625, costDiscount := "0.5" }] "supplier repricing" 1 "batch-1"

theorem layers_agree_repriced :
    CostAgrees ((opened discountedBooks).run (exactEnv [] fun _ => ({}, none)) [repriced]) discountedSale
      ⟨625, 1, 1, some ⟨1250, 6⟩, none, none, "0.500000", 4⟩ :=
  (layers_agree (exactEnv [] fun _ => ({}, none)) discountedBooks rfl [repriced] (by decide +kernel)).1
    discountedSale (by decide +kernel) _ (by decide +kernel)

/-- A call that only asks for another quota takes the discount of 0.6 away. -/
def reconciled : CostMove :=
  .adjust 100 [{ snapshotID := 1, newCostQuota := 700 }] "supplier reconciliation" 1 "batch-1"

theorem reconciliation_loses_discount : ∃ state, effectiveCostAccountingState discountedSale (adjustmentsOf
        ((opened discountedBooks).run (exactEnv [] fun _ => ({}, none)) [reconciled]).db 1) = .ok state ∧
      ¬ CostAgrees ((opened discountedBooks).run (exactEnv [] fun _ => ({}, none)) [reconciled])
        discountedSale state := by
  refine ⟨⟨700, 1, 1, some ⟨1250, 6⟩, none, none, "", 4⟩, by decide +kernel, fun hagree => ?_⟩
  have hdiscount := hagree.discount
  revert hdiscount
  decide +kernel

end NovaMaas.Billing
