/-
  Reversing corrections restores what they changed.

  Reversing a batch appends the opposite events: what holds is again a PROJECTION, of a longer list.

  1. **What is restored** (`Restored`): every user, token and channel row, the effective sale of
     every source entry, and the effective cost state of every snapshot (but for the id of the
     latest adjustment, which only grows).

  2. **One batch** (`restored_of_reverse`): applied in `t0`, reversed in a state that shows what the
     state after the application showed.  Sales and costs carry what they were in the rows the batch
     froze, and those are the evidence of `t0`.

  3. **Any stack** (`StackRun`): batches applied on top of each other and reversed newest first,
     with previews in between.  The invariant `Undo` is a chain of states, one per open batch.

  The reversal of a row takes the group and rate it found, EXCEPT that a row which found no group
  falls back to the ones of the source entry.  `Restorable` says when the two are the same.
-/
import NovaMaas.Billing.Runs

open List hiding drop

namespace NovaMaas.Billing

open Txn BillingCorrectionRow

/-! ## The projections -/

/-- What a source entry counts for now. -/
def saleNow (env : CorrectionEnv) (db : DB) (entry : BillingEntry) : SaleState :=
  effectiveSale env db entry.userID (accountOf db entry.userID).sequence entry

/-- The supplier cost of a snapshot now, without the id of its latest adjustment. -/
def costNow (db : DB) (snapshot : CostAccountingSnapshot) : Except BillingError CostAccountingState :=
  (effectiveCostAccountingState snapshot (adjustmentsOf db snapshot.id)).map fun state =>
    { state with latestID := 0 }

/-- `t` shows everything a correction can touch as `s` did.  Entries and snapshots may have been
    added, and no applied batch changed. -/
structure Restored (env : CorrectionEnv) (s t : DB) : Prop where
  users : ∀ v, t.users.get? v = s.users.get? v
  tokens : ∀ k, t.tokens.get? k = s.tokens.get? k
  channels : ∀ c, t.channels.get? c = s.channels.get? c
  entries : ∀ e ∈ s.entries.rows, e ∈ t.entries.rows
  sales : ∀ e ∈ s.entries.rows, saleNow env t e = saleNow env s e
  snapshots : ∀ id snapshot, s.snapshots.get? id = some snapshot → t.snapshots.get? id = some snapshot
  costs : ∀ id snapshot, s.snapshots.get? id = some snapshot → costNow t snapshot = costNow s snapshot
  applied : ∀ id batch, s.corrections.get? id = some batch → batch.status = .applied →
    t.corrections.get? id = some batch

theorem Restored.refl (env : CorrectionEnv) (s : DB) : Restored env s s :=
  ⟨fun _ => rfl, fun _ => rfl, fun _ => rfl, fun _ h => h, fun _ _ => rfl, fun _ _ h => h,
    fun _ _ _ => rfl, fun _ _ h _ => h⟩

variable {env : CorrectionEnv}

theorem Restored.trans {s t u : DB} (h1 : Restored env s t) (h2 : Restored env t u) : Restored env s u where
  users v := (h2.users v).trans (h1.users v)
  tokens k := (h2.tokens k).trans (h1.tokens k)
  channels c := (h2.channels c).trans (h1.channels c)
  entries e he := h2.entries e (h1.entries e he)
  sales e he := (h2.sales e (h1.entries e he)).trans (h1.sales e he)
  snapshots id x hx := h2.snapshots id x (h1.snapshots id x hx)
  costs id x hx := (h2.costs id x (h1.snapshots id x hx)).trans (h1.costs id x hx)
  applied id b hb hstatus := h2.applied id b (h1.applied id b hb hstatus) hstatus

/-! ### Sales -/

/-- Rates are read from the tasks and the usage logs. -/
theorem historicalRate_congr {s t : DB} (htasks : t.tasks = s.tasks) (hlogs : t.logs = s.logs)
    (env : CorrectionEnv) (userID : ℤ) (entry : BillingEntry) :
    historicalRate env t userID entry = historicalRate env s userID entry := by
  unfold historicalRate usageLogs
  rw [htasks, hlogs]

/-- The correction events of a source entry. -/
def eventsOf (es : List BillingEntry) (sourceID : ℤ) : List BillingEntry :=
  es.filter fun e => e.kind = .rateCorrection && e.sourceEntryID = sourceID

theorem LedgerOK.pairwise {db : DB} {u : ℤ} (h : LedgerOK db u) :
    (entriesOf db u).Pairwise fun a b => a.sequence ≤ b.sequence := by
  obtain ⟨n, -, hseq⟩ := h.sequences
  have hup : (upTo n).Pairwise fun a b => a ≤ b := by
    rw [upTo, pairwise_map]
    refine (pairwise_lt_range (n := n)).imp ?_
    intro a b hab
    omega
  rw [← hseq, pairwise_map] at hup
  exact hup

/-- In an ordered ledger the corrections of a source are its events, in table order. -/
theorem correctionsOf_eq {db : DB} {u : ℤ} (h : LedgerOK db u) (sourceID : ℤ) :
    correctionsOf db u sourceID (accountOf db u).sequence = eventsOf (entriesOf db u) sourceID := by
  have hfilter : (db.entries.rows.filter fun e => e.userID = u && e.kind = .rateCorrection &&
      e.sourceEntryID = sourceID && e.sequence ≤ (accountOf db u).sequence) =
      eventsOf (entriesOf db u) sourceID := by
    rw [eventsOf, entriesOf, filter_filter]
    refine filter_congr ?_
    intro e he
    by_cases hu : e.userID = u
    · have hle := h.sequence_le (mem_entriesOf.mpr ⟨he, hu⟩)
      simp [hu, hle]
    · simp [hu]
  rw [correctionsOf, hfilter]
  exact orderBy_of_sorted (h.pairwise.filter _)

theorem saleNow_eq {db : DB} {e : BillingEntry} (h : LedgerOK db e.userID) :
    saleNow env db e = (eventsOf (entriesOf db e.userID) e.id).foldl SaleState.correct
      (originalSale env db e.userID e) := by
  rw [saleNow, effectiveSale, correctionsOf_eq h]

variable {batch : BillingCorrection}

/-- Among the events of a call, one belongs to each of its sources. -/
theorem foldl_events {actorID u : ℤ} {reverse : Bool} {rows : List BillingCorrectionRow} {es : List BillingEntry}
    (hall : List.Forall₂ (EventOf env batch actorID reverse u) rows es)
    (hnodup : (rows.map sourceEntryID).Nodup) (sourceID : ℤ) :
    (sourceID ∉ rows.map sourceEntryID → eventsOf es sourceID = []) ∧
      ∀ row ∈ rows, row.sourceEntryID = sourceID → ∀ st : SaleState,
        (eventsOf es sourceID).foldl SaleState.correct st =
          st.correct (correctionEvent env batch actorID reverse row) := by
  induction hall with
  | nil => exact ⟨fun _ => rfl, by simp⟩
  | @cons row e rows es hevent _ ih =>
    rw [map_cons, nodup_cons] at hnodup
    obtain ⟨ihnone, ihsome⟩ := ih hnodup.2
    have hkind : e.kind = .rateCorrection := by rw [hevent]; rfl
    have hsource : e.sourceEntryID = row.sourceEntryID := by rw [hevent]; rfl
    have hcons : eventsOf (e :: es) sourceID =
        if row.sourceEntryID = sourceID then e :: eventsOf es sourceID else eventsOf es sourceID := by
      simp [eventsOf, filter_cons, hkind, hsource]
    refine ⟨?_, ?_⟩
    · intro hmem
      rw [map_cons, mem_cons, not_or] at hmem
      rw [hcons, if_neg fun h => hmem.1 h.symm, ihnone hmem.2]
    · intro r hr hrs st
      rcases mem_cons.mp hr with rfl | hr
      · -- the event of this row; the sources after it are others
        subst hrs
        rw [hcons, if_pos rfl, ihnone hnodup.1, foldl_cons, foldl_nil, hevent]
        rfl
      · have hne : row.sourceEntryID ≠ sourceID := by
          rintro rfl
          exact hnodup.1 (hrs ▸ mem_map_of_mem hr)
        rw [hcons, if_neg hne, ihsome r hr hrs]

variable {request : CorrectionRequest}

/-- What a call does to the sale of an entry. -/
theorem Corrected.saleNow {s s' : DB} (h : Corrected env request batch s s') (hok : BooksOK s)
    (hnodup : (batch.rows.map sourceEntryID).Nodup) (e : BillingEntry) :
    (e.id ∉ batch.rows.map sourceEntryID ∨ e.userID ≠ batch.userID → saleNow env s' e = saleNow env s e) ∧
    (e.userID = batch.userID → ∀ row ∈ batch.rows, row.sourceEntryID = e.id →
      saleNow env s' e = (saleNow env s e).correct
        (correctionEvent env batch request.actorID request.reverse row)) := by
  have hl := hok.ledger e.userID
  have hl' := h.ledger _ hl
  have horiginal : originalSale env s' e.userID e = originalSale env s e.userID e := by
    have hrate := historicalRate_congr (s := s) (t := s') (by rw [h.frame]; rfl) (by rw [h.frame]; rfl)
      env e.userID e
    rw [originalSale, hrate, originalSale]
  obtain ⟨es, hrows, hall, -⟩ := h.events
  have husers : ∀ x ∈ es, x.userID = batch.userID := by
    intro x hx
    obtain ⟨row, -, hevent⟩ := hall.exists_of_mem hx
    rw [hevent]
  have hnodup' : ((postingOrder request.reverse batch.rows).map
      sourceEntryID).Nodup :=
    ((orderBy_perm _ _).map _).nodup_iff.mpr hnodup
  obtain ⟨hnone, hsome⟩ := foldl_events hall hnodup' e.id
  rw [saleNow_eq hl', saleNow_eq hl, horiginal]
  by_cases hu : e.userID = batch.userID
  · have hevents : eventsOf (entriesOf s' e.userID) e.id =
        eventsOf (entriesOf s e.userID) e.id ++ eventsOf es e.id := by
      have hes : es.filter (fun x => x.userID = e.userID) = es := by
        rw [filter_eq_self]
        intro x hx
        rw [husers x hx, hu, decide_eq_true rfl]
      rw [entriesOf, hrows, filter_append, hes, eventsOf, filter_append]
      rfl
    rw [hevents, foldl_append]
    refine ⟨?_, ?_⟩
    · rintro (hmem | hne)
      · rw [hnone fun hm => hmem (((orderBy_perm _ _).map _).mem_iff.mp hm)]
        rfl
      · exact absurd hu hne
    · intro _ row hrow hsource
      exact hsome row (mem_postingOrder.mpr hrow) hsource _
  · have hevents : entriesOf s' e.userID = entriesOf s e.userID := by
      have hes : es.filter (fun x => x.userID = e.userID) = [] := by
        rw [filter_eq_nil_iff]
        intro x hx
        rw [husers x hx, decide_eq_true_eq]
        exact fun h => hu h.symm
      rw [entriesOf, hrows, filter_append, hes, append_nil, entriesOf]
    rw [hevents]
    exact ⟨fun _ => rfl, fun hu' => absurd hu' hu⟩

/-! ### Costs -/

theorem adjust_reverse {state : CostAccountingState} {a : CostAccountingAdjustment}
    (h : a.action = .reverse) :
    state.adjust a =
      { quota := state.quota + a.deltaCostQuota, latestID := a.id, stateID := a.previousAdjustmentID
        basis := a.costBasisQuota, before := a.costBasisBefore, after := a.costBasisAfter
        discount := a.costDiscount, basisVersion := a.basisVersion } := by
  simp [CostAccountingState.adjust, h]

variable {snapshot : CostAccountingSnapshot}

/-- Reversing a cost sets its snapshot to the state the batch froze. -/
theorem costNow_reversed {now : ℤ} {actorID : ℤ} {reason : String}
    {target : BillingCorrectionRow × BillingCorrectionCost} {state state0 : CostAccountingState} {id : ℤ}
    {s0 s s' : DB} (h : CostApplied now batch actorID true reason target snapshot state id s s')
    (hf : Frozen s0 state0 target.2) : costNow s' snapshot = .ok { state0 with latestID := 0 } := by
  obtain ⟨snapshot0, -, hstate0⟩ := hf.snapshot
  have hrange := effectiveCostAccountingState_ok hstate0
  have hid : snapshot.id = target.2.snapshotID := Table.key_of_get? h.snapshot_row
  have hlt := h.latest_lt
  have hfit : adjustmentCorrupt snapshot state
      { costAdjustment now batch actorID true reason state target.2 with id := id } = false := by
    have hle := hrange.le_max
    have hge := hrange.ge_min
    rw [← hf.quota] at hle hge
    simp only [adjustmentCorrupt, costAdjustment, if_pos, Bool.or_eq_false_iff, decide_eq_false_iff_not,
      not_lt, not_le, not_not]
    exact ⟨⟨⟨hid.symm, hlt⟩, by omega⟩, by omega⟩
  rw [costNow, hid, h.adjusted, effectiveCostAccountingState_concat, h.state_ok]
  simp only [Except.bind, hfit, Bool.false_eq_true, if_false, Except.map]
  rw [adjust_reverse rfl]
  simp only [costAdjustment, if_pos, hf.quota, hf.basis, hf.before, hf.after, hf.discount, hf.version,
    hf.stateID, add_sub_cancel]

theorem costNow_frozen {s : DB} {state : CostAccountingState} {frozen : BillingCorrectionCost}
    (hf : Frozen s state frozen) (hrow : s.snapshots.get? frozen.snapshotID = some snapshot) :
    costNow s snapshot = .ok { state with latestID := 0 } := by
  obtain ⟨snapshot', hrow', hstate⟩ := hf.snapshot
  rw [hrow] at hrow'
  cases hrow'
  have hid : snapshot.id = frozen.snapshotID := Table.key_of_get? hrow
  rw [costNow, hid, hstate]
  rfl

/-- A snapshot no target names keeps its cost. -/
theorem Corrected.costNow_other {s s' : DB} (h : Corrected env request batch s s')
    (hother : ∀ t ∈ costTargets batch.rows, t.2.snapshotID ≠ snapshot.id) :
    costNow s' snapshot = costNow s snapshot := by
  rw [costNow, h.otherCosts snapshot.id hother, costNow]

theorem mem_costTargets {rows : List BillingCorrectionRow}
    {t : BillingCorrectionRow × BillingCorrectionCost} (h : t ∈ costTargets rows) :
    t.1 ∈ rows ∧ t.1.targetCost = some t.2 := by
  obtain ⟨row, hrow, hmap⟩ := mem_filterMap.mp h
  split at hmap
  · obtain ⟨frozen, hfrozen, rfl⟩ := Option.map_eq_some_iff.mp hmap
    exact ⟨hrow, hfrozen⟩
  · cases hmap

/-! ## One batch -/

/-- The rows of a batch can be restored: every source entry has an effective group, or still the
    group and rate it was posted with. -/
def Restorable (env : CorrectionEnv) (db : DB) (batch : BillingCorrection) : Prop :=
  ∀ e ∈ db.entries.rows, e.id ∈ batch.rows.map sourceEntryID → (saleNow env db e).group ≠ "" ∨
      ((saleNow env db e).group = (originalSale env db e.userID e).group ∧
        (saleNow env db e).rate = (originalSale env db e.userID e).rate)

instance (env : CorrectionEnv) (db : DB) (batch : BillingCorrection) : Decidable (Restorable env db batch) := by
  unfold Restorable
  infer_instance

/-- A batch that was applied in `t0` and led to `t1`. -/
structure AppliedIn (env : CorrectionEnv) (request : CorrectionRequest) (batch : BillingCorrection)
    (t0 t1 : DB) : Prop where
  books : BooksOK t0
  stored : t0.corrections.get? batch.id = some batch
  preview : batch.status = .preview
  apply : request.reverse = false
  evidence : ∃ account, t0.accounts.get? batch.userID = some account ∧ batch.sourceSequence = account.sequence ∧
    billingCorrectionEvidence env t0 batch account.startSequence = .ok batch.rows
  restorable : Restorable env t0 batch
  corrected : Corrected env request batch t0 t1

/-- The row of a source entry froze the sale of the entry, and its reversal restores it. -/
theorem AppliedIn.row {t0 t1 : DB} (h : AppliedIn env request batch t0 t1) {e : BillingEntry}
    (he : e ∈ t0.entries.rows) {row : BillingCorrectionRow} (hrow : row ∈ batch.rows)
    (hsource : row.sourceEntryID = e.id) :
    e.userID = batch.userID ∧ rowTarget batch true row = ((saleNow env t0 e).group, (saleNow env t0 e).rate) := by
  obtain ⟨account, haccount, hseq, hevidence⟩ := h.evidence
  obtain ⟨⟨entry, hentry, hof⟩, -⟩ := evidence_row hevidence hrow
  have hmem := mem_filter.mp (mem_orderBy.mp hentry)
  -- ids are unique: the entry the row was computed from is this one
  have hsame : entry = e := by
    refine inj_on_of_nodup_map t0.entries.id_nodup hmem.1 he ?_
    rw [← hof.source, hsource]
  subst hsame
  have huser : entry.userID = batch.userID := by
    have := hmem.2
    simp only [Bool.and_eq_true, decide_eq_true_eq] at this
    exact this.1.1.1.1.1.1
  have hnow : saleNow env t0 entry =
      { quota := row.effectiveQuota, group := row.effectiveGroup, rate := row.effectiveRate } := by
    rw [hof.effective, saleNow, huser, accountOf, haccount, hseq]
    rfl
  refine ⟨huser, ?_⟩
  have hcond := h.restorable entry he (by rw [← hsource]; exact mem_map_of_mem hrow)
  rw [originalSale, huser, ← hof.original.2.1, ← hof.original.2.2, hnow] at hcond
  rw [hnow, rowTarget, if_pos rfl]
  dsimp only at hcond ⊢
  split
  · rfl
  · rename_i hempty
    rcases hcond with hgroup | ⟨hgroup, hrate⟩
    · exact absurd hgroup hempty
    · rw [hgroup, hrate]

theorem rowDelta_true (row : BillingCorrectionRow) : rowDelta true row = -rowDelta false row := rfl

theorem moved_true (batch : BillingCorrection) (f : BillingCorrectionRow → ℤ) (k : ℤ) :
    moved batch true f k = -moved batch false f k := by
  unfold moved
  split
  · have hneg : (batch.rows.map fun row => if f row = k then rowDelta true row else 0) =
        (batch.rows.map fun row => if f row = k then rowDelta false row else 0).map fun x => -x := by
      rw [map_map]
      refine map_congr_left fun row _ => ?_
      rw [Function.comp_apply, rowDelta_true]
      split
      · rfl
      · exact Int.neg_zero.symm
    rw [deltaSumOf, hneg, map_neg_sum, deltaSumOf]
  · exact Int.neg_zero.symm

theorem User.spend_spend (user : User) (d : ℤ) : (user.spend d).spend (-d) = user := by
  simp [User.spend]

theorem Token.spend_spend (token : Token) (d : ℤ) : (token.spend d).spend (-d) = token := by
  simp [Token.spend]

theorem Channel.spend_spend (channel : Channel) (d : ℤ) : (channel.spend d).spend (-d) = channel := by
  simp [Channel.spend]

theorem map_restored {α : Type} {a b c : Option α} {f g : α → α} (hb : b = a.map f) (hc : c = b.map g)
    (hfg : ∀ x, g (f x) = x) : c = a := by
  rw [hc, hb, Option.map_map]
  cases a with
  | none => rfl
  | some x => exact congrArg some (hfg x)

theorem closeBatch_rows (batch : BillingCorrection) (request : CorrectionRequest) :
    (closeBatch batch request).rows = batch.rows := by
  unfold closeBatch
  split <;> rfl

theorem closeBatch_userID (batch : BillingCorrection) (request : CorrectionRequest) :
    (closeBatch batch request).userID = batch.userID := by
  unfold closeBatch
  split <;> rfl

theorem closeBatch_netDelta (batch : BillingCorrection) (request : CorrectionRequest) :
    (closeBatch batch request).netDelta = batch.netDelta := by
  unfold closeBatch
  split <;> rfl

/-- A batch applied in `t0` and reversed in a state that shows what `t1` showed restores `t0`. -/
theorem restored_of_reverse {request undo : CorrectionRequest} {t0 t1 t t' : DB}
    (h : AppliedIn env request batch t0 t1) (hsame : Restored env t1 t) (hbooks : BooksOK t)
    (hundo : undo.reverse = true)
    (hrev : Corrected env undo (closeBatch batch request) t t') : Restored env t0 t' := by
  have happ := h.corrected
  have hok := h.books.batches _ _ h.stored
  have hrows := closeBatch_rows batch request
  have hnet : netOf (closeBatch batch request) true = -netOf batch false := by
    rw [netOf, if_pos rfl, closeBatch_netDelta]
    rfl
  have hmoved : ∀ f k, moved (closeBatch batch request) true f k = -moved batch false f k := by
    intro f k
    rw [moved_true, moved, hrows]
    rfl
  have hgrow : ∀ e ∈ t0.entries.rows, e ∈ t1.entries.rows := by
    intro e he
    obtain ⟨es, hes, -⟩ := happ.events
    rw [hes]
    exact mem_append_left _ he
  refine ⟨?_, ?_, ?_, ?_, ?_, ?_, ?_, ?_⟩
  · intro v
    refine map_restored (happ.users v) (by rw [hrev.users v, hsame.users v]) ?_
    intro user
    rw [h.apply, hundo, hnet, closeBatch_userID]
    split
    · exact User.spend_spend user _
    · rw [User.spend_zero, User.spend_zero]
  · intro k
    refine map_restored (happ.tokens k) (by rw [hrev.tokens k, hsame.tokens k]) ?_
    intro token
    rw [h.apply, hundo, hmoved]
    exact Token.spend_spend token _
  · intro c
    refine map_restored (happ.channels c) (by rw [hrev.channels c, hsame.channels c]) ?_
    intro channel
    rw [h.apply, hundo, hmoved]
    exact Channel.spend_spend channel _
  · intro e he
    obtain ⟨es, hes, -⟩ := hrev.events
    rw [hes]
    exact mem_append_left _ (hsame.entries e (hgrow e he))
  · intro e he
    have hnodup : ((closeBatch batch request).rows.map sourceEntryID).Nodup := by
      rw [hrows]
      exact hok.nodup
    obtain ⟨hkept1, hmoved1⟩ := happ.saleNow h.books hok.nodup e
    obtain ⟨hkept2, hmoved2⟩ := hrev.saleNow hbooks hnodup e
    rw [hrows, closeBatch_userID] at hkept2 hmoved2
    have hmiddle := hsame.sales e (hgrow e he)
    by_cases hmem : e.id ∈ batch.rows.map sourceEntryID
    · obtain ⟨row, hrow, hsource⟩ := mem_map.mp hmem
      obtain ⟨huser, htarget⟩ := h.row he hrow hsource
      have htarget' : rowTarget (closeBatch batch request) true row =
          ((saleNow env t0 e).group, (saleNow env t0 e).rate) := htarget
      rw [hmoved2 huser row hrow hsource, hmiddle, hmoved1 huser row hrow hsource, h.apply, hundo]
      simp only [SaleState.correct, correctionEvent, htarget', rowDelta_true]
      rw [Int.add_neg_cancel_right]
    · rw [hkept2 (Or.inl hmem), hmiddle, hkept1 (Or.inl hmem)]
  · intro id x hx
    exact hrev.snapshots id x (hsame.snapshots id x (happ.snapshots id x hx))
  · intro id x hx
    have hx1 := happ.snapshots id x hx
    have hid : x.id = id := Table.key_of_get? hx
    by_cases htarget : ∃ t ∈ costTargets batch.rows, t.2.snapshotID = x.id
    · obtain ⟨target, hmem, hsnap⟩ := htarget
      obtain ⟨account, -, -, hevidence⟩ := h.evidence
      obtain ⟨hrow, hfrozen⟩ := mem_costTargets hmem
      obtain ⟨state0, hf⟩ := (evidence_row hevidence hrow).2 target.2 hfrozen
      have hmem' : target ∈ costTargets (closeBatch batch request).rows := by
        rw [hrows]
        exact hmem
      obtain ⟨snapshot, state, aid, hcost⟩ := hrev.costs target hmem'
      have hsnapshot : snapshot = x := by
        have hrow1 := hcost.snapshot_row
        rw [hsnap, hid, hsame.snapshots id x hx1] at hrow1
        exact (Option.some.inj hrow1).symm
      subst hsnapshot
      rw [hundo] at hcost
      rw [costNow_reversed hcost hf, costNow_frozen hf (by rw [hsnap, hid, hx])]
    · have hother : ∀ t ∈ costTargets batch.rows, t.2.snapshotID ≠ x.id :=
        fun t ht hne => htarget ⟨t, ht, hne⟩
      have hother' : ∀ t ∈ costTargets (closeBatch batch request).rows, t.2.snapshotID ≠ x.id := by
        rw [hrows]
        exact hother
      rw [hrev.costNow_other hother', hsame.costs id x hx1, happ.costNow_other hother]
  · intro id b hb hstatus
    have hne : batch.id ≠ id := by
      rintro rfl
      rw [h.stored] at hb
      cases hb
      rw [h.preview] at hstatus
      cases hstatus
    have h1 : t1.corrections.get? id = some b := by
      rw [happ.corrections, Table.get?_put, closeBatch_id, if_neg hne, hb]
    rw [hrev.corrections, Table.get?_put, closeBatch_id, closeBatch_id, if_neg hne]
    exact hsame.applied id b h1 hstatus

/-- A preview shows nothing else. -/
theorem Previewed.restored {s s' : DB} (h : Previewed batch s s') : Restored env s s' := by
  have htasks : s'.tasks = s.tasks := by rw [h.frame]
  have hlogs : s'.logs = s.logs := by rw [h.frame]
  have hentries : s'.entries = s.entries := by rw [h.frame]
  have hadj : s'.adjustments = s.adjustments := by rw [h.frame]
  have hsnap : s'.snapshots = s.snapshots := by rw [h.frame]
  refine ⟨?_, ?_, ?_, ?_, ?_, ?_, ?_, ?_⟩
  · intro v
    rw [h.frame]
  · intro k
    rw [h.frame]
  · intro c
    rw [h.frame]
  · intro e he
    rw [hentries]
    exact he
  · intro e _
    rw [saleNow, effectiveSale, originalSale, historicalRate_congr htasks hlogs, correctionsOf, hentries, h.accounts]
    rfl
  · intro id x hx
    rw [hsnap, hx]
  · intro id x _
    rw [costNow, adjustmentsOf, hadj]
    rfl
  · intro id b hb _
    rw [h.corrections, Table.get?_put, if_neg, hb]
    rintro rfl
    rw [h.fresh] at hb
    cases hb

/-! ## Stacks of batches -/

/-- A run of correction calls from `s`: previews, applications of restorable batches, and reversals
    of the newest batch that is still applied.  The list holds the ids of the applied batches, newest
    first. -/
inductive StackRun (env : CorrectionEnv) (s : DB) : List String → DB → Prop
  | start : StackRun env s [] s
  | preview {stack : List String} {t t' : DB} {batch : BillingCorrection} (now : ℤ) (uuid : String)
      (input : BillingCorrectionInput) (actorID : ℤ) (rate userGroup : String) :
      StackRun env s stack t →
      previewBillingCorrection env now uuid input actorID rate userGroup t = (.ok batch, t') →
      StackRun env s stack t'
  | apply {stack : List String} {t t' : DB} {batch b : BillingCorrection} (request : CorrectionRequest) :
      StackRun env s stack t → request.reverse = false →
      t.corrections.get? request.id = some batch → batch.status = .preview → Restorable env t batch →
      applyBillingCorrection env request t = (.ok b, t') → StackRun env s (request.id :: stack) t'
  | reverse {stack : List String} {t t' : DB} {b : BillingCorrection} (request : CorrectionRequest) :
      StackRun env s (request.id :: stack) t → request.reverse = true →
      applyBillingCorrection env request t = (.ok b, t') → StackRun env s stack t'

/-- The chain of states behind a stack: below each batch the state it was applied in. -/
def Undo (env : CorrectionEnv) (s : DB) : List String → DB → Prop
  | [], t => Restored env s t
  | id :: stack, t => ∃ t0 t1 batch request, Undo env s stack t0 ∧ batch.id = id ∧
      AppliedIn env request batch t0 t1 ∧ Restored env t1 t

theorem Undo.trans {s t u : DB} {stack : List String} (h : Undo env s stack t)
    (htu : Restored env t u) : Undo env s stack u := by
  cases stack with
  | nil => exact Restored.trans h htu
  | cons id stack =>
    obtain ⟨t0, t1, batch, request, hbelow, hid, happ, hsame⟩ := h
    exact ⟨t0, t1, batch, request, hbelow, hid, happ, hsame.trans htu⟩

theorem correct_booksOK {s s' : DB} {b : BillingCorrection} (hok : BooksOK s)
    (hrun : applyBillingCorrection env request s = (.ok b, s')) :
    BooksOK s' := by
  have h := billingCall_booksOK env (.correct request) s hok
  rw [BillingCall.exec, drop, bind_ok hrun] at h
  exact h

theorem preview_booksOK {now : ℤ} {uuid : String} {input : BillingCorrectionInput} {actorID : ℤ}
    {rate userGroup : String} {s s' : DB} {b : BillingCorrection} (hok : BooksOK s)
    (hrun : previewBillingCorrection env now uuid input actorID rate userGroup s = (.ok b, s')) :
    BooksOK s' := by
  have h := billingCall_booksOK env (.preview now uuid input actorID rate userGroup) s hok
  rw [BillingCall.exec, drop, bind_ok hrun] at h
  exact h

/-- Every stack run keeps its chain. -/
theorem StackRun.undo {s t : DB} {stack : List String} (hs : BooksOK s)
    (h : StackRun env s stack t) : BooksOK t ∧ Undo env s stack t := by
  induction h with
  | start => exact ⟨hs, Restored.refl env s⟩
  | preview now uuid input actorID rate userGroup _ hrun ih =>
    refine ⟨preview_booksOK ih.1 hrun, ih.2.trans ?_⟩
    exact (previewBillingCorrection_spec env now uuid input actorID rate userGroup _ _ _ hrun).restored
  | @apply stack t t' batch b request _ happly hbatch hpreview hrest hrun ih =>
    refine ⟨correct_booksOK ih.1 hrun, ?_⟩
    obtain ⟨batch', hbatch', hdigest, hcase⟩ :=
      applyBillingCorrection_spec env request t (ih.1.batches request.id) b t' hrun
    rw [hbatch] at hbatch'
    cases hbatch'
    have hid : batch.id = request.id := Table.key_of_get? hbatch
    rcases hcase with ⟨⟨-, hstatus⟩ | ⟨hreverse, -⟩, -⟩ | ⟨hacc, -, hcorrected⟩
    · rw [hpreview] at hstatus
      cases hstatus
    · rw [happly] at hreverse
      cases hreverse
    · obtain ⟨account, haccount, -, hseq, hevidence⟩ := evidence_of_guard hdigest hacc happly
      refine ⟨t, t', batch, request, ih.2, hid, ?_, Restored.refl env t'⟩
      exact ⟨ih.1, by rw [hid, hbatch], hpreview, happly, ⟨account, haccount, hseq, hevidence⟩, hrest, hcorrected⟩
  | @reverse stack t t' b request _ hreverse hrun ih =>
    refine ⟨correct_booksOK ih.1 hrun, ?_⟩
    obtain ⟨t0, t1, batch, applied, hbelow, hid, happ, hsame⟩ := ih.2
    -- the batch is still stored as its application left it
    have hstored : t.corrections.get? request.id = some (closeBatch batch applied) := by
      refine hsame.applied _ _ ?_ ?_
      · rw [happ.corrected.corrections, Table.get?_put, closeBatch_id, if_pos hid]
      · rw [closeBatch, if_neg (by rw [happ.apply]; decide)]
    obtain ⟨batch', hbatch', -, hcase⟩ :=
      applyBillingCorrection_spec env request t (ih.1.batches request.id) b t' hrun
    rw [hstored] at hbatch'
    cases hbatch'
    rcases hcase with ⟨⟨happly, -⟩ | ⟨-, hstatus⟩, -⟩ | ⟨-, -, hcorrected⟩
    · rw [hreverse] at happly
      cases happly
    · rw [closeBatch, if_neg (by rw [happ.apply]; decide)] at hstatus
      cases hstatus
    · exact hbelow.trans (restored_of_reverse happ hsame ih.1 hreverse hcorrected)

end NovaMaas.Billing
