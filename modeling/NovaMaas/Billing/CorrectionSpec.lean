/-
  What a successful correction call does.

  As in `LedgerSpec`, one lemma per function, and callers never unfold.  The writes fall into four
  groups that touch disjoint tables, each with its own loop invariant:

  * the supplier costs (`adjustments`): one adjustment at the end of each target snapshot's list;
  * the rows (`users`, the ledger, `claims`, `snapshots`): one event per row, the wallet moved by
    their sum, the claims handed over;
  * the counters (`tokens`, `channels`): each moved by the sum of its rows;
  * the batch itself.

  `Corrected` puts them together.  Everything is stated once for both directions, with the sign in
  `rowDelta`.
-/
import NovaMaas.Billing.CorrectionApply
import NovaMaas.Billing.Hours

open List

namespace NovaMaas.Billing

open Txn BillingCorrectionRow

/-! ## One row -/

/-- The claim a row expects to find on its source. -/
def claimBefore (batch : BillingCorrection) (reverse : Bool) (row : BillingCorrectionRow) : String :=
  if reverse then batch.id else row.previousBatchID

/-- The claim a row leaves on its source. -/
def claimAfter (batch : BillingCorrection) (reverse : Bool) (row : BillingCorrectionRow) : String :=
  if reverse then row.previousBatchID else batch.id

/-- The stored event of a row: the row's event under the user, with what the ledger assigns. -/
def EventOf (env : CorrectionEnv) (batch : BillingCorrection) (actorID : ℤ) (reverse : Bool)
    (userID : ℤ) (row : BillingCorrectionRow) (e : BillingEntry) : Prop :=
  e = { correctionEvent env batch actorID reverse row with
    id := e.id, userID := userID, sequence := e.sequence, postedAt := e.postedAt
    balanceAfter := e.balanceAfter }

theorem claimOf_put (db : DB) (c : BillingCorrectionClaim) (src : ℤ) :
    claimOf (db.putClaim c) src = if c.sourceEntryID = src then c.batchID else claimOf db src := by
  unfold claimOf DB.putClaim
  rw [Table.get?_put]
  split <;> rfl

variable (userID : ℤ) (state : CostAccountingState) (a : CostAccountingAdjustment) (env : CorrectionEnv) (clock : ℤ → ℤ)
  (now : ℤ) (batch : BillingCorrection) (actorID : ℤ) (reverse : Bool) (p : Posting) (reason : String) (user : User)
  (rows : List BillingCorrectionRow) (row : BillingCorrectionRow) (deltas : Counter ℤ) (id : ℤ) (s : DB)

/-- A claim is taken only from the state the preview found it in. -/
theorem claimRow_spec : wp (claimRow batch reverse row) (fun _ s' =>
      row.blocked = none ∧ claimOf s row.sourceEntryID = claimBefore batch reverse row ∧ s' = s.putClaim
          { sourceEntryID := row.sourceEntryID, batchID := claimAfter batch reverse row }) s := by
  rw [claimRow, wp_bind, wp_rejectIf]
  intro hblocked
  rw [wp_bind, wp_get, wp_bind, wp_rejectIf]
  intro hdepends
  rw [wp_bind, wp_rejectIf]
  intro hconflict
  rw [wp_modify]
  refine ⟨not_not.mp hblocked, ?_, rfl⟩
  cases reverse with
  | false =>
    by_contra hne
    exact hconflict ⟨by decide, hne⟩
  | true =>
    by_contra hne
    exact hdepends ⟨rfl, hne⟩

theorem sourceToken_spec : wp (sourceToken userID row) (fun _ s' => s' = s) s := by
  rw [sourceToken, wp_ite]
  constructor
  · intro _
    rw [wp_bind, wp_get, wp_bind, wp_require]
    intro token _
    rw [wp_bind, wp_rejectIf]
    intro _
    rw [wp_pure]
  · intro _
    rw [wp_pure]

/-- A new snapshot replaces none. -/
theorem createSnapshot_spec (snapshot : CostAccountingSnapshot) (s : DB) : wp (createSnapshot snapshot) (fun _ s' =>
      (∀ id x, s.snapshots.get? id = some x → s'.snapshots.get? id = some x) ∧
        s' = { s with snapshots := s'.snapshots }) s := by
  rw [createSnapshot, wp_bind, wp_get, wp_bind, wp_rejectIf]
  intro _
  rw [wp_modify]
  refine ⟨?_, rfl⟩
  intro id x hx
  rw [DB.putSnapshot, Table.get?_put_ne]
  · exact hx
  · intro hid
    have hmem : x.id ∈ s.snapshots.rows.map CostAccountingSnapshot.id :=
      mem_map_of_mem (Table.mem_of_get? hx)
    have hlt := lt_nextRowID hmem
    rw [Table.key_of_get? hx] at hlt
    simp only at hid
    omega

/-- The amount of a row goes to the counters of its token and channel, and a snapshot may be added. -/
theorem recordRevenue_spec (p : Posting) (user : User) (entry : BillingEntry) (s : DB) :
    wp (recordRevenue batch reverse row p user entry) (fun p' s' => p'.user = user ∧
      (∀ t, p'.tokens.value t = p.tokens.value t + (if row.tokenID = t then rowDelta reverse row else 0)) ∧
      (∀ c, p'.channels.value c = p.channels.value c + (if row.channelID = c then rowDelta reverse row else 0)) ∧
      (∀ id x, s.snapshots.get? id = some x → s'.snapshots.get? id = some x) ∧
      s' = { s with snapshots := s'.snapshots }) s := by
  rw [recordRevenue, wp_ite]
  constructor
  · intro hzero
    rw [wp_pure]
    refine ⟨rfl, ?_, ?_, fun _ _ h => h, rfl⟩
    · intro t
      rw [hzero, ite_self, Int.add_zero]
    · intro c
      rw [hzero, ite_self, Int.add_zero]
  · intro _
    rw [wp_bind]
    refine wp_mono (sourceToken_spec user.id row s) ?_
    rintro name s1 rfl
    rw [wp_bind]
    refine wp_mono (createSnapshot_spec _ s1) ?_
    rintro _ s2 ⟨hkeep, hframe⟩
    rw [wp_pure]
    exact ⟨rfl, fun t => Counter.value_bump .., fun c => Counter.value_bump .., hkeep, hframe⟩

/-- What one row does. -/
structure RowApplied (env : CorrectionEnv) (batch : BillingCorrection) (actorID : ℤ) (reverse : Bool)
    (p : Posting) (row : BillingCorrectionRow) (s : DB) (p' : Posting) (s' : DB) : Prop where
  unblocked : row.blocked = none
  claimed : claimOf s row.sourceEntryID = claimBefore batch reverse row
  wallet : p'.user = paid p.user (-rowDelta reverse row)
  tokens : ∀ t, p'.tokens.value t = p.tokens.value t + (if row.tokenID = t then rowDelta reverse row else 0)
  channels : ∀ c, p'.channels.value c = p.channels.value c + (if row.channelID = c then rowDelta reverse row else 0)
  claims : ∀ src, claimOf s' src = if row.sourceEntryID = src then claimAfter batch reverse row else claimOf s src
  users : ∀ v, s'.users.get? v = if p.user.id = v then some p'.user else s.users.get? v
  event : ∃ e, s'.entries.rows = s.entries.rows ++ [e] ∧ EventOf env batch actorID reverse p.user.id row e ∧
    e.balanceAfter = p.user.quota - rowDelta reverse row
  ledger : ∀ v, LedgerOK s v → LedgerOK s' v
  snapshots : ∀ id x, s.snapshots.get? id = some x → s'.snapshots.get? id = some x
  frame : s' = s.withPostingOf s'

theorem applyRow_spec : wp (applyRow env clock batch actorID reverse p row)
      (fun p' s' => RowApplied env batch actorID reverse p row s p' s') s := by
  rw [applyRow, wp_bind]
  refine wp_mono (claimRow_spec batch reverse row s) ?_
  rintro _ s1 ⟨hblocked, hclaimed, hs1⟩
  rw [wp_bind]
  refine wp_mono (changeBillingWallet_spec p.user _ s1) ?_
  rintro user s2 ⟨rfl, hs2⟩
  rw [wp_bind]
  refine wp_mono (appendBillingEntry_spec _ _ _ s2) ?_
  rintro entry s3 ⟨rfl, happ⟩
  refine wp_mono (recordRevenue_spec batch reverse row p _ _ s3) ?_
  rintro p' s4 ⟨huser, htokens, hchannels, hkeep, hframe4⟩
  have husers : s4.users = s.users.put (paid p.user (-rowDelta reverse row)) := by
    rw [hframe4, happ.frame, hs2, hs1]
    rfl
  have hclaims : s4.claims = s1.claims := by
    rw [hframe4, happ.frame, hs2]
    rfl
  have hentries : s4.entries = s3.entries := by
    rw [hframe4]
  refine ⟨hblocked, hclaimed, huser, htokens, hchannels, ?_, ?_, ?_, ?_, ?_, ?_⟩
  · intro src
    rw [claimOf, hclaims, ← claimOf, hs1, claimOf_put]
  · intro v
    rw [husers, Table.get?_put, huser]
    rfl
  · have hrows2 : s2.entries.rows = s.entries.rows := by
      rw [hs2, hs1]
      rfl
    refine ⟨stored s2 (clock row.sourceEntryID) (paid p.user (-rowDelta reverse row))
      (correctionEvent env batch actorID reverse row), ?_, rfl, ?_⟩
    · rw [hentries, happ.entries, hrows2]
    · exact Int.sub_eq_add_neg.symm
  · intro v hv
    have h2 : LedgerOK s2 v := by
      refine hv.of_ledger ?_ ?_ ?_ <;> rw [hs2, hs1] <;> rfl
    refine (h2.appended happ).of_ledger ?_ ?_ ?_ <;> rw [hframe4]
  · intro id x hx
    refine hkeep id x ?_
    rw [happ.frame, hs2, hs1]
    exact hx
  · rw [hframe4, happ.frame, hs2, hs1]
    rfl

/-! ## All rows -/

/-- The sum of the signed amounts. -/
def deltaSum (reverse : Bool) (rows : List BillingCorrectionRow) : ℤ :=
  (rows.map (rowDelta reverse)).sum

/-- The sum of the signed amounts of the rows `f` sends to `k`. -/
def deltaSumOf (reverse : Bool) (f : BillingCorrectionRow → ℤ) (k : ℤ) (rows : List BillingCorrectionRow) : ℤ :=
  (rows.map fun row => if f row = k then rowDelta reverse row else 0).sum

/-- The wallet after each row. -/
def balances (reverse : Bool) : ℤ → List BillingCorrectionRow → List ℤ
  | _, [] => []
  | wallet, row :: rows =>
    (wallet - rowDelta reverse row) :: balances reverse (wallet - rowDelta reverse row) rows

theorem deltaSum_concat : deltaSum reverse (rows ++ [row]) = deltaSum reverse rows + rowDelta reverse row := by
  simp [deltaSum]

theorem deltaSumOf_concat (f : BillingCorrectionRow → ℤ) (k : ℤ)
    (rows : List BillingCorrectionRow) (row : BillingCorrectionRow) :
    deltaSumOf reverse f k (rows ++ [row]) =
      deltaSumOf reverse f k rows + (if f row = k then rowDelta reverse row else 0) := by
  simp [deltaSumOf]

theorem balances_concat : ∀ (rows : List BillingCorrectionRow) (wallet : ℤ), balances reverse wallet (rows ++ [row]) =
        balances reverse wallet rows ++ [wallet - deltaSum reverse rows - rowDelta reverse row] := by
  intro rows
  induction rows with
  | nil =>
    intro wallet
    simp [balances, deltaSum]
  | cons r rows ih =>
    intro wallet
    rw [cons_append, balances, balances, ih, cons_append]
    have hsum : deltaSum reverse (r :: rows) = rowDelta reverse r + deltaSum reverse rows := by
      simp [deltaSum]
    rw [hsum]
    have hval : wallet - rowDelta reverse r - deltaSum reverse rows =
        wallet - (rowDelta reverse r + deltaSum reverse rows) := by omega
    rw [hval]

/-- What the loop over the rows does.  `user` is the row it starts with. -/
structure RowsApplied (env : CorrectionEnv) (batch : BillingCorrection) (actorID : ℤ) (reverse : Bool)
    (user : User) (rows : List BillingCorrectionRow) (s : DB) (p' : Posting) (s' : DB) : Prop where
  unblocked : ∀ row ∈ rows, row.blocked = none
  claimed : ∀ row ∈ rows, claimOf s row.sourceEntryID = claimBefore batch reverse row
  wallet : p'.user = paid user (-deltaSum reverse rows)
  tokens : ∀ t, p'.tokens.value t = deltaSumOf reverse tokenID t rows
  channels : ∀ c, p'.channels.value c = deltaSumOf reverse channelID c rows
  claims : ∀ row ∈ rows, claimOf s' row.sourceEntryID = claimAfter batch reverse row
  otherClaims : ∀ src, src ∉ rows.map sourceEntryID → claimOf s' src = claimOf s src
  users : ∀ v, user.id ≠ v → s'.users.get? v = s.users.get? v
  events : ∃ es, s'.entries.rows = s.entries.rows ++ es ∧
    List.Forall₂ (EventOf env batch actorID reverse user.id) rows es ∧
    es.map BillingEntry.balanceAfter = balances reverse user.quota rows
  ledger : ∀ v, LedgerOK s v → LedgerOK s' v
  snapshots : ∀ id x, s.snapshots.get? id = some x → s'.snapshots.get? id = some x
  frame : s' = s.withPostingOf s'

theorem paid_id (delta : ℤ) : (paid user delta).id = user.id := rfl

/-- By induction on the rows: each starts from the wallet the last one has left. -/
theorem applyRows_spec
    (hnodup : (rows.map sourceEntryID).Nodup) (s : DB) :
    wp (forEach (applyRow env clock batch actorID reverse) { user := user } rows)
      (fun p' s' => RowsApplied env batch actorID reverse user rows s p' s') s := by
  refine wp_forEach _ (fun p' done s' => RowsApplied env batch actorID reverse user done s p' s')
    rows _ s ?_ ?_
  · refine ⟨by simp, by simp, ?_, fun _ => rfl, fun _ => rfl, by simp, fun _ _ => rfl, fun _ _ => rfl,
      ⟨[], by rw [append_nil], List.Forall₂.nil, rfl⟩, fun _ h => h, fun _ _ h => h, rfl⟩
    simp [paid, deltaSum]
  · rintro p1 done row rest s1 hsplit h1
    refine wp_mono (applyRow_spec env clock batch actorID reverse p1 row s1) ?_
    intro p2 s2 h2
    -- the source of this row is not the source of an earlier one
    have hfresh : row.sourceEntryID ∉ done.map sourceEntryID := by
      rw [hsplit, map_append, map_cons] at hnodup
      intro hmem
      exact (nodup_append.mp hnodup).2.2 _ hmem _ mem_cons_self rfl
    have hid : p1.user.id = user.id := by rw [h1.wallet, paid_id]
    have hquota : p1.user.quota = user.quota - deltaSum reverse done := by
      rw [h1.wallet]
      exact Int.sub_eq_add_neg.symm
    refine ⟨?_, ?_, ?_, ?_, ?_, ?_, ?_, ?_, ?_, ?_, ?_, ?_⟩
    · intro r hr
      rcases mem_append.mp hr with hr | hr
      · exact h1.unblocked r hr
      · rw [mem_singleton.mp hr]
        exact h2.unblocked
    · intro r hr
      rcases mem_append.mp hr with hr | hr
      · exact h1.claimed r hr
      · rw [mem_singleton.mp hr, ← h1.otherClaims _ hfresh]
        exact h2.claimed
    · rw [h2.wallet, h1.wallet, deltaSum_concat]
      simp only [paid, User.mk.injEq, true_and, and_true]
      omega
    · intro t
      rw [h2.tokens, h1.tokens, deltaSumOf_concat]
    · intro c
      rw [h2.channels, h1.channels, deltaSumOf_concat]
    · intro r hr
      rw [h2.claims]
      rcases mem_append.mp hr with hr | hr
      · rw [if_neg]
        · exact h1.claims r hr
        · intro heq
          exact hfresh (heq ▸ mem_map_of_mem hr)
      · rw [mem_singleton.mp hr, if_pos rfl]
    · intro src hsrc
      rw [map_append, mem_append, not_or] at hsrc
      rw [h2.claims, if_neg, h1.otherClaims src hsrc.1]
      intro heq
      exact hsrc.2 (by simp [heq])
    · intro v hv
      rw [h2.users, hid, if_neg hv, h1.users v hv]
    · obtain ⟨es, hrows, hall, hbal⟩ := h1.events
      obtain ⟨e, hrow, hevent, hbalance⟩ := h2.event
      refine ⟨es ++ [e], ?_, ?_, ?_⟩
      · rw [hrow, hrows, append_assoc]
      · rw [hid] at hevent
        exact rel_append hall (List.Forall₂.cons hevent List.Forall₂.nil)
      · rw [map_append, hbal, balances_concat, map_singleton, hbalance, hquota]
    · intro v hv
      exact h2.ledger v (h1.ledger v hv)
    · intro id x hx
      exact h2.snapshots id x (h1.snapshots id x hx)
    · rw [h2.frame, h1.frame]
      rfl

/-! ## Supplier costs -/

/-- Adjustments that follow are folded from the state of those before. -/
theorem adjustAll_append (snapshot : CostAccountingSnapshot) (later : List CostAccountingAdjustment) :
    ∀ (earlier : List CostAccountingAdjustment) (state : CostAccountingState),
      adjustAll snapshot state (earlier ++ later) =
        (adjustAll snapshot state earlier).bind fun st => adjustAll snapshot st later := by
  intro earlier
  induction earlier with
  | nil =>
    intro state
    rfl
  | cons _ _ ih =>
    intro state
    rw [cons_append, adjustAll, adjustAll]
    split
    · rfl
    · exact ih _

/-- The state after one more adjustment. -/
theorem effectiveCostAccountingState_concat (snapshot : CostAccountingSnapshot)
    (adjustments : List CostAccountingAdjustment) (a : CostAccountingAdjustment) :
    effectiveCostAccountingState snapshot (adjustments ++ [a]) =
      (effectiveCostAccountingState snapshot adjustments).bind fun state =>
        if adjustmentCorrupt snapshot state a then .error .evidenceIntegrity else .ok (state.adjust a) := by
  unfold effectiveCostAccountingState
  split
  · rfl
  · rw [adjustAll_append]
    rfl

theorem adjust_latestID : (state.adjust a).latestID = a.id := by
  simp only [CostAccountingState.adjust]
  split_ifs <;> rfl

theorem adjust_quota : (state.adjust a).quota = state.quota + a.deltaCostQuota := by
  simp only [CostAccountingState.adjust]
  split_ifs <;> rfl

/-- The latest adjustment of a state is one of the list, and its amount is in range. -/
structure StateOK (ids : List ℤ) (state : CostAccountingState) : Prop where
  latest : state.latestID = 0 ∨ state.latestID ∈ ids
  le_max : state.quota ≤ maxQuota
  ge_min : -maxQuota ≤ state.quota

variable {snapshot : CostAccountingSnapshot}

theorem adjustAll_ok {ids : List ℤ} {state' : CostAccountingState} :
    ∀ {adjustments : List CostAccountingAdjustment} {state : CostAccountingState},
      (∀ a ∈ adjustments, a.id ∈ ids) → StateOK ids state →
        adjustAll snapshot state adjustments = .ok state' → StateOK ids state' := by
  intro adjustments
  induction adjustments with
  | nil =>
    intro state _ hstate hrun
    cases hrun
    exact hstate
  | cons a _ ih =>
    intro state hids hstate hrun
    rw [adjustAll] at hrun
    split at hrun
    · cases hrun
    · rename_i hfit
      simp only [adjustmentCorrupt, Bool.or_eq_true, decide_eq_true_eq, not_or, not_lt] at hfit
      refine ih (fun b hb => hids b (mem_cons_of_mem a hb)) ⟨?_, ?_, ?_⟩ hrun
      · rw [adjust_latestID]
        exact Or.inr (hids a mem_cons_self)
      · rw [adjust_quota]
        omega
      · rw [adjust_quota]
        omega

theorem effectiveCostAccountingState_ok {adjustments : List CostAccountingAdjustment} {state : CostAccountingState}
    (h : effectiveCostAccountingState snapshot adjustments = .ok state) :
    StateOK (adjustments.map CostAccountingAdjustment.id) state := by
  unfold effectiveCostAccountingState at h
  split at h
  · cases h
  · rename_i hrange
    refine adjustAll_ok (fun a ha => mem_map_of_mem ha) ⟨Or.inl rfl, ?_, ?_⟩ h
    · change snapshot.costQuota ≤ maxQuota
      omega
    · change -maxQuota ≤ snapshot.costQuota
      omega

/-- A new adjustment is the last one of its snapshot. -/
theorem adjustmentsOf_put {s : DB} {adjustment : CostAccountingAdjustment} {id : ℤ}
    (hlt : ∀ a ∈ s.adjustments.rows, a.id < id) (k : ℤ) :
    adjustmentsOf (s.putAdjustment { adjustment with id := id }) k = adjustmentsOf s k ++
      if adjustment.snapshotID = k then [{ adjustment with id := id }] else [] := by
  have hrows : (s.putAdjustment { adjustment with id := id }).adjustments.rows =
      s.adjustments.rows ++ [{ adjustment with id := id }] := by
    refine Table.rows_put_of_fresh ?_
    intro a ha
    exact Int.ne_of_lt (hlt a ha)
  unfold adjustmentsOf
  rw [hrows, filter_append]
  by_cases hk : adjustment.snapshotID = k
  · rw [if_pos hk, filter_singleton, decide_eq_true hk, cond_true]
    refine orderBy_concat ?_
    intro a ha
    exact Int.le_of_lt (hlt a (mem_filter.mp ha).1)
  · rw [if_neg hk, filter_singleton, decide_eq_false hk, cond_false, append_nil, append_nil]

theorem createAdjustment_spec (adjustment : CostAccountingAdjustment) (s : DB) :
    wp (createAdjustment adjustment) (fun _ s' => ∃ id, (∀ a ∈ s.adjustments.rows, a.id < id) ∧ 0 < id ∧
        (∀ k, adjustmentsOf s' k = adjustmentsOf s k ++
          if adjustment.snapshotID = k then [{ adjustment with id := id }] else []) ∧
        s' = { s with adjustments := s'.adjustments }) s := by
  rw [createAdjustment, wp_bind, wp_get, wp_bind, wp_rejectIf]
  intro _
  rw [wp_modify]
  have hlt : ∀ a ∈ s.adjustments.rows, a.id < nextRowID (s.adjustments.rows.map CostAccountingAdjustment.id) :=
    fun a ha => lt_nextRowID (mem_map_of_mem ha)
  exact ⟨_, hlt, nextRowID_pos _, fun k => adjustmentsOf_put hlt k, rfl⟩

/-- What one cost does: the adjustment that sets its snapshot, after its guard. -/
structure CostApplied (now : ℤ) (batch : BillingCorrection) (actorID : ℤ) (reverse : Bool)
    (reason : String) (target : BillingCorrectionRow × BillingCorrectionCost)
    (snapshot : CostAccountingSnapshot) (state : CostAccountingState) (id : ℤ) (s s' : DB) : Prop where
  snapshot_row : s.snapshots.get? target.2.snapshotID = some snapshot
  state_ok : effectiveCostAccountingState snapshot (adjustmentsOf s target.2.snapshotID) = .ok state
  guard : costGuard s batch reverse target.1 snapshot state target.2 = .ok ()
  latest_lt : state.latestID < id
  adjusted : adjustmentsOf s' target.2.snapshotID = adjustmentsOf s target.2.snapshotID ++
    [{ costAdjustment now batch actorID reverse reason state target.2 with id := id }]

theorem applyCost_spec (last : Option ℤ) (target : BillingCorrectionRow × BillingCorrectionCost) (s : DB) :
    wp (applyCost now batch actorID reverse reason last target) (fun last' s' =>
      last ≠ some target.2.snapshotID ∧ last' = some target.2.snapshotID ∧
      (∃ snapshot state id, CostApplied now batch actorID reverse reason target snapshot state id s s') ∧
      (∀ k, target.2.snapshotID ≠ k → adjustmentsOf s' k = adjustmentsOf s k) ∧
      s' = { s with adjustments := s'.adjustments }) s := by
  rw [applyCost, wp_bind, wp_rejectIf]
  intro hlast
  rw [wp_bind, wp_get, wp_bind, wp_require]
  intro snapshot hsnapshot
  have hid : snapshot.id = target.2.snapshotID := Table.key_of_get? hsnapshot
  rw [wp_bind, wp_rejectIf]
  intro _
  rw [wp_bind, wp_ofExcept]
  intro state hstate
  rw [wp_bind, wp_ofExcept]
  intro _ hguard
  rw [hid] at hstate
  rw [wp_bind]
  refine wp_mono (createAdjustment_spec _ s) ?_
  rintro _ s' ⟨id, hlt, hpos, hadjust, hframe⟩
  rw [wp_pure]
  refine ⟨hlast, rfl, ⟨snapshot, state, id, hsnapshot, hstate, hguard, ?_, ?_⟩, ?_, hframe⟩
  · rcases (effectiveCostAccountingState_ok hstate).latest with h0 | hmem
    · omega
    · obtain ⟨a, ha, hid⟩ := mem_map.mp hmem
      rw [← hid]
      exact hlt a (mem_filter.mp (mem_orderBy.mp ha)).1
  · rw [hadjust]
    exact congrArg _ (if_pos rfl)
  · intro k hk
    rw [hadjust]
    exact (congrArg _ (if_neg hk)).trans (append_nil _)

/-- What the loop over the costs does. -/
structure CostsApplied (now : ℤ) (batch : BillingCorrection) (actorID : ℤ) (reverse : Bool)
    (reason : String) (targets : List (BillingCorrectionRow × BillingCorrectionCost)) (s s' : DB) :
    Prop where
  applied : ∀ t ∈ targets, ∃ snapshot state id, CostApplied now batch actorID reverse reason t snapshot state id s s'
  others : ∀ k, (∀ t ∈ targets, t.2.snapshotID ≠ k) → adjustmentsOf s' k = adjustmentsOf s k
  frame : s' = { s with adjustments := s'.adjustments }

/-- A guard reads its own snapshot's adjustments and the channels. -/
theorem costGuard_congr {s s1 : DB} {batch : BillingCorrection} {reverse : Bool}
    {row : BillingCorrectionRow} {state : CostAccountingState}
    {frozen : BillingCorrectionCost} (hadj : adjustmentsOf s1 snapshot.id = adjustmentsOf s snapshot.id)
    (hchannels : s1.channels = s.channels) :
    costGuard s1 batch reverse row snapshot state frozen = costGuard s batch reverse row snapshot state frozen := by
  unfold costGuard costApplicable
  rw [hadj, hchannels]

/-- By induction on the costs.  In the order of their snapshots none is met twice, so each guard is the one of the start. -/
theorem applyCosts_spec (targets : List (BillingCorrectionRow × BillingCorrectionCost))
    (hsorted : targets.Pairwise fun a b => a.2.snapshotID ≤ b.2.snapshotID) (s : DB) :
    wp (forEach (applyCost now batch actorID reverse reason) none targets)
      (fun _ s' => CostsApplied now batch actorID reverse reason targets s s') s := by
  refine wp_mono (wp_forEach _ (fun last done s' =>
    CostsApplied now batch actorID reverse reason done s s' ∧ (∀ t ∈ done, ∃ l, last = some l ∧ t.2.snapshotID ≤ l) ∧
      (∀ l, last = some l → ∃ t ∈ done, t.2.snapshotID = l)) targets none s ?_ ?_) (fun _ _ h => h.1)
  · exact ⟨⟨by simp, fun _ _ => rfl, rfl⟩, by simp, by simp⟩
  · rintro last done a rest s1 hsplit ⟨hdone, hle, hlast⟩
    refine wp_mono (applyCost_spec now batch actorID reverse reason last a s1) ?_
    rintro last' s2 ⟨hne, rfl, ⟨snapshot, state, id, happ⟩, hother, hframe⟩
    rw [hsplit, pairwise_append] at hsorted
    -- the snapshots come in order and never twice in a row, so never twice
    have hbelow : ∀ t ∈ done, t.2.snapshotID < a.2.snapshotID := by
      intro t ht
      obtain ⟨l, hl, htl⟩ := hle t ht
      obtain ⟨t', ht', htl'⟩ := hlast l hl
      have h1 := hsorted.2.2 t' ht' a mem_cons_self
      have h2 : l ≠ a.2.snapshotID := by
        rintro rfl
        exact hne hl
      omega
    have hsnapshots : s1.snapshots = s.snapshots := by rw [hdone.frame]
    have hchannels : s1.channels = s.channels := by rw [hdone.frame]
    have hkeep : adjustmentsOf s1 a.2.snapshotID = adjustmentsOf s a.2.snapshotID :=
      hdone.others _ fun t ht => Int.ne_of_lt (hbelow t ht)
    refine ⟨⟨?_, ?_, ?_⟩, ?_, ?_⟩
    · intro t ht
      rcases mem_append.mp ht with ht | ht
      · obtain ⟨snapshot, state, id, h⟩ := hdone.applied t ht
        refine ⟨snapshot, state, id, h.snapshot_row, h.state_ok, h.guard, h.latest_lt, ?_⟩
        rw [hother _ (Int.ne_of_gt (hbelow t ht)), h.adjusted]
      · rw [mem_singleton.mp ht]
        have hid : snapshot.id = a.2.snapshotID := Table.key_of_get? happ.snapshot_row
        have hguard : costGuard s batch reverse a.1 snapshot state a.2 = .ok () := by
          rw [← happ.guard]
          refine (costGuard_congr ?_ hchannels).symm
          rw [hid, hkeep]
        refine ⟨snapshot, state, id, ?_, ?_, hguard, happ.latest_lt, ?_⟩
        · rw [← hsnapshots]
          exact happ.snapshot_row
        · rw [← hkeep]
          exact happ.state_ok
        · rw [happ.adjusted, hkeep]
    · intro k hk
      rw [hother k (hk a (by simp)), hdone.others k fun t ht => hk t (mem_append_left _ ht)]
    · rw [hframe, hdone.frame]
    · intro t ht
      refine ⟨_, rfl, ?_⟩
      rcases mem_append.mp ht with ht | ht
      · exact Int.le_of_lt (hbelow t ht)
      · rw [mem_singleton.mp ht]
    · rintro l hl
      exact ⟨a, by simp, Option.some.inj hl⟩

/-- The costs of the rows, in the order of their snapshots. -/
theorem billingCorrectionApplyCosts_spec : wp (billingCorrectionApplyCosts now batch actorID reverse reason)
      (fun _ s' => CostsApplied now batch actorID reverse reason (costTargets batch.rows) s s') s := by
  rw [billingCorrectionApplyCosts, wp_bind, wp_rejectIf]
  intro _
  rw [wp_drop]
  refine wp_mono (applyCosts_spec now batch actorID reverse reason _ (orderBy_pairwise _ _) s) ?_
  rintro _ s' h
  exact ⟨fun t ht => h.applied t (mem_orderBy.mpr ht),
    fun k hk => h.others k fun t ht => hk t (mem_orderBy.mp ht), h.frame⟩

/-! ## Counters -/

/-- Spend `d`, on a user, a token or a channel. -/
def User.spend (user : User) (d : ℤ) : User :=
  { user with quota := user.quota - d, usedQuota := user.usedQuota + d }

def Token.spend (token : Token) (d : ℤ) : Token :=
  { token with usedQuota := token.usedQuota + d, remainQuota := token.remainQuota - d }

def Channel.spend (channel : Channel) (d : ℤ) : Channel :=
  { channel with usedQuota := channel.usedQuota + d }

@[simp] theorem User.spend_zero : user.spend 0 = user := by
  simp [User.spend]

@[simp] theorem Token.spend_zero (token : Token) : token.spend 0 = token := by
  simp [Token.spend]

@[simp] theorem Channel.spend_zero (channel : Channel) : channel.spend 0 = channel := by
  simp [Channel.spend]

theorem applyToken_spec : wp (applyToken deltas id) (fun _ s' => ∃ token, s.tokens.get? id = some token ∧
      s' = s.putToken (token.spend (deltas.value id))) s := by
  rw [applyToken, wp_bind, wp_get, wp_bind, wp_require]
  intro token htoken
  rw [wp_bind, wp_rejectIf]
  intro _
  rw [wp_bind, wp_rejectIf]
  intro _
  rw [wp_modify]
  exact ⟨token, htoken, rfl⟩

theorem applyChannel_spec : wp (applyChannel deltas id) (fun _ s' => ∃ channel, s.channels.get? id = some channel ∧
      s' = s.putChannel (channel.spend (deltas.value id))) s := by
  rw [applyChannel, wp_bind, wp_get, wp_bind, wp_require]
  intro channel hchannel
  rw [wp_bind, wp_rejectIf]
  intro _
  rw [wp_bind, wp_rejectIf]
  intro _
  rw [wp_modify]
  exact ⟨channel, hchannel, rfl⟩

/-- The amount a counter moves under a key: only positive keys are written. -/
def spentOn (deltas : Counter ℤ) (id : ℤ) : ℤ := if 0 < id then deltas.value id else 0

theorem positiveKeys_nodup (c : Counter ℤ) : (positiveKeys c).Nodup :=
  (orderBy_perm _ _).nodup_iff.mpr (c.nodup.filter _)

variable {c : Counter ℤ}

theorem mem_positiveKeys {id : ℤ} : id ∈ positiveKeys c ↔ id ∈ c.rows.map Prod.fst ∧ 0 < id := by
  rw [positiveKeys, mem_orderBy, mem_filter, decide_eq_true_eq]

theorem spentOn_of_not_mem {id : ℤ} (h : id ∉ positiveKeys c) : spentOn c id = 0 := by
  unfold spentOn
  split
  · rename_i hpos
    refine Counter.value_of_not_mem ?_
    intro hmem
    exact h (mem_positiveKeys.mpr ⟨hmem, hpos⟩)
  · rfl

theorem spentOn_of_mem {id : ℤ} (h : id ∈ positiveKeys c) : spentOn c id = c.value id :=
  if_pos (mem_positiveKeys.mp h).2

/-- Every token with a positive key is moved once, by what was spent on it. -/
theorem applyTokens_spec : wp (forEach (fun _ id => applyToken deltas id) () (positiveKeys deltas)) (fun _ s' =>
      (∀ t, s'.tokens.get? t = (s.tokens.get? t).map fun token => token.spend (spentOn deltas t)) ∧
        s' = { s with tokens := s'.tokens }) s := by
  refine wp_mono (forEach_rewrite DB.tokens (fun db t => { db with tokens := t })
    (fun id token => token.spend (deltas.value id)) (fun s t => rfl) (fun s t t' => rfl) (fun s => rfl) (fun _ _ => rfl)
    (fun k s => applyToken_spec deltas k s) _ (positiveKeys_nodup deltas) s) ?_
  rintro _ s' ⟨hget, hframe⟩
  refine ⟨?_, hframe⟩
  intro t
  rw [hget]
  congr 1
  funext token
  split
  · rename_i hmem
    rw [spentOn_of_mem hmem]
  · rename_i hmem
    rw [spentOn_of_not_mem hmem, Token.spend_zero]

/-- The same for the channels. -/
theorem applyChannels_spec : wp (forEach (fun _ id => applyChannel deltas id) () (positiveKeys deltas)) (fun _ s' =>
      (∀ c, s'.channels.get? c = (s.channels.get? c).map fun channel =>
        channel.spend (spentOn deltas c)) ∧ s' = { s with channels := s'.channels }) s := by
  refine wp_mono (forEach_rewrite DB.channels (fun db t => { db with channels := t })
    (fun id channel => channel.spend (deltas.value id)) (fun s t => rfl) (fun s t t' => rfl) (fun s => rfl) (fun _ _ => rfl)
    (fun k s => applyChannel_spec deltas k s) _ (positiveKeys_nodup deltas) s) ?_
  rintro _ s' ⟨hget, hframe⟩
  refine ⟨?_, hframe⟩
  intro c
  rw [hget]
  congr 1
  funext channel
  split
  · rename_i hmem
    rw [spentOn_of_mem hmem]
  · rename_i hmem
    rw [spentOn_of_not_mem hmem, Channel.spend_zero]

end NovaMaas.Billing
