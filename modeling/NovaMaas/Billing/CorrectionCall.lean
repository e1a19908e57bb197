/-
  The two correction calls as a whole.

  `Corrected` is what a successful `ApplyBillingCorrection` does, table by table; `Previewed` what a
  successful `PreviewBillingCorrection` does.  Both calls are one transaction, so a failed one does
  nothing (`applyBillingCorrection_atomic`, `previewBillingCorrection_atomic`).

  The rows a batch stores were computed by its preview.  What the application relies on is
  `BatchOK`: one row per source entry, and a net amount that is the sum of the rows.  Reading the
  guards of an application back gives more: the evidence is computed AGAIN and its digest compared,
  so the stored rows are the evidence of the state the batch is applied to (`evidence_of_guard`).
-/
import NovaMaas.Billing.CorrectionSpec
import NovaMaas.Billing.EvidenceSpec

namespace NovaMaas.Billing

open Txn BillingCorrectionRow

/-! ## Applying and reversing -/

/-- What the stored batches keep. -/
structure BatchOK (db : DB) (batch : BillingCorrection) : Prop where
  nodup : (batch.rows.map sourceEntryID).Nodup
  net : batch.netDelta = (batch.rows.map delta).sum
  account : ∃ account, db.accounts.get? batch.userID = some account

/-- The amount a call moves on the rows `f` sends to `k`. -/
def moved (batch : BillingCorrection) (reverse : Bool) (f : BillingCorrectionRow → ℤ) (k : ℤ) : ℤ :=
  if 0 < k then deltaSumOf reverse f k batch.rows else 0

/-- What a successful call does. -/
structure Corrected (env : CorrectionEnv) (request : CorrectionRequest) (batch : BillingCorrection)
    (s s' : DB) : Prop where
  unblocked : ∀ row ∈ batch.rows, row.blocked = none
  claimed : ∀ row ∈ batch.rows, claimOf s row.sourceEntryID = claimBefore batch request.reverse row
  claims : ∀ row ∈ batch.rows, claimOf s' row.sourceEntryID = claimAfter batch request.reverse row
  otherClaims : ∀ src, src ∉ batch.rows.map sourceEntryID → claimOf s' src = claimOf s src
  user_row : ∃ user, s.users.get? batch.userID = some user
  users : ∀ v, s'.users.get? v = (s.users.get? v).map fun user =>
    user.spend (if batch.userID = v then netOf batch request.reverse else 0)
  tokens : ∀ t, s'.tokens.get? t = (s.tokens.get? t).map fun token =>
    token.spend (moved batch request.reverse tokenID t)
  channels : ∀ c, s'.channels.get? c = (s.channels.get? c).map fun channel =>
    channel.spend (moved batch request.reverse channelID c)
  events : ∃ es, s'.entries.rows = s.entries.rows ++ es ∧
    List.Forall₂ (EventOf env batch request.actorID request.reverse batch.userID)
      (postingOrder request.reverse batch.rows) es ∧
    es.map BillingEntry.balanceAfter = balances request.reverse ((s.users.get? batch.userID).elim 0 User.quota)
        (postingOrder request.reverse batch.rows)
  costs : ∀ t ∈ costTargets batch.rows, ∃ snapshot state id,
    CostApplied request.now batch request.actorID request.reverse (trimSpace request.reason) t snapshot
      state id s s'
  otherCosts : ∀ k, (∀ t ∈ costTargets batch.rows, t.2.snapshotID ≠ k) → adjustmentsOf s' k = adjustmentsOf s k
  snapshots : ∀ id x, s.snapshots.get? id = some x → s'.snapshots.get? id = some x
  ledger : ∀ v, LedgerOK s v → LedgerOK s' v
  corrections : s'.corrections = s.corrections.put (closeBatch batch request)
  frame : s' = s.withCorrectionOf s'

theorem deltaSum_postingOrder (reverse : Bool) (rows : List BillingCorrectionRow) :
    deltaSum reverse (postingOrder reverse rows) = deltaSum reverse rows :=
  sum_orderBy _ _ rows

theorem deltaSumOf_postingOrder (reverse : Bool) (f : BillingCorrectionRow → ℤ) (k : ℤ)
    (rows : List BillingCorrectionRow) :
    deltaSumOf reverse f k (postingOrder reverse rows) = deltaSumOf reverse f k rows :=
  sum_orderBy _ _ rows

theorem mem_postingOrder {reverse : Bool} {rows : List BillingCorrectionRow} {row : BillingCorrectionRow} :
    row ∈ postingOrder reverse rows ↔ row ∈ rows :=
  mem_orderBy

theorem map_neg_sum (xs : List ℤ) : (xs.map fun x => -x).sum = -xs.sum := by
  induction xs with
  | nil => rfl
  | cons x xs ih =>
    rw [List.map_cons, List.sum_cons, List.sum_cons, ih]
    omega

/-- The net amount of a batch is what its rows post. -/
theorem netOf_eq {batch : BillingCorrection} {db : DB} (h : BatchOK db batch) (reverse : Bool) :
    netOf batch reverse = deltaSum reverse batch.rows := by
  cases reverse with
  | false =>
    exact h.net
  | true =>
    have hneg : batch.rows.map (rowDelta true) = (batch.rows.map delta).map fun x => -x := by
      rw [List.map_map]
      rfl
    rw [deltaSum, hneg, map_neg_sum, ← h.net]
    rfl

variable (env : CorrectionEnv) (request : CorrectionRequest) (batch : BillingCorrection)

theorem postCorrection_spec (user : User) (request : CorrectionRequest) (s : DB) (hok : BatchOK s batch)
    (huser : s.users.get? batch.userID = some user) :
    wp (postCorrection env batch user request)
      (fun b s' => b = closeBatch batch request ∧ Corrected env request batch s s') s := by
  have hid : user.id = batch.userID := Table.key_of_get? huser
  rw [postCorrection, wp_bind]
  refine wp_mono (billingCorrectionApplyCosts_spec _ _ _ _ _ s) ?_
  rintro _ s1 hcosts
  rw [wp_bind]
  have hnodup : ((postingOrder request.reverse batch.rows).map
      sourceEntryID).Nodup :=
    ((orderBy_perm _ _).map _).nodup_iff.mpr hok.nodup
  refine wp_mono (applyRows_spec env request.clock batch request.actorID request.reverse user _
    hnodup s1) ?_
  rintro posting s2 hrows
  rw [wp_bind, wp_modify, wp_bind]
  refine wp_mono (applyTokens_spec posting.tokens _) ?_
  rintro _ s3 ⟨htokens, hframe3⟩
  rw [wp_bind]
  refine wp_mono (applyChannels_spec posting.channels _) ?_
  rintro _ s4 ⟨hchannels, hframe4⟩
  rw [wp_bind, wp_modify, wp_pure]
  refine ⟨rfl, ?_⟩
  have hnet := netOf_eq hok request.reverse
  have hclaims1 : s1.claims = s.claims := by rw [hcosts.frame]
  have hclaims4 : s4.claims = s2.claims := by
    rw [hframe4, hframe3]
    rfl
  have hspent : ∀ (c : Counter ℤ) (f : BillingCorrectionRow → ℤ),
      (∀ k, c.value k = deltaSumOf request.reverse f k (postingOrder request.reverse batch.rows)) →
        ∀ k, spentOn c k = moved batch request.reverse f k := by
    intro c f hc k
    rw [spentOn, moved, hc, deltaSumOf_postingOrder]
  refine ⟨?_, ?_, ?_, ?_, ⟨user, huser⟩, ?_, ?_, ?_, ?_, ?_, ?_, ?_, ?_, ?_, ?_⟩
  · intro row hrow
    exact hrows.unblocked row (mem_postingOrder.mpr hrow)
  · intro row hrow
    rw [claimOf, ← hclaims1, ← claimOf]
    exact hrows.claimed row (mem_postingOrder.mpr hrow)
  · intro row hrow
    have h := hrows.claims row (mem_postingOrder.mpr hrow)
    rw [claimOf, ← hclaims4] at h
    exact h
  · intro src hsrc
    have hsrc' : src ∉ (postingOrder request.reverse batch.rows).map
        sourceEntryID := by
      intro hmem
      exact hsrc (((orderBy_perm _ _).map _).mem_iff.mp hmem)
    have h := hrows.otherClaims src hsrc'
    rw [claimOf, ← hclaims4, claimOf, hclaims1] at h
    exact h
  · intro v
    have husers : (s4.putCorrection (closeBatch batch request)).users =
        s2.users.put (user.spend (netOf batch request.reverse)) := by
      rw [hframe4, hframe3, hrows.wallet, deltaSum_postingOrder, ← hnet]
      rfl
    have husers1 : s1.users = s.users := by rw [hcosts.frame]
    have hspend : (user.spend (netOf batch request.reverse)).id = user.id := rfl
    rw [husers, Table.get?_put, hspend]
    by_cases hv : batch.userID = v
    · rw [← hv, if_pos hid, huser, if_pos rfl, Option.map_some]
    · have hv' : ¬ user.id = v := by
        rw [hid]
        exact hv
      have hold := hrows.users v hv'
      rw [husers1] at hold
      rw [if_neg hv, if_neg hv', hold]
      cases s.users.get? v with
      | none => rfl
      | some x => rw [Option.map_some, User.spend_zero]
  · intro t
    have htokens4 : (s4.putCorrection (closeBatch batch request)).tokens = s3.tokens := by
      rw [hframe4]
      rfl
    have htokens2 : s2.tokens = s.tokens := by
      rw [hrows.frame, hcosts.frame]
      rfl
    rw [htokens4, htokens, hspent posting.tokens _ hrows.tokens]
    exact congrArg (fun table : Table Token.id => (table.get? t).map _) htokens2
  · intro c
    have hchannels3 : s3.channels = s.channels := by
      rw [hframe3, hrows.frame, hcosts.frame]
      rfl
    have h := hchannels c
    rw [hspent posting.channels _ hrows.channels, hchannels3] at h
    exact h
  · obtain ⟨es, hentries, hall, hbal⟩ := hrows.events
    refine ⟨es, ?_, ?_, ?_⟩
    · have h4 : (s4.putCorrection (closeBatch batch request)).entries = s2.entries := by
        rw [hframe4, hframe3]
        rfl
      have h1 : s1.entries = s.entries := by rw [hcosts.frame]
      rw [h4, hentries, h1]
    · rw [← hid]
      exact hall
    · rw [huser]
      exact hbal
  · intro t ht
    obtain ⟨snapshot, state, id, h⟩ := hcosts.applied t ht
    refine ⟨snapshot, state, id, h.snapshot_row, h.state_ok, h.guard, h.latest_lt, ?_⟩
    rw [← h.adjusted, hframe4, hframe3, hrows.frame]
    rfl
  · intro k hk
    rw [← hcosts.others k hk, hframe4, hframe3, hrows.frame]
    rfl
  · intro id x hx
    have h1 : s1.snapshots.get? id = some x := by
      rw [hcosts.frame]
      exact hx
    have h2 := hrows.snapshots id x h1
    rw [hframe4, hframe3]
    exact h2
  · intro v hv
    have h1 : LedgerOK s1 v := by
      refine hv.of_ledger ?_ ?_ ?_ <;> rw [hcosts.frame]
    refine (hrows.ledger v h1).of_ledger ?_ ?_ ?_ <;> rw [hframe4, hframe3] <;> rfl
  · rw [hframe4, hframe3, hrows.frame, hcosts.frame]
    rfl
  · rw [hframe4, hframe3, hrows.frame, hcosts.frame]
    rfl

/-- A repeated call: the batch already is where the request wants it. -/
def Repeated (batch : BillingCorrection) (request : CorrectionRequest) : Prop :=
  (request.reverse = false ∧ batch.status = .applied) ∨ (request.reverse = true ∧ batch.status = .reversed)

/-- What a successful call found: the batch, unblocked and open for the action, and its guard. -/
structure Accepted (env : CorrectionEnv) (request : CorrectionRequest) (batch : BillingCorrection)
    (s : DB) : Prop where
  fresh : ¬ Repeated batch request
  canApply : batch.canApply = true
  guard : ∃ user account, s.users.get? batch.userID = some user ∧ s.accounts.get? batch.userID = some account ∧
    correctionGuard env s batch user account request = .ok ()

theorem applyBillingCorrection_spec (s : DB)
    (hok : ∀ batch, s.corrections.get? request.id = some batch → BatchOK s batch) :
    wp (applyBillingCorrection env request) (fun b s' => ∃ batch, s.corrections.get? request.id = some batch ∧
      request.digest = some (billingCorrectionDigest batch batch.rows) ∧
      ((Repeated batch request ∧ b = batch ∧ s' = s) ∨ (Accepted env request batch s ∧ b = closeBatch batch request ∧
          Corrected env request batch s s'))) s := by
  rw [applyBillingCorrection, wp_bind, wp_get, wp_bind, wp_require]
  intro batch hbatch
  obtain ⟨account, haccount⟩ := (hok batch hbatch).account
  rw [wp_bind, wp_rejectIf]
  intro _
  rw [wp_transaction, correctionBody, wp_bind]
  refine wp_mono (firstUser_spec batch.userID s) ?_
  rintro user s1 ⟨rfl, huid, hrow⟩
  rw [huid] at hrow
  rw [wp_bind]
  intro account' s2 hlock
  rw [lockBillingAccount_run haccount] at hlock
  cases hlock
  rw [wp_bind, wp_get, wp_bind, wp_require]
  intro batch' hbatch'
  rw [hbatch] at hbatch'
  cases hbatch'
  rw [wp_bind, wp_rejectIf]
  intro hdigest
  rw [not_or, not_not] at hdigest
  rw [wp_ite]
  constructor
  · intro hrepeat
    rw [wp_pure]
    exact ⟨batch, hbatch, hdigest.1, Or.inl ⟨hrepeat, rfl, rfl⟩⟩
  · intro hfresh
    rw [wp_bind, wp_rejectIf]
    intro hcan
    rw [wp_bind, wp_rejectIf]
    intro _
    rw [wp_bind, wp_ofExcept]
    intro _ hguard
    rw [wp_bind, wp_rejectIf]
    intro _
    rw [wp_bind, wp_rejectIf]
    intro _
    rw [wp_bind, wp_rejectIf]
    intro _
    refine wp_mono (postCorrection_spec env batch user request s1 (hok batch hbatch) hrow) ?_
    rintro b s' ⟨hb, hcorrected⟩
    refine ⟨batch, hbatch, hdigest.1, Or.inr ⟨⟨hfresh, ?_, user, account, hrow, haccount, hguard⟩, hb, hcorrected⟩⟩
    simpa using hcan

theorem applyBillingCorrection_atomic : Atomic (applyBillingCorrection env request) := by
  unfold applyBillingCorrection
  refine atomic_get_bind ?_
  intro db
  refine atomic_require_bind ?_
  intro batch
  exact atomic_rejectIf_bind (atomic_transaction _)

/-- The stored rows are the evidence of the state a batch is applied to. -/
theorem evidence_of_guard {env : CorrectionEnv} {request : CorrectionRequest} {batch : BillingCorrection}
    {s : DB} (hdigest : request.digest = some (billingCorrectionDigest batch batch.rows))
    (hacc : Accepted env request batch s) (happly : request.reverse = false) :
    ∃ account, s.accounts.get? batch.userID = some account ∧ batch.status = .preview ∧
      batch.sourceSequence = account.sequence ∧
      billingCorrectionEvidence env s batch account.startSequence = .ok batch.rows := by
  obtain ⟨user, account, -, haccount, hguard⟩ := hacc.guard
  rw [correctionGuard, if_neg (by rw [happly]; decide), applyGuard] at hguard
  split at hguard
  · cases hguard
  rename_i hopen
  simp only [not_or, not_not] at hopen
  rw [Except.bind_eq_ok] at hguard
  obtain ⟨rows, hrows, hguard⟩ := hguard
  split at hguard
  · cases hguard
  rename_i hsame
  rw [not_not, hdigest] at hsame
  have heq : batch.rows = rows := by
    have hcontent := congrArg (fun d : Sha256 CorrectionBody => d.content.rows) (Option.some.inj hsame)
    exact hcontent
  exact ⟨account, haccount, hopen.1, hopen.2.2.2.2.2, heq ▸ hrows⟩

/-- A reversal finds its batch applied. -/
theorem applied_of_guard {env : CorrectionEnv} {request : CorrectionRequest} {batch : BillingCorrection}
    {s : DB} (hacc : Accepted env request batch s) (hreverse : request.reverse = true) :
    batch.status = .applied := by
  obtain ⟨user, account, -, -, hguard⟩ := hacc.guard
  rw [correctionGuard, if_pos hreverse, reverseGuard] at hguard
  split at hguard
  · cases hguard
  · rename_i hopen
    by_contra hne
    exact hopen (Or.inl hne)

/-! ## Previews -/

/-- The columns of a batch its totals leave alone. -/
def SameBatch (batch batch' : BillingCorrection) : Prop :=
  batch'.id = batch.id ∧ batch'.userID = batch.userID ∧ batch'.status = batch.status

theorem addCost_spec {batch batch' : BillingCorrection} {row : BillingCorrectionRow}
    (h : addCost batch row = .ok batch') :
    batch'.chargeDelta = batch.chargeDelta ∧ batch'.refundDelta = batch.refundDelta ∧ SameBatch batch batch' := by
  unfold addCost at h
  split at h
  · simp only [Except.bind_eq_ok] at h
    obtain ⟨_, -, _, -, _, -, h⟩ := h
    cases h
    exact ⟨rfl, rfl, rfl, rfl, rfl⟩
  · cases h
    exact ⟨rfl, rfl, rfl, rfl, rfl⟩

theorem addSale_spec (row : BillingCorrectionRow) :
    (addSale batch row).chargeDelta - (addSale batch row).refundDelta =
      batch.chargeDelta - batch.refundDelta + row.delta ∧ SameBatch batch (addSale batch row) := by
  unfold addSale
  split
  · refine ⟨?_, rfl, rfl, rfl⟩
    dsimp only
    omega
  · refine ⟨?_, rfl, rfl, rfl⟩
    dsimp only
    omega

theorem addRows_spec : ∀ {rows : List BillingCorrectionRow} {batch batch' : BillingCorrection},
    addRows batch rows = .ok batch' → batch'.chargeDelta - batch'.refundDelta =
        batch.chargeDelta - batch.refundDelta + (rows.map delta).sum ∧
      SameBatch batch batch' := by
  intro rows
  induction rows with
  | nil =>
    intro batch batch' h
    cases h
    exact ⟨by simp, rfl, rfl, rfl⟩
  | cons row rows ih =>
    intro batch batch' h
    rw [addRows, Except.bind_eq_ok] at h
    obtain ⟨costed, hcosted, h⟩ := h
    obtain ⟨hcharge, hrefund, hid1, huser1, hstatus1⟩ := addCost_spec hcosted
    obtain ⟨hsum2, hid2, huser2, hstatus2⟩ := addSale_spec costed row
    obtain ⟨hsum, hid, huser, hstatus⟩ := ih h
    refine ⟨?_, hid.trans (hid2.trans hid1), huser.trans (huser2.trans huser1),
      hstatus.trans (hstatus2.trans hstatus1)⟩
    rw [hsum, hsum2, hcharge, hrefund, List.map_cons, List.sum_cons]
    omega

theorem summarize_spec {batch batch' : BillingCorrection} {rows : List BillingCorrectionRow}
    (h : summarize batch rows = .ok batch') (hzero : batch.chargeDelta - batch.refundDelta = 0) :
    batch'.rows = rows ∧ batch'.netDelta = (rows.map delta).sum ∧ SameBatch batch batch' := by
  rw [summarize, Except.bind_eq_ok] at h
  obtain ⟨totals, htotals, h⟩ := h
  obtain ⟨hsum, hsame⟩ := addRows_spec htotals
  cases h
  refine ⟨rfl, ?_, hsame⟩
  dsimp only
  rw [hsum, hzero, Int.zero_add]

/-- What a successful preview does: one new batch, and the account of its user exists. -/
structure Previewed (batch : BillingCorrection) (s s' : DB) : Prop where
  fresh : s.corrections.get? batch.id = none
  status : batch.status = .preview
  batch_ok : BatchOK s' batch
  corrections : s'.corrections = s.corrections.put batch
  accounts : ∀ v, accountOf s' v = accountOf s v
  kept : ∀ v a, s.accounts.get? v = some a → s'.accounts.get? v = some a
  frame : s' = { s with accounts := s'.accounts, corrections := s'.corrections }

/-- Locking creates the account that is missing and touches no other. -/
theorem lockBillingAccount_created (u : ℤ) (s : DB) :
    wp (lockBillingAccount u) (fun a s' => s'.accounts.get? u = some a ∧
      (∀ v b, s.accounts.get? v = some b → s'.accounts.get? v = some b) ∧
      s' = { s with accounts := s'.accounts }) s := by
  simp only [lockBillingAccount, wp_bind, wp_get]
  cases h : s.accounts.get? u with
  | some a =>
    rw [wp_pure]
    exact ⟨h, fun _ _ hb => hb, rfl⟩
  | none =>
    rw [wp_bind, wp_modify, wp_pure]
    refine ⟨Table.get?_put_self .., ?_, rfl⟩
    intro v b hb
    rw [DB.putAccount, Table.get?_put_ne]
    · exact hb
    · intro huv
      have huv' : u = v := huv
      rw [← huv', h] at hb
      cases hb

theorem createCorrection_spec (s : DB) : wp (createCorrection batch) (fun _ s' =>
      s.corrections.get? batch.id = none ∧ s' = s.putCorrection batch) s := by
  rw [createCorrection, wp_bind, wp_get, wp_bind, wp_rejectIf]
  intro hfresh
  rw [wp_modify]
  refine ⟨?_, rfl⟩
  rw [Option.not_isSome_iff_eq_none] at hfresh
  exact hfresh

theorem previewBillingCorrection_spec (now : ℤ) (uuid : String)
    (input : BillingCorrectionInput) (actorID : ℤ) (rate userGroup : String) (s : DB) :
    wp (previewBillingCorrection env now uuid input actorID rate userGroup)
      (fun batch s' => Previewed batch s s') s := by
  simp only [previewBillingCorrection, wp_bind, wp_rejectIf]
  intro _ _ _ _
  rw [wp_transaction, wp_bind]
  refine wp_mono (firstUser_spec input.userID s) ?_
  rintro user s1 ⟨rfl, huid, hrow⟩
  rw [wp_bind, wp_rejectIf]
  intro _
  rw [wp_bind]
  refine wp_mono (wp_and (lockBillingAccount_spec input.userID s1)
    (lockBillingAccount_created input.userID s1)) ?_
  rintro account s2 ⟨⟨-, haccounts, -⟩, hcreated, hkept, hframe⟩
  rw [wp_bind, wp_rejectIf]
  intro _
  rw [wp_bind, wp_get, wp_bind, wp_ofExcept]
  intro rows hrows
  rw [wp_bind, wp_ofExcept]
  intro batch hbatch
  obtain ⟨hbrows, hnet, -, huser, hstatus⟩ := summarize_spec hbatch rfl
  rw [wp_bind]
  refine wp_mono (createCorrection_spec _ s2) ?_
  rintro _ s3 ⟨hfresh, rfl⟩
  rw [wp_pure]
  refine ⟨?_, hstatus, ⟨?_, ?_, account, ?_⟩, ?_, haccounts, hkept, ?_⟩
  · rw [hframe] at hfresh
    exact hfresh
  · change (batch.rows.map sourceEntryID).Nodup
    rw [hbrows]
    exact evidence_nodup hrows
  · change batch.netDelta = (batch.rows.map delta).sum
    rw [hbrows, hnet]
  · change s2.accounts.get? batch.userID = some account
    rw [huser]
    exact hcreated
  · rw [hframe]
    rfl
  · rw [hframe]
    rfl

theorem previewBillingCorrection_atomic (now : ℤ) (uuid : String)
    (input : BillingCorrectionInput) (actorID : ℤ) (rate userGroup : String) :
    Atomic (previewBillingCorrection env now uuid input actorID rate userGroup) := by
  unfold previewBillingCorrection
  refine atomic_rejectIf_bind ?_
  refine atomic_rejectIf_bind ?_
  refine atomic_rejectIf_bind ?_
  refine atomic_rejectIf_bind ?_
  exact atomic_transaction _

end NovaMaas.Billing
