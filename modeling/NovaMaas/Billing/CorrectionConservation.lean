/-
  A correction moves exactly the money of its rows, once.

  The batch stores a net amount, the rows their deltas, and the code adds the deltas up three more
  times: row by row in the wallet, by token, and by channel.  `Posted` says that all of them agree,
  for every batch a preview stored:

  * **one entry per row** — also for a row that moves no money, whose event freezes the group and
    rate the row now counts with;
  * **no dip** — the rows are posted in ascending order of their deltas, so the wallet first rises
    and then falls (`balances_ge`);
  * **once** — a batch leaves the state `preview` when it is applied and never returns to it
    (`Closed`), and only a previewed batch can be applied.
-/
import NovaMaas.Billing.Runs

open List hiding drop

namespace NovaMaas.Billing

open Txn BillingCorrectionRow BillingCall

/-! ## The wallet while the rows are posted -/

theorem deltaSum_cons (reverse : Bool) (row : BillingCorrectionRow) (rows : List BillingCorrectionRow) :
    deltaSum reverse (row :: rows) = rowDelta reverse row + deltaSum reverse rows := by
  simp [deltaSum]

theorem deltaSum_nonneg {reverse : Bool} {rows : List BillingCorrectionRow}
    (h : ∀ row ∈ rows, 0 ≤ rowDelta reverse row) : 0 ≤ deltaSum reverse rows := by
  induction rows with
  | nil => exact Int.le_refl 0
  | cons row _ ih =>
    rw [deltaSum_cons]
    have h1 := h row mem_cons_self
    have h2 := ih fun r hr => h r (mem_cons_of_mem row hr)
    omega

/-- Credits first: a wallet that pays its rows in ascending order stays above the smaller of its
    first and last value. -/
theorem balances_ge {reverse : Bool} : ∀ {rows : List BillingCorrectionRow} {wallet b : ℤ},
    rows.Pairwise (fun x y => rowDelta reverse x ≤ rowDelta reverse y) →
      b ∈ balances reverse wallet rows → min wallet (wallet - deltaSum reverse rows) ≤ b := by
  intro rows
  induction rows with
  | nil =>
    intro wallet b _ hb
    exact absurd hb not_mem_nil
  | cons row rows ih =>
    intro wallet b hsorted hb
    rw [pairwise_cons] at hsorted
    rw [deltaSum_cons]
    -- from the first charge on only charges follow
    have hrest : 0 < rowDelta reverse row → 0 ≤ deltaSum reverse rows := by
      intro hpos
      refine deltaSum_nonneg fun r hr => ?_
      have := hsorted.1 r hr
      omega
    rcases mem_cons.mp hb with rfl | hb
    · omega
    · have := ih hsorted.2 hb
      omega

/-! ## What an application posts -/

/-- The ledger entry of a row. -/
structure EntryOf (batch : BillingCorrection) (row : BillingCorrectionRow) (e : BillingEntry) : Prop where
  kind : e.kind = .rateCorrection
  user : e.userID = batch.userID
  batch_id : e.correctionID = batch.id
  source : e.sourceEntryID = row.sourceEntryID
  quota : e.quota = row.delta
  walletDelta : e.walletDelta = -row.delta

/-- The effect of applying a batch.  `net` is the sum of its rows' deltas. -/
structure Posted (batch : BillingCorrection) (net : ℤ) (s s' : DB) : Prop where
  quota : wallet s' batch.userID = wallet s batch.userID - net
  users : ∀ v, s'.users.get? v = (s.users.get? v).map fun user =>
    user.spend (if batch.userID = v then net else 0)
  tokens : ∀ t, 0 < t → s'.tokens.get? t = (s.tokens.get? t).map fun token => token.spend
    ((batch.rows.filter fun row => row.tokenID = t).map delta).sum
  channels : ∀ c, 0 < c → s'.channels.get? c = (s.channels.get? c).map fun channel => channel.spend
    ((batch.rows.filter fun row => row.channelID = c).map delta).sum
  entries : ∃ es rows, s'.entries.rows = s.entries.rows ++ es ∧ rows.Perm batch.rows ∧
    List.Forall₂ (EntryOf batch) rows es ∧
    ∀ e ∈ es, min (wallet s batch.userID) (wallet s' batch.userID) ≤ e.balanceAfter
  equity : ∀ u, (bookOf s' u).equity = (bookOf s u).equity

theorem sum_filter_eq (f g : BillingCorrectionRow → ℤ) (k : ℤ) (rows : List BillingCorrectionRow) :
    ((rows.filter fun row => f row = k).map g).sum = (rows.map fun row => if f row = k then g row else 0).sum := by
  induction rows with
  | nil => rfl
  | cons row _ ih =>
    rw [map_cons, sum_cons, filter_cons, ← ih]
    by_cases hk : f row = k
    · simp [hk]
    · simp [hk]

variable {batch : BillingCorrection} {env : CorrectionEnv}

theorem entryOf_event {actorID : ℤ} {row : BillingCorrectionRow} {e : BillingEntry}
    (h : EventOf env batch actorID false batch.userID row e) : EntryOf batch row e := by
  rw [EventOf] at h
  rw [h]
  exact ⟨rfl, rfl, rfl, rfl, rfl, rfl⟩

theorem posted_events {s s' : DB} {es : List BillingEntry}
    {rows : List BillingCorrectionRow} (hrows : s'.entries.rows = s.entries.rows ++ es)
    (hall : List.Forall₂ (EntryOf batch) rows es) (u : ℤ) :
    posted s' u = posted s u - (if batch.userID = u then (rows.map delta).sum else 0) := by
  have hsum : (es.map (postedBy u)).sum = -(if batch.userID = u then (rows.map delta).sum else 0) := by
    clear hrows
    induction hall with
    | nil => simp
    | cons hrow _ ih =>
      rw [map_cons, sum_cons, ih, map_cons, sum_cons, postedBy, hrow.user, hrow.walletDelta]
      split <;> omega
  rw [posted, hrows, map_append, sum_append, hsum, posted]
  omega

theorem wallet_spend {s s' : DB} {id d : ℤ} (hrow : ∃ user, s.users.get? id = some user)
    (h : ∀ v, s'.users.get? v = (s.users.get? v).map fun user => user.spend (if id = v then d else 0))
    (u : ℤ) : wallet s' u = wallet s u - (if id = u then d else 0) := by
  unfold wallet
  rw [h]
  cases hu : s.users.get? u with
  | some => rfl
  | none =>
    rw [if_neg]
    · rfl
    · rintro rfl
      obtain ⟨user, huser⟩ := hrow
      rw [hu] at huser
      cases huser

variable {request : CorrectionRequest}

theorem Corrected.posted {s s' : DB} (h : Corrected env request batch s s') (hok : BatchOK s batch)
    (happly : request.reverse = false) :
    Posted batch (batch.rows.map delta).sum s s' := by
  have hnet : netOf batch request.reverse = (batch.rows.map delta).sum := by
    rw [happly, netOf_eq hok]
    rfl
  have hwallet := wallet_spend h.user_row h.users
  obtain ⟨es, hrows, hall, hbal⟩ := h.events
  have hperm : (postingOrder request.reverse batch.rows).Perm batch.rows := orderBy_perm _ _
  have hentries : List.Forall₂ (EntryOf batch) (postingOrder request.reverse batch.rows) es := by
    refine hall.imp ?_
    intro row e he
    rw [happly] at he
    exact entryOf_event he
  have hself : wallet s' batch.userID = wallet s batch.userID -
      (batch.rows.map delta).sum := by
    rw [hwallet, if_pos rfl, hnet]
  refine ⟨hself, ?_, ?_, ?_, ⟨es, _, hrows, hperm, hentries, ?_⟩, ?_⟩
  · rw [← hnet]
    exact h.users
  · intro t ht
    rw [h.tokens, moved, if_pos ht, deltaSumOf, happly, sum_filter_eq]
    rfl
  · intro c hc
    rw [h.channels, moved, if_pos hc, deltaSumOf, happly, sum_filter_eq]
    rfl
  · intro e he
    have hmem : e.balanceAfter ∈ balances request.reverse (wallet s batch.userID)
        (postingOrder request.reverse batch.rows) := by
      rw [wallet, ← hbal]
      exact mem_map_of_mem he
    have hge : min (wallet s batch.userID) (wallet s batch.userID -
        deltaSum request.reverse (postingOrder request.reverse batch.rows)) ≤ e.balanceAfter :=
      balances_ge (orderBy_pairwise _ _) hmem
    rw [deltaSum_postingOrder, ← netOf_eq hok, hnet] at hge
    rw [hself]
    exact hge
  · intro u
    have hheld : held s' u = held s u := by
      rw [h.frame]
      rfl
    have hposted := posted_events hrows hentries u
    rw [(hperm.map _).sum_eq, ← hnet] at hposted
    simp only [Book.equity, bookOf]
    rw [hheld, hposted, hwallet]
    omega

/-! ## Once -/

/-- The batch has left the state `preview`. -/
def Closed (id : String) (s : DB) : Prop :=
  ∃ batch, s.corrections.get? id = some batch ∧ batch.status ≠ .preview

theorem closeBatch_status (batch : BillingCorrection) (request : CorrectionRequest) :
    (closeBatch batch request).status ≠ .preview := by
  unfold closeBatch
  split
  · show CorrectionStatus.reversed ≠ .preview
    decide
  · show CorrectionStatus.applied ≠ .preview
    decide

theorem corrected_closed {s s' : DB} {id : String} (h : Corrected env request batch s s') (hclosed : Closed id s) :
    Closed id s' := by
  obtain ⟨b, hb, hstatus⟩ := hclosed
  by_cases hid : batch.id = id
  · refine ⟨closeBatch batch request, ?_, closeBatch_status batch request⟩
    rw [h.corrections, Table.get?_put, closeBatch_id, if_pos hid]
  · refine ⟨b, ?_, hstatus⟩
    rw [h.corrections, Table.get?_put, closeBatch_id, if_neg hid, hb]

/-- No call takes a closed batch back. -/
theorem billingCall_closed (env : CorrectionEnv) (c : BillingCall) (id : String) (s : DB)
    (hok : BooksOK s) : wp (c.exec env) (fun _ s' => Closed id s → Closed id s') s := by
  by_cases hc : c.correcting = false
  · refine wp_mono (ledgerSide_keeps env sameCorrections_writes c hc s) ?_
    rintro _ s' ⟨hsame, -⟩ ⟨b, hb, hstatus⟩
    exact ⟨b, by rw [hsame, hb], hstatus⟩
  · cases c with
    | ledger | save
    | history => exact absurd rfl hc
    | preview now uuid input actorID rate userGroup =>
      rw [exec, wp_drop]
      refine wp_mono (previewBillingCorrection_spec env now uuid input actorID rate userGroup s) ?_
      rintro batch s' hp ⟨b, hb, hstatus⟩
      refine ⟨b, ?_, hstatus⟩
      rw [hp.corrections, Table.get?_put, if_neg, hb]
      rintro rfl
      rw [hp.fresh] at hb
      cases hb
    | correct request =>
      rw [exec, wp_drop]
      refine wp_mono (applyBillingCorrection_spec env request s (hok.batches request.id)) ?_
      rintro b s' ⟨batch, hbatch, -, ⟨-, -, rfl⟩ | ⟨-, -, hcorrected⟩⟩ hclosed
      · exact hclosed
      · exact corrected_closed hcorrected hclosed

theorem run_closed (env : CorrectionEnv) (calls : List BillingCall) (id : String) (s : DB)
    (hok : BooksOK s) (hclosed : Closed id s) : Closed id (run (exec env) s calls) := by
  have h : BooksOK (run (exec env) s calls) ∧ Closed id (run (exec env) s calls) := by
    refine run_invariant (I := fun s => BooksOK s ∧ Closed id s) ?_ s ⟨hok, hclosed⟩
    intro c _ s1 h1
    refine ⟨billingCall_booksOK env c s1 h1.1, ?_⟩
    rcases hrun : c.exec env s1 with ⟨e | _, s2⟩
    · rw [billingCall_atomic env c s1 e s2 hrun]
      exact h1.2
    · exact billingCall_closed env c id s1 h1.1 _ _ hrun h1.2
  exact h.2

/-- A closed batch is not applied. -/
theorem apply_closed {s : DB} (hok : BooksOK s) (hclosed : Closed request.id s) (happly : request.reverse = false) :
    (applyBillingCorrection env request s).2 = s := by
  rcases hrun : applyBillingCorrection env request s with ⟨e | b, s'⟩
  · exact applyBillingCorrection_atomic env request s e s' hrun
  · obtain ⟨batch, hbatch, hdigest, hcase⟩ :=
      applyBillingCorrection_spec env request s (hok.batches request.id) b s' hrun
    rcases hcase with ⟨-, -, rfl⟩ | ⟨hacc, -, -⟩
    · rfl
    · obtain ⟨account, -, hpreview, -⟩ := evidence_of_guard hdigest hacc happly
      obtain ⟨b', hb', hstatus⟩ := hclosed
      rw [hbatch] at hb'
      cases hb'
      exact absurd hpreview hstatus

/-! ## The result -/

/-- **Conservation of a correction.**  In every state a history reaches, applying a batch either
    fails and changes nothing, or finds it applied and changes nothing, or posts it: the wallet and
    the used quota move by the sum of the rows, every token and channel by the sum of its rows, one
    ledger entry is appended per ROW (zero amounts included), the books stay balanced, and the wallet
    never lies below the smaller of its first and last value.  After that no application of the
    batch, however often and whenever it is asked for, changes anything. -/
theorem correction_apply_conservation (env : CorrectionEnv) (db : DB) (hdb : Opening db)
    (calls : List BillingCall) (request : CorrectionRequest) (happly : request.reverse = false) :
    (∀ e s', applyBillingCorrection env request (run (exec env) db calls) = (.error e, s') →
      s' = run (exec env) db calls) ∧
    (∀ b s', applyBillingCorrection env request (run (exec env) db calls) = (.ok b, s') →
      (∃ batch, (run (exec env) db calls).corrections.get? request.id = some batch ∧
        ((batch.status = .applied ∧ s' = run (exec env) db calls) ∨
          (batch.status = .preview ∧ Posted batch (batch.rows.map delta).sum (run (exec env) db calls) s'))) ∧
      ∀ (more : List BillingCall) (again : CorrectionRequest), again.id = request.id →
        again.reverse = false → (applyBillingCorrection env again (run (exec env) s' more)).2 =
          run (exec env) s' more) := by
  have hok := run_booksOK env calls db hdb.booksOK
  generalize run (exec env) db calls = s at hok ⊢
  refine ⟨fun e s' hrun => applyBillingCorrection_atomic env request s e s' hrun, ?_⟩
  intro b s' hrun
  have hok' : BooksOK s' := by
    have h := billingCall_booksOK env (.correct request) s hok
    have hexec : (correct request).exec env s = (.ok (), s') := by
      rw [exec, drop, bind_ok hrun]
      rfl
    rw [hexec] at h
    exact h
  obtain ⟨batch, hbatch, hdigest, hcase⟩ :=
    applyBillingCorrection_spec env request s (hok.batches request.id) b s' hrun
  have hone : ((batch.status = .applied ∧ s' = s) ∨ (batch.status = .preview ∧
      Posted batch (batch.rows.map delta).sum s s')) ∧ Closed request.id s' := by
    rcases hcase with ⟨hrepeat, -, rfl⟩ | ⟨hacc, -, hcorrected⟩
    · rcases hrepeat with ⟨-, hstatus⟩ | ⟨hreverse, -⟩
      · exact ⟨Or.inl ⟨hstatus, rfl⟩, batch, hbatch, by rw [hstatus]; decide⟩
      · rw [happly] at hreverse
        cases hreverse
    · obtain ⟨account, -, hpreview, -⟩ := evidence_of_guard hdigest hacc happly
      refine ⟨Or.inr ⟨hpreview, hcorrected.posted (hok.batches request.id batch hbatch) happly⟩,
        closeBatch batch request, ?_, closeBatch_status batch request⟩
      have hid : batch.id = request.id := Table.key_of_get? hbatch
      rw [hcorrected.corrections, Table.get?_put, closeBatch_id, if_pos hid]
  refine ⟨⟨batch, hbatch, hone.1⟩, ?_⟩
  intro more again hid hagain
  refine apply_closed (run_booksOK env more s' hok') ?_ hagain
  rw [hid]
  exact run_closed env more request.id s' hok' hone.2

/-- Preview a correction of both tasks to the group rate 2. -/
def doubleRate : BillingCall :=
  .preview 4000 "b"
    { userID := 1, startAt := 1000, endAt := 3000, models := ["m"], mode := .groupRate
      targetGroup := "vip", reason := "rate" } 9 "2" "vip"

/-- The two settled tasks with their correction previewed. -/
def doublePreviewed : DB :=
  run (exec ratesOneAndTwo) twoTasks (settleTwoTasks ++ [doubleRate])

/-- Apply it. -/
def applyDouble : CorrectionRequest where
  id := "b"
  digest := (doublePreviewed.corrections.get? "b").bind BillingCorrection.sha256
  rate := "2"
  userGroup := "vip"
  actorID := 9
  reverse := false
  now := 4100
  clock := fun _ => 4100
  finishedAt := 4100

/-- One row of the batch moves money, the other none; the ledger gets an entry for each. -/
theorem applyDouble_posts_zero_row :
    (applyBillingCorrection ratesOneAndTwo applyDouble doublePreviewed).1.isOk = true ∧
      (doublePreviewed.corrections.get? "b").map (fun batch =>
        (batch.status, (batch.rows.filter fun row => row.delta ≠ 0).length)) = some (.preview, 1) ∧
      (applyBillingCorrection ratesOneAndTwo applyDouble doublePreviewed).2.entries.rows.length =
        doublePreviewed.entries.rows.length + 2 := by
  decide +kernel

theorem correction_apply_conservation_applyDouble :
    ∃ b s', applyBillingCorrection ratesOneAndTwo applyDouble doublePreviewed = (.ok b, s') ∧
      (∃ batch, doublePreviewed.corrections.get? "b" = some batch ∧
        ((batch.status = .applied ∧ s' = doublePreviewed) ∨ (batch.status = .preview ∧
            Posted batch (batch.rows.map delta).sum doublePreviewed s'))) := by
  rcases hrun : applyBillingCorrection ratesOneAndTwo applyDouble doublePreviewed with ⟨e | b, s'⟩
  · have hok : (applyBillingCorrection ratesOneAndTwo applyDouble doublePreviewed).1.isOk = true := by
      decide +kernel
    rw [hrun] at hok
    cases hok
  · exact ⟨b, s', rfl, ((correction_apply_conservation ratesOneAndTwo twoTasks twoTasks_opening _
      applyDouble rfl).2 b s' hrun).1⟩

end NovaMaas.Billing
