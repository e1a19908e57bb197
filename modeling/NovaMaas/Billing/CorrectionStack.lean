/-
  Corrections as a stack.

  The batches a history has applied and not reversed form a stack (`stackOf`), newest first.  The
  database does not store it: a source entry has one claim, and a row remembers the batch that held
  the claim before it.  `StackOK` says that these pointers ARE the stack.

  A reversal may take a batch out of the middle, as long as nothing above it corrects one of its
  sources; otherwise the claim names another batch and the reversal is refused.  With the round trip
  of `CorrectionRestore` this gives `correction_stack`.

  `rateless_not_restored` is the run the round trip has to leave out: a source entry whose effective
  group is empty and whose effective rate is not the one it was posted with.
-/
import NovaMaas.Billing.CorrectionRestore
import NovaMaas.Billing.CorrectionConservation

open List hiding drop

namespace NovaMaas.Billing

open Txn Table BillingCall

/-! ## The stack of a history -/

/-- Does a batch correct this source entry? -/
def touches (sourceID : ℤ) (batch : BillingCorrection) : Bool :=
  sourceID ∈ batch.rows.map BillingCorrectionRow.sourceEntryID

/-- The newest batch of a stack that corrects a source entry. -/
def newest (sourceID : ℤ) (active : List BillingCorrection) : String :=
  ((active.find? (touches sourceID)).map BillingCorrection.id).getD ""

/-- The applied batches after one more call: an application pushes, a reversal removes. -/
def stackStep (env : CorrectionEnv) (s : DB) (active : List BillingCorrection) :
    BillingCall → List BillingCorrection
  | .correct request =>
    match s.corrections.get? request.id, (applyBillingCorrection env request s).1 with
    | some batch, .ok _ =>
      if request.reverse then active.filter fun b => b.id ≠ batch.id
      else if batch.status = .preview then batch :: active
      else active
    | _, _ => active
  | _ => active

/-- The batches a history has applied and not reversed, newest first. -/
def stackOf (env : CorrectionEnv) : DB → List BillingCorrection → List BillingCall → List BillingCorrection
  | _, active, [] => active
  | s, active, c :: calls => stackOf env (c.exec env s).2 (stackStep env s active c) calls

/-- Claims and the previous batches of the rows follow the stack. -/
structure StackOK (db : DB) (active : List BillingCorrection) : Prop where
  nodup : (active.map BillingCorrection.id).Nodup
  stored : ∀ batch ∈ active, ∃ b, db.corrections.get? batch.id = some b ∧ b.status = .applied ∧ b.rows = batch.rows
  complete : ∀ id b, db.corrections.get? id = some b → b.status = .applied → ∃ batch ∈ active, batch.id = id
  claims : ∀ src, claimOf db src = newest src active
  previous : ∀ newer batch older, active = newer ++ batch :: older → ∀ row ∈ batch.rows,
    row.previousBatchID = newest row.sourceEntryID older

variable {newer older : List BillingCorrection} {src : ℤ}

theorem newest_append_of_not
    (h : ∀ b ∈ newer, touches src b = false) : newest src (newer ++ older) = newest src older := by
  unfold newest
  rw [find?_append, find?_eq_none.mpr fun b hb => by rw [h b hb]; decide]
  rfl

variable {batch : BillingCorrection}

theorem newest_cons_of_not {older : List BillingCorrection}
    (h : touches src batch = false) : newest src (batch :: older) = newest src older := by
  unfold newest
  rw [find?_cons, h]

theorem newest_cons_of_touches {older : List BillingCorrection}
    (h : touches src batch = true) : newest src (batch :: older) = batch.id := by
  unfold newest
  rw [find?_cons, h]
  rfl

theorem newest_remove (h : touches src batch = false) (newer older : List BillingCorrection) :
    newest src (newer ++ batch :: older) = newest src (newer ++ older) := by
  unfold newest
  rw [find?_append, find?_append, find?_cons, h]

/-- Above the batch that a source names as its newest, no batch corrects the source. -/
theorem not_touches_of_newest (hnodup : ((newer ++ batch :: older).map BillingCorrection.id).Nodup)
    (h : newest src (newer ++ batch :: older) = batch.id) : ∀ b ∈ newer, touches src b = false := by
  intro b hb
  by_contra htouch
  rw [Bool.not_eq_false] at htouch
  have hsome : (newer.find? (touches src)).isSome := find?_isSome.mpr ⟨b, hb, htouch⟩
  obtain ⟨x, hx⟩ := Option.isSome_iff_exists.mp hsome
  have hid : x.id = batch.id := by
    rw [newest, find?_append, hx] at h
    exact h
  rw [map_append, map_cons, nodup_append] at hnodup
  exact hnodup.2.2 x.id (mem_map_of_mem (mem_of_find?_eq_some hx)) batch.id
    mem_cons_self hid

variable {active : List BillingCorrection}

/-- A call that writes neither batches nor claims keeps the stack. -/
theorem StackOK.of_same {s s' : DB} (h : StackOK s active) (hsame : SameCorrections s s') : StackOK s' active := by
  refine ⟨h.nodup, ?_, ?_, ?_, h.previous⟩
  · intro batch hb
    rw [hsame.1]
    exact h.stored batch hb
  · rw [hsame.1]
    exact h.complete
  · intro src
    rw [← h.claims src, claimOf, hsame.2, claimOf]

theorem StackOK.previewed {s s' : DB} (h : StackOK s active) (hp : Previewed batch s s') : StackOK s' active := by
  refine ⟨h.nodup, ?_, ?_, ?_, h.previous⟩
  · intro b hb
    obtain ⟨stored, hget, hstatus, hrows⟩ := h.stored b hb
    refine ⟨stored, ?_, hstatus, hrows⟩
    rw [hp.corrections, get?_put, if_neg, hget]
    intro hid
    rw [← hid, hp.fresh] at hget
    cases hget
  · intro id b hb hstatus
    rw [hp.corrections, get?_put] at hb
    split at hb
    · cases hb
      rw [hp.status] at hstatus
      cases hstatus
    · exact h.complete id b hb hstatus
  · intro src
    rw [← h.claims src, claimOf, hp.frame, claimOf]

theorem mem_sources (h : touches src batch = true) : ∃ row ∈ batch.rows, row.sourceEntryID = src := by
  rw [touches, decide_eq_true_eq] at h
  exact mem_map.mp h

theorem touches_row {row : BillingCorrectionRow} (h : row ∈ batch.rows) : touches row.sourceEntryID batch = true := by
  rw [touches, decide_eq_true_eq]
  exact mem_map_of_mem h

variable {request : CorrectionRequest}

variable {env : CorrectionEnv}

/-- An application pushes its batch. -/
theorem StackOK.pushed {s s' : DB} (h : StackOK s active)
    (hbatch : s.corrections.get? batch.id = some batch) (hpreview : batch.status = .preview)
    (happly : request.reverse = false) (hc : Corrected env request batch s s') :
    StackOK s' (batch :: active) := by
  have hne : ∀ b ∈ active, b.id ≠ batch.id := by
    intro b hb hid
    obtain ⟨stored, hget, hstatus, -⟩ := h.stored b hb
    rw [hid, hbatch] at hget
    cases hget
    rw [hpreview] at hstatus
    cases hstatus
  have hget' : ∀ id, s'.corrections.get? id =
      if batch.id = id then some (closeBatch batch request) else s.corrections.get? id := by
    intro id
    rw [hc.corrections, get?_put, closeBatch_id]
  refine ⟨?_, ?_, ?_, ?_, ?_⟩
  · rw [map_cons, nodup_cons]
    refine ⟨?_, h.nodup⟩
    intro hmem
    obtain ⟨b, hb, hid⟩ := mem_map.mp hmem
    exact hne b hb hid
  · intro b hb
    rcases mem_cons.mp hb with rfl | hb
    · refine ⟨closeBatch b request, by rw [hget', if_pos rfl], ?_, closeBatch_rows b request⟩
      rw [closeBatch, if_neg (by rw [happly]; decide)]
    · obtain ⟨stored, hget, hrest⟩ := h.stored b hb
      exact ⟨stored, by rw [hget', if_neg fun h => hne b hb h.symm, hget], hrest⟩
  · intro id b hb hstatus
    rw [hget'] at hb
    split at hb
    · rename_i hid
      exact ⟨batch, mem_cons_self, hid⟩
    · obtain ⟨x, hx, hid⟩ := h.complete id b hb hstatus
      exact ⟨x, mem_cons_of_mem _ hx, hid⟩
  · intro src
    by_cases htouch : touches src batch = true
    · obtain ⟨row, hrow, rfl⟩ := mem_sources htouch
      rw [hc.claims row hrow, newest_cons_of_touches htouch, claimAfter, happly]
      rfl
    · have hfalse : touches src batch = false := Bool.not_eq_true _ ▸ htouch
      rw [newest_cons_of_not hfalse, ← h.claims src]
      refine hc.otherClaims src ?_
      rw [touches, decide_eq_true_eq] at htouch
      exact htouch
  · intro newer b older hsplit row hrow
    cases newer with
    | nil =>
      obtain ⟨rfl, rfl⟩ := cons.inj hsplit
      rw [← h.claims, hc.claimed row hrow, claimBefore, happly]
      rfl
    | cons _ newer =>
      obtain ⟨rfl, hrest⟩ := cons.inj hsplit
      exact h.previous newer b older hrest row hrow

/-- A reversal removes its batch, wherever it stands: nothing above it corrects its sources. -/
theorem StackOK.removed {stored batch : BillingCorrection} {s s' : DB}
    (h : StackOK s (newer ++ batch :: older)) (hid : stored.id = batch.id) (hrows : stored.rows = batch.rows)
    (hreverse : request.reverse = true) (hc : Corrected env request stored s s') : StackOK s' (newer ++ older) := by
  -- the claims say that the batch is the newest one of each of its sources
  have hclear : ∀ src, touches src batch = true → ∀ b ∈ newer, touches src b = false := by
    intro src htouch
    obtain ⟨row, hrow, rfl⟩ := mem_sources htouch
    refine not_touches_of_newest h.nodup ?_
    rw [← h.claims, hc.claimed row (by rw [hrows]; exact hrow), claimBefore, hreverse, ← hid]
    rfl
  have hsub : ((newer ++ older).map BillingCorrection.id).Sublist
      ((newer ++ batch :: older).map BillingCorrection.id) :=
    ((List.Sublist.refl newer).append (sublist_cons_self batch older)).map _
  refine ⟨h.nodup.sublist hsub, ?_, ?_, ?_, ?_⟩
  · intro b hb
    have hb' : b ∈ newer ++ batch :: older := by
      rcases mem_append.mp hb with hb | hb
      · exact mem_append_left _ hb
      · exact mem_append_right _ (mem_cons_of_mem _ hb)
    obtain ⟨x, hget, hrest⟩ := h.stored b hb'
    refine ⟨x, ?_, hrest⟩
    rw [hc.corrections, get?_put, closeBatch_id, if_neg, hget]
    rw [hid]
    intro heq
    have hnd := h.nodup
    rw [map_append, map_cons, nodup_append, nodup_cons] at hnd
    rcases mem_append.mp hb with hb | hb
    · exact hnd.2.2 b.id (mem_map_of_mem hb) batch.id mem_cons_self heq.symm
    · exact hnd.2.1.1 (heq ▸ mem_map_of_mem hb)
  · intro id b hb hstatus
    rw [hc.corrections, get?_put, closeBatch_id] at hb
    split at hb
    · cases hb
      rw [closeBatch, if_pos hreverse] at hstatus
      cases hstatus
    · rename_i hne
      obtain ⟨x, hx, hxid⟩ := h.complete id b hb hstatus
      refine ⟨x, ?_, hxid⟩
      rcases mem_append.mp hx with hx | hx
      · exact mem_append_left _ hx
      · rcases mem_cons.mp hx with rfl | hx
        · exact absurd (hid.trans hxid) hne
        · exact mem_append_right _ hx
  · intro src
    by_cases htouch : touches src batch = true
    · obtain ⟨row, hrow, rfl⟩ := mem_sources htouch
      rw [hc.claims row (by rw [hrows]; exact hrow), newest_append_of_not (hclear _ htouch), claimAfter, hreverse]
      exact h.previous newer batch older rfl row hrow
    · have hfalse : touches src batch = false := Bool.not_eq_true _ ▸ htouch
      have hother : claimOf s' src = claimOf s src := by
        refine hc.otherClaims src ?_
        rw [touches, decide_eq_true_eq] at htouch
        rw [hrows]
        exact htouch
      rw [hother, h.claims, newest_remove hfalse]
  · intro newer' b older' hsplit row hrow
    rcases append_eq_append_iff.mp hsplit with ⟨mid, hnewer', holder⟩ | ⟨mid, hnewer, hrest⟩
    · -- below the removed batch
      refine h.previous (newer ++ batch :: mid) b older' ?_ row hrow
      rw [holder, append_assoc, cons_append]
    · cases mid with
      | nil =>
        rw [append_nil] at hnewer
        refine h.previous (newer ++ [batch]) b older' ?_ row hrow
        rw [nil_append] at hrest
        rw [← hrest, append_assoc, singleton_append]
      | cons x mid =>
        -- above it: the removed batch did not correct this source
        obtain ⟨rfl, holder'⟩ : b = x ∧ older' = mid ++ older := cons.inj hrest
        have hfalse : touches row.sourceEntryID batch = false := by
          by_contra htouch
          rw [Bool.not_eq_false] at htouch
          have := hclear _ htouch b (by rw [hnewer]; simp)
          rw [touches_row hrow] at this
          cases this
        have hprev := h.previous newer' b (mid ++ batch :: older)
          (by rw [hnewer, append_assoc, cons_append]) row hrow
        rw [hprev, holder', newest_remove hfalse]

theorem filter_of_nodup (h : ((newer ++ batch :: older).map BillingCorrection.id).Nodup) :
    (newer ++ batch :: older).filter (fun b => b.id ≠ batch.id) = newer ++ older := by
  rw [map_append, map_cons, nodup_append, nodup_cons] at h
  have hnewer : newer.filter (fun b => b.id ≠ batch.id) = newer := by
    rw [filter_eq_self]
    intro b hb
    rw [decide_eq_true_eq]
    exact h.2.2 b.id (mem_map_of_mem hb) batch.id mem_cons_self
  have holder : older.filter (fun b => b.id ≠ batch.id) = older := by
    rw [filter_eq_self]
    intro b hb
    rw [decide_eq_true_eq]
    intro hid
    exact h.2.1.1 (hid ▸ mem_map_of_mem hb)
  rw [filter_append, hnewer, filter_cons, holder]
  simp

/-- One correction call and the stack. -/
theorem stackOK_correct {s : DB} (hok : BooksOK s) (h : StackOK s active) :
    StackOK (applyBillingCorrection env request s).2 (stackStep env s active (.correct request)) := by
  rcases hrun : applyBillingCorrection env request s with ⟨e | b, s'⟩
  · have hstep : stackStep env s active (.correct request) = active := by
      rw [stackStep, hrun]
      cases s.corrections.get? request.id <;> rfl
    rw [hstep, applyBillingCorrection_atomic env request s e s' hrun]
    exact h
  · obtain ⟨batch, hbatch, hdigest, hcase⟩ :=
      applyBillingCorrection_spec env request s (hok.batches request.id) b s' hrun
    have hid : batch.id = request.id := key_of_get? hbatch
    have hself : s.corrections.get? batch.id = some batch := by rw [hid, hbatch]
    have hstep : stackStep env s active (.correct request) =
        if request.reverse then active.filter fun b => b.id ≠ batch.id
        else if batch.status = .preview then batch :: active else active := by
      rw [stackStep, hrun, hbatch]
    rw [hstep]
    rcases hcase with ⟨⟨happly, hstatus⟩ | ⟨hreverse, hstatus⟩, -, rfl⟩ | ⟨hacc, -, hcorrected⟩
    · rw [happly, if_neg (by decide), if_neg (by rw [hstatus]; decide)]
      exact h
    · -- a reversed batch is not on the stack
      have hkeep : active.filter (fun b => b.id ≠ batch.id) = active := by
        rw [filter_eq_self]
        intro x hx
        rw [decide_eq_true_eq]
        intro hxid
        obtain ⟨stored, hget, hst, -⟩ := h.stored x hx
        rw [hxid, hself] at hget
        cases hget
        rw [hstatus] at hst
        cases hst
      rw [if_pos hreverse, hkeep]
      exact h
    · by_cases hreverse : request.reverse = true
      · have hstatus := applied_of_guard hacc hreverse
        obtain ⟨x, hx, hxid⟩ := h.complete batch.id batch hself hstatus
        obtain ⟨newer, older, rfl⟩ := append_of_mem hx
        obtain ⟨stored, hget, -, hrows⟩ := h.stored x hx
        rw [hxid, hself] at hget
        cases hget
        rw [if_pos hreverse, ← hxid, filter_of_nodup h.nodup]
        exact h.removed hxid.symm hrows hreverse hcorrected
      · have happly : request.reverse = false := Bool.not_eq_true _ ▸ hreverse
        obtain ⟨-, -, hpreview, -⟩ := evidence_of_guard hdigest hacc happly
        rw [if_neg hreverse, if_pos hpreview]
        exact h.pushed hself hpreview happly hcorrected

theorem stackStep_ok (env : CorrectionEnv) (c : BillingCall) (s : DB) (active : List BillingCorrection)
    (hok : BooksOK s) (h : StackOK s active) : StackOK (c.exec env s).2 (stackStep env s active c) := by
  by_cases hc : c.correcting = false
  · have hsame := (billingCall_atomic env c).related
      (ledgerSide_keeps env sameCorrections_writes c hc) s
    cases c with
    | preview => cases hc
    | correct => cases hc
    | ledger | save
    | history => exact h.of_same hsame
  · cases c with
    | ledger | save
    | history => exact absurd rfl hc
    | preview now uuid input actorID rate userGroup =>
      rcases hrun : (preview now uuid input actorID rate userGroup).exec env s with
        ⟨e | _, s'⟩
      · rw [billingCall_atomic env _ s e s' hrun]
        exact h
      · have hprev : wp ((preview now uuid input actorID rate userGroup).exec env)
            (fun _ s' => ∃ batch, Previewed batch s s') s := by
          rw [exec, wp_drop]
          exact wp_mono (previewBillingCorrection_spec env now uuid input actorID rate userGroup s)
            fun batch s' hp => ⟨batch, hp⟩
        obtain ⟨batch, hp⟩ := hprev _ _ hrun
        exact h.previewed hp
    | correct request =>
      have hexec : ((correct request).exec env s).2 = (applyBillingCorrection env request s).2 := by
        rw [exec]
        rcases hrun : applyBillingCorrection env request s with ⟨e | b, s'⟩
        · rw [drop, bind_error hrun]
        · rw [drop, bind_ok hrun]
          rfl
      rw [hexec]
      exact stackOK_correct hok h

theorem stackOf_ok (env : CorrectionEnv) : ∀ (calls : List BillingCall) (s : DB)
    (active : List BillingCorrection), BooksOK s → StackOK s active →
      StackOK (run (exec env) s calls) (stackOf env s active calls) := by
  intro calls
  induction calls with
  | nil =>
    intro s active _ h
    exact h
  | cons c _ ih =>
    intro s active hok h
    rw [run_cons, stackOf]
    exact ih _ _ (billingCall_booksOK env c s hok) (stackStep_ok env c s active hok h)

theorem Opening.stackOK {db : DB} (h : Opening db) : StackOK db [] := by
  refine ⟨nodup_nil, by simp, ?_, ?_, by simp⟩
  · intro id b hb
    rw [get?, h.corrections] at hb
    cases hb
  · intro src
    rw [claimOf, get?, h.claims]
    rfl

/-- A batch that is not the newest of one of its sources cannot be reversed. -/
theorem reverse_refused {s : DB} {batch later : BillingCorrection} (hok : BooksOK s)
    (h : StackOK s (newer ++ batch :: older)) (hlater : later ∈ newer) (htouch : touches src batch = true)
    (hlate : touches src later = true) (hid : request.id = batch.id) (hreverse : request.reverse = true) :
    ∃ e, applyBillingCorrection env request s = (.error e, s) := by
  rcases hrun : applyBillingCorrection env request s with ⟨e | b, s'⟩
  · exact ⟨e, by rw [applyBillingCorrection_atomic env request s e s' hrun]⟩
  · exfalso
    obtain ⟨stored, hstored, -, hcase⟩ :=
      applyBillingCorrection_spec env request s (hok.batches request.id) b s' hrun
    obtain ⟨x, hget, hstatus, hrows⟩ := h.stored batch (by simp)
    rw [← hid, hstored] at hget
    cases hget
    rcases hcase with ⟨⟨happly, -⟩ | ⟨-, hst⟩, -⟩ | ⟨-, -, hcorrected⟩
    · rw [hreverse] at happly
      cases happly
    · rw [hstatus] at hst
      cases hst
    · obtain ⟨row, hrow, rfl⟩ := mem_sources htouch
      have hnewest : newest row.sourceEntryID (newer ++ batch :: older) = batch.id := by
        rw [← h.claims, hcorrected.claimed row (by rw [hrows]; exact hrow), claimBefore, if_pos hreverse]
        exact (key_of_get? hstored).trans hid
      have := not_touches_of_newest h.nodup hnewest later hlater
      rw [hlate] at this
      cases this

/-! ## The result -/

/-- **The correction stack.**  From every state a history reaches: batches applied on top of each
    other, each of them restorable when it is applied, and reversed newest first, restore every user,
    token and channel row, the effective sale of every source entry and the effective cost state of
    every snapshot.  And while a batch is applied on top of another one for some source entry,
    reversing the one below is refused and changes nothing. -/
theorem correction_stack (env : CorrectionEnv) (db : DB) (hdb : Opening db) (calls : List BillingCall) :
    (∀ t, StackRun env (run (exec env) db calls) [] t → Restored env (run (exec env) db calls) t) ∧
    (∀ newer batch older later src, stackOf env db [] calls = newer ++ batch :: older → later ∈ newer →
      touches src batch = true → touches src later = true → ∀ request : CorrectionRequest,
        request.id = batch.id → request.reverse = true →
          ∃ e, applyBillingCorrection env request (run (exec env) db calls) =
            (.error e, run (exec env) db calls)) := by
  have hok := run_booksOK env calls db hdb.booksOK
  refine ⟨?_, ?_⟩
  · intro t ht
    exact (ht.undo hok).2
  · intro newer batch older later src hstack hlater htouch hlate request hid hreverse
    have h := stackOf_ok env calls db [] hdb.booksOK hdb.stackOK
    rw [hstack] at h
    exact reverse_refused hok h hlater htouch hlate hid hreverse

/-- A reversal of the batch `applyDouble` applies. -/
def undoDouble : CorrectionRequest := { applyDouble with reverse := true, reason := "undo" }

theorem correction_stack_undoDouble :
    ∃ t, StackRun ratesOneAndTwo doublePreviewed [] t ∧ Restored ratesOneAndTwo doublePreviewed t := by
  have happly : (applyBillingCorrection ratesOneAndTwo applyDouble doublePreviewed).1.isOk = true := by
    decide +kernel
  have hundo : (applyBillingCorrection ratesOneAndTwo undoDouble
      (applyBillingCorrection ratesOneAndTwo applyDouble doublePreviewed).2).1.isOk = true := by
    decide +kernel
  have hbatch : ((doublePreviewed.corrections.get? "b").any fun batch =>
      batch.status = .preview ∧ Restorable ratesOneAndTwo doublePreviewed batch) = true := by
    decide +kernel
  rcases hrun : applyBillingCorrection ratesOneAndTwo applyDouble doublePreviewed with ⟨e | b, t1⟩
  · rw [hrun] at happly
    cases happly
  rw [hrun] at hundo
  rcases hrun2 : applyBillingCorrection ratesOneAndTwo undoDouble t1 with ⟨e | b', t2⟩
  · rw [hrun2] at hundo
    cases hundo
  cases hget : doublePreviewed.corrections.get? "b" with
  | none =>
    rw [hget] at hbatch
    cases hbatch
  | some =>
    rw [hget, Option.any_some, decide_eq_true_eq] at hbatch
    have hstack : StackRun ratesOneAndTwo doublePreviewed [] t2 :=
      .reverse undoDouble (.apply applyDouble .start rfl hget hbatch.1 hbatch.2 hrun) rfl hrun2
    exact ⟨t2, hstack, (correction_stack ratesOneAndTwo twoTasks twoTasks_opening _).1 t2 hstack⟩

/-! ## A run that does not restore -/

/-- A customer with one finished task that was logged without a group. -/
def grouplessTask : DB :=
  { DB.empty with
    users := empty.put
      { id := 1, username := "u", group := "default", quota := 2000000, usedQuota := 250000 }
    tasks := empty.put
      { id := 1, taskID := "t", userID := 1, quota := 250000, status := .success
        billingContext := some { modelPrice := 1 / 2, groupRatio := 1, originModelName := "m" } }
    logs := empty.put
      { id := 1, userID := 1, type := .consume, modelName := "m", quota := 250000, requestID := "r"
        other := some { taskID := "t", groupRatio := some 1 } }
    channels := empty.put { id := 0 } }

/-- The model's price has doubled since. -/
def doubledPrice : CorrectionEnv :=
  exactEnv [("1", 1), ("2", 2)] fun task =>
    ({ (taskPricing task).1 with modelPrice := 2 * (taskPricing task).1.modelPrice }, (taskPricing task).2)

/-- The request of administrator 9 for the batch `id` as `db` stores it. -/
def requestFor (db : DB) (id rate : String) (reverse : Bool) : CorrectionRequest where
  id := id
  digest := (db.corrections.get? id).bind BillingCorrection.sha256
  rate := rate
  userGroup := "default"
  actorID := 9
  reverse := reverse
  reason := "undo"
  now := 4100
  clock := fun _ => 4100
  finishedAt := 4100

/-- The task is settled, and a correction to the new price previewed. -/
def pricePreviewed : DB :=
  run (exec doubledPrice) grouplessTask
    [.save 1000 1 0 "" "" (some 0), .ledger (.begin 2000
        { id := "o", userID := 1, requestID := "r", modelName := "m", reserved := 250000 }),
      .ledger (.finish 2001 "o" 1 250000 false),
      .preview 4000 "p1"
        { userID := 1, startAt := 1000, endAt := 3000, models := ["m"], mode := .modelPricing
          targetGroup := "", reason := "price" } 9 "" "default"]

/-- It is applied, and a correction to the group `vip` at rate 2 previewed on top of it. -/
def ratePreviewed : DB :=
  run (exec doubledPrice) pricePreviewed
    [.correct (requestFor pricePreviewed "p1" "" false), .preview 4000 "p2"
        { userID := 1, startAt := 1000, endAt := 3000, models := ["m"], mode := .groupRate
          targetGroup := "vip", reason := "rate" } 9 "2" "default"]

/-- The second correction applied. -/
def rateApplied : DB :=
  (applyBillingCorrection doubledPrice (requestFor ratePreviewed "p2" "2" false) ratePreviewed).2

/-- The second correction reversed, newest first. -/
def rateReversed : DB :=
  (applyBillingCorrection doubledPrice (requestFor rateApplied "p2" "2" true) rateApplied).2

/-- Applying and reversing the second correction succeed, and the effective rate of the source entry,
    empty before, is the original one after. -/
theorem rateless_not_restored :
    (applyBillingCorrection doubledPrice (requestFor ratePreviewed "p2" "2" false) ratePreviewed).1.isOk = true ∧
      (applyBillingCorrection doubledPrice (requestFor rateApplied "p2" "2" true) rateApplied).1.isOk = true ∧
      (ratePreviewed.entries.rows.head?.map fun e =>
        ((saleNow doubledPrice ratePreviewed e).rate, (saleNow doubledPrice rateReversed e).rate)) =
        some ("", "1") := by
  decide +kernel

end NovaMaas.Billing
