/-
  The events of a task tell its statuses in the order in which they were stored, numbered without gap or repeat.

  `TaskMoved` says once what a transaction may do to a task and its events: nothing, create the task and tell its first
  version, or change its status and tell the next.  Each writer is shown to do one of these (`insert_step`,
  `updateWithStatus_step`, `bulkUpdate_step`), however old the copy it writes from; a bulk update does it for every task
  once, because the tasks it has selected are different.  The rest is an induction over the run.
-/
import NovaMaas.Webhook.TaskOutbox

open List

namespace NovaMaas.Webhook

open Txn

/-! ## A task and its events -/

/-- Version and status of the task, as they are stored. -/
def face (k : ℕ) (s : Store) : Option (ℤ × TaskStatus) :=
  (s.tasks.get? k).map fun task => (task.webhookVersion, task.status)

/-- The events of the task. -/
def eventsOf (k : ℕ) (s : Store) : List TaskEvent := s.events.filter fun e => e.task = k

/-- Version and status that they tell. -/
def told (k : ℕ) (s : Store) : List (ℤ × TaskStatus) := (eventsOf k s).map fun e => (e.stateVersion, e.status)

/-- What a transaction may do to a task. -/
inductive TaskMoved (k : ℕ) (s s' : Store) : Prop
  | same (hface : face k s' = face k s) (htold : told k s' = told k s)
  | created (b : TaskStatus) (hface : face k s = none) (hface' : face k s' = some (1, b))
      (htold : told k s' = told k s ++ [(1, b)])
  | changed (n : ℤ) (a b : TaskStatus) (hne : b ≠ a) (hface : face k s = some (n, a))
      (hface' : face k s' = some (n + 1, b)) (htold : told k s' = told k s ++ [(n + 1, b)])

/-- The task belongs to the owner. -/
def OwnedBy (owner : ℤ) (k : ℕ) (s : Store) : Prop := ∀ task, s.tasks.get? k = some task → task.userId = owner

/-- The owner has an enabled subscriber. -/
def Served (env : CallEnv) (owner : ℤ) : Prop :=
  mediaTasksEnabled env.endpoints = true ∧ subscribers env.endpoints owner ≠ []

instance (env : CallEnv) (owner : ℤ) : Decidable (Served env owner) := inferInstanceAs (Decidable (_ ∧ _))

/-- What a transaction does to a task of the owner. -/
structure TaskStep (owner : ℤ) (k : ℕ) (env : CallEnv) (s s' : Store) : Prop where
  moved : TaskMoved k s s'
  owned : OwnedBy owner k s'
  fails : env.insertFails k = true → face k s' = face k s

/-- The transaction does not touch the task. -/
structure SameTask (k : ℕ) (s s' : Store) : Prop where
  row  : s'.tasks.get? k = s.tasks.get? k
  told : told k s' = told k s

theorem SameTask.refl (k : ℕ) (s : Store) : SameTask k s s := ⟨rfl, rfl⟩

variable {k : ℕ}

theorem SameTask.face {s s' : Store} (h : SameTask k s s') : face k s' = face k s := by
  unfold Webhook.face
  rw [h.row]

theorem SameTask.trans {s s' s'' : Store} (h : SameTask k s s') (h' : SameTask k s' s'') : SameTask k s s'' :=
  ⟨h'.row.trans h.row, h'.told.trans h.told⟩

variable {env : CallEnv} {owner : ℤ}

theorem SameTask.step {s s' : Store} (h : SameTask k s s')
    (howned : OwnedBy owner k s) : TaskStep owner k env s s' where
  moved := TaskMoved.same h.face h.told
  owned := by
    intro task htask
    rw [h.row] at htask
    exact howned task htask
  fails := fun _ => h.face

/-- A step after transactions that did not touch the task, or before. -/
theorem TaskStep.after_same {s s' s'' : Store} (h : SameTask k s s')
    (h' : TaskStep owner k env s' s'') : TaskStep owner k env s s'' := by
  refine ⟨?_, h'.owned, fun hfails => (h'.fails hfails).trans h.face⟩
  cases h'.moved with
  | same hface htold => exact TaskMoved.same (hface.trans h.face) (htold.trans h.told)
  | created b hface hface' htold =>
    refine TaskMoved.created b (h.face.symm.trans hface) hface' ?_
    rw [htold, h.told]
  | changed n a b hne hface hface' htold =>
    refine TaskMoved.changed n a b hne (h.face.symm.trans hface) hface' ?_
    rw [htold, h.told]

theorem TaskStep.before_same {s s' s'' : Store} (h : TaskStep owner k env s s')
    (h' : SameTask k s' s'') : TaskStep owner k env s s'' := by
  refine ⟨?_, ?_, fun hfails => h'.face.trans (h.fails hfails)⟩
  · cases h.moved with
    | same hface htold => exact TaskMoved.same (h'.face.trans hface) (h'.told.trans htold)
    | created b hface hface' htold =>
      exact TaskMoved.created b hface (h'.face.trans hface') (h'.told.trans htold)
    | changed n a b hne hface hface' htold =>
      exact TaskMoved.changed n a b hne hface (h'.face.trans hface') (h'.told.trans htold)
  · intro task htask
    rw [h'.row] at htask
    exact h.owned task htask

/-! ## Queueing an event -/

theorem told_append (k : ℕ) (s : Store) (e : TaskEvent) : told k { s with events := s.events ++ [e] } =
    if e.task = k then told k s ++ [(e.stateVersion, e.status)] else told k s := by
  unfold told eventsOf
  simp only [filter_append]
  by_cases h : e.task = k
  · have hone : [e].filter (fun e => decide (e.task = k)) = [e] := by simp [h]
    rw [if_pos h, hone, map_append]
    rfl
  · have hnone : [e].filter (fun e => decide (e.task = k)) = [] := by simp [h]
    rw [if_neg h, hnone, append_nil]

/-- The event of a task of a served owner is queued, or the call fails. -/
theorem queueStatusWebhook_self {task : Task} (hpos : 0 < task.userId) (hserved : Served env task.userId)
    (s : Store) :
    wp (queueStatusWebhook env task) (fun _ s' => s'.tasks = s.tasks ∧
      told task.id s' = told task.id s ++ [(task.webhookVersion, task.status)] ∧ env.insertFails task.id = false) s := by
  have hnot : ¬ task.userId ≤ 0 := by omega
  unfold queueStatusWebhook
  rw [if_neg hnot]
  by_cases hversion : task.webhookVersion ≤ 0
  · rw [if_pos hversion, wp_throw]
    trivial
  · rw [if_neg hversion]
    unfold queueWebhookEvent
    rw [hserved.1, Bool.not_true, if_neg Bool.false_ne_true, if_neg hserved.2, wp_bind, wp_rejectIf]
    intro hfails
    rw [wp_modify]
    refine ⟨rfl, ?_, Bool.eq_false_iff.2 hfails⟩
    rw [told_append]
    exact if_pos rfl

theorem queueStatusWebhook_other (task : Task) (hk : task.id ≠ k) (s : Store) :
    wp (queueStatusWebhook env task) (fun _ s' => SameTask k s s') s := by
  unfold queueStatusWebhook queueWebhookEvent
  simp only [wp_ite, wp_pure, wp_throw, wp_bind, wp_rejectIf, wp_modify]
  refine ⟨fun _ => SameTask.refl k s, fun _ => ⟨fun _ => trivial, fun _ => ⟨fun _ => SameTask.refl k s, fun _ =>
    ⟨fun _ => SameTask.refl k s, fun _ _ => ⟨rfl, ?_⟩⟩⟩⟩⟩
  rw [told_append]
  exact if_neg hk

theorem sameTask_put (task : Task) (hk : task.id ≠ k) (s : Store) :
    SameTask k s { s with tasks := s.tasks.put task } :=
  ⟨Table.get?_put_ne hk, rfl⟩

theorem face_put (task : Task) (s : Store) :
    face task.id { s with tasks := s.tasks.put task } = some (task.webhookVersion, task.status) := by
  unfold face
  simp only [Table.get?_put_self, Option.map_some]

theorem face_of_tasks {s s' : Store} (h : s'.tasks = s.tasks) : face k s' = face k s := by
  unfold face
  rw [h]

variable {s : Store}

/-- A row that is written and told: what its transaction does to its task. -/
theorem write_and_tell (task : Task) (howner : 0 < owner) (hserved : Served env owner) (huser : task.userId = owner)
    (hmoved : ∀ s', face task.id s' = some (task.webhookVersion, task.status) →
      told task.id s' = told task.id s ++ [(task.webhookVersion, task.status)] → TaskMoved task.id s s') :
    wp (queueStatusWebhook env task) (fun _ s' => TaskStep owner task.id env s s')
      { s with tasks := s.tasks.put task } := by
  have hpos : 0 < task.userId := by omega
  rw [← huser] at hserved
  refine wp_mono (queueStatusWebhook_self hpos hserved _) ?_
  rintro _ s' ⟨htasks, htold, hfails⟩
  have hface : face task.id s' = some (task.webhookVersion, task.status) := by
    rw [face_of_tasks htasks, face_put]
  refine ⟨hmoved s' hface htold, ?_, fun h => ?_⟩
  · intro row hrow
    rw [htasks, Table.get?_put_self] at hrow
    cases hrow
    exact huser
  · rw [hfails] at h
    cases h

/-! ## The writers -/

theorem face_eq_none (h : s.tasks.get? k = none) : face k s = none := by
  unfold face
  rw [h]
  rfl

theorem face_eq_some {task : Task} (h : s.tasks.get? k = some task) :
    face k s = some (task.webhookVersion, task.status) := by
  unfold face
  rw [h]
  rfl

theorem insert_step {task : Task} (howner : 0 < owner) (hserved : Served env owner) (howned : OwnedBy owner k s)
    (huser : s.idFor task = k → task.userId = owner) :
    wp (insert env task) (fun _ s' => TaskStep owner k env s s') s := by
  unfold insert
  simp only [wp_transaction, wp_bind, wp_get, wp_rejectIf, wp_modify]
  intro hnew
  have hnone : s.tasks.get? (s.idFor task) = none := by
    cases hget : s.tasks.get? (s.idFor task) with
    | none => rfl
    | some =>
      rw [hget] at hnew
      exact absurd rfl hnew
  by_cases hk : s.idFor task = k
  · subst hk
    exact write_and_tell { task with id := s.idFor task, webhookVersion := 1 } howner hserved (huser rfl)
      fun s' hface htold => TaskMoved.created task.status (face_eq_none hnone) hface htold
  · refine wp_mono (queueStatusWebhook_other _ hk _) ?_
    intro _ s' hsame
    exact ((sameTask_put { task with id := s.idFor task, webhookVersion := 1 } hk s).trans hsame).step howned

theorem written_id (t previous : Task) : (t.written previous).id = t.id := rfl

theorem updateWithStatus_step (t : Task) (fromStatus : TaskStatus) (howner : 0 < owner) (hserved : Served env owner)
    (howned : OwnedBy owner k s) (huser : t.id = k → t.userId = owner) :
    wp (updateWithStatus env t fromStatus) (fun _ s' => TaskStep owner k env s s') s := by
  have hself : TaskStep owner k env s s := (SameTask.refl k s).step howned
  unfold updateWithStatus
  simp only [wp_transaction, wp_bind, wp_get]
  cases hget : s.tasks.get? t.id with
  | none =>
    rw [wp_pure]
    exact hself
  | some previous =>
    simp only [wp_ite, wp_pure, wp_bind, wp_modify]
    refine ⟨fun _ => hself, fun hfrom => ⟨fun hwon => ⟨fun hchanged => ?_, fun hsame => ?_⟩, fun hlost => ?_⟩⟩
    · -- the status changes, so the event is told
      have hversion : (t.written previous).webhookVersion = previous.webhookVersion + 1 := if_pos hchanged
      by_cases hk : t.id = k
      · subst hk
        refine write_and_tell (t.written previous) howner hserved (huser rfl) fun s' hface htold => ?_
        rw [hversion] at hface htold
        exact TaskMoved.changed previous.webhookVersion previous.status t.status hchanged (face_eq_some hget) hface htold
      · refine wp_mono (queueStatusWebhook_other (t.written previous) hk _) ?_
        intro _ s' hother
        exact ((sameTask_put (t.written previous) hk s).trans hother).step howned
    all_goals
      -- the version stays, and so does the status
      by_cases hk : t.id = k
      · subst hk
        have hstatus : t.status = previous.status := by
          first
          | exact not_not.1 hsame
          | exact not_not.1 fun hne => hlost (by
              have hdiff : t.written previous ≠ previous := by
                intro heq
                have hstatus : (t.written previous).status = previous.status := congrArg Task.status heq
                exact hne hstatus
              rw [decide_eq_true hdiff, Bool.or_true])
        have hversion : (t.written previous).webhookVersion = previous.webhookVersion := if_neg (not_not.2 hstatus)
        have hface : face t.id { s with tasks := s.tasks.put (t.written previous) } = face t.id s := by
          rw [face_eq_some hget]
          have hput := face_put (t.written previous) s
          rw [hversion] at hput
          rw [← hstatus]
          exact hput
        refine ⟨TaskMoved.same hface rfl, ?_, fun _ => hface⟩
        intro row hrow
        have hput := Table.get?_put_self s.tasks (t.written previous)
        rw [written_id] at hput
        rw [hput] at hrow
        cases hrow
        exact huser rfl
      · exact (sameTask_put (t.written previous) hk s).step howned

/-- One task of a bulk update. -/
theorem bulkUpdateOne_step {params : TaskParams} {task : Task} (howner : 0 < owner) (hserved : Served env owner)
    (howned : OwnedBy owner k s) :
    wp (bulkUpdateOne env params task)
      (fun _ s' => TaskStep owner k env s s' ∧ (task.id ≠ k → SameTask k s s')) s := by
  have hself : TaskStep owner k env s s ∧ (task.id ≠ k → SameTask k s s) :=
    ⟨(SameTask.refl k s).step howned, fun _ => SameTask.refl k s⟩
  unfold bulkUpdateOne
  rw [wp_bind, wp_get]
  cases hget : s.tasks.get? task.id with
  | none =>
    rw [wp_pure]
    exact hself
  | some row =>
    have hid : row.id = task.id := Table.key_of_get? hget
    simp only [wp_ite, wp_pure, wp_bind, wp_modify]
    refine ⟨fun _ => hself, fun hfrom => ⟨fun hkept => ?_, fun hchanged => ?_⟩⟩
    · -- the status is what it was
      by_cases hk : task.id = k
      · subst hk
        have hstatus : (params.apply row).status = row.status := by
          rw [Bool.or_eq_true, Bool.and_eq_true, decide_eq_true_eq, decide_eq_true_eq] at hkept
          rcases hkept with ⟨-, hrow⟩ | hrow
          · rw [hrow]
          · rw [hrow]
            exact (not_not.1 hfrom).symm
        have hface : face task.id { s with tasks := s.tasks.put (params.apply row) } = face task.id s := by
          rw [face_eq_some hget, ← hid]
          have hput := face_put (params.apply row) s
          rw [hstatus] at hput
          exact hput
        refine ⟨⟨TaskMoved.same hface rfl, ?_, fun _ => hface⟩, fun h => absurd rfl h⟩
        intro x hx
        have hput := Table.get?_put_self s.tasks (params.apply row)
        rw [TaskParams.apply_id, hid] at hput
        rw [hput] at hx
        cases hx
        exact howned row hget
      · have hsame : SameTask k s { s with tasks := s.tasks.put (params.apply row) } :=
          sameTask_put _ (by rw [TaskParams.apply_id, hid]; exact hk) s
        exact ⟨hsame.step howned, fun _ => hsame⟩
    · -- the status changes, and the version with it
      have hne : (params.apply row).status ≠ row.status := by
        intro heq
        have hstatus : (params.apply row).status = task.status := heq.trans (not_not.1 hfrom)
        exact hchanged (by rw [decide_eq_true hstatus, Bool.or_true])
      have hput : (s.tasks.put (params.apply row)).put
          { params.apply row with webhookVersion := (params.apply row).webhookVersion + 1 } =
            s.tasks.put { params.apply row with webhookVersion := (params.apply row).webhookVersion + 1 } :=
        Table.put_put s.tasks rfl
      simp only [hput]
      by_cases hk : task.id = k
      · subst hk
        have hbody := write_and_tell (s := s)
          { params.apply row with webhookVersion := (params.apply row).webhookVersion + 1 } howner hserved
          (howned row hget) fun s' hface htold => by
            refine TaskMoved.changed row.webhookVersion row.status _ hne ?_ hface htold
            show face row.id s = _
            rw [hid, face_eq_some hget]
        refine wp_mono hbody ?_
        intro _ s' hstep
        refine ⟨?_, fun h => absurd rfl h⟩
        have hid' : ({ params.apply row with webhookVersion := (params.apply row).webhookVersion + 1 } : Task).id =
            task.id := hid
        rw [hid'] at hstep
        exact hstep
      · have hk' : ({ params.apply row with webhookVersion := (params.apply row).webhookVersion + 1 } : Task).id ≠ k := by
          show row.id ≠ k
          rw [hid]
          exact hk
        refine wp_mono (queueStatusWebhook_other _ hk' _) ?_
        intro _ s' hother
        have hsame := (sameTask_put _ hk' s).trans hother
        exact ⟨hsame.step howned, fun _ => hsame⟩

theorem bulkUpdate_step {ids : List ℕ} {params : TaskParams} (howner : 0 < owner) (hserved : Served env owner)
    (howned : OwnedBy owner k s) :
    wp (taskBulkUpdateByID env ids params) (fun _ s' => TaskStep owner k env s s') s := by
  have hself : TaskStep owner k env s s := (SameTask.refl k s).step howned
  unfold taskBulkUpdateByID
  simp only [wp_ite, wp_pure, wp_modify, wp_transaction, wp_bind, wp_get]
  refine ⟨fun _ => hself, fun _ => ⟨fun hnone => ?_, fun _ => ?_⟩⟩
  · -- no status is written
    have hstatus : ∀ task, (params.apply task).status = task.status := by
      intro task
      show params.status.getD task.status = task.status
      rw [hnone]
      rfl
    have hrow : ∀ task : Task, ((if decide (task.id ∈ ids) then params.apply task else task).webhookVersion,
        (if decide (task.id ∈ ids) then params.apply task else task).status) = (task.webhookVersion, task.status) := by
      intro task
      by_cases hmem : task.id ∈ ids
      · rw [decide_eq_true hmem, if_pos rfl, hstatus task]
        rfl
      · rw [decide_eq_false hmem, if_neg Bool.false_ne_true]
    have hget := s.tasks.get?_updateWhere (fun task => decide (task.id ∈ ids)) params.apply params.apply_id k
    generalize s.tasks.updateWhere (fun task => decide (task.id ∈ ids)) params.apply params.apply_id = tasks at hget ⊢
    have hface : face k { s with tasks := tasks } = face k s := by
      unfold face
      simp only [hget, Option.map_map]
      exact Option.map_congr fun task _ => hrow task
    refine ⟨TaskMoved.same hface rfl, ?_, fun _ => hface⟩
    intro x hx
    rw [hget] at hx
    obtain ⟨task, htask, rfl⟩ := Option.map_eq_some_iff.1 hx
    have huser := howned task htask
    by_cases hmem : task.id ∈ ids
    · rw [decide_eq_true hmem, if_pos rfl]
      exact huser
    · rw [decide_eq_false hmem, if_neg Bool.false_ne_true]
      exact huser
  · -- the tasks that are selected are different, so each is updated once
    have hnodup : ((s.tasks.rows.filter fun task => decide (task.id ∈ ids)).map Task.id).Nodup :=
      s.tasks.nodup.sublist (List.Sublist.map _ filter_sublist)
    refine wp_mono (wp_forEach _ (fun _ done s' => TaskStep owner k env s s' ∧
      (k ∉ done.map Task.id → SameTask k s s')) _ () s ⟨hself, fun _ => SameTask.refl k s⟩ ?_) ?_
    · intro _ done task rest s1 hsplit hI
      refine wp_mono (bulkUpdateOne_step howner hserved hI.1.owned) ?_
      rintro _ s2 ⟨hstep, hother⟩
      rw [hsplit] at hnodup
      by_cases hk : task.id = k
      · have hnot : k ∉ done.map Task.id := by
          rw [map_append, nodup_append] at hnodup
          intro hmem
          exact hnodup.2.2 k hmem k (by rw [← hk]; exact mem_map_of_mem mem_cons_self) rfl
        refine ⟨TaskStep.after_same (hI.2 hnot) hstep, fun hmem => absurd ?_ hmem⟩
        rw [map_append, ← hk]
        exact mem_append_right _ (mem_map_of_mem mem_cons_self)
      · refine ⟨hI.1.before_same (hother hk), fun hmem => ?_⟩
        rw [map_append, mem_append, not_or] at hmem
        exact (hI.2 hmem.1).trans (hother hk)
    · rintro _ s' ⟨hstep, -⟩
      exact hstep

/-! ## Calls -/

theorem step_of_atomic {α : Type} {m : Txn Store TaskError α} (hatomic : Atomic m) (howned : OwnedBy owner k s)
    (h : wp m (fun _ s' => TaskStep owner k env s s') s) :
    TaskStep owner k env s (m s).2 := by
  rcases hrun : m s with ⟨e | a, s'⟩
  · rw [hatomic s e s' hrun]
    exact (SameTask.refl k s).step howned
  · exact h a s' hrun

theorem atomic_bulkUpdate (env : CallEnv) (ids : List ℕ) (params : TaskParams) :
    Atomic (taskBulkUpdateByID env ids params) := by
  intro s e s' hrun
  unfold taskBulkUpdateByID at hrun
  by_cases hids : ids = []
  · rw [if_pos hids] at hrun
    cases hrun
  · rw [if_neg hids] at hrun
    by_cases hstatus : params.status = none
    · rw [if_pos hstatus] at hrun
      cases hrun
    · rw [if_neg hstatus] at hrun
      exact atomic_transaction _ s e s' hrun

/-- Copies of the task that a call writes from belong to the owner. -/
def CopiesOf (owner : ℤ) (k : ℕ) (s : OutboxState) : TaskCall → Prop
  | .insert task => s.store.idFor task = k → task.userId = owner
  | .update task => s.store.idFor task = k → task.userId = owner
  | .goOn _ => True
  | .updateWithStatus task _ => task.id = k → task.userId = owner
  | .bulkUpdate _ _ => True

/-- The task and the copies that a `Task.Update` has in hand belong to the owner. -/
structure OutboxState.Of (owner : ℤ) (k : ℕ) (s : OutboxState) : Prop where
  owned   : OwnedBy owner k s.store
  pending : ∀ p ∈ s.updates, p.1.id = k → p.1.userId = owner

theorem step_goOn (s : OutboxState) (env : CallEnv) (call : ℕ) : s.step env (.goOn call) = (s.updates[call]?).elim s
    fun p => { s.after (updateWithStatus env p.1 p.2) with updates := s.updates.eraseIdx call } := by
  cases hcall : s.updates[call]? with
  | none | some =>
    simp only [OutboxState.step, hcall]
    rfl

theorem step_task {s : OutboxState} {call : TaskCall} (howner : 0 < owner) (hserved : Served env owner)
    (hof : s.Of owner k) (hcopies : CopiesOf owner k s call) :
    TaskStep owner k env s.store (s.step env call).store ∧ (s.step env call).Of owner k := by
  have hself : TaskStep owner k env s.store s.store := (SameTask.refl k s.store).step hof.owned
  cases call with
  | insert =>
    have hstep := step_of_atomic (atomic_transaction _) hof.owned (insert_step howner hserved hof.owned hcopies)
    exact ⟨hstep, hstep.owned, hof.pending⟩
  | update task =>
    unfold OutboxState.step
    by_cases hid : task.id = 0
    · have hstep := step_of_atomic (atomic_transaction _) hof.owned (insert_step howner hserved hof.owned hcopies)
      simp only [if_pos hid]
      exact ⟨hstep, hstep.owned, hof.pending⟩
    · simp only [if_neg hid]
      cases s.store.tasks.get? task.id with
      | none => exact ⟨hself, hof⟩
      | some =>
        refine ⟨hself, hof.owned, fun p hp hk => ?_⟩
        rcases mem_append.1 hp with hp | hp
        · exact hof.pending p hp hk
        · rw [mem_singleton.1 hp] at hk ⊢
          refine hcopies ?_
          unfold Store.idFor
          rw [if_neg hid]
          exact hk
  | goOn call =>
    cases hcall : s.updates[call]? with
    | none =>
      rw [step_goOn, hcall]
      exact ⟨hself, hof⟩
    | some p =>
      rw [step_goOn, hcall]
      have hmem := mem_of_getElem? hcall
      have hstep := step_of_atomic (atomic_transaction _) hof.owned
        (updateWithStatus_step p.1 p.2 howner hserved hof.owned (hof.pending p hmem))
      exact ⟨hstep, hstep.owned, fun q hq => hof.pending q (mem_of_mem_eraseIdx hq)⟩
  | updateWithStatus task fromStatus =>
    have hstep := step_of_atomic (atomic_transaction _) hof.owned
      (updateWithStatus_step task fromStatus howner hserved hof.owned hcopies)
    exact ⟨hstep, hstep.owned, hof.pending⟩
  | bulkUpdate ids params =>
    have hstep := step_of_atomic (atomic_bulkUpdate env ids params) hof.owned
      (bulkUpdate_step howner hserved hof.owned)
    exact ⟨hstep, hstep.owned, hof.pending⟩

/-! ## Runs -/

/-- Every call of the run finds an enabled subscriber of the owner, and writes the task from copies of the owner's. -/
def Subscribed (owner : ℤ) (k : ℕ) : OutboxState → List (CallEnv × TaskCall) → Prop
  | _, [] => True
  | s, c :: calls => (Served c.1 owner ∧ CopiesOf owner k s c.2) ∧ Subscribed owner k (s.step c.1 c.2) calls

/-- The status of the task, if it is there. -/
def statusOf (k : ℕ) (s : OutboxState) : Option TaskStatus := (s.store.tasks.get? k).map Task.status

/-- The statuses that were stored for the task along some states, each once for as long as it stays. -/
def storedStatuses (k : ℕ) (states : List OutboxState) : List TaskStatus :=
  (states.filterMap (statusOf k)).destutter (· ≠ ·)

/-- What follows a status in a list, once for as long as it stays. -/
def later (a : TaskStatus) : List TaskStatus → List TaskStatus
  | [] => []
  | b :: l => if b = a then later a l else b :: later b l

theorem destutter_eq (a : TaskStatus) (l : List TaskStatus) : (a :: l).destutter (· ≠ ·) = a :: later a l := by
  show l.destutter' (· ≠ ·) a = a :: later a l
  induction l generalizing a with
  | nil => rfl
  | cons b _ ih =>
    by_cases h : b = a
    · subst h
      rw [destutter'_cons_neg _ (not_not.2 rfl), ih, later, if_pos rfl]
    · rw [destutter'_cons_pos _ (Ne.symm h), ih, later, if_neg h]

theorem statusOf_eq (k : ℕ) (s : OutboxState) : statusOf k s = (face k s.store).map Prod.snd := by
  unfold statusOf face
  rw [Option.map_map]
  rfl

/-- The versions that are told are numbers from one on, and the row has the last. -/
def Numbered (k : ℕ) (s : Store) : Prop :=
  (told k s).map Prod.fst = (range (told k s).length).map (fun i : ℕ => (i : ℤ) + 1) ∧
    (face k s).map Prod.fst = if told k s = [] then none else some ((told k s).length : ℤ)

theorem Numbered.moved {s s' : Store} (h : Numbered k s) (hmoved : TaskMoved k s s') : Numbered k s' := by
  obtain ⟨hversions, hface⟩ := h
  cases hmoved with
  | same hface' htold =>
    unfold Numbered
    rw [hface', htold]
    exact ⟨hversions, hface⟩
  | created _ hnone hsome htold =>
    rw [hnone] at hface
    have hnil : told k s = [] := by
      by_contra hne
      rw [if_neg hne] at hface
      cases hface
    unfold Numbered
    rw [hsome, htold, hnil]
    exact ⟨rfl, rfl⟩
  | changed n _ _ _ hsome hsome' htold =>
    rw [hsome] at hface
    have hn : n = ((told k s).length : ℤ) := by
      by_cases hnil : told k s = []
      · rw [if_pos hnil] at hface
        cases hface
      · rw [if_neg hnil] at hface
        exact Option.some.inj hface
    unfold Numbered
    rw [hsome', htold, if_neg (by simp), map_append, hversions, length_append, length_singleton,
      range_succ, map_append, hn]
    exact ⟨rfl, rfl⟩

/-- The statuses that are told along a run are those that are stored. -/
theorem told_run (howner : 0 < owner) (calls : List (CallEnv × TaskCall)) (s : OutboxState) (hof : s.Of owner k)
    (hsub : Subscribed owner k s calls) (hnumbered : Numbered k s.store) :
    Numbered k (s.run calls).store ∧ (s.run calls).Of owner k ∧
      (told k (s.run calls).store).map Prod.snd = (told k s.store).map Prod.snd ++
        (statusOf k s).elim (storedStatuses k (s.states calls))
          fun a => later a ((s.states calls).filterMap (statusOf k)) := by
  induction calls generalizing s with
  | nil =>
    refine ⟨hnumbered, hof, ?_⟩
    show _ = _ ++ (statusOf k s).elim (([s].filterMap (statusOf k)).destutter (· ≠ ·))
      fun a => later a ([s].filterMap (statusOf k))
    cases hstatus : statusOf k s with
    | none =>
      rw [filterMap_cons_none hstatus]
      exact (append_nil _).symm
    | some a =>
      rw [filterMap_cons_some hstatus]
      show _ = _ ++ later a [a]
      rw [later, if_pos rfl]
      exact (append_nil _).symm
  | cons c calls ih =>
    obtain ⟨⟨hserved, hcopies⟩, hmore⟩ := hsub
    obtain ⟨hstep, hof'⟩ := step_task howner hserved hof hcopies
    obtain ⟨hnum', hofEnd, htold⟩ := ih (s.step c.1 c.2) hof' hmore (hnumbered.moved hstep.moved)
    refine ⟨hnum', hofEnd, ?_⟩
    have hstates : s.states (c :: calls) = s :: (s.step c.1 c.2).states calls := rfl
    -- the first of the later states
    obtain ⟨rest, hrest⟩ : ∃ rest, (s.step c.1 c.2).states calls = s.step c.1 c.2 :: rest := by
      cases calls with
      | nil => exact ⟨[], rfl⟩
      | cons => exact ⟨_, rfl⟩
    show (told k ((s.step c.1 c.2).run calls).store).map Prod.snd = _
    rw [htold, hstates]
    have hbefore := statusOf_eq k s
    have hafter := statusOf_eq k (s.step c.1 c.2)
    cases hstep.moved with
    | same hface htold' =>
      rw [hface, ← hbefore] at hafter
      rw [htold', hafter]
      congr 1
      cases hstatus : statusOf k s with
      | none =>
        show storedStatuses k _ = storedStatuses k _
        unfold storedStatuses
        rw [filterMap_cons_none hstatus]
      | some a =>
        show later a _ = later a _
        rw [filterMap_cons_some hstatus, later, if_pos rfl]
    | created b hnone hsome htold' =>
      rw [hnone] at hbefore
      rw [hsome] at hafter
      rw [hbefore, hafter, htold', map_append, append_assoc]
      congr 1
      show b :: later b _ = storedStatuses k _
      unfold storedStatuses
      rw [filterMap_cons_none hbefore, hrest, filterMap_cons_some hafter, destutter_eq, later, if_pos rfl]
    | changed _ a b hne hsome hsome' htold' =>
      rw [hsome] at hbefore
      rw [hsome'] at hafter
      rw [hbefore, hafter, htold', map_append, append_assoc]
      congr 1
      show b :: later b _ = later a _
      rw [filterMap_cons_some hbefore, later, if_pos rfl, hrest, filterMap_cons_some hafter, later, if_pos rfl,
        later, if_neg hne]

/-- Along every run with an enabled subscriber, the events of a task carry the versions 1, 2, ..., n and the statuses
that were stored, in order; the row has version n; and a call whose event is not inserted leaves status and version. -/
theorem events_tell_statuses {owner : ℤ} {k : ℕ} (howner : 0 < owner) (calls : List (CallEnv × TaskCall))
    (hsub : Subscribed owner k OutboxState.start calls) :
    let s := OutboxState.start.run calls
    (eventsOf k s.store).map TaskEvent.stateVersion =
        (range (eventsOf k s.store).length).map (fun i : ℕ => (i : ℤ) + 1) ∧
      (eventsOf k s.store).map TaskEvent.status = storedStatuses k (OutboxState.start.states calls) ∧
      (∀ task, s.store.tasks.get? k = some task → task.webhookVersion = (eventsOf k s.store).length) ∧
      ∀ env call, Served env owner → CopiesOf owner k s call → env.insertFails k = true →
        face k (s.step env call).store = face k s.store := by
  intro s
  have hstart : OutboxState.start.Of owner k := by
    refine ⟨fun task htask => ?_, fun p hp => absurd hp (not_mem_nil)⟩
    cases htask
  obtain ⟨hnumbered, hof, htold⟩ := told_run howner calls OutboxState.start hstart hsub ⟨rfl, rfl⟩
  have hversions : (told k s.store).map Prod.fst = (eventsOf k s.store).map TaskEvent.stateVersion := by
    unfold told
    rw [map_map]
    rfl
  have hstatuses : (told k s.store).map Prod.snd = (eventsOf k s.store).map TaskEvent.status := by
    unfold told
    rw [map_map]
    rfl
  have hlength : (told k s.store).length = (eventsOf k s.store).length := length_map _
  refine ⟨?_, ?_, fun task htask => ?_, fun env call hserved hcopies hfails => ?_⟩
  · rw [← hversions, ← hlength]
    exact hnumbered.1
  · rw [← hstatuses]
    exact htold
  · have hface := hnumbered.2
    have hsome : face k s.store = some (task.webhookVersion, task.status) := face_eq_some htask
    rw [hsome] at hface
    by_cases hnil : told k s.store = []
    · rw [if_pos hnil] at hface
      cases hface
    · rw [if_neg hnil] at hface
      rw [← hlength]
      exact Option.some.inj hface
  · exact (step_task howner hserved hof hcopies).1.fails hfails

/-- A task of the first user. -/
def submittedTask (status : TaskStatus) : Task where
  id := 1
  webhookVersion := 0
  taskId := "task_1"
  platform := "suno"
  userId := 1
  status := status
  progress := "0%"
  failReason := ""
  properties := ⟨"", ""⟩
  requestBodyAvailable := false

/-- The system's endpoint has subscribed. -/
def subscribedEnv : CallEnv where
  endpoints := [⟨1, systemTaskWebhookEndpointId, 0, true, "https://hook", [webhookEventTaskStatusChanged]⟩]
  insertFails := fun _ => false
  countsMatched := false

/-- Three writers: a task is inserted, an update reads its status, a bulk update fails the task, the update comes too
late, and a copy that was loaded before brings the task to success. -/
def threeWriters : List (CallEnv × TaskCall) :=
  [(subscribedEnv, .insert (submittedTask .submitted)), (subscribedEnv, .update (submittedTask .inProgress)),
    (subscribedEnv, .bulkUpdate [1] { status := some .failure }), (subscribedEnv, .goOn 0),
    (subscribedEnv, .updateWithStatus (submittedTask .success) .failure)]

theorem events_tell_statuses_threeWriters :
    storedStatuses 1 (OutboxState.start.states threeWriters) = [.submitted, .failure, .success] := by
  have hserved : Served subscribedEnv 1 := by decide +kernel
  have hcopies : Subscribed 1 1 OutboxState.start threeWriters :=
    ⟨⟨hserved, fun _ => rfl⟩, ⟨hserved, fun _ => rfl⟩, ⟨hserved, trivial⟩, ⟨hserved, trivial⟩, ⟨hserved, fun _ => rfl⟩,
      trivial⟩
  obtain ⟨-, hstatuses, -⟩ := events_tell_statuses (by decide) threeWriters hcopies
  rw [← hstatuses]
  decide +kernel

end NovaMaas.Webhook
