/-
  The lease of a system task.

  A task that is running has a lock row, and that lock was good at least until the task was MARKED running
  (`LeaseInv.locked`).  So whoever looks at the task or at its lock with a time taken before the mark cannot take
  the lock over or delete it, however late the statement comes: this is what makes two statements enough.

  It needs one thing the code does not see to: a claim that has won the lock marks its task running before its own
  lease has run out (`InTime`).  Nothing in the statement that marks the task asks for the lock.  A runner that
  stalls between the two marks a task whose lock is gone, and no lock will ever expire that task again.
-/
import NovaMaas.Task.SystemTask

open List Option

namespace NovaMaas.Task

open Interleave Prog.Keeps Table SystemWorld

variable {w v u : SystemWorld}

/-! ## The invariant -/

structure LeaseInv (w : SystemWorld) : Prop where
  locked : ∀ t ∈ w.tasks.rows, t.status = .running → ∃ l ∈ w.locks.rows, l.type = t.type ∧ l.taskID = t.taskID ∧
    t.lockedBy = some l.lockedBy ∧ w.marked t.id ≤ l.lockedUntil
  active : ∀ t ∈ w.tasks.rows, t.status = .pending ∨ t.status = .running → t.activeKey = some t.type
  oneActive : ∀ t ∈ w.tasks.rows, ∀ t' ∈ w.tasks.rows, t.activeKey = t'.activeKey → t.activeKey ≠ none → t = t'
  oneTaskID : ∀ t ∈ w.tasks.rows, ∀ t' ∈ w.tasks.rows, t.taskID = t'.taskID → t = t'
  ids : ∀ t ∈ w.tasks.rows, t.id < w.nextID
  marked : ∀ id, w.marked id ≤ w.now
  typed : ∀ l ∈ w.locks.rows, ∃ t ∈ w.tasks.rows, t.taskID = l.taskID ∧ t.type = l.type

/-- A task now, against the same task before.  A task that was claimed is never pending again, and one that is over
never runs again. -/
structure TaskLater (w v : SystemWorld) (t t' : SystemTask) : Prop where
  id : t'.id = t.id
  taskID : t'.taskID = t.taskID
  type : t'.type = t.type
  claimed : t.status ≠ .pending → t'.status ≠ .pending ∧ v.marked t.id = w.marked t.id
  ended : t.status ≠ .pending → t.status ≠ .running → t'.status ≠ .running

structure LeaseLater (w v : SystemWorld) : Prop where
  now : w.now ≤ v.now
  rows : ∀ t ∈ w.tasks.rows, ∃ t' ∈ v.tasks.rows, TaskLater w v t t'
  /-- A task that runs now ran before, or was marked since. -/
  runs : ∀ t' ∈ v.tasks.rows, t'.status = .running → w.now ≤ v.marked t'.id ∨ ∃ t ∈ w.tasks.rows, t.id = t'.id ∧
    t.taskID = t'.taskID ∧ t.type = t'.type ∧ t.status = .running ∧ v.marked t'.id = w.marked t'.id

/-- No task has come to run under the runner `n`. -/
def Mine (n : ℕ) (w v : SystemWorld) : Prop :=
  ∀ t' ∈ v.tasks.rows, t'.status = .running → t'.lockedBy = some n →
    ∃ t ∈ w.tasks.rows, t.taskID = t'.taskID ∧ t.status = .running ∧ t.lockedBy = some n

/-- A lock of the runner `n` that is good is still there, at least while its task is pending. -/
def HeldBy (n : ℕ) (w v : SystemWorld) : Prop :=
  ∀ l ∈ w.locks.rows, l.lockedBy = n → v.now ≤ l.lockedUntil →
    l ∈ v.locks.rows ∨ ∃ t ∈ v.tasks.rows, t.taskID = l.taskID ∧ t.status ≠ .pending

/-- A task that starts to run has a lock that says under whom. -/
def Starts (w v : SystemWorld) : Prop :=
  ∀ t ∈ w.tasks.rows, ∀ t' ∈ v.tasks.rows, t'.id = t.id → t.status = .pending → t'.status = .running →
    ∃ l ∈ w.locks.rows, l.taskID = t.taskID ∧ t'.lockedBy = some l.lockedBy

/-! ## Orders -/

theorem TaskLater.refl (t : SystemTask) (hmarked : v.marked t.id = w.marked t.id) : TaskLater w v t t :=
  ⟨rfl, rfl, rfl, fun h => ⟨h, hmarked⟩, fun _ h => h⟩

theorem TaskLater.trans {a b c : SystemTask} (hab : TaskLater w v a b) (hbc : TaskLater v u b c) :
    TaskLater w u a c where
  id := hbc.id.trans hab.id
  taskID := hbc.taskID.trans hab.taskID
  type := hbc.type.trans hab.type
  claimed := by
    intro ha
    obtain ⟨hb, hmarked⟩ := hab.claimed ha
    obtain ⟨hc, hmarked'⟩ := hbc.claimed hb
    rw [hab.id] at hmarked'
    exact ⟨hc, hmarked'.trans hmarked⟩
  ended := fun hpending hrunning => hbc.ended (hab.claimed hpending).1 (hab.ended hpending hrunning)

theorem LeaseLater.trans (hwv : LeaseLater w v) (hvu : LeaseLater v u) : LeaseLater w u where
  now := hwv.now.trans hvu.now
  rows := by
    intro a ha
    obtain ⟨b, hb, hab⟩ := hwv.rows a ha
    obtain ⟨c, hc, hbc⟩ := hvu.rows b hb
    exact ⟨c, hc, hab.trans hbc⟩
  runs := by
    intro c hc hrunning
    rcases hvu.runs c hc hrunning with hnew | ⟨b, hb, hid, htask, htype, hrunning', hmarked⟩
    · exact Or.inl (hwv.now.trans hnew)
    · rw [hmarked]
      rcases hwv.runs b hb hrunning' with hnew | ⟨a, ha, hid', htask', htype', hrun, hmarked'⟩
      · rw [hid] at hnew
        exact Or.inl hnew
      · rw [hid] at hmarked' hid'
        exact Or.inr ⟨a, ha, hid', htask'.trans htask, htype'.trans htype, hrun, hmarked'⟩

theorem LeaseLater.of_tasks (htasks : v.tasks = w.tasks) (hmarked : v.marked = w.marked) (hnow : w.now ≤ v.now) :
    LeaseLater w v where
  now := hnow
  rows := by
    intro t ht
    rw [htasks]
    exact ⟨t, ht, TaskLater.refl t (by rw [hmarked])⟩
  runs := by
    intro t ht hrunning
    rw [htasks] at ht
    exact Or.inr ⟨t, ht, rfl, rfl, rfl, hrunning, by rw [hmarked]⟩

theorem LeaseLater.refl (w : SystemWorld) : LeaseLater w w := LeaseLater.of_tasks rfl rfl le_rfl

/-- What a call relies on. -/
structure LeaseRely (n : ℕ) (w v : SystemWorld) : Prop where
  later : LeaseLater w v
  mine : Mine n w v
  held : HeldBy n w v

theorem mine_of_tasks {n : ℕ} (htasks : v.tasks = w.tasks) : Mine n w v := by
  intro t ht hrunning hlocked
  rw [htasks] at ht
  exact ⟨t, ht, rfl, hrunning, hlocked⟩

theorem LeaseRely.refl (n : ℕ) (w : SystemWorld) : LeaseRely n w w :=
  ⟨LeaseLater.refl w, mine_of_tasks rfl, fun _ hl _ _ => Or.inl hl⟩

theorem LeaseRely.trans {n : ℕ} (hwv : LeaseRely n w v) (hvu : LeaseRely n v u) : LeaseRely n w u where
  later := hwv.later.trans hvu.later
  mine := by
    intro c hc hrunning hlocked
    obtain ⟨b, hb, htask, hrunning', hlocked'⟩ := hvu.mine c hc hrunning hlocked
    obtain ⟨a, ha, htask', hrun⟩ := hwv.mine b hb hrunning' hlocked'
    exact ⟨a, ha, htask'.trans htask, hrun⟩
  held := by
    intro l hl hlocked hgood
    rcases hwv.held l hl hlocked (hvu.later.now.trans hgood) with hl' | ⟨t, ht, htask, hclaimed⟩
    · exact hvu.held l hl' hlocked hgood
    · obtain ⟨t', ht', hlater⟩ := hvu.later.rows t ht
      exact Or.inr ⟨t', ht', hlater.taskID.trans htask, (hlater.claimed hclaimed).1⟩

/-! ## What the calls know

Facts about one task or one type that no statement of anybody takes away. -/

/-- Every task of the type that runs was marked at `t` or later. -/
structure QuietType (type : String) (t : ℕ) (w : SystemWorld) : Prop where
  past : t ≤ w.now
  marked : ∀ x ∈ w.tasks.rows, x.type = type → x.status = .running → t ≤ w.marked x.id

/-- The task, if it runs, was marked at `t` or later. -/
structure QuietTask (taskID : String) (t : ℕ) (w : SystemWorld) : Prop where
  past : t ≤ w.now
  marked : ∀ x ∈ w.tasks.rows, x.taskID = taskID → x.status = .running → t ≤ w.marked x.id

/-- The task was claimed by the time `t`. -/
def ClaimedBy (taskID : String) (t : ℕ) (w : SystemWorld) : Prop :=
  ∃ x ∈ w.tasks.rows, x.taskID = taskID ∧ x.status ≠ .pending ∧ w.marked x.id ≤ t

/-- The task is over. -/
def Over (taskID : String) (w : SystemWorld) : Prop :=
  ∃ x ∈ w.tasks.rows, x.taskID = taskID ∧ x.status ≠ .pending ∧ x.status ≠ .running

/-- The task of the type exists. -/
def Known (taskID type : String) (w : SystemWorld) : Prop :=
  ∃ x ∈ w.tasks.rows, x.taskID = taskID ∧ x.type = type

variable {type : String}

theorem QuietType.mono {t : ℕ} (h : QuietType type t w) (hwv : LeaseLater w v) : QuietType type t v := by
  refine ⟨h.past.trans hwv.now, ?_⟩
  intro x hx htype hrunning
  rcases hwv.runs x hx hrunning with hnew | ⟨y, hy, hid, -, htype', hrunning', hmarked⟩
  · exact h.past.trans hnew
  · rw [hmarked, ← hid]
    exact h.marked y hy (htype'.trans htype) hrunning'

variable {taskID : String}

theorem QuietTask.mono {t : ℕ} (h : QuietTask taskID t w) (hwv : LeaseLater w v) :
    QuietTask taskID t v := by
  refine ⟨h.past.trans hwv.now, ?_⟩
  intro x hx htask hrunning
  rcases hwv.runs x hx hrunning with hnew | ⟨y, hy, hid, htask', -, hrunning', hmarked⟩
  · exact h.past.trans hnew
  · rw [hmarked, ← hid]
    exact h.marked y hy (htask'.trans htask) hrunning'

theorem ClaimedBy.mono {t : ℕ} (h : ClaimedBy taskID t w) (hwv : LeaseLater w v) :
    ClaimedBy taskID t v := by
  obtain ⟨x, hx, htask, hclaimed, hmarked⟩ := h
  obtain ⟨x', hx', hlater⟩ := hwv.rows x hx
  obtain ⟨hclaimed', hsame⟩ := hlater.claimed hclaimed
  refine ⟨x', hx', hlater.taskID.trans htask, hclaimed', ?_⟩
  rw [hlater.id, hsame]
  exact hmarked

theorem Over.mono (h : Over taskID w) (hwv : LeaseLater w v) : Over taskID v := by
  obtain ⟨x, hx, htask, hclaimed, hover⟩ := h
  obtain ⟨x', hx', hlater⟩ := hwv.rows x hx
  exact ⟨x', hx', hlater.taskID.trans htask, (hlater.claimed hclaimed).1, hlater.ended hclaimed hover⟩

theorem Known.mono (h : Known taskID type w) (hwv : LeaseLater w v) : Known taskID type v := by
  obtain ⟨x, hx, htask, htype⟩ := h
  obtain ⟨x', hx', hlater⟩ := hwv.rows x hx
  exact ⟨x', hx', hlater.taskID.trans htask, hlater.type.trans htype⟩

/-! ## Statements on the lock table -/

/-- A statement that leaves the tasks alone. -/
theorem lock_statement (hw : LeaseInv w) (htasks : v.tasks = w.tasks) (hmarked : v.marked = w.marked)
    (hnow : v.now = w.now) (hnext : v.nextID = w.nextID)
    (hlocked : ∀ t ∈ w.tasks.rows, t.status = .running → ∃ l ∈ v.locks.rows, l.type = t.type ∧ l.taskID = t.taskID ∧
      t.lockedBy = some l.lockedBy ∧ w.marked t.id ≤ l.lockedUntil)
    (htyped : ∀ l ∈ v.locks.rows, ∃ t ∈ w.tasks.rows, t.taskID = l.taskID ∧ t.type = l.type) : LeaseInv v where
  locked := by
    rw [htasks, hmarked]
    exact hlocked
  active := by
    rw [htasks]
    exact hw.active
  oneActive := by
    rw [htasks]
    exact hw.oneActive
  oneTaskID := by
    rw [htasks]
    exact hw.oneTaskID
  ids := by
    rw [htasks, hnext]
    exact hw.ids
  marked := by
    rw [hmarked, hnow]
    exact hw.marked
  typed := by
    rw [htasks]
    exact htyped

theorem starts_of_tasks (htasks : v.tasks = w.tasks) : Starts w v := by
  intro t ht t' ht' hid hpending hrunning
  rw [htasks] at ht'
  have hsame : t' = t := eq_of_key_eq ht' ht hid
  rw [hsame, hpending] at hrunning
  cases hrunning

variable {lock : SystemTaskLock}

/-- The lock of the type is put in place, over no running task. -/
theorem putLock_inv (hw : LeaseInv w) (hknown : Known lock.taskID lock.type w)
    (hidle : ∀ t ∈ w.tasks.rows, t.type = lock.type → t.status ≠ .running) :
    LeaseInv { w with locks := w.locks.put lock } := by
  refine lock_statement hw rfl rfl rfl rfl ?_ ?_
  · intro t ht hrunning
    obtain ⟨l, hl, htype, hrest⟩ := hw.locked t ht hrunning
    have hne : l.type ≠ lock.type := fun h => hidle t ht (htype.symm.trans h) hrunning
    exact ⟨l, mem_put.mpr (Or.inr ⟨hl, hne⟩), htype, hrest⟩
  · intro l hl
    rcases mem_put.mp hl with rfl | ⟨hl, -⟩
    · exact hknown
    · exact hw.typed l hl

theorem lockOf_mem {l : SystemTaskLock} : w.lockOf type = some l ↔ l ∈ w.locks.rows ∧ l.type = type :=
  get?_eq_some_iff

/-- A new lock: no task of the type runs, for there was no lock. -/
theorem insertLock_inv (hw : LeaseInv w) (hknown : Known lock.taskID lock.type w) : LeaseInv (w.insertLock lock) := by
  unfold insertLock
  cases hnone : w.lockOf lock.type with
  | some => exact hw
  | none =>
    refine putLock_inv hw hknown ?_
    intro t ht htype hrunning
    obtain ⟨l, hl, hltype, -⟩ := hw.locked t ht hrunning
    have hfound : w.lockOf lock.type = some l := lockOf_mem.mpr ⟨hl, hltype.trans htype⟩
    rw [hnone] at hfound
    cases hfound

variable {now : ℕ}

/-- A stale lock is taken over: no task of the type runs, for it would have been marked after `now`, and the lock
would be good until then. -/
theorem takeLock_inv (hw : LeaseInv w) (hknown : Known lock.taskID lock.type w)
    (hquiet : QuietType lock.type now w) : LeaseInv (w.takeLock lock now) := by
  unfold takeLock
  cases hstale : w.staleLock lock.type now with
  | none => exact hw
  | some old =>
    obtain ⟨hold, hlate⟩ := filter_eq_some_iff.mp hstale
    have hlate : old.lockedUntil < now := of_decide_eq_true hlate
    refine putLock_inv hw hknown ?_
    intro t ht htype hrunning
    obtain ⟨l, hl, hltype, -, -, hgood⟩ := hw.locked t ht hrunning
    have hfound : w.lockOf lock.type = some l := lockOf_mem.mpr ⟨hl, hltype.trans htype⟩
    rw [hold] at hfound
    obtain rfl := some.inj hfound
    have hmarked := hquiet.marked t ht htype hrunning
    omega

/-- A lock is deleted that is not the lock of a running task. -/
theorem deleteLock_inv (hw : LeaseInv w) {p : SystemTaskLock → Bool}
    (hkeep : ∀ t ∈ w.tasks.rows, t.status = .running → ∀ l ∈ w.locks.rows, l.taskID = t.taskID →
      t.lockedBy = some l.lockedBy → w.marked t.id ≤ l.lockedUntil → p l = false) :
    LeaseInv { w with locks := w.locks.deleteWhere p } := by
  refine lock_statement hw rfl rfl rfl rfl ?_ ?_
  · intro t ht hrunning
    obtain ⟨l, hl, htype, htask, hby, hgood⟩ := hw.locked t ht hrunning
    exact ⟨l, mem_deleteWhere.mpr ⟨hl, hkeep t ht hrunning l hl htask hby hgood⟩, htype, htask, hby, hgood⟩
  · intro l hl
    exact hw.typed l (mem_deleteWhere.mp hl).1

theorem deleteStale_inv (hw : LeaseInv w) (hquiet : QuietTask lock.taskID now w) :
    LeaseInv (w.deleteStale lock now) := by
  refine deleteLock_inv hw ?_
  intro t ht hrunning l hl htask _ hgood
  refine decide_eq_false ?_
  rintro ⟨-, hsame, -, hlate⟩
  have hmarked := hquiet.marked t ht (htask.symm.trans hsame) hrunning
  omega

variable {runner : ℕ}

theorem releaseLock_inv (hw : LeaseInv w)
    (hfree : ∀ t ∈ w.tasks.rows, t.taskID = taskID → t.status = .running → t.lockedBy ≠ some runner) :
    LeaseInv (w.releaseLock taskID runner) := by
  refine deleteLock_inv hw ?_
  intro t ht hrunning l hl htask hby _
  refine decide_eq_false ?_
  rintro ⟨hsame, hrunner⟩
  refine hfree t ht (htask.symm.trans hsame) hrunning ?_
  rw [hby, hrunner]

theorem renewLock_mem {lockUntil : ℕ} {l : SystemTaskLock}
    (h : l ∈ (w.renewLock taskID runner now lockUntil).locks.rows) : ∃ l' ∈ w.locks.rows,
      l = if renewable taskID runner now l' then l'.renew lockUntil now else l' := by
  have hkey : ∀ x : SystemTaskLock, (x.renew lockUntil now).type = x.type := fun _ => rfl
  exact of_mem_updateWhere hkey h

theorem renewLock_inv (hw : LeaseInv w) {lockUntil : ℕ}
    (hclaimed : ClaimedBy taskID lockUntil w) : LeaseInv (w.renewLock taskID runner now lockUntil) := by
  refine lock_statement hw rfl rfl rfl rfl ?_ ?_
  · intro t ht hrunning
    obtain ⟨l, hl, htype, htask, hby, hgood⟩ := hw.locked t ht hrunning
    have hmem : (if renewable taskID runner now l then l.renew lockUntil now else l) ∈
        (w.renewLock taskID runner now lockUntil).locks.rows :=
      mem_updateWhere_of_mem _ (·.renew lockUntil now) (fun _ => rfl) hl
    refine ⟨_, hmem, ?_⟩
    split
    · rename_i hrenew
      refine ⟨htype, htask, hby, ?_⟩
      -- the renewed lock is good until a time after the claim
      obtain ⟨x, hx, hxtask, -, hmarked⟩ := hclaimed
      have hltask : l.taskID = taskID := by
        simp only [renewable, Bool.and_eq_true, decide_eq_true_eq] at hrenew
        exact hrenew.1.1
      have hsame : t = x := hw.oneTaskID t ht x hx (by rw [← htask, hltask, hxtask])
      rw [hsame]
      exact hmarked
    · exact ⟨htype, htask, hby, hgood⟩
  · intro l hl
    obtain ⟨l', hl', rfl⟩ := renewLock_mem hl
    obtain ⟨t, ht, htask, htype⟩ := hw.typed l' hl'
    refine ⟨t, ht, ?_⟩
    split
    · exact ⟨htask, htype⟩
    · exact ⟨htask, htype⟩

/-! ## Statements on the task table -/

/-- What a statement makes of a row: it leaves it running or waiting as it was, ends it, or marks it running for a runner
who has its lock, and good. -/
inductive Course (actor : Option ℕ) (w v : SystemWorld) (t t' : SystemTask) : Prop where
  | same (status : t'.status = t.status) (lockedBy : t'.lockedBy = t.lockedBy) (activeKey : t'.activeKey = t.activeKey)
      (marked : v.marked t.id = w.marked t.id)
  | ended (running : t.status = .running) (claimed : t'.status ≠ .pending) (stopped : t'.status ≠ .running)
      (activeKey : t'.activeKey = none) (marked : v.marked t.id = w.marked t.id)
  | started (pending : t.status = .pending) (running : t'.status = .running) (activeKey : t'.activeKey = t.activeKey)
      (marked : v.marked t.id = w.now) (lock : ∃ l ∈ w.locks.rows, l.type = t.type ∧ l.taskID = t.taskID ∧
        t'.lockedBy = some l.lockedBy ∧ actor = some l.lockedBy ∧ w.now ≤ l.lockedUntil)

structure Goes (actor : Option ℕ) (w v : SystemWorld) (t t' : SystemTask) : Prop where
  id : t'.id = t.id
  taskID : t'.taskID = t.taskID
  type : t'.type = t.type
  course : Course actor w v t t'

/-- A row that was not there: it waits, and neither its id nor its type is taken. -/
structure Fresh (w v : SystemWorld) (t' : SystemTask) : Prop where
  id : t'.id = w.nextID
  next : w.nextID < v.nextID
  pending : t'.status = .pending
  activeKey : t'.activeKey = some t'.type
  alone : ∀ t ∈ w.tasks.rows, t.taskID ≠ t'.taskID ∧ t.activeKey ≠ t'.activeKey

/-- A statement on the tasks.  The rows it marks are the actor's. -/
structure Rewrites (actor : Option ℕ) (w v : SystemWorld) : Prop where
  locks : v.locks = w.locks
  now : v.now = w.now
  nextID : w.nextID ≤ v.nextID
  marked : ∀ j, v.marked j = w.marked j ∨ v.marked j = w.now
  old : ∀ t ∈ w.tasks.rows, ∃ t' ∈ v.tasks.rows, Goes actor w v t t'
  new : ∀ t' ∈ v.tasks.rows, Fresh w v t' ∨ ∃ t ∈ w.tasks.rows, Goes actor w v t t'

variable {who : Option ℕ}

variable {t : SystemTask}

theorem Goes.refl (hmarked : v.marked t.id = w.marked t.id) : Goes who w v t t :=
  ⟨rfl, rfl, rfl, .same rfl rfl rfl hmarked⟩

theorem Goes.activeKey {t' : SystemTask} (h : Goes who w v t t') (hne : t'.activeKey ≠ none) :
    t'.activeKey = t.activeKey := by
  cases h.course with
  | same _ _ hkey | started _ _ hkey => exact hkey
  | ended _ _ _ hkey => exact absurd hkey hne

/-- Two rows are one if what they were was one. -/
theorem Rewrites.unique (h : Rewrites who w v) {x y : SystemTask} (hx : x ∈ v.tasks.rows) (hy : y ∈ v.tasks.rows)
    (hxy : ∀ t ∈ w.tasks.rows, ∀ t' ∈ w.tasks.rows, Goes who w v t x → Goes who w v t' y → t = t')
    (hfresh : ∀ t ∈ w.tasks.rows, ¬ (Fresh w v x ∧ Goes who w v t y) ∧ ¬ (Fresh w v y ∧ Goes who w v t x)) :
    x = y := by
  rcases h.new x hx with hxf | ⟨t, ht, hxt⟩
  · rcases h.new y hy with hyf | ⟨t, ht, hyt⟩
    · exact eq_of_key_eq hx hy (hxf.id.trans hyf.id.symm)
    · exact absurd ⟨hxf, hyt⟩ (hfresh t ht).1
  · rcases h.new y hy with hyf | ⟨t', ht', hyt⟩
    · exact absurd ⟨hyf, hxt⟩ (hfresh t ht).2
    · refine eq_of_key_eq hx hy ?_
      rw [hxt.id, hyt.id, hxy t ht t' ht' hxt hyt]

theorem Rewrites.inv (h : Rewrites who w v) (hw : LeaseInv w) : LeaseInv v where
  locked := by
    intro x hx hrunning
    rw [h.locks]
    rcases h.new x hx with hfresh | ⟨t, ht, hgo⟩
    · rw [hfresh.pending] at hrunning
      cases hrunning
    · rw [hgo.type, hgo.taskID, hgo.id]
      cases hgo.course with
      | same hstatus hby _ hmarked =>
        rw [hby, hmarked]
        exact hw.locked t ht (hstatus.symm.trans hrunning)
      | ended _ _ hover => exact absurd hrunning hover
      | started _ _ _ hmarked hlock =>
        obtain ⟨l, hl, htype, htask, hby, -, hgood⟩ := hlock
        rw [hmarked]
        exact ⟨l, hl, htype, htask, hby, hgood⟩
  active := by
    intro x hx hactive
    rcases h.new x hx with hfresh | ⟨t, ht, hgo⟩
    · exact hfresh.activeKey
    · rw [hgo.type]
      cases hgo.course with
      | same hstatus _ hkey =>
        rw [hstatus] at hactive
        exact hkey.trans (hw.active t ht hactive)
      | ended _ hclaimed hover => exact absurd hactive (not_or.mpr ⟨hclaimed, hover⟩)
      | started hpending _ hkey => exact hkey.trans (hw.active t ht (Or.inl hpending))
  oneActive := by
    intro x hx y hy hsame hne
    have hne' : y.activeKey ≠ none := fun h => hne (hsame.trans h)
    refine h.unique hx hy ?_ ?_
    · intro t ht t' ht' hxt hyt
      rw [hxt.activeKey hne, hyt.activeKey hne'] at hsame
      rw [hxt.activeKey hne] at hne
      exact hw.oneActive t ht t' ht' hsame hne
    · refine fun t ht => ⟨fun ⟨hfresh, hyt⟩ => (hfresh.alone t ht).2 ?_, fun ⟨hfresh, hxt⟩ => (hfresh.alone t ht).2 ?_⟩
      · rw [hsame, hyt.activeKey hne']
      · rw [← hsame, hxt.activeKey hne]
  oneTaskID := by
    intro x hx y hy hsame
    refine h.unique hx hy ?_ ?_
    · intro t ht t' ht' hxt hyt
      rw [hxt.taskID, hyt.taskID] at hsame
      exact hw.oneTaskID t ht t' ht' hsame
    · refine fun t ht => ⟨fun ⟨hfresh, hyt⟩ => (hfresh.alone t ht).1 ?_, fun ⟨hfresh, hxt⟩ => (hfresh.alone t ht).1 ?_⟩
      · rw [hsame, hyt.taskID]
      · rw [← hsame, hxt.taskID]
  ids := by
    intro x hx
    rcases h.new x hx with hfresh | ⟨t, ht, hgo⟩
    · rw [hfresh.id]
      exact hfresh.next
    · rw [hgo.id]
      exact (hw.ids t ht).trans_le h.nextID
  marked := by
    intro j
    rw [h.now]
    rcases h.marked j with hsame | hnow
    · rw [hsame]
      exact hw.marked j
    · exact hnow.le
  typed := by
    intro l hl
    rw [h.locks] at hl
    obtain ⟨t, ht, htask, htype⟩ := hw.typed l hl
    obtain ⟨t', ht', hgo⟩ := h.old t ht
    exact ⟨t', ht', hgo.taskID.trans htask, hgo.type.trans htype⟩

theorem Rewrites.later (h : Rewrites who w v) : LeaseLater w v where
  now := h.now.ge
  rows := by
    intro t ht
    obtain ⟨t', ht', hgo⟩ := h.old t ht
    refine ⟨t', ht', hgo.id, hgo.taskID, hgo.type, ?_, ?_⟩
    · intro hclaimed
      cases hgo.course with
      | same hstatus _ _ hmarked => exact ⟨fun h => hclaimed (hstatus.symm.trans h), hmarked⟩
      | ended _ hclaimed' _ _ hmarked => exact ⟨hclaimed', hmarked⟩
      | started hpending => exact absurd hpending hclaimed
    · intro hclaimed hnot
      cases hgo.course with
      | same hstatus => exact fun h => hnot (hstatus.symm.trans h)
      | ended _ _ hover => exact hover
      | started hpending => exact absurd hpending hclaimed
  runs := by
    intro x hx hrunning
    rcases h.new x hx with hfresh | ⟨t, ht, hgo⟩
    · rw [hfresh.pending] at hrunning
      cases hrunning
    · rw [hgo.id]
      cases hgo.course with
      | same hstatus _ _ hmarked =>
        exact Or.inr ⟨t, ht, rfl, hgo.taskID.symm, hgo.type.symm, hstatus.symm.trans hrunning, hmarked⟩
      | ended _ _ hover => exact absurd hrunning hover
      | started _ _ _ hmarked => exact Or.inl hmarked.ge

/-- What the other runners rely on: what is marked runs under the actor. -/
theorem Rewrites.rely (h : Rewrites who w v) {j : ℕ} (hj : who ≠ some j) : LeaseRely j w v where
  later := h.later
  mine := by
    intro x hx hrunning hlocked
    rcases h.new x hx with hfresh | ⟨t, ht, hgo⟩
    · rw [hfresh.pending] at hrunning
      cases hrunning
    · cases hgo.course with
      | same hstatus hby => exact ⟨t, ht, hgo.taskID.symm, hstatus.symm.trans hrunning, hby.symm.trans hlocked⟩
      | ended _ _ hover => exact absurd hrunning hover
      | started _ _ _ _ hlock =>
        obtain ⟨l, -, -, -, hby, hactor, -⟩ := hlock
        exact absurd (hactor.trans (hby.symm.trans hlocked)) hj
  held := by
    intro l hl _ _
    rw [h.locks]
    exact Or.inl hl

theorem Rewrites.starts (h : Rewrites who w v) : Starts w v := by
  intro t ht x hx hid hpending hrunning
  rcases h.new x hx with hfresh | ⟨t', ht', hgo⟩
  · rw [hfresh.pending] at hrunning
    cases hrunning
  · obtain rfl := eq_of_key_eq ht' ht (hgo.id.symm.trans hid)
    cases hgo.course with
    | same hstatus =>
      rw [hstatus, hpending] at hrunning
      cases hrunning
    | ended hrun =>
      rw [hpending] at hrun
      cases hrun
    | started _ _ _ _ hlock =>
      obtain ⟨l, hl, -, htask, hby, -⟩ := hlock
      exact ⟨l, hl, htask, hby⟩

theorem update_rewrites {p : SystemTask → Bool} {f : SystemTask → SystemTask} {hf : ∀ t, (f t).id = t.id}
    (hgo : ∀ t, p t → Goes none w { w with tasks := w.tasks.updateWhere p f hf } t (f t)) :
    Rewrites none w { w with tasks := w.tasks.updateWhere p f hf } := by
  have hrow : ∀ t, Goes none w { w with tasks := w.tasks.updateWhere p f hf } t (if p t then f t else t) := by
    intro t
    split
    · rename_i h
      exact hgo t h
    · exact Goes.refl rfl
  refine ⟨rfl, rfl, le_rfl, fun _ => Or.inl rfl, fun t ht => ⟨_, mem_updateWhere_of_mem p f hf ht, hrow t⟩, ?_⟩
  intro x hx
  obtain ⟨t, ht, rfl⟩ := of_mem_updateWhere hf hx
  exact Or.inr ⟨t, ht, hrow t⟩

theorem writable_iff : w.writable taskID runner now t ↔
    t.taskID = taskID ∧ t.status = .running ∧ t.lockedBy = some runner ∧ w.holds taskID runner now := by
  simp [writable, and_assoc]

theorem pendingTask_eq_some {id : ℕ} (h : w.pendingTask id type = some t) :
    t ∈ w.tasks.rows ∧ t.id = id ∧ t.type = type ∧ t.status = .pending := by
  obtain ⟨hget, hp⟩ := filter_eq_some_iff.mp h
  obtain ⟨hmem, hid⟩ := get?_eq_some_iff.mp hget
  obtain ⟨htype, hpending⟩ := of_decide_eq_true hp
  exact ⟨hmem, hid, htype, hpending⟩

/-! A task is marked running. -/

section Mark

variable {id : ℕ} {type : String} {runner now : ℕ} {t : SystemTask}

theorem markRunning_eq (h : w.pendingTask id type = some t) : w.markRunning id type runner now =
    { w with tasks := w.tasks.put (t.run runner now), marked := Function.update w.marked id w.now } := by
  unfold markRunning
  rw [h]

theorem markRunning_none (h : w.pendingTask id type = none) : w.markRunning id type runner now = w := by
  unfold markRunning
  rw [h]

/-- The rows after a mark: the task, running, and the others as they were. -/
theorem markRunning_mem (h : w.pendingTask id type = some t) {x : SystemTask} :
    x ∈ (w.markRunning id type runner now).tasks.rows ↔ x = t.run runner now ∨ (x ∈ w.tasks.rows ∧ x.id ≠ t.id) := by
  rw [markRunning_eq h]
  exact mem_put

theorem markRunning_marked (runner now : ℕ) (h : w.pendingTask id type = some t) :
    (w.markRunning id type runner now).marked t.id = w.now ∧
      ∀ j, j ≠ t.id → (w.markRunning id type runner now).marked j = w.marked j := by
  obtain ⟨-, hid, -, -⟩ := pendingTask_eq_some h
  rw [markRunning_eq h, hid]
  exact ⟨Function.update_self _ _ _, fun j hj => Function.update_of_ne hj _ _⟩

/-- With the lock in hand, and good. -/
theorem markRunning_rewrites (h : w.pendingTask id type = some t)
    (hlock : ∃ l ∈ w.locks.rows, l.type = t.type ∧ l.taskID = t.taskID ∧ l.lockedBy = runner ∧ w.now ≤ l.lockedUntil) :
    Rewrites (some runner) w (w.markRunning id type runner now) := by
  obtain ⟨ht, -, -, hpending⟩ := pendingTask_eq_some h
  obtain ⟨hself, hothers⟩ := markRunning_marked runner now h
  have hgo : Goes (some runner) w (w.markRunning id type runner now) t (t.run runner now) := by
    refine ⟨rfl, rfl, rfl, .started hpending rfl rfl hself ?_⟩
    obtain ⟨l, hl, htype, htask, rfl, hgood⟩ := hlock
    exact ⟨l, hl, htype, htask, rfl, rfl, hgood⟩
  refine ⟨by rw [markRunning_eq h], by rw [markRunning_eq h], by rw [markRunning_eq h], ?_, ?_, ?_⟩
  · intro j
    by_cases hj : j = t.id
    · rw [hj]
      exact Or.inr hself
    · exact Or.inl (hothers j hj)
  · intro x hx
    by_cases hid : x.id = t.id
    · obtain rfl := eq_of_key_eq hx ht hid
      exact ⟨_, (markRunning_mem h).mpr (Or.inl rfl), hgo⟩
    · exact ⟨x, (markRunning_mem h).mpr (Or.inr ⟨hx, hid⟩), Goes.refl (hothers x.id hid)⟩
  · intro x hx
    rcases (markRunning_mem h).mp hx with rfl | ⟨hx, hne⟩
    · exact Or.inr ⟨t, ht, hgo⟩
    · exact Or.inr ⟨x, hx, Goes.refl (hothers x.id hne)⟩

end Mark

/-! A task is created. -/

theorem duplicate_false {type taskID : String} (h : ¬ w.duplicate type taskID) :
    ∀ t ∈ w.tasks.rows, t.taskID ≠ taskID ∧ t.activeKey ≠ some type := by
  intro t ht
  refine not_or.mp fun hdup => h ?_
  exact any_eq_true.mpr ⟨t, ht, decide_eq_true hdup⟩

theorem create_mem {type taskID : String} (h : ¬ w.duplicate type taskID) (hw : LeaseInv w)
    (payload state : String) (x : SystemTask) : x ∈ (w.create type taskID payload state).tasks.rows ↔
      x = w.newTask type taskID payload state ∨ x ∈ w.tasks.rows := by
  have hput : (w.create type taskID payload state).tasks = w.tasks.put (w.newTask type taskID payload state) := by
    unfold create
    rw [if_neg h]
  rw [hput, mem_put]
  constructor
  · rintro (rfl | ⟨hx, -⟩)
    · exact Or.inl rfl
    · exact Or.inr hx
  · rintro (rfl | hx)
    · exact Or.inl rfl
    · exact Or.inr ⟨hx, (hw.ids x hx).ne⟩

theorem create_rewrites {type taskID payload state : String} (h : ¬ w.duplicate type taskID) (hw : LeaseInv w) :
    Rewrites none w (w.create type taskID payload state) := by
  have hmem := create_mem h hw payload state
  have hcreate : w.create type taskID payload state =
      { w with tasks := w.tasks.put (w.newTask type taskID payload state), nextID := w.nextID + 1 } := if_neg h
  have hmarked : (w.create type taskID payload state).marked = w.marked := by rw [hcreate]
  have hgo : ∀ x, Goes none w (w.create type taskID payload state) x x := fun x => Goes.refl (by rw [hmarked])
  have hnext : w.nextID < (w.create type taskID payload state).nextID := by
    rw [hcreate]
    exact Nat.lt_succ_self _
  refine ⟨by rw [hcreate], by rw [hcreate], hnext.le, fun _ => Or.inl (by rw [hmarked]), ?_, ?_⟩
  · exact fun x hx => ⟨x, (hmem x).mpr (Or.inr hx), hgo x⟩
  · intro x hx
    rcases (hmem x).mp hx with rfl | hx
    · exact Or.inl ⟨rfl, hnext, rfl, rfl, duplicate_false h⟩
    · exact Or.inr ⟨x, hx, hgo x⟩

/-! ## The protocol -/

/-- A claim marks its task running before its lease has run out. -/
def InTime : SystemOp → SystemWorld → Prop
  | .markRunning id type _ _ lease, w => (w.pendingTask id type).isSome → w.now ≤ lease
  | _, _ => True

instance : ∀ (op : SystemOp) (w : SystemWorld), Decidable (InTime op w)
  | .markRunning id type _ _ lease, w => inferInstanceAs (Decidable ((w.pendingTask id type).isSome → w.now ≤ lease))
  | .read, _ | .wait _, _ | .create _ _ _ _, _ | .insertLock _, _ | .takeLock _ _, _ | .markExpired _ _, _
  | .updateState _ _ _ _, _ | .renewLock _ _ _ _, _ | .deleteStale _ _, _ | .releaseLock _ _, _
  | .finish _ _ _ _ _ _, _ => isTrue trivial

def leaseProtocol : Protocol SystemCall SystemOp SystemWorld where
  exec := SystemOp.exec
  ok := InTime
  Inv := LeaseInv
  Rel := LeaseLater
  Rely := fun κ => LeaseRely κ.1
  Guar := fun κ w v => LeaseLater w v ∧ (∀ j, j ≠ κ.1 → LeaseRely j w v) ∧ Starts w v
  refl := LeaseLater.refl
  trans := LeaseLater.trans
  rely_refl := fun κ w => LeaseRely.refl κ.1 w
  rely_trans := LeaseRely.trans
  rely_rel := fun h => h.later
  guar_rel := fun h => h.1
  guar_rely := fun hne h => h.2.1 _ hne

/-- A statement that no call needs to look out for. -/
structure Fine (w v : SystemWorld) : Prop where
  inv : LeaseInv v
  rely : ∀ j, LeaseRely j w v
  starts : Starts w v

variable {α β : Type} {κ : ℕ × SystemCall}

theorem Fine.guar (h : Fine w v) : leaseProtocol.Guar κ w v := ⟨(h.rely 0).later, fun j _ => h.rely j, h.starts⟩

theorem Fine.refl (hw : LeaseInv w) : Fine w w := ⟨hw, fun j => LeaseRely.refl j w, starts_of_tasks rfl⟩

theorem Rewrites.fine (h : Rewrites none w v) (hw : LeaseInv w) : Fine w v :=
  ⟨h.inv hw, fun _ => h.rely nofun, h.starts⟩

theorem fine_markExpired (hw : LeaseInv w) (taskID : String) (now : ℕ) : Fine w (w.markExpired taskID now) := by
  have h : Rewrites none w (w.markExpired taskID now) := by
    refine update_rewrites fun t h => ⟨rfl, rfl, rfl, ?_⟩
    exact .ended (of_decide_eq_true h).2 nofun nofun rfl rfl
  exact h.fine hw

theorem fine_updateState (hw : LeaseInv w) (taskID : String) (runner now : ℕ) (state : String) :
    Fine w (w.updateState taskID runner now state) := by
  have h : Rewrites none w (w.updateState taskID runner now state) :=
    update_rewrites fun _ _ => ⟨rfl, rfl, rfl, .same rfl rfl rfl rfl⟩
  exact h.fine hw

theorem fine_finish (hw : LeaseInv w) (taskID : String) (runner now : ℕ) (outcome : SystemTaskOutcome)
    (result error : String) : Fine w (w.finish taskID runner now outcome result error) := by
  have h : Rewrites none w (w.finish taskID runner now outcome result error) := by
    refine update_rewrites fun t h => ⟨rfl, rfl, rfl, .ended (writable_iff.mp h).2.1 ?_ ?_ rfl rfl⟩
    · cases outcome <;> exact nofun
    · cases outcome <;> exact nofun
  exact h.fine hw

theorem fine_create (hw : LeaseInv w) (type taskID payload state : String) :
    Fine w (w.create type taskID payload state) := by
  by_cases h : w.duplicate type taskID
  · have hsame : w.create type taskID payload state = w := if_pos h
    rw [hsame]
    exact Fine.refl hw
  · exact (create_rewrites h hw).fine hw

theorem fine_wait (hw : LeaseInv w) (seconds : ℕ) : Fine w { w with now := w.now + seconds } where
  inv := ⟨hw.locked, hw.active, hw.oneActive, hw.oneTaskID, hw.ids,
    fun id => (hw.marked id).trans (Nat.le_add_right _ _), hw.typed⟩
  rely := fun _ => ⟨LeaseLater.of_tasks rfl rfl (Nat.le_add_right _ _), mine_of_tasks rfl, fun _ hl _ _ => Or.inl hl⟩
  starts := starts_of_tasks rfl

theorem fine_insertLock (hw : LeaseInv w) {lock : SystemTaskLock} (hknown : Known lock.taskID lock.type w) :
    Fine w (w.insertLock lock) := by
  have hinv := insertLock_inv hw hknown
  unfold insertLock at hinv ⊢
  cases hnone : w.lockOf lock.type with
  | some => exact Fine.refl hw
  | none =>
    rw [hnone] at hinv
    refine ⟨hinv, fun j => ⟨LeaseLater.of_tasks rfl rfl le_rfl, mine_of_tasks rfl, ?_⟩, starts_of_tasks rfl⟩
    intro l hl _ _
    refine Or.inl (mem_put.mpr (Or.inr ⟨hl, ?_⟩))
    intro htype
    rw [lockOf_mem.mpr ⟨hl, htype⟩] at hnone
    cases hnone

theorem fine_takeLock (hw : LeaseInv w) {lock : SystemTaskLock} {now : ℕ} (hknown : Known lock.taskID lock.type w)
    (hquiet : QuietType lock.type now w) : Fine w (w.takeLock lock now) := by
  have hinv := takeLock_inv hw hknown hquiet
  unfold takeLock at hinv ⊢
  cases hstale : w.staleLock lock.type now with
  | none => exact Fine.refl hw
  | some old =>
    rw [hstale] at hinv
    obtain ⟨hold, hlate⟩ := filter_eq_some_iff.mp hstale
    have hlate : old.lockedUntil < now := of_decide_eq_true hlate
    refine ⟨hinv, fun j => ⟨LeaseLater.of_tasks rfl rfl le_rfl, mine_of_tasks rfl, ?_⟩, starts_of_tasks rfl⟩
    intro l hl _ hgood
    refine Or.inl (mem_put.mpr (Or.inr ⟨hl, ?_⟩))
    intro htype
    have hfound : w.lockOf lock.type = some l := lockOf_mem.mpr ⟨hl, htype⟩
    rw [hold] at hfound
    obtain rfl := some.inj hfound
    have hgood : w.now ≤ old.lockedUntil := hgood
    have hpast := hquiet.past
    omega

theorem fine_deleteStale (hw : LeaseInv w) {lock : SystemTaskLock} {now : ℕ} (hquiet : QuietTask lock.taskID now w) :
    Fine w (w.deleteStale lock now) := by
  refine ⟨deleteStale_inv hw hquiet, fun j => ⟨LeaseLater.of_tasks rfl rfl le_rfl, mine_of_tasks rfl, ?_⟩,
    starts_of_tasks rfl⟩
  intro l hl _ hgood
  refine Or.inl (mem_deleteWhere.mpr ⟨hl, decide_eq_false ?_⟩)
  rintro ⟨-, -, -, hlate⟩
  have hgood : w.now ≤ l.lockedUntil := hgood
  have hpast := hquiet.past
  omega

theorem fine_renewLock (hw : LeaseInv w) {taskID : String} {runner now lockUntil : ℕ}
    (hclaimed : ClaimedBy taskID lockUntil w) : Fine w (w.renewLock taskID runner now lockUntil) := by
  refine ⟨renewLock_inv hw hclaimed, fun j => ⟨LeaseLater.of_tasks rfl rfl le_rfl, mine_of_tasks rfl, ?_⟩,
    starts_of_tasks rfl⟩
  intro l hl _ _
  by_cases hrenew : renewable taskID runner now l
  · obtain ⟨x, hx, htask, hnot, -⟩ := hclaimed
    simp only [renewable, Bool.and_eq_true, decide_eq_true_eq] at hrenew
    exact Or.inr ⟨x, hx, htask.trans hrenew.1.1.symm, hnot⟩
  · have hmem : (if renewable taskID runner now l then l.renew lockUntil now else l) ∈
        (w.renewLock taskID runner now lockUntil).locks.rows :=
      mem_updateWhere_of_mem _ (·.renew lockUntil now) (fun _ => rfl) hl
    rw [if_neg hrenew] at hmem
    exact Or.inl hmem

/-- A lock is given back after its task is over. -/
theorem fine_release_over (hw : LeaseInv w) {taskID : String} {runner : ℕ} (hover : Over taskID w) :
    Fine w (w.releaseLock taskID runner) := by
  obtain ⟨x, hx, htask, hclaimed, hnot⟩ := hover
  refine ⟨releaseLock_inv hw ?_, fun j => ⟨LeaseLater.of_tasks rfl rfl le_rfl, mine_of_tasks rfl, ?_⟩,
    starts_of_tasks rfl⟩
  · intro t ht hsame hrunning
    rw [hw.oneTaskID t ht x hx (hsame.trans htask.symm)] at hrunning
    exact absurd hrunning hnot
  · intro l hl _ _
    by_cases h : l.taskID = taskID ∧ l.lockedBy = runner
    · exact Or.inr ⟨x, hx, htask.trans h.1.symm, hclaimed⟩
    · exact Or.inl (mem_deleteWhere.mpr ⟨hl, decide_eq_false h⟩)

/-- A runner gives the lock of a task back that it has not started. -/
theorem release_own (hw : LeaseInv w) {taskID : String} {n : ℕ} {c : SystemCall}
    (hfree : ∀ t ∈ w.tasks.rows, t.taskID = taskID → t.status = .running → t.lockedBy ≠ some n) :
    LeaseInv (w.releaseLock taskID n) ∧ leaseProtocol.Guar (n, c) w (w.releaseLock taskID n) := by
  refine ⟨releaseLock_inv hw hfree, LeaseLater.of_tasks rfl rfl le_rfl, ?_, starts_of_tasks rfl⟩
  intro j hj
  refine ⟨LeaseLater.of_tasks rfl rfl le_rfl, mine_of_tasks rfl, ?_⟩
  intro l hl hby _
  refine Or.inl (mem_deleteWhere.mpr ⟨hl, decide_eq_false ?_⟩)
  rintro ⟨-, hrunner⟩
  exact hj (hby.symm.trans hrunner)

/-! ## The calls -/

variable {f : SystemWorld → α}

theorem keeps_look {g : α → SystemM β} {Q : β → SystemWorld → Prop}
    (h : ∀ v, LeaseRely κ.1 w v → LeaseInv v → (g (f v)).Keeps leaseProtocol κ Q v) :
    (look f >>= g).Keeps leaseProtocol κ Q w :=
  issue_bind fun v hv hvinv _ => ⟨hvinv, (Fine.refl hvinv).guar, h v hv hvinv⟩

/-- A statement that everybody can live with. -/
theorem keeps_fine {op : SystemOp} {g : α → SystemM β} {Q : β → SystemWorld → Prop}
    (h : ∀ v, LeaseRely κ.1 w v → LeaseInv v → Fine v (op.exec v) ∧ (g (f v)).Keeps leaseProtocol κ Q (op.exec v)) :
    (Prog.issue op f >>= g).Keeps leaseProtocol κ Q w := by
  refine issue_bind fun v hv hvinv _ => ?_
  obtain ⟨hfine, hnext⟩ := h v hv hvinv
  exact ⟨hfine.inv, hfine.guar, hnext⟩

theorem keeps_last {op : SystemOp} {Q : α → SystemWorld → Prop}
    (h : ∀ v, LeaseRely κ.1 w v → LeaseInv v → Fine v (op.exec v) ∧ ∀ x, LeaseRely κ.1 (op.exec v) x → Q (f v) x) :
    (Prog.issue op f).Keeps leaseProtocol κ Q w := by
  refine issue fun v hv hvinv _ => ?_
  obtain ⟨hfine, hlast⟩ := h v hv hvinv
  exact ⟨hfine.inv, hfine.guar, fun x hx _ => hlast x hx⟩

/-- What `A` says of a world, every later world says too, as far as the runner `n` is concerned. -/
def Stable (n : ℕ) (A : SystemWorld → Prop) : Prop := ∀ w v, LeaseRely n w v → A w → A v

theorem markExpired_keeps {A : SystemWorld → Prop} (hA : Stable κ.1 A) {taskID : String} (hw : A w) :
    (markSystemTaskLeaseExpired taskID).Keeps leaseProtocol κ (fun _ v => A v ∧ ∀ t, t ≤ w.now → QuietTask taskID t v)
      w := by
  unfold markSystemTaskLeaseExpired
  refine keeps_look fun a ha _ => ?_
  refine keeps_last fun v hv hvinv => ?_
  have hfine := fine_markExpired hvinv taskID a.now
  refine ⟨hfine, fun x hx => ⟨?_, ?_⟩⟩
  · exact hA _ _ hx (hA _ _ (hfine.rely _) (hA _ _ hv (hA _ _ ha hw)))
  · intro t ht
    have hquiet : QuietTask taskID t (v.markExpired taskID a.now) := by
      refine ⟨(ht.trans ha.later.now).trans hv.later.now, ?_⟩
      intro y hy htask hrunning
      have hkey : ∀ z : SystemTask, (z.expire a.now).id = z.id := fun _ => rfl
      obtain ⟨y', hy', rfl⟩ := of_mem_updateWhere hkey hy
      split at hrunning
      · cases hrunning
      · rename_i hnot
        rw [if_neg hnot] at htask
        exact absurd (decide_eq_true ⟨htask, hrunning⟩) hnot
    exact hquiet.mono hx.later

section Claim

variable {n id : ℕ} {c : SystemCall} {type taskID : String} {now : ℕ}

/-- What a claim knows after it has read its task as pending, at a time after `now`. -/
structure Claiming (n id : ℕ) (type taskID : String) (now : ℕ) (w : SystemWorld) : Prop where
  quiet : QuietType type now w
  known : Known taskID type w
  row : ∃ x ∈ w.tasks.rows, x.id = id ∧ x.taskID = taskID
  free : ∀ t ∈ w.tasks.rows, t.taskID = taskID → t.status = .running → t.lockedBy ≠ some n

theorem Claiming.stable : Stable n (Claiming n id type taskID now) := by
  intro w v hwv h
  refine ⟨h.quiet.mono hwv.later, h.known.mono hwv.later, ?_, ?_⟩
  · obtain ⟨x, hx, hid, htask⟩ := h.row
    obtain ⟨x', hx', hlater⟩ := hwv.later.rows x hx
    exact ⟨x', hx', hlater.id.trans hid, hlater.taskID.trans htask⟩
  · intro t' ht' htask hrunning hlocked
    obtain ⟨t, ht, htask', hrunning', hlocked'⟩ := hwv.mine t' ht' hrunning hlocked
    exact h.free t ht (htask'.trans htask) hrunning' hlocked'

/-- A pending task is the only active one of its type, so none of its type runs. -/
theorem claiming_of_pending (hw : LeaseInv w) {task : SystemTask} (h : w.pendingTask id type = some task)
    (hnow : now ≤ w.now) : Claiming n id type task.taskID now w := by
  obtain ⟨ht, hid, htype, hpending⟩ := pendingTask_eq_some h
  refine ⟨⟨hnow, ?_⟩, ⟨task, ht, rfl, htype⟩, ⟨task, ht, hid, rfl⟩, ?_⟩
  · intro x hx hxtype hrunning
    have hxkey := hw.active x hx (Or.inr hrunning)
    have hkey := hw.active task ht (Or.inl hpending)
    have hsame : x.activeKey = task.activeKey := by rw [hxkey, hkey, hxtype, htype]
    have heq := hw.oneActive x hx task ht hsame (by rw [hxkey]; exact some_ne_none _)
    rw [heq, hpending] at hrunning
    cases hrunning
  · intro x hx htask hrunning
    rw [hw.oneTaskID x hx task ht htask, hpending] at hrunning
    cases hrunning

/-- The lock that a claim has won: as long as it is good it is there, unless the task has been claimed. -/
def Held (lock : SystemTaskLock) (w : SystemWorld) : Prop :=
  w.now ≤ lock.lockedUntil → lock ∈ w.locks.rows ∨ ∃ t ∈ w.tasks.rows, t.taskID = lock.taskID ∧ t.status ≠ .pending

theorem Held.stable (lock : SystemTaskLock) : Stable lock.lockedBy (Held lock) := by
  intro w v hwv h hgood
  rcases h (hwv.later.now.trans hgood) with hl | ⟨t, ht, htask, hclaimed⟩
  · exact hwv.held lock hl rfl hgood
  · obtain ⟨t', ht', hlater⟩ := hwv.later.rows t ht
    exact Or.inr ⟨t', ht', hlater.taskID.trans htask, (hlater.claimed hclaimed).1⟩

theorem acquire_keeps {lockUntil : ℕ} (h : Claiming n id type taskID now w) :
    (acquireSystemTaskLock ⟨type, taskID, n, lockUntil, now⟩ now).Keeps leaseProtocol (n, c)
      (fun r v => Claiming n id type taskID now v ∧ (r ≠ none → Held ⟨type, taskID, n, lockUntil, now⟩ v)) w := by
  let lock : SystemTaskLock := ⟨type, taskID, n, lockUntil, now⟩
  have hheld : Stable n (Held lock) := Held.stable lock
  unfold acquireSystemTaskLock
  refine keeps_fine fun a ha hainv => ?_
  have hclaim := Claiming.stable w a ha h
  have hfine : Fine a (a.insertLock lock) := fine_insertLock hainv hclaim.known
  have hclaim' := Claiming.stable _ _ (hfine.rely n) hclaim
  refine ⟨hfine, ?_⟩
  cases hnone : a.lockOf type with
  | none =>
    have hmem : lock ∈ (a.insertLock lock).locks.rows := by
      unfold insertLock
      rw [hnone]
      exact mem_put.mpr (Or.inl rfl)
    refine Prog.keeps_pure fun v hv _ => ⟨Claiming.stable _ _ hv hclaim', fun _ => ?_⟩
    exact hheld _ _ hv fun _ => Or.inl hmem
  | some =>
    refine keeps_look fun b hb _ => ?_
    have hclaimb := Claiming.stable _ _ hb hclaim'
    cases b.lockOf type with
    | none => exact Prog.keeps_pure fun v hv _ => ⟨Claiming.stable _ _ hv hclaimb, fun hne => absurd rfl hne⟩
    | some =>
      simp only
      split
      · exact Prog.keeps_pure fun v hv _ => ⟨Claiming.stable _ _ hv hclaimb, fun hne => absurd rfl hne⟩
      · refine keeps_fine fun d hd hdinv => ?_
        have hclaimd := Claiming.stable _ _ hd hclaimb
        have hfine' : Fine d (d.takeLock lock now) := fine_takeLock hdinv hclaimd.known hclaimd.quiet
        refine ⟨hfine', Prog.keeps_pure fun v hv _ => ?_⟩
        refine ⟨Claiming.stable _ _ hv (Claiming.stable _ _ (hfine'.rely n) hclaimd), ?_⟩
        intro htaken
        cases hstale : d.staleLock type now with
        | none =>
          rw [hstale] at htaken
          exact absurd rfl htaken
        | some =>
          have hmem : lock ∈ (d.takeLock lock now).locks.rows := by
            unfold takeLock
            rw [hstale]
            exact mem_put.mpr (Or.inl rfl)
          exact hheld _ _ hv fun _ => Or.inl hmem

/-- The mark: the claim is in time, so its lock is there. -/
theorem start_keeps {task : SystemTask} {lockUntil : ℕ} (h : Claiming n id type task.taskID now w)
    (hheld : Held ⟨type, task.taskID, n, lockUntil, now⟩ w) :
    (startSystemTask n id type task now lockUntil).Keeps leaseProtocol (n, c) (fun _ _ => True) w := by
  let lock : SystemTaskLock := ⟨type, task.taskID, n, lockUntil, now⟩
  have hstable : Stable n (Held lock) := Held.stable lock
  unfold startSystemTask
  refine issue_bind fun v hv hvinv hintime => ?_
  have hclaim := Claiming.stable w v hv h
  cases hpend : v.pendingTask id type with
  | none =>
    have hsame : SystemOp.exec (.markRunning id type n now lockUntil) v = v := markRunning_none hpend
    refine ⟨?_, ?_, ?_⟩
    · show LeaseInv (SystemOp.exec (.markRunning id type n now lockUntil) v)
      rw [hsame]
      exact hvinv
    · show leaseProtocol.Guar (n, c) v (SystemOp.exec (.markRunning id type n now lockUntil) v)
      rw [hsame]
      exact (Fine.refl hvinv).guar
    · show (Prog.issue _ _).Keeps leaseProtocol (n, c) _ (SystemOp.exec (.markRunning id type n now lockUntil) v)
      rw [hsame]
      refine issue fun x hx hxinv _ => ?_
      obtain ⟨hinv, hguar⟩ := release_own (c := c) hxinv (Claiming.stable _ _ hx hclaim).free
      exact ⟨hinv, hguar, fun _ _ _ => trivial⟩
  | some t =>
    obtain ⟨ht, hid, htype, hpending⟩ := pendingTask_eq_some hpend
    obtain ⟨x, hx, hxid, hxtask⟩ := hclaim.row
    have htask : t.taskID = task.taskID := by
      rw [eq_of_key_eq ht hx (hid.trans hxid.symm)]
      exact hxtask
    have hgood : v.now ≤ lockUntil := hintime (by rw [hpend]; rfl)
    have hmem : lock ∈ v.locks.rows := by
      rcases hstable _ _ hv hheld hgood with hmem | ⟨y, hy, hytask, hclaimed⟩
      · exact hmem
      · -- the task of the lock is this one, and it is pending
        rw [hvinv.oneTaskID y hy t ht (hytask.trans htask.symm)] at hclaimed
        exact absurd hpending hclaimed
    have hlock : ∃ l ∈ v.locks.rows, l.type = t.type ∧ l.taskID = t.taskID ∧ l.lockedBy = n ∧
        v.now ≤ l.lockedUntil := ⟨lock, hmem, htype.symm, htask.symm, rfl, hgood⟩
    have hmark : Rewrites (some n) v (v.markRunning id type n now) := markRunning_rewrites hpend hlock
    refine ⟨hmark.inv hvinv, ?_, ?_⟩
    · exact ⟨hmark.later, fun j hj => hmark.rely fun h => hj (some.inj h).symm, hmark.starts⟩
    · exact keeps_last fun y _ hyinv => ⟨Fine.refl hyinv, fun _ _ => trivial⟩

theorem claim_keeps : (claimSystemTask n id type).Keeps leaseProtocol (n, c) (fun _ _ => True) w := by
  unfold claimSystemTask
  refine keeps_look fun a _ _ => ?_
  refine keeps_look fun b _ _ => ?_
  refine keeps_look fun d hd hdinv => ?_
  cases hpend : d.pendingTask id type with
  | none => exact Prog.keeps_pure fun _ _ _ => trivial
  | some task =>
    have hclaim : Claiming n id type task.taskID b.now d := claiming_of_pending hdinv hpend hd.later.now
    refine bind ((acquire_keeps hclaim).weaken ?_)
    rintro r e - ⟨hclaim', hheld⟩
    cases r with
    | none => exact Prog.keeps_pure fun _ _ _ => trivial
    | some =>
      have hheld := hheld (some_ne_none _)
      simp only
      split
      · have hboth : Stable n fun v => Claiming n id type task.taskID b.now v ∧
            Held ⟨type, task.taskID, n, a.systemTaskLockUntil, b.now⟩ v :=
          fun x y hxy hx => ⟨Claiming.stable x y hxy hx.1, Held.stable _ x y hxy hx.2⟩
        refine bind ((markExpired_keeps hboth ⟨hclaim', hheld⟩).weaken ?_)
        rintro _ y - ⟨⟨hy, hy'⟩, -⟩
        exact start_keeps hy hy'
      · exact start_keeps hclaim' hheld

end Claim

theorem expireLocks_keeps (now : ℕ) (locks : List SystemTaskLock) : ∀ w : SystemWorld, now ≤ w.now →
    (expireLocks now locks).Keeps leaseProtocol κ (fun _ _ => True) w := by
  induction locks with
  | nil => exact fun _ _ => Prog.keeps_pure fun _ _ _ => trivial
  | cons _ _ ih =>
    intro w hnow
    unfold expireLocks
    have hstable : Stable κ.1 fun v => now ≤ v.now := fun x y hxy hx => hx.trans hxy.later.now
    refine bind ((markExpired_keeps hstable hnow).weaken ?_)
    rintro _ a - ⟨hnow', hquiet⟩
    refine keeps_fine fun b hb hbinv => ⟨fine_deleteStale hbinv ((hquiet now hnow).mono hb.later), ?_⟩
    exact ih _ (hnow'.trans hb.later.now)

theorem expireStale_keeps : expireStaleSystemTaskLocks.Keeps leaseProtocol κ (fun _ _ => True) w := by
  unfold expireStaleSystemTaskLocks
  refine keeps_look fun a _ _ => ?_
  exact keeps_look fun b hb _ => expireLocks_keeps _ _ b hb.later.now

theorem runSteps_keeps {n : ℕ} {c : SystemCall} (steps : List RunnerStep) : ∀ w : SystemWorld,
    (runSteps n steps).Keeps leaseProtocol (n, c) (fun _ _ => True) w := by
  induction steps with
  | nil => exact fun _ => Prog.keeps_pure fun _ _ _ => trivial
  | cons step _ ih =>
    intro w
    cases step with
    | claim => exact bind (claim_keeps.weaken fun _ v _ _ => ih v)
    | expireStale => exact bind (expireStale_keeps.weaken fun _ v _ _ => ih v)

theorem updateSystemTaskState_keeps (taskID : String) (runner : ℕ) (state : String) :
    (updateSystemTaskState taskID runner state).Keeps leaseProtocol κ (fun _ _ => True) w := by
  unfold updateSystemTaskState
  refine keeps_look fun a _ _ => ?_
  exact keeps_last fun b _ hbinv => ⟨fine_updateState hbinv taskID runner a.now state, fun _ _ => trivial⟩

theorem finishSystemTask_keeps (taskID : String) (runner : ℕ) (outcome : SystemTaskOutcome) (result error : String) :
    (finishSystemTask taskID runner outcome result error).Keeps leaseProtocol κ (fun _ _ => True) w := by
  unfold finishSystemTask
  refine keeps_look fun a _ _ => ?_
  refine keeps_fine fun b _ hbinv => ⟨fine_finish hbinv taskID runner a.now outcome result error, ?_⟩
  split
  · rename_i hfinished
    -- the row that was written is over
    obtain ⟨t, ht, hwritable⟩ := any_eq_true.mp hfinished
    have hmem : (if b.writable taskID runner a.now t then t.finish outcome result error a.now else t) ∈
        (b.finish taskID runner a.now outcome result error).tasks.rows :=
      mem_updateWhere_of_mem _ (·.finish outcome result error a.now) (fun _ => rfl) ht
    rw [if_pos hwritable] at hmem
    have hover : Over taskID (b.finish taskID runner a.now outcome result error) := by
      refine ⟨_, hmem, (writable_iff.mp hwritable).1, ?_, ?_⟩
      · cases outcome <;> exact fun h => by cases h
      · cases outcome <;> exact fun h => by cases h
    exact keeps_last fun x hx hxinv => ⟨fine_release_over hxinv (hover.mono hx.later), fun _ _ => trivial⟩
  · exact Prog.keeps_pure fun _ _ _ => trivial

/-- A heartbeat is started for a task that was claimed. -/
def SystemCall.May : SystemCall → SystemWorld → Prop
  | .renew taskID _, w => ∃ t ∈ w.tasks.rows, t.taskID = taskID ∧ t.status ≠ .pending
  | _, _ => True

instance : ∀ (c : SystemCall) (w : SystemWorld), Decidable (c.May w)
  | .renew taskID _, w => inferInstanceAs (Decidable (∃ t ∈ w.tasks.rows, t.taskID = taskID ∧ t.status ≠ .pending))
  | .create _ _ _ _, _ | .runner _, _ | .updateState _ _ _, _ | .finish _ _ _ _ _, _ | .wait _, _ => isTrue trivial

variable {taskID : String}

theorem renewSystemTaskLock_keeps (runner : ℕ) (hw : LeaseInv w)
    (hmay : ∃ t ∈ w.tasks.rows, t.taskID = taskID ∧ t.status ≠ .pending) :
    (renewSystemTaskLock taskID runner).Keeps leaseProtocol κ (fun _ _ => True) w := by
  obtain ⟨t, ht, htask, hclaimed⟩ := hmay
  unfold renewSystemTaskLock
  refine keeps_look fun a ha _ => ?_
  refine keeps_look fun b hb _ => ?_
  have hby : ClaimedBy taskID a.systemTaskLockUntil w := by
    refine ⟨t, ht, htask, hclaimed, (hw.marked t.id).trans ?_⟩
    exact ha.later.now.trans (Nat.le_add_right _ _)
  refine keeps_last fun d hd hdinv => ⟨?_, fun _ _ => trivial⟩
  exact fine_renewLock hdinv (((hby.mono ha.later).mono hb.later).mono hd.later)

theorem SystemCall.body_keeps (n : ℕ) (c : SystemCall) (hw : LeaseInv w) (hmay : c.May w) :
    (SystemCall.body n c).Keeps leaseProtocol (n, c) (fun _ _ => True) w := by
  cases c with
  | create type taskID payload state =>
    exact keeps_last fun v _ hvinv => ⟨fine_create hvinv type taskID payload state, fun _ _ => trivial⟩
  | runner steps =>
    exact bind ((runSteps_keeps steps w).weaken fun _ v _ _ => Prog.keeps_pure fun _ _ _ => trivial)
  | updateState taskID lockedBy state => exact updateSystemTaskState_keeps taskID lockedBy state
  | renew _ lockedBy => exact renewSystemTaskLock_keeps lockedBy hw hmay
  | finish taskID lockedBy outcome result error => exact finishSystemTask_keeps taskID lockedBy outcome result error
  | wait seconds => exact keeps_last fun v _ hvinv => ⟨fine_wait hvinv seconds, fun _ _ => trivial⟩

/-! ## Every run -/

/-- The runner that the lock of the task names. -/
def SystemWorld.owner (w : SystemWorld) (taskID : String) : Option ℕ :=
  (w.locks.rows.find? fun l => l.taskID = taskID).map (·.lockedBy)

/-- The runner on whose behalf a statement is issued. -/
def SystemOp.actor : SystemOp → Option ℕ
  | .markRunning _ _ runner _ _ => some runner
  | .updateState _ runner _ _ => some runner
  | .finish _ runner _ _ _ _ => some runner
  | _ => none

/-- The statement is the runner's, and it changes the row of the task. -/
def SystemOp.Writes (op : SystemOp) (w : SystemWorld) (taskID : String) (runner : ℕ) : Prop :=
  op.actor = some runner ∧ ∃ t ∈ w.tasks.rows, t.taskID = taskID ∧ (op.exec w).tasks.get? t.id ≠ some t

instance (op : SystemOp) (w : SystemWorld) (taskID : String) (runner : ℕ) : Decidable (op.Writes w taskID runner) :=
  inferInstanceAs (Decidable (_ ∧ _))

/-- Every running task has its lock row. -/
def NoOrphan (w : SystemWorld) : Prop :=
  ∀ t ∈ w.tasks.rows, t.status = .running → ∃ l ∈ w.locks.rows, l.type = t.type ∧ l.taskID = t.taskID

instance (w : SystemWorld) : Decidable (NoOrphan w) :=
  inferInstanceAs (Decidable (∀ t ∈ w.tasks.rows, _))

/-- A task has one lock at most. -/
theorem owner_of_mem (hw : LeaseInv w) {l : SystemTaskLock} (hl : l ∈ w.locks.rows) :
    w.owner l.taskID = some l.lockedBy := by
  unfold owner
  cases hfind : w.locks.rows.find? fun x => x.taskID = l.taskID with
  | none => exact absurd (decide_eq_true rfl) (find?_eq_none.mp hfind l hl)
  | some x =>
    have hx := mem_of_find?_eq_some hfind
    have hp := find?_some hfind
    have htask : x.taskID = l.taskID := of_decide_eq_true hp
    obtain ⟨t, ht, ht', httype⟩ := hw.typed x hx
    obtain ⟨t', ht2, ht2', httype'⟩ := hw.typed l hl
    have hsame : t = t' := hw.oneTaskID t ht t' ht2 (by rw [ht', ht2', htask])
    have hkey : x.type = l.type := by rw [← httype, ← httype', hsame]
    rw [eq_of_key_eq hx hl hkey]
    rfl

theorem owner_of_holds (hw : LeaseInv w) {runner now : ℕ} (h : w.holds taskID runner now) :
    w.owner taskID = some runner := by
  obtain ⟨l, hl, hp⟩ := any_eq_true.mp h
  obtain ⟨rfl, rfl, -⟩ := of_decide_eq_true hp
  exact owner_of_mem hw hl

/-- A row that a conditional update changes is one that the condition holds of. -/
theorem updated_of_ne {p : SystemTask → Bool} {f : SystemTask → SystemTask} (hf : ∀ t, (f t).id = t.id) {t : SystemTask}
    (ht : t ∈ w.tasks.rows) (h : (w.tasks.updateWhere p f hf).get? t.id ≠ some t) : p t := by
  by_contra hp
  have hmem := mem_updateWhere_of_mem p f hf ht
  rw [if_neg hp] at hmem
  exact h (get?_of_mem hmem)

/-- **Who writes a task owns it.** -/
theorem writes_owner (hw : LeaseInv w) {op : SystemOp} {runner : ℕ}
    (hstarts : Starts w (op.exec w)) (h : op.Writes w taskID runner) : w.owner taskID = some runner := by
  obtain ⟨hactor, t, ht, rfl, hne⟩ := h
  cases op with
  | markRunning id type n now =>
    obtain rfl : n = runner := some.inj hactor
    have hne : (w.markRunning id type n now).tasks.get? t.id ≠ some t := hne
    cases hpend : w.pendingTask id type with
    | none =>
      rw [markRunning_none hpend] at hne
      exact absurd (get?_of_mem ht) hne
    | some x =>
      obtain ⟨hx, -, -, hpending⟩ := pendingTask_eq_some hpend
      have hid : t.id = x.id := by
        by_contra hid
        exact hne (get?_of_mem ((markRunning_mem hpend).mpr (Or.inr ⟨ht, hid⟩)))
      obtain rfl := eq_of_key_eq ht hx hid
      obtain ⟨l, hl, htask, hby⟩ := hstarts t ht (t.run n now) ((markRunning_mem hpend).mpr (Or.inl rfl)) rfl hpending rfl
      rw [← htask, owner_of_mem hw hl]
      exact hby.symm
  | updateState _ n now state =>
    obtain rfl : n = runner := some.inj hactor
    have hkey : ∀ x : SystemTask, (x.report state now).id = x.id := fun _ => rfl
    obtain ⟨rfl, -, -, hholds⟩ := writable_iff.mp (updated_of_ne hkey ht hne)
    exact owner_of_holds hw hholds
  | finish _ n now outcome result error =>
    obtain rfl : n = runner := some.inj hactor
    have hkey : ∀ x : SystemTask, (x.finish outcome result error now).id = x.id := fun _ => rfl
    obtain ⟨rfl, -, -, hholds⟩ := writable_iff.mp (updated_of_ne hkey ht hne)
    exact owner_of_holds hw hholds
  | _ => cases hactor

theorem LeaseInv.blank (now : ℕ) : LeaseInv (blank now) where
  locked := fun _ h => absurd h not_mem_nil
  active := fun _ h => absurd h not_mem_nil
  oneActive := fun _ h => absurd h not_mem_nil
  oneTaskID := fun _ h => absurd h not_mem_nil
  ids := fun _ h => absurd h not_mem_nil
  marked := fun _ => Nat.zero_le _
  typed := fun _ h => absurd h not_mem_nil

/-- A run that meets the condition so far. -/
def TimelyRun (now : ℕ) (events : List (Event SystemCall)) : Prop :=
  Sys.Admits SystemOp.exec SystemCall.body SystemCall.May InTime ⟨blank now, []⟩ events

instance (now : ℕ) (events : List (Event SystemCall)) : Decidable (TimelyRun now events) :=
  inferInstanceAs (Decidable (Sys.Admits _ _ _ _ _ _))

theorem timely_good {now : ℕ} {events : List (Event SystemCall)} (h : TimelyRun now events) :
    Sys.Good leaseProtocol (blank now) (fun _ _ _ _ _ => True) (SystemSys.run ⟨blank now, []⟩ events) := by
  have hbody : ∀ n c v, leaseProtocol.Inv v → leaseProtocol.Rely (n, c) (blank now) v → c.May v →
      (SystemCall.body n c).Keeps leaseProtocol (n, c) (fun _ _ => True) v :=
    fun n c v hv _ hmay => c.body_keeps n hv hmay
  exact (Sys.run_keeps hbody events (Sys.good_init (LeaseInv.blank now)) h).1

/-- In a state of a timely run, a statement in time is issued by the owner of the task it writes. -/
theorem timely_owner {now : ℕ} {events : List (Event SystemCall)} (h : TimelyRun now events) {j : ℕ} {op : SystemOp}
    {runner : ℕ}
    (hnext : (SystemSys.run ⟨blank now, []⟩ events).next? j = some op)
    (hintime : InTime op (SystemSys.run ⟨blank now, []⟩ events).world)
    (hwrites : op.Writes (SystemSys.run ⟨blank now, []⟩ events).world taskID runner) :
    (SystemSys.run ⟨blank now, []⟩ events).world.owner taskID = some runner := by
  have hgood := timely_good h
  generalize SystemSys.run ⟨blank now, []⟩ events = s at *
  obtain ⟨c, since, next, hj⟩ := Sys.next?_eq_some hnext
  obtain ⟨-, hguar, -⟩ := hgood.keeps j _ hj s.world (LeaseRely.refl j s.world) hgood.inv hintime
  exact writes_owner hgood.inv hguar.2.2 hwrites

/-- **The lease is safe where claims are in time.**  In every state of a run in which no claim marks its task running
after its lease has run out: a running task has its lock row; whoever changes a task, the lock names them; and so, as
long as the owner of a task is the same, one runner changes it. -/
theorem lease_safety (now : ℕ) (past future : List (Event SystemCall)) (hrun : TimelyRun now (past ++ future)) :
    let s := SystemSys.run ⟨blank now, []⟩ past
    let t := s.run future
    NoOrphan t.world ∧
    (∀ j op taskID runner, t.next? j = some op → InTime op t.world → op.Writes t.world taskID runner →
      t.world.owner taskID = some runner) ∧
    ∀ i j op op' taskID runner runner', s.next? i = some op → InTime op s.world → op.Writes s.world taskID runner →
      t.next? j = some op' → InTime op' t.world → op'.Writes t.world taskID runner' →
      s.world.owner taskID = t.world.owner taskID → runner = runner' := by
  intro s t
  have hpast : TimelyRun now past := ((Sys.admits_append _ _ _ _ past future _).mp hrun).1
  have ht : t = SystemSys.run ⟨blank now, []⟩ (past ++ future) := (Sys.run_append _ _ _ past future).symm
  have howner : ∀ j op taskID runner, t.next? j = some op → InTime op t.world → op.Writes t.world taskID runner →
      t.world.owner taskID = some runner := by
    rw [ht]
    exact fun j op taskID runner hnext hintime hwrites => timely_owner hrun hnext hintime hwrites
  refine ⟨?_, howner, ?_⟩
  · intro x hx hrunning
    rw [ht] at hx ⊢
    obtain ⟨l, hl, htype, htask, -⟩ := (timely_good hrun).inv.locked x hx hrunning
    exact ⟨l, hl, htype, htask⟩
  · intro i j op op' taskID runner runner' hnext hintime hwrites hnext' hintime' hwrites' hsame
    have hs := timely_owner hpast hnext hintime hwrites
    have ht' := howner j op' taskID runner' hnext' hintime' hwrites'
    have hsame : (SystemSys.run ⟨blank now, []⟩ past).world.owner taskID = t.world.owner taskID := hsame
    rw [hs, ht'] at hsame
    exact some.inj hsame

open Event in
/-- A task is created, a runner claims it, its handler reports and a heartbeat renews the lock. -/
def workingRunner : List (Event SystemCall) :=
  flatten [begin (.create "model_update" "systask_a" "" ""), steps 0 1,
    begin (.runner [.claim 1 "model_update"]), steps 1 6, begin (.wait 20), steps 2 1,
    begin (.renew "systask_a" 1), steps 3 3, begin (.updateState "systask_a" 1 "half"), steps 4 1]

open Event in
def handlerFinishes : List (Event SystemCall) :=
  flatten [steps 4 1, begin (.finish "systask_a" 1 .succeeded "done" ""), steps 5 1]

/-- The handler of the runner that owns the task has its report and its result to write. -/
theorem lease_safety_workingRunner : let s := SystemSys.run ⟨blank 1000, []⟩ workingRunner
    let t := s.run handlerFinishes
    (NoOrphan t.world ∧ t.world.tasks.rows.map (·.status) = [.running]) ∧ t.world.owner "systask_a" = some 1 ∧
      s.world.owner "systask_a" = t.world.owner "systask_a" := by
  have hrun : TimelyRun 1000 (workingRunner ++ handlerFinishes) := by decide +kernel
  obtain ⟨horphan, howner, -⟩ := lease_safety 1000 workingRunner handlerFinishes hrun
  refine ⟨⟨horphan, by decide +kernel⟩, ?_, by decide +kernel⟩
  exact howner 5 (.finish "systask_a" 1 1020 .succeeded "done" "") "systask_a" 1 (by decide +kernel) trivial
    (by decide +kernel)

open Event in
/-- A runner wins the lock and stalls past its lease, another one clears stale locks away, and the first goes on. -/
def stalledClaim : List (Event SystemCall) :=
  flatten [begin (.create "model_update" "systask_a" "" ""), steps 0 1,
    begin (.runner [.claim 1 "model_update"]), steps 1 4, begin (.wait 61), steps 2 1,
    begin (.runner [.expireStale]), steps 3 5, steps 1 1]

/-- The task runs and has no lock: nothing will ever expire it, and its type is blocked. -/
theorem stalled_claim_orphans : ¬ ∀ now events,
    Sys.Admits SystemOp.exec SystemCall.body SystemCall.May (fun _ _ => True) ⟨blank now, []⟩ events →
      NoOrphan (SystemSys.run ⟨blank now, []⟩ events).world := by
  intro h
  have hadmits : Sys.Admits SystemOp.exec SystemCall.body SystemCall.May (fun _ _ => True)
      ⟨blank 1000, []⟩ stalledClaim := by decide +kernel
  have horphan : ¬ NoOrphan (SystemSys.run ⟨blank 1000, []⟩ stalledClaim).world := by decide +kernel
  exact horphan (h 1000 stalledClaim hadmits)

end NovaMaas.Task
