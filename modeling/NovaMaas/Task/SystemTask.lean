/-
  System tasks: a row per task, a lock row per task TYPE, and the runners that claim, work on and finish tasks
  (model/system_task.go, and the runner of service/system_task.go).

  The lock is a lease.  Winning it and marking the task running are two statements, and so are marking a task
  whose lease has expired and deleting its lock; a runner may stall between any two of them.  A runner process is
  ONE call here: its claims come one after the other, and its number is its runner id (the source draws a random
  one per process).  The heartbeat and the handler of a claimed task are calls of their own, on behalf of a runner.

  Clock and columns count seconds.  `marked` is not a column: it notes when a task was marked running.
-/
import NovaMaas.Lib.Interleave
import NovaMaas.Lib.Table

namespace NovaMaas.Task

open Interleave Prog

/-! ## The rows -/

inductive SystemTaskStatus where
  | pending
  | running
  | succeeded
  | failed
  deriving DecidableEq

structure SystemTask where
  id        : ℕ
  taskID    : String
  type      : String
  status    : SystemTaskStatus
  activeKey : Option String
  payload   : String
  state     : String
  result    : String
  error     : String
  lockedBy  : Option ℕ
  createdAt : ℕ
  updatedAt : ℕ
  deriving DecidableEq

structure SystemTaskLock where
  type        : String
  taskID      : String
  lockedBy    : ℕ
  lockedUntil : ℕ
  updatedAt   : ℕ
  deriving DecidableEq

abbrev SystemTaskTable := Table (fun t : SystemTask => t.id)

abbrev SystemTaskLockTable := Table (fun l : SystemTaskLock => l.type)

structure SystemWorld where
  now    : ℕ
  tasks  : SystemTaskTable
  locks  : SystemTaskLockTable
  /-- The id the next task gets. -/
  nextID : ℕ
  marked : ℕ → ℕ

/-- How a handler ends a task. -/
inductive SystemTaskOutcome where
  | succeeded
  | failed
  deriving DecidableEq

def SystemTaskOutcome.status : SystemTaskOutcome → SystemTaskStatus
  | .succeeded => .succeeded
  | .failed => .failed

def systemTaskLockTTL : ℕ := 60

def SystemTaskLock.renew (l : SystemTaskLock) (lockUntil now : ℕ) : SystemTaskLock :=
  { l with lockedUntil := lockUntil, updatedAt := now }

namespace SystemTask

def run (t : SystemTask) (runner now : ℕ) : SystemTask :=
  { t with status := .running, lockedBy := some runner, updatedAt := now }

def expire (t : SystemTask) (now : ℕ) : SystemTask :=
  { t with status := .failed, activeKey := none, error := "task lease expired", updatedAt := now }

def report (t : SystemTask) (state : String) (now : ℕ) : SystemTask := { t with state, updatedAt := now }

def finish (t : SystemTask) (outcome : SystemTaskOutcome) (result error : String) (now : ℕ) : SystemTask :=
  { t with status := outcome.status, activeKey := none, result, error, updatedAt := now }

end SystemTask

namespace SystemWorld

variable (w : SystemWorld)

def lockOf (type : String) : Option SystemTaskLock := w.locks.get? type

/-- The row a claim reads, and marks running. -/
def pendingTask (id : ℕ) (type : String) : Option SystemTask :=
  (w.tasks.get? id).filter fun t => t.type = type ∧ t.status = .pending

/-- The condition that a statement puts on the lock of a task. -/
def holds (taskID : String) (runner now : ℕ) : Bool :=
  w.locks.rows.any fun l => l.taskID = taskID ∧ l.lockedBy = runner ∧ now ≤ l.lockedUntil

/-- The rows that a runner may write: the task runs under the runner, and the lock says so. -/
def writable (taskID : String) (runner now : ℕ) (t : SystemTask) : Bool :=
  t.taskID = taskID && t.status = .running && t.lockedBy = some runner && w.holds taskID runner now

/-- `systemTaskLockUntil()`. -/
def systemTaskLockUntil : ℕ := w.now + systemTaskLockTTL

/-- The locks that `ExpireStaleSystemTaskLocks` finds. -/
def staleLocks (now : ℕ) : List SystemTaskLock := w.locks.rows.filter fun l => l.lockedUntil < now

end SystemWorld

/-! ## Statements -/

/-- `lease`, of the claim that marks a task running, is not part of the statement: it is the `lockUntil` of the
lock the claim has won. -/
inductive SystemOp where
  | read
  | wait (seconds : ℕ)
  | create (type taskID payload state : String)
  | insertLock (lock : SystemTaskLock)
  | takeLock (lock : SystemTaskLock) (now : ℕ)
  | markExpired (taskID : String) (now : ℕ)
  | markRunning (id : ℕ) (type : String) (runner now lease : ℕ)
  | updateState (taskID : String) (runner now : ℕ) (state : String)
  | renewLock (taskID : String) (runner now lockUntil : ℕ)
  | deleteStale (lock : SystemTaskLock) (now : ℕ)
  | releaseLock (taskID : String) (runner : ℕ)
  | finish (taskID : String) (runner now : ℕ) (outcome : SystemTaskOutcome) (result error : String)
  deriving DecidableEq

namespace SystemWorld

variable (w : SystemWorld)

/-- The unique indexes on `task_id` and `active_key`. -/
def duplicate (type taskID : String) : Bool :=
  w.tasks.rows.any fun t => t.taskID = taskID ∨ t.activeKey = some type

def newTask (type taskID payload state : String) : SystemTask where
  id := w.nextID
  taskID := taskID
  type := type
  status := .pending
  activeKey := some type
  payload := payload
  state := state
  result := ""
  error := ""
  lockedBy := none
  createdAt := w.now
  updatedAt := w.now

def create (type taskID payload state : String) : SystemWorld :=
  if w.duplicate type taskID then w
  else { w with tasks := w.tasks.put (w.newTask type taskID payload state), nextID := w.nextID + 1 }

def insertLock (lock : SystemTaskLock) : SystemWorld :=
  match w.lockOf lock.type with
  | some _ => w
  | none => { w with locks := w.locks.put lock }

/-- The lock of the type, if it is stale. -/
def staleLock (type : String) (now : ℕ) : Option SystemTaskLock :=
  (w.lockOf type).filter fun l => l.lockedUntil < now

def takeLock (lock : SystemTaskLock) (now : ℕ) : SystemWorld :=
  match w.staleLock lock.type now with
  | none => w
  | some _ => { w with locks := w.locks.put lock }

def markExpired (taskID : String) (now : ℕ) : SystemWorld :=
  { w with tasks := w.tasks.updateWhere (fun t => t.taskID = taskID ∧ t.status = .running) (·.expire now) fun _ => rfl }

def markRunning (id : ℕ) (type : String) (runner now : ℕ) : SystemWorld :=
  match w.pendingTask id type with
  | none => w
  | some t => { w with tasks := w.tasks.put (t.run runner now), marked := Function.update w.marked id w.now }

def updateState (taskID : String) (runner now : ℕ) (state : String) : SystemWorld :=
  { w with tasks := w.tasks.updateWhere (w.writable taskID runner now) (·.report state now) fun _ => rfl }

def renewable (taskID : String) (runner now : ℕ) (l : SystemTaskLock) : Bool :=
  l.taskID = taskID && l.lockedBy = runner && now ≤ l.lockedUntil

def renewLock (taskID : String) (runner now lockUntil : ℕ) : SystemWorld :=
  { w with locks := w.locks.updateWhere (renewable taskID runner now) (·.renew lockUntil now) fun _ => rfl }

def deleteStale (lock : SystemTaskLock) (now : ℕ) : SystemWorld :=
  { w with locks := w.locks.deleteWhere fun l =>
      l.type = lock.type ∧ l.taskID = lock.taskID ∧ l.lockedBy = lock.lockedBy ∧ l.lockedUntil < now }

def releaseLock (taskID : String) (runner : ℕ) : SystemWorld :=
  { w with locks := w.locks.deleteWhere fun l => l.taskID = taskID ∧ l.lockedBy = runner }

def finish (taskID : String) (runner now : ℕ) (outcome : SystemTaskOutcome) (result error : String) : SystemWorld :=
  { w with tasks := w.tasks.updateWhere (w.writable taskID runner now) (·.finish outcome result error now) fun _ => rfl }

end SystemWorld

def SystemOp.exec : SystemOp → SystemWorld → SystemWorld
  | .read, w => w
  | .wait seconds, w => { w with now := w.now + seconds }
  | .create type taskID payload state, w => w.create type taskID payload state
  | .insertLock lock, w => w.insertLock lock
  | .takeLock lock now, w => w.takeLock lock now
  | .markExpired taskID now, w => w.markExpired taskID now
  | .markRunning id type runner now _, w => w.markRunning id type runner now
  | .updateState taskID runner now state, w => w.updateState taskID runner now state
  | .renewLock taskID runner now lockUntil, w => w.renewLock taskID runner now lockUntil
  | .deleteStale lock now, w => w.deleteStale lock now
  | .releaseLock taskID runner, w => w.releaseLock taskID runner
  | .finish taskID runner now outcome result error, w => w.finish taskID runner now outcome result error

/-! ## Calls -/

abbrev SystemM := Prog SystemOp SystemWorld

def look {α : Type} (f : SystemWorld → α) : SystemM α := issue .read f

def markSystemTaskLeaseExpired (taskID : String) : SystemM Unit := do
  let now ← look (·.now)
  issue (.markExpired taskID now) fun _ => ()

/-- `acquireSystemTaskLock`: the task that had the lock before, `""` if there was none. -/
def acquireSystemTaskLock (lock : SystemTaskLock) (now : ℕ) : SystemM (Option String) := do
  let created ← issue (.insertLock lock) fun w => (w.lockOf lock.type).isNone
  if created then return some ""
  else
    match ← look fun w => w.lockOf lock.type with
    | none => return none
    | some existing =>
      if now ≤ existing.lockedUntil then return none
      else
        let taken ← issue (.takeLock lock now) fun w => (w.staleLock lock.type now).isSome
        return if taken then some existing.taskID else none

/-- The second half of `ClaimSystemTask`, with the lock in hand. -/
def startSystemTask (runner id : ℕ) (type : String) (task : SystemTask) (now lockUntil : ℕ) :
    SystemM (Option SystemTask) := do
  let marked ← issue (.markRunning id type runner now lockUntil) fun w => (w.pendingTask id type).isSome
  if marked then look fun w => w.tasks.get? id
  else
    issue (.releaseLock task.taskID runner) fun _ => none

def claimSystemTask (runner id : ℕ) (type : String) : SystemM (Option SystemTask) := do
  let lockUntil ← look (·.systemTaskLockUntil)
  let now ← look (·.now)
  match ← look fun w => w.pendingTask id type with
  | none => return none
  | some task =>
    match ← acquireSystemTaskLock ⟨type, task.taskID, runner, lockUntil, now⟩ now with
    | none => return none
    | some expiredTaskID =>
      if expiredTaskID ≠ "" ∧ expiredTaskID ≠ task.taskID then
        markSystemTaskLeaseExpired expiredTaskID
        startSystemTask runner id type task now lockUntil
      else startSystemTask runner id type task now lockUntil

def expireLocks (now : ℕ) : List SystemTaskLock → SystemM Unit
  | [] => return ()
  | lock :: rest => do
    markSystemTaskLeaseExpired lock.taskID
    issue (.deleteStale lock now) fun _ => ()
    expireLocks now rest

def expireStaleSystemTaskLocks : SystemM Unit := do
  let now ← look (·.now)
  let locks ← look fun w => w.staleLocks now
  expireLocks now locks

/-- What a runner does next. -/
inductive RunnerStep where
  | claim (id : ℕ) (type : String)
  | expireStale

/-- A runner process: whatever its passes make it do, one thing after the other. -/
def runSteps (runner : ℕ) : List RunnerStep → SystemM Unit
  | [] => return ()
  | .claim id type :: rest => do
    let _ ← claimSystemTask runner id type
    runSteps runner rest
  | .expireStale :: rest => do
    expireStaleSystemTaskLocks
    runSteps runner rest

/-- `UpdateSystemTaskState`; `false` is `ErrSystemTaskLockLost`. -/
def updateSystemTaskState (taskID : String) (runner : ℕ) (state : String) : SystemM Bool := do
  let now ← look (·.now)
  issue (.updateState taskID runner now state) fun w => w.tasks.rows.any (w.writable taskID runner now)

/-- `RenewSystemTaskLock`, with the deadline its caller computes first. -/
def renewSystemTaskLock (taskID : String) (runner : ℕ) : SystemM Bool := do
  let lockUntil ← look (·.systemTaskLockUntil)
  let now ← look (·.now)
  issue (.renewLock taskID runner now lockUntil) fun w =>
    w.locks.rows.any (SystemWorld.renewable taskID runner now)

def finishSystemTask (taskID : String) (runner : ℕ) (outcome : SystemTaskOutcome) (result error : String) :
    SystemM Bool := do
  let now ← look (·.now)
  let finished ← issue (.finish taskID runner now outcome result error) fun w =>
    w.tasks.rows.any (w.writable taskID runner now)
  if finished then issue (.releaseLock taskID runner) fun _ => true
  else return false

/-! ## The system -/

inductive SystemCall where
  | create (type taskID payload state : String)
  | runner (steps : List RunnerStep)
  | updateState (taskID : String) (lockedBy : ℕ) (state : String)
  | renew (taskID : String) (lockedBy : ℕ)
  | finish (taskID : String) (lockedBy : ℕ) (outcome : SystemTaskOutcome) (result error : String)
  | wait (seconds : ℕ)

/-- The answer tells whether the call has written what it was to write. -/
def SystemCall.body (n : ℕ) : SystemCall → SystemM Bool
  | .create type taskID payload state =>
    issue (.create type taskID payload state) fun w => !w.duplicate type taskID
  | .runner steps => do
    runSteps n steps
    return true
  | .updateState taskID lockedBy state => updateSystemTaskState taskID lockedBy state
  | .renew taskID lockedBy => renewSystemTaskLock taskID lockedBy
  | .finish taskID lockedBy outcome result error => finishSystemTask taskID lockedBy outcome result error
  | .wait seconds => issue (.wait seconds) fun _ => true

abbrev SystemSys := Sys SystemCall SystemOp SystemWorld Bool

def SystemSys.run (s : SystemSys) (events : List (Event SystemCall)) : SystemSys :=
  Sys.run SystemOp.exec SystemCall.body s events

/-- No tasks yet. -/
def SystemWorld.blank (now : ℕ) : SystemWorld := ⟨now, Table.empty, Table.empty, 1, fun _ => 0⟩

end NovaMaas.Task
