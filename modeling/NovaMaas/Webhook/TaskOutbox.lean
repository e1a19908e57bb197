/-
  The status of tasks and the events that tell it (model/task.go, model/task_webhook.go, model/webhook_event.go).

  A task has a state version.  Whoever changes its status raises the version and queues an event, in one transaction with
  the change.  There are three writers: `insert`, `updateWithStatus` (which writes a whole row from memory, as old as
  it may be) and `taskBulkUpdateByID`.  `Task.Update` reads the status first and is then an `updateWithStatus`.

  Transactions are atomic and interleave in any order; between the read and the write of a `Task.Update` any others may
  run.  The endpoints, and whether the insert of an event fails, are input of each call.  The polled response of an event
  is left out.
-/
import NovaMaas.Lib.Table

namespace NovaMaas.Webhook

open Txn

/-! ## Rows -/

/-- `TaskStatus`. -/
inductive TaskStatus where
  | notStart | submitted | queued | inProgress | failure | success | unknown
  deriving DecidableEq

/-- `Properties`. -/
structure TaskProperties where
  requestBody : String
  input       : String
  deriving DecidableEq

/-- `Task`. -/
structure Task where
  id                   : ℕ
  webhookVersion       : ℤ
  taskId               : String
  platform             : String
  userId               : ℤ
  status               : TaskStatus
  progress             : String
  failReason           : String
  properties           : TaskProperties
  requestBodyAvailable : Bool
  deriving DecidableEq

/-- `AssetWebhookEndpoint`. -/
structure WebhookEndpoint where
  id          : ℕ
  publicId    : String
  ownerUserId : ℤ
  enabled     : Bool
  url         : String
  eventTypes  : List String

/-- `taskWebhookData`, with its event: the row it is about, the owner, and the endpoints it is to be delivered to. -/
structure TaskEvent where
  task         : ℕ
  ownerUserId  : ℤ
  taskId       : String
  platform     : String
  status       : TaskStatus
  stateVersion : ℤ
  progress     : String
  failReason   : String
  deliveries   : List ℕ

structure Store where
  tasks  : Table Task.id
  events : List TaskEvent

/-- What a call finds besides the tasks and the outbox. -/
structure CallEnv where
  endpoints   : List WebhookEndpoint
  /-- The insert of an event of the task fails. -/
  insertFails : ℕ → Bool
  /-- The database counts the rows that an update has matched, and not only those it has changed. -/
  countsMatched : Bool

/-! ## Events -/

def webhookEventTaskStatusChanged : String := "task.status_changed"
def systemTaskWebhookEndpointId : String := "we_system_tasks"

/-- `MediaTasksEnabled` of `GetWebhookFeatureAvailability`: the last endpoint of the name decides. -/
def mediaTasksEnabled (endpoints : List WebhookEndpoint) : Bool :=
  ((endpoints.filter fun e => e.ownerUserId = 0 && e.publicId = systemTaskWebhookEndpointId).getLast?.map
    WebhookEndpoint.enabled).getD false

/-- The enabled endpoints of the owner and of the system that have subscribed to the event. -/
def subscribers (endpoints : List WebhookEndpoint) (ownerUserId : ℤ) : List WebhookEndpoint :=
  endpoints.filter fun e =>
    e.enabled && (e.ownerUserId = ownerUserId || e.ownerUserId = 0 && e.publicId = systemTaskWebhookEndpointId) &&
      !(e.ownerUserId = 0 && e.url = "") && e.eventTypes.contains webhookEventTaskStatusChanged

/-- What may fail. -/
inductive TaskError where
  | storage
  | notFound
  | duplicate
  /-- `task webhook state version must be positive`. -/
  | version

/-- `QueueWebhookEvent`, for the event of a task. -/
def queueWebhookEvent (env : CallEnv) (event : List ℕ → TaskEvent) (task : ℕ) (ownerUserId : ℤ) :
    Txn Store TaskError Unit :=
  if !mediaTasksEnabled env.endpoints then pure ()
  else if subscribers env.endpoints ownerUserId = [] then pure ()
  else do
    rejectIf (env.insertFails task = true) .storage
    modify fun s =>
      { s with events := s.events ++ [event ((subscribers env.endpoints ownerUserId).map WebhookEndpoint.id)] }

/-- The event of a task. -/
def Task.event (task : Task) (deliveries : List ℕ) : TaskEvent where
  task := task.id
  ownerUserId := task.userId
  taskId := task.taskId
  platform := task.platform
  status := task.status
  stateVersion := task.webhookVersion
  progress := task.progress
  failReason := task.failReason
  deliveries := deliveries

def queueStatusWebhook (env : CallEnv) (task : Task) : Txn Store TaskError Unit :=
  if task.userId ≤ 0 then pure ()
  else if task.webhookVersion ≤ 0 then throw .version
  else queueWebhookEvent env task.event task.id task.userId

/-! ## Writers -/

/-- The next primary key. -/
def Store.nextId (s : Store) : ℕ := (s.tasks.rows.map Task.id).foldr max 0 + 1

/-- The primary key of a task that is created: its own, if it has one. -/
def Store.idFor (s : Store) (task : Task) : ℕ := if task.id = 0 then s.nextId else task.id

/-- `Task.Insert`. -/
def insert (env : CallEnv) (task : Task) : Txn Store TaskError Unit :=
  transaction do
    let s ← get
    rejectIf ((s.tasks.get? (s.idFor task)).isSome = true) .duplicate
    modify fun s => { s with tasks := s.tasks.put { task with id := s.idFor task, webhookVersion := 1 } }
    queueStatusWebhook env { task with id := s.idFor task, webhookVersion := 1 }

/-- The row that `UpdateWithStatus` writes over `previous`. -/
def Task.written (t previous : Task) : Task :=
  { t with
    webhookVersion := if t.status ≠ previous.status then previous.webhookVersion + 1 else previous.webhookVersion
    requestBodyAvailable := t.requestBodyAvailable || previous.requestBodyAvailable
    -- the body was removed from the row since the copy was loaded
    properties := if previous.requestBodyAvailable && t.properties.requestBody ≠ "" && previous.properties.requestBody = ""
      then previous.properties else t.properties }

/-- `UpdateWithStatus`. -/
def updateWithStatus (env : CallEnv) (t : Task) (fromStatus : TaskStatus) : Txn Store TaskError Bool :=
  transaction do
    let s ← get
    match s.tasks.get? t.id with
    | none => pure false
    | some previous =>
      if previous.status ≠ fromStatus then pure false
      else do
        modify fun s => { s with tasks := s.tasks.put (t.written previous) }
        if env.countsMatched || t.written previous ≠ previous then do
          if t.status ≠ previous.status then queueStatusWebhook env (t.written previous) else pure ()
          pure true
        else pure false

/-- The columns that a bulk update writes. -/
structure TaskParams where
  status     : Option TaskStatus := none
  progress   : Option String := none
  failReason : Option String := none

def TaskParams.apply (params : TaskParams) (task : Task) : Task :=
  { task with status := params.status.getD task.status, progress := params.progress.getD task.progress,
              failReason := params.failReason.getD task.failReason }

theorem TaskParams.apply_id (params : TaskParams) (task : Task) : (params.apply task).id = task.id := rfl

/-- One task of a bulk update, as it was selected. -/
def bulkUpdateOne (env : CallEnv) (params : TaskParams) (task : Task) : Txn Store TaskError Unit := do
  let s ← get
  match s.tasks.get? task.id with
  | none => pure ()
  | some row =>
    if row.status ≠ task.status then pure ()
    else do
      modify fun s => { s with tasks := s.tasks.put (params.apply row) }
      if (!env.countsMatched && params.apply row = row) || (params.apply row).status = task.status then pure ()
      else do
        modify fun s =>
          { s with tasks := s.tasks.put { params.apply row with webhookVersion := (params.apply row).webhookVersion + 1 } }
        queueStatusWebhook env { params.apply row with webhookVersion := (params.apply row).webhookVersion + 1 }

/-- `TaskBulkUpdateByID`. -/
def taskBulkUpdateByID (env : CallEnv) (ids : List ℕ) (params : TaskParams) : Txn Store TaskError Unit :=
  if ids = [] then pure ()
  else if params.status = none then
    modify fun s =>
      { s with tasks := s.tasks.updateWhere (fun task => decide (task.id ∈ ids)) params.apply params.apply_id }
  else
    transaction do
      let s ← get
      forEach (fun _ task => bulkUpdateOne env params task) () (s.tasks.rows.filter fun task => task.id ∈ ids)

/-! ## Calls -/

/-- The store, and the calls of `Task.Update` that have read a status and not yet written. -/
structure OutboxState where
  store   : Store
  updates : List (Task × TaskStatus)

inductive TaskCall where
  | insert (task : Task)
  /-- `Task.Update`, up to the read of the status. -/
  | update (task : Task)
  /-- The rest of a `Task.Update`. -/
  | goOn (call : ℕ)
  | updateWithStatus (task : Task) (fromStatus : TaskStatus)
  | bulkUpdate (ids : List ℕ) (params : TaskParams)

/-- The state after a transaction. -/
def OutboxState.after {α : Type} (s : OutboxState) (m : Txn Store TaskError α) : OutboxState :=
  { s with store := (m s.store).2 }

def OutboxState.step (s : OutboxState) (env : CallEnv) : TaskCall → OutboxState
  | .insert task => s.after (insert env task)
  | .update task =>
    if task.id = 0 then s.after (insert env task)
    else
      match s.store.tasks.get? task.id with
      | none => s
      | some previous => { s with updates := s.updates ++ [(task, previous.status)] }
  | .goOn call =>
    match s.updates[call]? with
    | none => s
    | some (task, status) => { s.after (updateWithStatus env task status) with updates := s.updates.eraseIdx call }
  | .updateWithStatus task fromStatus => s.after (updateWithStatus env task fromStatus)
  | .bulkUpdate ids params => s.after (taskBulkUpdateByID env ids params)

/-- Before any task is inserted. -/
def OutboxState.start : OutboxState := ⟨⟨Table.empty, []⟩, []⟩

/-- The states of a run, the first and the last included. -/
def OutboxState.states (s : OutboxState) : List (CallEnv × TaskCall) → List OutboxState
  | [] => [s]
  | c :: calls => s :: (s.step c.1 c.2).states calls

def OutboxState.run (s : OutboxState) (calls : List (CallEnv × TaskCall)) : OutboxState :=
  calls.foldl (fun s c => s.step c.1 c.2) s

end NovaMaas.Webhook
