/-
  Snapshots of requests (model/task_request_body.go).

  One row a reference keeps the body of a request, or says in which object of a storage the body is.  Its other columns
  describe that body: the size, the digest, the evidence on which corrections of bills rely, and the time of the capture.

  An inline save is an upsert: it writes every column, and takes the row away from the object.  A publication is about an
  object that has been uploaded and read back; it leaves the inline body where it is, and gives way to a later capture.  A
  clean-up clears the inline body of a published row.  The reference of a publication is looked up before its transaction,
  so that others may commit between the two.

  Bodies are of any type; what the code computes of them is a parameter.  So is what the column of a body gives back: its
  type is JSON, and a database may rewrite what it saves there (MySQL does; SQLite and PostgreSQL give back the bytes).
-/
import NovaMaas.Lib.Table
import NovaMaas.Lib.Text

namespace NovaMaas.Archive

/-! ## The table -/

def maxTaskRequestBodyBytes : ℕ := 2 * 1024 * 1024

def upstreamRequestBodyReferencePrefix : String := "upstream:"

def taskPollHistoryPrefix : String := "poll:v1:"

def taskRequestEvidenceVersion : ℕ := 1

inductive SnapshotKind where
  | original
  | upstream
  deriving DecidableEq

inductive StorageState where
  | unset
  | pending
  | ready
  | failed
  deriving DecidableEq

structure TaskRequestEvidence where
  version       : ℕ
  valid         : Bool
  resolution    : String
  hasVideoInput : Bool
  deriving DecidableEq

/-- A row; `kind` is not set in rows from before there were kinds. -/
structure TaskRequestBody (β : Type) where
  id               : ℕ
  referenceID      : String
  taskID           : String
  requestID        : String
  body             : Option β
  bodySize         : ℕ
  bodySHA256       : String
  kind             : Option SnapshotKind
  storageProfileID : ℕ
  objectKey        : String
  storageState     : StorageState
  nodeName         : String
  evidence         : TaskRequestEvidence
  capturedAt       : ℤ
  requestCreatedAt : ℤ

/-- What the code computes of a body, what the column gives back of it, and the digest of a reference. -/
structure SnapshotEnv (β : Type) where
  column     : β → β
  size       : β → ℕ
  validJSON  : β → Bool
  sha256     : β → String
  evidence   : β → TaskRequestEvidence
  sha256Text : String → String

/-- The table, and the number of the next row. -/
structure SnapshotDB (β : Type) where
  rows   : Table (TaskRequestBody.referenceID (β := β))
  nextID : ℕ

variable {β : Type} (env : SnapshotEnv β)

/-- In nanoseconds, as `captured_at` is. -/
def snapshotSecond : ℤ := 1000000000

/-! ## References -/

def taskRequestBodyReference (taskID requestID : String) : Option String :=
  if taskID ≠ "" then some taskID
  else if requestID ≠ "" then some ("request:" ++ requestID)
  else none

def upstreamRequestBodyReference (taskID requestID : String) : Option String :=
  (taskRequestBodyReference taskID requestID).map fun referenceID =>
    upstreamRequestBodyReferencePrefix ++ env.sha256Text referenceID

/-- The kind of a reference. -/
def referenceKind (referenceID : String) : SnapshotKind :=
  if hasPrefix referenceID upstreamRequestBodyReferencePrefix then .upstream else .original

/-! ## Inline saves -/

/-- `INSERT … ON CONFLICT (reference_id) DO UPDATE` of every column. -/
def SnapshotDB.upsert (db : SnapshotDB β) (record : TaskRequestBody β) : SnapshotDB β :=
  match db.rows.get? record.referenceID with
  | some existing => { db with rows := db.rows.put { record with id := existing.id } }
  | none => { rows := db.rows.put { record with id := db.nextID }, nextID := db.nextID + 1 }

/-- The row of an inline save, as it is read back. -/
def inlineRecord (referenceID taskID requestID : String) (body : β) (requestCreatedAt : ℤ) : TaskRequestBody β :=
  { id := 0, referenceID := referenceID, taskID := taskID, requestID := requestID, body := some (env.column body)
    bodySize := env.size body, bodySHA256 := env.sha256 body, kind := some (referenceKind referenceID)
    storageProfileID := 0, objectKey := "", storageState := .unset, nodeName := "", evidence := env.evidence body
    capturedAt := requestCreatedAt * snapshotSecond, requestCreatedAt := requestCreatedAt }

def saveTaskRequestBodyAtReference (db : SnapshotDB β) (referenceID taskID requestID : String) (body : β)
    (requestCreatedAt : ℤ) : Option (SnapshotDB β) :=
  if env.size body = 0 then none
  else if env.validJSON body = false then none
  else some (db.upsert (inlineRecord env referenceID taskID requestID body requestCreatedAt))

def saveTaskRequestBody (db : SnapshotDB β) (taskID requestID : String) (body : β) (requestCreatedAt : ℤ) :
    Option (SnapshotDB β) :=
  (taskRequestBodyReference taskID requestID).bind fun referenceID =>
    saveTaskRequestBodyAtReference env db referenceID taskID requestID body requestCreatedAt

/-- The original and the upstream body, in one transaction. -/
def saveTaskRequestSnapshots (now : ℤ) (db : SnapshotDB β) (taskID requestID : String) (originalBody upstreamBody : β) :
    Option (SnapshotDB β) :=
  if maxTaskRequestBodyBytes < env.size originalBody ∨ maxTaskRequestBodyBytes < env.size upstreamBody then none
  else
    (upstreamRequestBodyReference env taskID requestID).bind fun upstreamReference =>
      (saveTaskRequestBody env db taskID requestID originalBody now).bind fun db' =>
        if env.size upstreamBody = 0 then some db'
        else saveTaskRequestBodyAtReference env db' upstreamReference taskID requestID upstreamBody now

/-- The time of a capture that is given, or now. -/
def requestCreatedAtOr (now requestCreatedAt : ℤ) : ℤ := if requestCreatedAt ≤ 0 then now else requestCreatedAt

def saveTaskRequestBodyAt (now : ℤ) (db : SnapshotDB β) (taskID requestID : String) (body : β) (requestCreatedAt : ℤ) :
    Option (SnapshotDB β) :=
  saveTaskRequestBody env db taskID requestID body (requestCreatedAtOr now requestCreatedAt)

/-- The row of a task that has the body of its request among its properties. -/
structure LegacyTaskRequestBodyRow (β : Type) where
  taskID      : String
  createdAt   : ℤ
  submitTime  : ℤ
  requestBody : β

/-- The capture time of a legacy row. -/
def LegacyTaskRequestBodyRow.requestCreatedAt (row : LegacyTaskRequestBodyRow β) : ℤ :=
  if row.submitTime ≤ 0 then row.createdAt else row.submitTime

/-- The part of the transaction that is about the snapshots. -/
def archiveLegacyTaskRequestBody (db : SnapshotDB β) (row : LegacyTaskRequestBodyRow β) : Option (SnapshotDB β) :=
  if env.size row.requestBody = 0 then none
  else saveTaskRequestBody env db row.taskID "" row.requestBody row.requestCreatedAt

/-! ## Publications -/

/-- The arguments of `SaveExternalTaskRequestSnapshotAtReferenceContext`; `kind` is none if it is not one of the two. -/
structure Publication where
  referenceID : String
  taskID      : String
  requestID   : String
  kind        : Option SnapshotKind
  nodeName    : String
  profileID   : ℕ
  objectKey   : String
  size        : ℕ
  bodySHA256  : String
  evidence    : TaskRequestEvidence
  capturedAt  : ℤ := 0

/-- The reference of a kind. -/
def kindReference (kind : SnapshotKind) (taskID requestID : String) : Option String :=
  match kind with
  | .original => taskRequestBodyReference taskID requestID
  | .upstream => upstreamRequestBodyReference env taskID requestID

/-- The first of the rows, by their numbers. -/
def oldest (rows : List (TaskRequestBody β)) : Option (TaskRequestBody β) :=
  rows.foldl (fun first row => if first.all (fun r => row.id < r.id) then some row else first) none

/-- The reference of a publication: the one that is given, if it belongs to the source, or the one of a row that exists. -/
def publicationReference (db : SnapshotDB β) (p : Publication) : Option String :=
  p.kind.bind fun kind =>
    (kindReference env kind p.taskID p.requestID).bind fun defaultReference =>
      let requestReference := if p.requestID ≠ "" then (kindReference env kind "" p.requestID).getD "" else ""
      if p.referenceID ≠ "" then
        if 191 < p.referenceID.utf8ByteSize ∨ (p.referenceID ≠ defaultReference ∧ p.referenceID ≠ requestReference) ∨
            hasPrefix p.referenceID taskPollHistoryPrefix then none
        else some p.referenceID
      else if p.taskID ≠ "" ∧ p.requestID ≠ "" then
        match oldest (db.rows.rows.filter fun row =>
          (row.referenceID = defaultReference || row.referenceID = requestReference) &&
            (row.taskID = p.taskID || row.taskID = "")) with
        | some existing => some existing.referenceID
        | none => some defaultReference
      else some defaultReference

/-- The row that a publication will write; none if it is refused. -/
def publicationRecord (time : ℤ) (db : SnapshotDB β) (p : Publication) : Option (TaskRequestBody β) :=
  (publicationReference env db p).bind fun referenceID =>
    if p.profileID = 0 ∨ trimSpace p.objectKey = "" ∨ p.size = 0 ∨
        (hexDecodeString p.bodySHA256).all (fun digest => digest.length ≠ 32) then none
    else if p.evidence.version ≠ taskRequestEvidenceVersion ∨ 32 < p.evidence.resolution.utf8ByteSize then none
    else
      let captured := if 0 < p.capturedAt then p.capturedAt else time
      some
        { id := 0, referenceID := referenceID, taskID := p.taskID, requestID := p.requestID, body := none
          bodySize := p.size, bodySHA256 := p.bodySHA256.toLower, kind := p.kind, storageProfileID := p.profileID
          objectKey := p.objectKey, storageState := .ready, nodeName := p.nodeName, evidence := p.evidence
          capturedAt := captured, requestCreatedAt := captured / snapshotSecond }

/-- The transaction of a publication: the row is inserted if there is none, and updated unless its capture is later. -/
def publishRecord (db : SnapshotDB β) (record : TaskRequestBody β) : SnapshotDB β :=
  match db.rows.get? record.referenceID with
  | none => { rows := db.rows.put { record with id := db.nextID }, nextID := db.nextID + 1 }
  | some existing =>
    if record.capturedAt < existing.capturedAt then db
    else
      { db with
        rows := db.rows.put
          { record with id := existing.id, body := existing.body, requestCreatedAt := existing.requestCreatedAt } }

/-! ## Binding and clearing -/

def bindTaskRequestSnapshots (db : SnapshotDB β) (taskID requestID : String) : Option (SnapshotDB β) :=
  if taskID = "" ∨ requestID = "" then none
  else some { db with
    rows := db.rows.updateWhere
      (fun row => row.requestID = requestID && row.taskID = "" && !hasPrefix row.referenceID taskPollHistoryPrefix)
      (fun row => { row with taskID := taskID }) fun _ => rfl }

/-- The row is in an object. -/
def TaskRequestBody.published (row : TaskRequestBody β) : Bool :=
  row.storageState = .ready && 0 < row.storageProfileID && row.objectKey ≠ ""

/-- The body of the row is there, is as the row describes it, and is also in the object. -/
def TaskRequestBody.clearable (row : TaskRequestBody β) (expectedSHA256 : String) : Bool :=
  !hasPrefix row.referenceID taskPollHistoryPrefix && row.published && row.bodySHA256 = expectedSHA256 &&
    row.body.any fun body => env.size body ≠ 0 && row.bodySize = env.size body && env.sha256 body = expectedSHA256

def clearMigratedSnapshotBody (db : SnapshotDB β) (id : ℕ) (expectedSHA256 : String) : SnapshotDB β :=
  { db with
    rows := db.rows.updateWhere (fun row => row.id = id && row.clearable env expectedSHA256)
      (fun row => { row with body := none }) fun _ => rfl }

end NovaMaas.Archive
