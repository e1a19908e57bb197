/-
  The delivery of webhooks (model/asset_webhook.go, model/webhook_event.go, service/async_webhook_delivery.go).

  A row of the outbox is delivered by a worker that claims it for the time of a lease.  Every claim is an ATTEMPT with an
  id of its own; attempts interleave at every statement and at every reading of the clock, and one that makes no move is
  a worker that stalls.  Attempts are numbered in the order they begin, which stands for the random part of their ids.

  There is one clock.  It may advance by any amount, but not beyond the deadline of a post that is on its way: there the
  context of the post ends it.  A statement that is issued with the context of the lease has no effect once that is over.

  What the other tables say of a delivery (asset, endpoint, categories) and what the endpoint answers is input of the
  moves.  Times are nanoseconds, the timestamps of the rows whole seconds.  The texts of errors are left out.
-/
import NovaMaas.Lib.OrderBy

namespace NovaMaas.Webhook

/-! ## Rows -/

inductive DeliveryStatus where
  | pending
  | delivering
  | failed
  | succeeded
  | exhausted
  | superseded
  deriving DecidableEq

def DeliveryStatus.terminal : DeliveryStatus → Bool
  | .succeeded | .exhausted | .superseded => true
  | .pending | .delivering | .failed => false

/-- `AssetWebhookDelivery`. -/
structure Delivery where
  id             : ℕ
  assetId        : ℕ
  eventType      : String
  status         : DeliveryStatus := .pending
  attempts       : ℕ := 0
  nextAttemptAt  : ℕ
  /-- The attempt that has claimed the row. -/
  lockedBy       : Option ℕ := none
  leaseUntil     : ℕ := 0
  responseStatus : ℕ := 0
  deliveredAt    : ℕ := 0
  createdAt      : ℕ
  updatedAt      : ℕ
  deriving DecidableEq

def webhookEventAssetActive : String := "asset.active"

/-! ## Times -/

/-- A second, in nanoseconds. -/
def second : ℕ := 1000000000

/-- `common.GetTimestamp`. -/
def getTimestamp (time : ℕ) : ℕ := time / second

/-- In seconds. -/
def asyncWebhookDeliveryLease : ℕ := 60
def asyncWebhookLeaseMargin : ℕ := 5
def asyncWebhookDeliveryMaxAge : ℕ := 72 * 60 * 60

/-- `asyncWebhookRetryDelay`, in seconds. -/
def asyncWebhookRetryDelay (attempts : ℕ) : ℕ :=
  let delay := 60 * 2 ^ min attempts 10
  if 12 * 60 * 60 < delay then 12 * 60 * 60 else delay

/-- `leaseDeadline`: the end of the context of the lease. -/
def Delivery.leaseDeadline (d : Delivery) : ℕ := d.leaseUntil * second - asyncWebhookLeaseMargin * second

/-- The end of the delivery's time. -/
def Delivery.deadline (d : Delivery) : ℕ := (d.createdAt + asyncWebhookDeliveryMaxAge) * second

/-! ## Statements -/

/-- A row that is due, or whose lease is over. -/
def claimable (now : ℕ) (d : Delivery) : Bool :=
  ((d.status = .pending || d.status = .failed) && d.nextAttemptAt ≤ now) ||
    (d.status = .delivering && d.leaseUntil ≤ now)

/-- The query of `ClaimAssetWebhookDeliveries`, for one row. -/
def candidate (rows : List Delivery) (now : ℕ) : Option Delivery :=
  (orderBy (fun d : Delivery => (d.nextAttemptAt : ℤ)) (rows.filter (claimable now))).head?

/-- The claim as written to the row. -/
def Delivery.claimed (d : Delivery) (now leaseUntil lockedBy : ℕ) : Delivery :=
  { d with status := .delivering, lockedBy := some lockedBy, leaseUntil := leaseUntil, updatedAt := now }

/-- An update of the rows for which `cond` holds. -/
def update (cond : Delivery → Bool) (write : Delivery → Delivery) (rows : List Delivery) : List Delivery :=
  rows.map fun d => if cond d then write d else d

/-- The condition of the claim of a row. -/
def isClaimable (id now : ℕ) (d : Delivery) : Bool := d.id = id && claimable now d

/-- The row is delivering, under an unexpired claim of the attempt. -/
def heldBy (id lockedBy now : ℕ) (d : Delivery) : Bool :=
  d.id = id && d.status = .delivering && d.lockedBy = some lockedBy && now < d.leaseUntil

/-- `OwnsAssetWebhookDeliveryLease`. -/
def ownsLease (rows : List Delivery) (id lockedBy now : ℕ) : Bool := rows.countP (heldBy id lockedBy now) = 1

/-- A row that waits to announce the asset. -/
def announces (assetId : ℕ) (d : Delivery) : Bool :=
  d.assetId = assetId && d.eventType = webhookEventAssetActive && (d.status = .pending || d.status = .failed)

def Delivery.supersededAt (now : ℕ) (d : Delivery) : Delivery :=
  { d with status := .superseded, nextAttemptAt := 0, updatedAt := now }

/-- The condition of the delete of `PurgeAssetWebhookDeliveriesBefore`. -/
def purgeable (statuses : List DeliveryStatus) (cutoff : ℕ) (ids : List ℕ) (d : Delivery) : Bool :=
  decide (d.id ∈ ids) && decide (d.status ∈ statuses) && decide (d.createdAt < cutoff)

/-- How a claim ends: what `FinishAssetWebhookDelivery` or `SupersedeAssetWebhookDelivery` is called with. -/
inductive Ending where
  | finish (status : DeliveryStatus) (responseStatus nextAttemptAt : ℕ)
  | supersede
  deriving DecidableEq

/-- What they write. -/
def Ending.write (now : ℕ) : Ending → Delivery → Delivery
  | .finish status responseStatus nextAttemptAt, d =>
    { d with status := status, attempts := d.attempts + 1, nextAttemptAt := nextAttemptAt, lockedBy := none,
             leaseUntil := 0, responseStatus := responseStatus, updatedAt := now,
             deliveredAt := if status = .succeeded then now else d.deliveredAt }
  | .supersede, d =>
    { d with status := .superseded, nextAttemptAt := 0, lockedBy := none, leaseUntil := 0, updatedAt := now }

/-- `finishWebhookDeliveryFailure`, up to the call that writes it. -/
def failureEnding (d : Delivery) (now responseStatus : ℕ) (permanent : Bool) : Ending :=
  if permanent || asyncWebhookDeliveryMaxAge ≤ now - d.createdAt then .finish .exhausted responseStatus 0
  else .finish .failed responseStatus
    (min (now + asyncWebhookRetryDelay d.attempts) (d.createdAt + asyncWebhookDeliveryMaxAge))

/-! ## Attempts -/

/-- Where an attempt is.  After the claim it has its own copy of the row. -/
inductive Phase where
  /-- The clock was read for the claim. -/
  | claiming (now : ℕ)
  /-- A row was found. -/
  | updating (now : ℕ) (d : Delivery)
  /-- The row is claimed; the lease is to be checked. -/
  | claimed (d : Delivery)
  /-- The age is to be checked. -/
  | fresh (d : Delivery)
  /-- Asset, endpoint and categories are to be looked up. -/
  | looking (d : Delivery)
  /-- The clock was read for the check of the ownership. -/
  | checking (d : Delivery) (now : ℕ)
  | owned (d : Delivery)
  /-- The context of the post was made. -/
  | ready (d : Delivery) (deadline : ℕ)
  | posting (d : Delivery) (deadline : ℕ)
  | failing (d : Delivery) (responseStatus : ℕ) (permanent : Bool)
  | ending (d : Delivery) (ending : Ending)
  /-- The clock was read for the write. -/
  | writing (d : Delivery) (ending : Ending) (now : ℕ)
  | done
  deriving DecidableEq

structure State where
  time     : ℕ
  nextId   : ℕ := 0
  rows     : List Delivery := []
  attempts : List Phase := []

/-- What the other tables or the endpoint say. -/
inductive Answer where
  /-- The asset is gone or not ready. -/
  | superseded
  | failure (responseStatus : ℕ) (permanent : Bool)
  | ok (responseStatus : ℕ)

/-- The next move of an attempt: its phase, and the rows. -/
def move (time : ℕ) (rows : List Delivery) (attempt : ℕ) (answer : Answer) : Phase → Option (Phase × List Delivery)
  | .claiming now =>
    match candidate rows now with
    | none => some (.done, rows)
    | some d => some (.updating now d, rows)
  | .updating now d =>
    let leaseUntil := now + asyncWebhookDeliveryLease
    if rows.countP (isClaimable d.id now) = 1 then
      some (.claimed { d with status := .delivering, lockedBy := some attempt, leaseUntil := leaseUntil },
        update (isClaimable d.id now) (fun row => row.claimed now leaseUntil attempt) rows)
    else some (.done, rows)
  | .claimed d => if time < d.leaseDeadline then some (.fresh d, rows) else some (.done, rows)
  | .fresh d => if time < d.deadline then some (.looking d, rows) else some (.failing d 0 true, rows)
  | .looking d =>
    match answer with
    | .superseded => some (.ending d .supersede, rows)
    | .failure _ permanent => some (.failing d 0 permanent, rows)
    | .ok _ => some (.checking d (getTimestamp time), rows)
  | .checking d now =>
    match answer with
    | .failure _ _ => some (.failing d 0 false, rows)
    | _ =>
      if d.leaseDeadline ≤ time then some (.failing d 0 false, rows)
      else if ownsLease rows d.id attempt now then some (.owned d, rows) else some (.done, rows)
  | .owned d => some (.ready d (min d.leaseDeadline (min d.deadline (time + 10 * second))), rows)
  | .ready d deadline => if time < deadline then some (.posting d deadline, rows) else some (.failing d 0 false, rows)
  | .posting d _ =>
    match answer with
    | .ok responseStatus => some (.ending d (.finish .succeeded responseStatus 0), rows)
    | .failure responseStatus _ => some (.failing d responseStatus false, rows)
    | .superseded => none
  | .failing d responseStatus permanent =>
    some (.ending d (failureEnding d (getTimestamp time) responseStatus permanent), rows)
  | .ending d ending => some (.writing d ending (getTimestamp time), rows)
  | .writing d ending now =>
    if d.leaseDeadline ≤ time then some (.done, rows)
    else some (.done, update (heldBy d.id attempt now) (ending.write now) rows)
  | .done => none

/-! ## Steps -/

/-- `NewWebhookDelivery`, as it is written at `createdAt`. -/
def newWebhookDelivery (id assetId : ℕ) (eventType : String) (now createdAt : ℕ) : Delivery where
  id := id
  assetId := assetId
  eventType := eventType
  nextAttemptAt := now
  createdAt := createdAt
  updatedAt := createdAt

inductive Action where
  /-- The clock advances. -/
  | advance (elapsed : ℕ)
  /-- `QueueWebhookEvent` writes a row; the clock was read before. -/
  | queue (assetId : ℕ) (eventType : String) (now : ℕ)
  /-- `queueAssetWebhookDeliveries` for a failed asset. -/
  | assetFailed (assetId : ℕ)
  /-- `PurgeAssetWebhookDeliveriesBefore`, of the rows it has selected. -/
  | purge (statuses : List DeliveryStatus) (cutoff : ℕ) (ids : List ℕ)
  /-- An attempt reads the clock. -/
  | begin
  | move (attempt : ℕ) (answer : Answer)

/-- A post on its way has not come to its deadline. -/
def Phase.allows (time : ℕ) : Phase → Bool
  | .posting _ deadline => time ≤ deadline
  | _ => true

def step (s : State) : Action → Option State
  | .advance elapsed =>
    if s.attempts.all (Phase.allows (s.time + elapsed)) then some { s with time := s.time + elapsed } else none
  | .queue assetId eventType now =>
    if now ≤ getTimestamp s.time then
      some { s with rows := s.rows ++ [newWebhookDelivery s.nextId assetId eventType now (getTimestamp s.time)],
                    nextId := s.nextId + 1 }
    else none
  | .assetFailed assetId =>
    some { s with rows := update (announces assetId) (Delivery.supersededAt (getTimestamp s.time)) s.rows }
  | .purge statuses cutoff ids =>
    if statuses.all DeliveryStatus.terminal then
      some { s with rows := s.rows.filter fun d => !purgeable statuses cutoff ids d }
    else none
  | .begin => some { s with attempts := s.attempts ++ [.claiming (getTimestamp s.time)] }
  | .move attempt answer =>
    match s.attempts[attempt]? with
    | none => none
    | some phase =>
      match move s.time s.rows attempt answer phase with
      | none => none
      | some (phase, rows) => some { s with attempts := s.attempts.set attempt phase, rows := rows }

/-- The states that are reached from an empty outbox. -/
inductive Reachable : State → Prop where
  | start (time : ℕ) : Reachable { time := time }
  | step {s s' : State} (h : Reachable s) (action : Action) (hstep : step s action = some s') : Reachable s'

end NovaMaas.Webhook
