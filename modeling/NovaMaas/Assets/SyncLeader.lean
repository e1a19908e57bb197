/-
  The leader of asset synchronization (model/asset_sync_leader.go, service/assetlibrary/sync.go).

  Every node runs a loop.  From time to time it asks for leadership: one transaction takes the row of the lock for thirty
  seconds of the database, if the row is the node's own or its time is over.  A node that holds the lock works under a
  context, and sets a timer that cancels the context 27 seconds after it has STARTED to ask.  A renewal stops the timer; if
  that comes too late, the callback of the timer runs already, and its context is given up for a new one.

  Between any two statements of a loop any time may pass.  There is one clock in nanoseconds; the database shows its whole
  seconds.  A timer that is due has its callback run before time goes on.  A transaction may fail, and its answer may be
  lost.
-/
import Mathlib.Logic.Function.Basic
import Mathlib.Data.List.Basic

namespace NovaMaas.Assets

/-! ## The state -/

/-- In nanoseconds. -/
def second : ℕ := 1000000000

/-- The clock of the database. -/
def dbSeconds (time : ℕ) : ℕ := time / second

def assetSyncLeaderSeconds : ℕ := 30

/-- The row of the lock in the table of task locks. -/
structure SystemTaskLock where
  lockedBy    : String
  lockedUntil : ℕ

/-- What `TryHoldAssetSyncLeadership` answers; of a lock that is held, until when. -/
inductive LeaderAnswer where
  | held (lockedUntil : ℕ)
  | notHeld
  | failed
  deriving DecidableEq

/-- Where a loop is; `started` is the time at which it has started to ask. -/
inductive LoopPhase where
  | waiting
  | asking (started : ℕ)
  | answered (started : ℕ) (answer : LeaderAnswer)
  /-- It has a context, and has not set the timer. -/
  | setting (started lockedUntil : ℕ)
  | stopped
  deriving DecidableEq

/-- A timer of `time.AfterFunc`, and the context that its callback cancels. -/
structure ExpiryTimer where
  ctx    : ℕ
  fireAt : ℕ
  fired  : Bool

/-- The variables of a loop, the callbacks that have started and not yet cancelled their context, and the contexts that are
    live. -/
structure Node where
  phase        : LoopPhase := .waiting
  checkAt      : ℕ := 0
  leaderCtx    : Option ℕ := none
  cancelLeader : Option ℕ := none
  expiry       : Option ExpiryTimer := none
  callbacks    : List ℕ := []
  nextCtx      : ℕ := 0
  live         : List ℕ := []

structure SyncWorld where
  runners : List String
  time    : ℕ
  lock    : Option SystemTaskLock
  nodes   : String → Node

/-- No lock, and loops that have just begun. -/
def SyncWorld.start (runners : List String) (time : ℕ) : SyncWorld := ⟨runners, time, none, fun _ => {}⟩

def SyncWorld.setNode (w : SyncWorld) (owner : String) (n : Node) : SyncWorld :=
  { w with nodes := Function.update w.nodes owner n }

/-! ## The steps -/

/-- The transaction of `TryHoldAssetSyncLeadership`: the lock afterwards, and the answer. -/
def tryHoldAssetSyncLeadership (owner : String) (now : ℕ) (lock : Option SystemTaskLock) :
    Option SystemTaskLock × LeaderAnswer :=
  if now = 0 then (lock, .failed)
  else
    let row := lock.getD ⟨"", 0⟩
    if row.lockedBy ≠ owner ∧ now < row.lockedUntil then (some row, .notHeld)
    else (some ⟨owner, now + assetSyncLeaderSeconds⟩, .held (now + assetSyncLeaderSeconds))

/-- `cancel()` of a context. -/
def Node.cancel (n : Node) (ctx : Option ℕ) : Node := { n with live := n.live.filter fun c => some c ≠ ctx }

/-- `expiry.Stop()`; if the callback has started already, the context is given up. -/
def Node.stopExpiry (n : Node) : Node :=
  match n.expiry with
  | none => n
  | some timer => if timer.fired then { n.cancel n.cancelLeader with leaderCtx := none } else { n with expiry := none }

/-- A new context, if there is none that can be used. -/
def Node.ensureCtx (n : Node) : Node :=
  if n.leaderCtx.any (fun ctx => n.live.contains ctx) then n
  else
    { n with
      leaderCtx := some n.nextCtx
      cancelLeader := some n.nextCtx
      nextCtx := n.nextCtx + 1
      live := n.live ++ [n.nextCtx] }

/-- The branch of an answer, up to the timer. -/
def Node.take (n : Node) (started : ℕ) : LeaderAnswer → Node
  | .held lockedUntil =>
    { n.stopExpiry.ensureCtx with phase := .setting started lockedUntil, checkAt := started + 10 * second }
  | .notHeld | .failed =>
    { n.cancel n.cancelLeader with phase := .waiting, leaderCtx := none, checkAt := started + 10 * second }

/-- The timer. -/
def Node.setExpiry (n : Node) (started : ℕ) : Node :=
  { n with
    phase := .waiting
    expiry := n.cancelLeader.map fun ctx => ⟨ctx, started + 27 * second, false⟩ }

/-- The timers of a node allow that time goes on. -/
def Node.allows (n : Node) (time elapsed : ℕ) : Bool :=
  (n.callbacks = [] || elapsed = 0) &&
    (n.expiry.all fun timer => timer.fired || decide (time + elapsed ≤ max time timer.fireAt))

inductive LeaderMove where
  | advance (elapsed : ℕ)
  /-- A loop starts to ask. -/
  | ask (owner : String)
  /-- The transaction commits; its answer arrives, or is lost. -/
  | commit (owner : String) (arrives : Bool)
  /-- It is rolled back. -/
  | rollback (owner : String)
  | take (owner : String)
  | setExpiry (owner : String)
  /-- A timer fires: its callback starts. -/
  | fire (owner : String)
  /-- The callback cancels its context. -/
  | callback (owner : String)
  /-- The loop returns. -/
  | stop (owner : String)

/-- A step of a node, in the world. -/
def Node.step (w : SyncWorld) (n : Node) : LeaderMove → Option (Node × Option SystemTaskLock)
  | .advance _ => none
  | .ask _ => if n.phase = .waiting ∧ n.checkAt ≤ w.time then some ({ n with phase := .asking w.time }, w.lock) else none
  | .commit owner arrives =>
    match n.phase with
    | .asking started =>
      let r := tryHoldAssetSyncLeadership owner (dbSeconds w.time) w.lock
      some ({ n with phase := .answered started (if arrives then r.2 else .failed) }, r.1)
    | _ => none
  | .rollback _ =>
    match n.phase with
    | .asking started => some ({ n with phase := .answered started .failed }, w.lock)
    | _ => none
  | .take _ =>
    match n.phase with
    | .answered started answer => some (n.take started answer, w.lock)
    | _ => none
  | .setExpiry _ =>
    match n.phase with
    | .setting started _ => some (n.setExpiry started, w.lock)
    | _ => none
  | .fire _ =>
    match n.expiry with
    | some timer =>
      if timer.fired = false ∧ timer.fireAt ≤ w.time then
        some ({ n with expiry := some { timer with fired := true }, callbacks := n.callbacks ++ [timer.ctx] }, w.lock)
      else none
    | none => none
  | .callback _ =>
    match n.callbacks with
    | ctx :: rest => some ({ n.cancel (some ctx) with callbacks := rest }, w.lock)
    | [] => none
  | .stop _ =>
    if n.phase = .waiting then
      some ({ n.cancel n.cancelLeader with phase := .stopped, leaderCtx := none, expiry := none }, w.lock)
    else none

/-- The node of a move. -/
def LeaderMove.owner : LeaderMove → Option String
  | .advance _ => none
  | .ask owner | .commit owner _ | .rollback owner | .take owner | .setExpiry owner | .fire owner | .callback owner
  | .stop owner => some owner

/-- A step; none if it cannot be taken. -/
def SyncWorld.step (w : SyncWorld) (move : LeaderMove) : Option SyncWorld :=
  match move with
  | .advance elapsed =>
    if w.runners.all (fun owner => (w.nodes owner).allows w.time elapsed) then some { w with time := w.time + elapsed }
    else none
  | move =>
    move.owner.bind fun owner =>
      if owner ∈ w.runners then
        ((w.nodes owner).step w move).map fun r => { w.setNode owner r.1 with lock := r.2 }
      else none

/-- The world after the moves, if they can all be taken. -/
def SyncWorld.run (w : SyncWorld) : List LeaderMove → Option SyncWorld
  | [] => some w
  | move :: moves => (w.step move).bind fun w' => w'.run moves

/-- At most one node has a live context. -/
def Exclusive (w : SyncWorld) : Prop :=
  ∀ a ∈ w.runners, ∀ b ∈ w.runners, (w.nodes a).live ≠ [] → (w.nodes b).live ≠ [] → a = b

end NovaMaas.Assets
