/-
  Login sessions: the row in the database, its snapshot in the cache, and the calls that create, read, refresh,
  advance and revoke them (model/user_session.go).

  The cache decides whether a session is active as long as it has a hash for it.  A revocation first publishes a
  DENY state (`revoking`), then writes the row, then publishes the final tombstone (`revoked`).  A deny state
  lives for a cache period counted from its own publish; an active snapshot carries a deadline that was taken
  BEFORE the database was read, so a slow fill cannot outlive a tombstone that was published after its read.

  Every call of `time.Now()` is a step of its own: a process may stall anywhere.  The clock counts milliseconds;
  columns hold seconds.  `History` is not part of the program: it notes what the run has done, no call reads it.
-/
import NovaMaas.Lib.Interleave
import NovaMaas.Lib.Table

namespace NovaMaas.Auth

open Interleave Prog

/-! ## The store -/

inductive SessionStatus where
  | active
  | revoking
  | revoked
  deriving DecidableEq

/-- The fields of a session that the cache holds too. -/
structure SessionInfo where
  sid             : String
  userID          : ℕ
  version         : ℕ
  userAuthVersion : ℕ
  status          : SessionStatus
  loginMethod     : String
  ip              : String
  userAgent       : String
  createdAt       : ℕ
  lastActiveAt    : ℕ
  expiresAt       : ℕ
  revokedAt       : ℕ
  revokedReason   : String
  deriving DecidableEq

structure UserSession extends SessionInfo where
  refreshHash         : String
  previousRefreshHash : String
  previousValidUntil  : ℕ
  deriving DecidableEq

abbrev SessionTable := Table (fun s : UserSession => s.sid)

/-- `userSessionCacheEntry` in the cache; it is gone once the clock has passed `goneAfter`. -/
structure SessionHash where
  entry       : SessionInfo
  cacheSchema : ℕ
  goneAfter   : ℕ

/-- One successful exchange of a refresh hash. -/
structure Exchange where
  call      : ℕ
  sid       : String
  presented : String
  next      : String
  deriving DecidableEq

/-- What the run has done so far. -/
structure History where
  /-- The time a row was marked revoked. -/
  closedAt  : String → Option ℕ
  exchanges : List Exchange
  /-- The row as a refresh attempt read it last. -/
  seen      : ℕ → Option UserSession

structure SessionWorld where
  now          : ℕ
  /-- `userCacheTTLSeconds()`. -/
  cacheSeconds : ℕ
  sessions     : SessionTable
  cache        : String → Option SessionHash
  history      : History

def userSessionCacheSchema : ℕ := 1

def userSessionRevokeBatchSize : ℕ := 500

/-- Active and neither revoked nor expired, which every path checks. -/
def SessionInfo.Usable (s : SessionInfo) (now : ℕ) : Prop :=
  s.status = .active ∧ s.revokedAt = 0 ∧ now < s.expiresAt

instance (s : SessionInfo) (now : ℕ) : Decidable (s.Usable now) :=
  inferInstanceAs (Decidable (_ ∧ _ ∧ _))

def SessionInfo.withStatus (s : SessionInfo) (status : SessionStatus) : SessionInfo := { s with status }

/-- With a new refresh hash; the current one becomes the previous one. -/
def UserSession.rotated (s : UserSession) (next : String) (now validUntil : ℕ) : UserSession :=
  { s with
    previousRefreshHash := s.refreshHash, previousValidUntil := validUntil, refreshHash := next, lastActiveAt := now }

/-- Marked revoked, as every revocation writes the row. -/
def UserSession.revoke (s : UserSession) (now : ℕ) (reason : String) : UserSession :=
  { s with status := .revoked, revokedAt := now, revokedReason := reason }

namespace SessionWorld

variable (w : SessionWorld)

/-- `time.Now().Unix()`. -/
def unix : ℕ := w.now / 1000

/-- `userSessionCacheDeadline()`. -/
def userSessionCacheDeadline : ℕ := w.now + 1000 * w.cacheSeconds

def live (sid : String) : Option SessionHash := (w.cache sid).filter fun h => w.now ≤ h.goneAfter

def liveVersion (sid : String) : ℕ := ((w.live sid).map (·.entry.version)).getD 0

/-- The row of a session, if it belongs to the user. -/
def ofUser (sid : String) (userID : ℕ) : Option UserSession :=
  (w.sessions.get? sid).filter fun s => s.userID = userID

end SessionWorld

/-! ## Scripts and statements -/

/-- What a publish is for: a snapshot of the row, the deny state before a revocation, or the tombstone that ends
one.  A tombstone is made from the row as the revoking transaction locked it, or from the row as it was read
before that (`RevokeUserSession` and the replay branch of the rotation). -/
inductive Publish where
  | snapshot
  | fence
  | lockedTombstone
  | readTombstone

/-- When a published hash goes: at a time (`PEXPIREAT`), or after a while (`PEXPIRE`). -/
inductive Expiry where
  | deadline (ms : ℕ)
  | after (ms : ℕ)

/-- One script, one statement or one transaction.  `read` stands for every one that only reads, but for those that a
revocation finds its sessions with: `find` and `findMany`. -/
inductive SessionOp where
  | read
  | find (sid : String) (userID : ℕ)
  | findMany (userID now : ℕ) (excluded : String)
  | wait (ms : ℕ)
  | insert (session : UserSession)
  | load (call : ℕ) (sid : String) (userID : ℕ)
  | exchange (call : ℕ) (sid : String) (userID now : ℕ) (presented next : String) (validUntil : ℕ)
  | revokeReused (sid : String) (userID now : ℕ)
  | revokeOne (sid : String) (userID now : ℕ) (reason : String)
  | revokeByHash (sid presented : String) (now : ℕ) (reason : String)
  | revokeMany (sids : List String) (now : ℕ) (reason : String)
  | advance (sid : String) (userID now version userAuthVersion nextUserAuthVersion : ℕ)
  | publish (kind : Publish) (entry : SessionInfo) (expiry : Expiry)

namespace SessionWorld

variable (w : SessionWorld)

/-- The guard of the script of `writeUserSessionCache`. -/
def refuses (entry : SessionInfo) : Bool :=
  match w.live entry.sid with
  | none => false
  | some h => (entry.status = .active && h.entry.status ≠ .active) || entry.version < h.entry.version

/-- The hash that a publish leaves.  One that is to go in the past is deleted at once. -/
def hashOf (entry : SessionInfo) : Expiry → Option SessionHash
  | .deadline ms => if ms ≤ w.now then none else some ⟨entry, userSessionCacheSchema, ms⟩
  | .after ms => some ⟨entry, userSessionCacheSchema, w.now + ms⟩

def putHash (entry : SessionInfo) (expiry : Expiry) : SessionWorld :=
  { w with cache := Function.update w.cache entry.sid (w.hashOf entry expiry) }

/-- The script of `writeUserSessionCache`. -/
def publish (entry : SessionInfo) (expiry : Expiry) : SessionWorld :=
  if w.refuses entry then w else w.putHash entry expiry

def putRow (s : UserSession) : SessionWorld := { w with sessions := w.sessions.put s }

/-- Mark a row revoked. -/
def closeRow (s : UserSession) (now : ℕ) (reason : String) : SessionWorld :=
  { w.putRow (s.revoke now reason) with
    history := { w.history with closedAt := Function.update w.history.closedAt s.sid (some w.now) } }

def insert (s : UserSession) : SessionWorld :=
  match w.sessions.get? s.sid with
  | some _ => w
  | none => w.putRow s

def load (call : ℕ) (sid : String) (userID : ℕ) : SessionWorld :=
  { w with history := { w.history with seen := Function.update w.history.seen call (w.ofUser sid userID) } }

/-- The row an exchange finds: usable, with the presented hash as its current one.  So the hash the source writes
as the previous one, which it read before, is this one too. -/
def exchangeable (sid : String) (userID now : ℕ) (presented : String) : Option UserSession :=
  (w.ofUser sid userID).filter fun s => s.Usable now ∧ s.refreshHash = presented

def exchange (call : ℕ) (sid : String) (userID now : ℕ) (presented next : String) (validUntil : ℕ) : SessionWorld :=
  match w.exchangeable sid userID now presented with
  | none => w
  | some s =>
    { w.putRow (s.rotated next now validUntil) with
      history := { w.history with exchanges := w.history.exchanges ++ [⟨call, sid, presented, next⟩] } }

/-- The row a revocation finds. -/
def revocable (sid : String) (userID now : ℕ) : Option UserSession :=
  (w.ofUser sid userID).filter fun s => s.Usable now

def revokeOne (sid : String) (userID now : ℕ) (reason : String) : SessionWorld :=
  match w.revocable sid userID now with
  | none => w
  | some s => w.closeRow s now reason

/-- The row that logging out with a refresh token finds: the presented hash is the current one, or the previous
one inside its window. -/
def logoutTarget (sid presented : String) (now : ℕ) : Option UserSession :=
  (w.sessions.get? sid).filter fun s => s.Usable now ∧ (s.refreshHash = presented ∨
    (s.previousRefreshHash ≠ "" ∧ now ≤ s.previousValidUntil ∧ s.previousRefreshHash = presented))

/-- How long a deny state published now is to live. -/
def denyTTL (expiresAt now : ℕ) : ℕ :=
  let ttl := min (1000 * expiresAt - now) (1000 * w.cacheSeconds)
  if ttl = 0 then 1000 else ttl

/-- A session as `writeUserSessionDenyFence` publishes it. -/
def denied (s : SessionInfo) (status : SessionStatus) (now : ℕ) (reason : String) : SessionInfo :=
  { s with status, revokedAt := now, revokedReason := reason }

/-- The transaction of `RevokeUserSessionByRefreshHash`: the deny state is published while the row is locked, and
a refused publish aborts it. -/
def revokeByHash (sid presented : String) (now : ℕ) (reason : String) : SessionWorld :=
  match w.logoutTarget sid presented now with
  | none => w
  | some s =>
    let fence := denied s.toSessionInfo .revoking now reason
    if w.refuses fence then w
    else (w.publish fence (.after (w.denyTTL s.expiresAt w.now))).closeRow s now reason

/-- The rows a bulk revocation finds: those of the list that are still active. -/
def revocableMany (sids : List String) : List UserSession :=
  w.sessions.rows.filter fun s => s.sid ∈ sids ∧ s.status = .active

def revokeMany (sids : List String) (now : ℕ) (reason : String) : SessionWorld :=
  (w.revocableMany sids).foldl (fun w s => w.closeRow s now reason) w

/-- The row that is advanced to a new user version. -/
def advancedRow (sid : String) (userID now version userAuthVersion nextUserAuthVersion : ℕ) : Option UserSession :=
  ((w.ofUser sid userID).filter fun s => s.status = .active ∧ now < s.expiresAt ∧ s.version = version ∧
    s.userAuthVersion = userAuthVersion).map fun s =>
      { s with version := s.version + 1, userAuthVersion := nextUserAuthVersion, lastActiveAt := now }

def advance (sid : String) (userID now version userAuthVersion nextUserAuthVersion : ℕ) : SessionWorld :=
  match w.advancedRow sid userID now version userAuthVersion nextUserAuthVersion with
  | none => w
  | some s => w.putRow s

end SessionWorld

def SessionOp.exec : SessionOp → SessionWorld → SessionWorld
  | .read, w => w
  | .find _ _, w => w
  | .findMany _ _ _, w => w
  | .wait ms, w => { w with now := w.now + ms }
  | .insert s, w => w.insert s
  | .load call sid userID, w => w.load call sid userID
  | .exchange call sid userID now presented next validUntil, w =>
    w.exchange call sid userID now presented next validUntil
  | .revokeReused sid userID now, w => w.revokeOne sid userID now "refresh_reuse"
  | .revokeOne sid userID now reason, w => w.revokeOne sid userID now reason
  | .revokeByHash sid presented now reason, w => w.revokeByHash sid presented now reason
  | .revokeMany sids now reason, w => w.revokeMany sids now reason
  | .advance sid userID now version uav next, w => w.advance sid userID now version uav next
  | .publish _ entry expiry, w => w.publish entry expiry

/-! ## Calls -/

inductive SessionError where
  | invalid
  | inactive
  | refreshInvalid
  | refreshRace
  | refreshReuse
  | observationStale
  | schemaStale
  | cacheMiss
  | recordNotFound
  | duplicateSID
  /-- A loop without a bound in the source was cut off here; the process never got further. -/
  | outOfFuel
  deriving DecidableEq

abbrev SessionM := ExceptT SessionError (Prog SessionOp SessionWorld)

/-- `writeUserSessionCache`.  An active snapshot needs a deadline. -/
def writeUserSessionCache (kind : Publish) (entry : SessionInfo) (cacheDeadline : Option ℕ) : SessionM Unit := do
  let now ← query .read (·.now)
  if entry.status = .active then
    match cacheDeadline with
    | none => throw .invalid
    | some deadline =>
      failIf (deadline ≤ now) .observationStale
      failIf (1000 * entry.expiresAt ≤ now) .inactive
      attempt (.publish kind entry (.deadline (min deadline (1000 * entry.expiresAt)))) fun w =>
        if w.refuses entry then .error .inactive else .ok ()
      let completedAt ← query .read (·.now)
      failIf (deadline ≤ completedAt) .observationStale
      failIf (1000 * entry.expiresAt ≤ completedAt) .inactive
  else
    let ttl ← query .read fun w => w.denyTTL entry.expiresAt now
    attempt (.publish kind entry (.after ttl)) fun w =>
      if w.refuses entry then .error .inactive else .ok ()

def confirmUserSessionActiveSnapshot (s : SessionInfo) : SessionM Unit := do
  failIf (s.sid = "" ∨ s.userID = 0 ∨ s.version = 0 ∨ s.userAuthVersion = 0) .invalid
  let now ← query .read (·.unix)
  attempt .read fun w =>
    match (w.ofUser s.sid s.userID).filter fun t =>
        t.Usable now ∧ t.version = s.version ∧ t.userAuthVersion = s.userAuthVersion with
    | some _ => .ok ()
    | none => .error .inactive

/-- `writeUserSessionDenyFence`. -/
def writeUserSessionDenyFence (s : SessionInfo) (now : ℕ) (reason : String) : SessionM Unit :=
  writeUserSessionCache .fence (SessionWorld.denied s .revoking now reason) none

/-- The snapshot of a session that was just created or rotated.  A stale observation is confirmed in the
database. -/
def publishSnapshot (s : UserSession) (deadline : ℕ) : SessionM Unit := do
  match ← outcome (writeUserSessionCache .snapshot s.toSessionInfo (some deadline)) with
  | .ok _ => return ()
  | .error .observationStale => confirmUserSessionActiveSnapshot s.toSessionInfo
  | .error .inactive => throw .inactive
  | .error _ => return ()

/-- The fields `CreateUserSession` fills in. -/
def UserSession.withDefaults (session : UserSession) (now : ℕ) : UserSession :=
  { session with
    version := if session.version = 0 then 1 else session.version
    lastActiveAt := if session.lastActiveAt = 0 then now else session.lastActiveAt
    createdAt := if session.createdAt = 0 then now else session.createdAt }

def createUserSession (session : UserSession) : SessionM Unit := do
  let now ← query .read (·.unix)
  failIf (session.sid = "" ∨ session.userID = 0 ∨ session.userAuthVersion = 0 ∨ session.refreshHash = "" ∨
    session.expiresAt ≤ now) .invalid
  failIf (session.status ≠ .active ∨ session.revokedAt ≠ 0) .invalid
  let deadline ← query .read (·.userSessionCacheDeadline)
  attempt (.insert (session.withDefaults now)) fun w =>
    if (w.sessions.get? session.sid).isSome then .error .duplicateSID else .ok ()
  publishSnapshot (session.withDefaults now) deadline

def getUserSessionCache (sid : String) : SessionM SessionInfo := do
  let some h ← query .read fun w => w.live sid | throw .cacheMiss
  failIf (h.cacheSchema ≠ userSessionCacheSchema ∨ h.entry.sid ≠ sid ∨ h.entry.userID = 0 ∨
    h.entry.version = 0 ∨ h.entry.userAuthVersion = 0) .schemaStale
  attempt .read fun w => if h.entry.Usable w.unix then .ok h.entry else .error .inactive

/-- `GetUserSessionCached` after the cache did not answer. -/
def hydrateSession (sid : String) : SessionM SessionInfo := do
  let deadline ← query .read (·.userSessionCacheDeadline)
  let some session ← query .read fun w => w.sessions.get? sid | throw .recordNotFound
  let now ← query .read (·.unix)
  if session.Usable now then
    publishSnapshot session deadline
    return session.toSessionInfo
  else
    let _ ← outcome (ε := SessionError)
      (writeUserSessionCache .snapshot (session.toSessionInfo.withStatus .revoked) none)
    throw .inactive

def getUserSessionCached (sid : String) : SessionM SessionInfo := do
  failIf (sid = "") .invalid
  match ← outcome (getUserSessionCache sid) with
  | .ok entry => return entry
  | .error .inactive => throw .inactive
  | .error _ => hydrateSession sid

/-- What a refresh attempt came to. -/
structure Refreshed where
  session : UserSession
  race    : Bool
  deriving DecidableEq

/-- The branch of `RotateUserSessionRefresh` for a replayed token outside its window. -/
def revokeReusedSession (session : UserSession) (userID now : ℕ) : SessionM Refreshed := do
  writeUserSessionDenyFence session.toSessionInfo now "refresh_reuse"
  let affected ← query (.revokeReused session.sid userID now) fun w =>
    (w.revocable session.sid userID now).isSome
  failIf (affected = false) .inactive
  let _ ← outcome (ε := SessionError)
    (writeUserSessionCache .readTombstone (session.revoke now "refresh_reuse").toSessionInfo none)
  throw .refreshReuse

/-- The loop of `RotateUserSessionRefresh`.  An error of the source that comes with a session (the race) is an
answer here. -/
def rotateLoop (call userID : ℕ) (sid presented next : String) (now grace : ℕ) : ℕ → SessionM Refreshed
  | 0 => throw .refreshInvalid
  | tries + 1 => do
    let deadline ← query .read (·.userSessionCacheDeadline)
    let some session ← query (.load call sid userID) fun w => w.ofUser sid userID | throw .recordNotFound
    failIf (¬ session.Usable now) .inactive
    if session.refreshHash = presented then
      let affected ← query (.exchange call sid userID now presented next (now + grace)) fun w =>
        (w.exchangeable sid userID now presented).isSome
      if affected then
        publishSnapshot (session.rotated next now (now + grace)) deadline
        return ⟨session.rotated next now (now + grace), false⟩
      else rotateLoop call userID sid presented next now grace tries
    else
      failIf (session.previousRefreshHash = "" ∨ session.previousRefreshHash ≠ presented) .refreshInvalid
      if now ≤ session.previousValidUntil then return ⟨session, true⟩
      else revokeReusedSession session userID now

def rotateUserSessionRefresh (call userID : ℕ) (sid presented next : String) (now grace : ℕ) :
    SessionM Refreshed := do
  failIf (userID = 0 ∨ sid = "" ∨ presented = "" ∨ next = "" ∨ presented = next) .invalid
  let clock ← query .read (·.unix)
  rotateLoop call userID sid presented next (if now = 0 then clock else now) grace 3

def revokeUserSession (userID : ℕ) (sid reason : String) : SessionM Bool := do
  failIf (userID = 0 ∨ sid = "") .invalid
  let now ← query .read (·.unix)
  match ← query (.find sid userID) fun w => w.ofUser sid userID with
  | none => return false
  | some candidate =>
    if candidate.Usable now then
      writeUserSessionDenyFence candidate.toSessionInfo now reason
      let revoked ← query (.revokeOne sid userID now reason) fun w => (w.revocable sid userID now).isSome
      if revoked then
        let _ ← outcome (ε := SessionError)
          (writeUserSessionCache .readTombstone (candidate.revoke now reason).toSessionInfo none)
        return true
      else return false
    else return false

def revokeUserSessionByRefreshHash (sid presented reason : String) : SessionM Bool := do
  failIf (sid = "" ∨ presented = "") .invalid
  let now ← query .read (·.unix)
  let target ← attempt (.revokeByHash sid presented now reason) fun w =>
    match w.logoutTarget sid presented now with
    | none => .ok none
    | some s => if w.refuses (SessionWorld.denied s.toSessionInfo .revoking now reason) then .error .inactive
        else .ok (some s)
  match target with
  | none => return false
  | some s =>
    let _ ← outcome (ε := SessionError)
      (writeUserSessionCache .lockedTombstone (s.revoke now reason).toSessionInfo none)
    return true

def advanceUserSessionAuthVersion (userID : ℕ) (sid : String) (version userAuthVersion nextUserAuthVersion : ℕ) :
    SessionM UserSession := do
  failIf (userID = 0 ∨ sid = "" ∨ version = 0 ∨ userAuthVersion = 0 ∨ nextUserAuthVersion ≤ userAuthVersion)
    .invalid
  let deadline ← query .read (·.userSessionCacheDeadline)
  let now ← query .read (·.unix)
  let session ← attempt (.advance sid userID now version userAuthVersion nextUserAuthVersion) fun w =>
    match w.advancedRow sid userID now version userAuthVersion nextUserAuthVersion with
    | none => .error .inactive
    | some s => .ok s
  match ← outcome (writeUserSessionCache .snapshot session.toSessionInfo (some deadline)) with
  | .ok _ => return session
  | .error .observationStale =>
    confirmUserSessionActiveSnapshot session.toSessionInfo
    return session
  | .error e => throw e

/-- Publish a deny state for each session of a batch. -/
def denyAll (now : ℕ) (reason : String) : List UserSession → SessionM Unit
  | [] => return ()
  | s :: rest => do
    writeUserSessionDenyFence s.toSessionInfo now reason
    denyAll now reason rest

/-- Publish the tombstones of a batch.  A failure is logged. -/
def buryAll (now : ℕ) (reason : String) : List UserSession → SessionM Unit
  | [] => return ()
  | s :: rest => do
    let _ ← outcome (ε := SessionError)
      (writeUserSessionCache .lockedTombstone (s.revoke now reason).toSessionInfo none)
    buryAll now reason rest

/-- The candidates of one batch of `revokeUserSessions`. -/
def revokeCandidates (userID now : ℕ) (excluded : String) (w : SessionWorld) : List UserSession :=
  (((w.sessions.rows.filter fun s => s.userID = userID ∧ s.status = .active ∧ now < s.expiresAt ∧
      (excluded = "" ∨ s.sid ≠ excluded)).insertionSort fun a b => a.sid ≤ b.sid)).take userSessionRevokeBatchSize

/-- The loop of `revokeUserSessions`, batch after batch until none is left.  The answer lists the revoked
sessions; the source returns their number. -/
def revokeLoop (userID now : ℕ) (excluded reason : String) : ℕ → List String → SessionM (List String)
  | 0, _ => throw .outOfFuel
  | fuel + 1, total => do
    let candidates ← query (.findMany userID now excluded) (revokeCandidates userID now excluded)
    if candidates = [] then return total
    else
      denyAll now reason candidates
      let revoked ← query (.revokeMany (candidates.map (·.sid)) now reason) fun w =>
        w.revocableMany (candidates.map (·.sid))
      buryAll now reason revoked
      revokeLoop userID now excluded reason fuel (total ++ revoked.map (·.sid))

def revokeUserSessions (userID : ℕ) (excluded reason : String) (fuel : ℕ) : SessionM (List String) := do
  failIf (userID = 0) .invalid
  let now ← query .read (·.unix)
  revokeLoop userID now excluded reason fuel []

/-! ## The system -/

/-- `RevokeOtherUserSessions` and `RevokeAllUserSessions` are `revokeUserSessions` with and without a session to
keep.  `wait` lets time pass. -/
inductive SessionCall where
  | create (session : UserSession)
  | getCached (sid : String)
  | rotate (userID : ℕ) (sid presented next : String) (now grace : ℕ)
  | revoke (userID : ℕ) (sid reason : String)
  | revokeByHash (sid presented reason : String)
  | advance (userID : ℕ) (sid : String) (version userAuthVersion nextUserAuthVersion : ℕ)
  | revokeMany (userID : ℕ) (excluded reason : String) (fuel : ℕ)
  | wait (ms : ℕ)
  deriving DecidableEq

inductive SessionAnswer where
  | unit (r : Except SessionError Unit)
  | info (r : Except SessionError SessionInfo)
  | refreshed (r : Except SessionError Refreshed)
  | revoked (r : Except SessionError Bool)
  | session (r : Except SessionError UserSession)
  | sids (r : Except SessionError (List String))
  deriving DecidableEq

def SessionCall.body (n : ℕ) : SessionCall → Prog SessionOp SessionWorld SessionAnswer
  | .create s => .unit <$> (createUserSession s).run
  | .getCached sid => .info <$> (getUserSessionCached sid).run
  | .rotate userID sid presented next now grace =>
    .refreshed <$> (rotateUserSessionRefresh n userID sid presented next now grace).run
  | .revoke userID sid reason => .revoked <$> (revokeUserSession userID sid reason).run
  | .revokeByHash sid presented reason => .revoked <$> (revokeUserSessionByRefreshHash sid presented reason).run
  | .advance userID sid version uav next =>
    .session <$> (advanceUserSessionAuthVersion userID sid version uav next).run
  | .revokeMany userID excluded reason fuel => .sids <$> (revokeUserSessions userID excluded reason fuel).run
  | .wait ms => issue (.wait ms) fun _ => .unit (.ok ())

abbrev SessionSys := Sys SessionCall SessionOp SessionWorld SessionAnswer

def SessionSys.run (s : SessionSys) (events : List (Event SessionCall)) : SessionSys :=
  Sys.run SessionOp.exec SessionCall.body s events

end NovaMaas.Auth
