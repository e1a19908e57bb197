/-
  The cached user and the fence around its authentication version (model/user_auth_cache.go,
  model/user_cache.go).

  Three keys per user live in the cache: the hash with the user's fields, a PENDING fence that is raised
  inside a restrictive database transaction before it commits, and the COMMITTED floor, which has no expiry.
  A snapshot below either of the two is neither stored nor served.

  Every script and every SQL statement is atomic.  An increment of the version and the commit of its
  transaction are one statement here (`.commit`): the row is locked from the update on, and nobody sees the
  row in between.  A transaction that is rolled back never issues it.
-/
import NovaMaas.Lib.Interleave

open Function

namespace NovaMaas.Auth

open Interleave Prog

/-! ## The store -/

/-- The columns of a user that go into the cache. -/
structure UserColumns where
  group    : String
  email    : String
  quota    : ℤ
  status   : ℤ
  role     : ℤ
  username : String
  setting  : String

structure User extends UserColumns where
  authVersion : ℤ

/-- `UserBase`: a user as the cache knows it. -/
structure UserBase extends User where
  id          : ℕ
  cacheSchema : ℕ

/-- The hash of a user.  The quota is a field of its own that may be missing. -/
structure UserHash where
  base      : UserBase
  hasQuota  : Bool
  expiresAt : ℕ

/-- The pending fence.  A key without an expiry has `none`. -/
structure PendingFence where
  version   : ℤ
  expiresAt : Option ℕ

def userCacheSchemaVersion : ℕ := 2

/-- A row from before the column counts as version 1. -/
def nextAuthVersion (found : ℤ) : ℤ := (if found < 1 then 1 else found) + 1

/-- The database, the cache and the one clock both of them read (milliseconds). -/
structure AuthWorld where
  now          : ℕ
  cacheSeconds : ℤ
  users        : ℕ → Option User
  hash         : ℕ → Option UserHash
  fence        : ℕ → Option PendingFence
  committed    : ℕ → Option ℤ

namespace AuthWorld

variable (w : AuthWorld) (id : ℕ)

def userCacheTTLSeconds : ℕ := if w.cacheSeconds ≤ 0 then 60 else w.cacheSeconds.toNat

def userAuthFenceTTLSeconds : ℕ := w.userCacheTTLSeconds + max w.userCacheTTLSeconds 60

/-- A key is there until its time comes. -/
def liveHash : Option UserHash := (w.hash id).filter fun h => w.now ≤ h.expiresAt

def liveFence : Option PendingFence :=
  (w.fence id).filter fun f => match f.expiresAt with | none => true | some t => w.now ≤ t

def pendingVersion : ℤ := ((w.liveFence id).map (·.version)).getD 0

def committedVersion : ℤ := (w.committed id).getD 0

def hashVersion : ℤ := ((w.liveHash id).map (·.base.authVersion)).getD 0

/-- `getUserAuthVersionFloor`: one MGET of the fence and the committed floor; the larger one counts, if it
is positive. -/
def getUserAuthVersionFloor : ℤ := max (max 0 (w.pendingVersion id)) (w.committedVersion id)

end AuthWorld

/-! ## Scripts and statements -/

/-- What one script or one SQL statement is asked to do.  `read` stands for every one that only reads. -/
inductive AuthOp where
  | read
  | writeUserCache (user : UserBase) (includeQuota : Bool)
  | setFence (id : ℕ) (version : ℤ)
  | publishCommitted (id : ℕ) (version : ℤ)
  | updateField (id : ℕ) (version : ℤ) (edit : UserColumns → UserColumns)
  | quotaDelta (id : ℕ) (delta : ℤ)
  | delHash (id : ℕ)
  | commit (id : ℕ) (found : ℤ) (edit : UserColumns → UserColumns) (delete : Bool)
  | update (id : ℕ) (edit : UserColumns → UserColumns)
  | wait (ms : ℕ)

namespace AuthWorld

variable (w : AuthWorld) (id : ℕ)

/-- The guard all writes of a snapshot share. -/
def refuses (incoming : ℤ) : Bool :=
  incoming < w.pendingVersion id || incoming < w.committedVersion id || incoming < w.hashVersion id

/-- The committed floor rises to `incoming`, and a fence it has caught up with goes. -/
def raiseFloor (incoming : ℤ) : AuthWorld :=
  { w with
    committed := if w.committedVersion id < incoming then update w.committed id (some incoming) else w.committed
    fence := if 0 < w.pendingVersion id ∧ w.pendingVersion id ≤ incoming then update w.fence id none
      else w.fence }

def putHash (h : UserHash) : AuthWorld := { w with hash := update w.hash id (some h) }

/-- The script of `writeUserCache`. -/
def writeUserCache (user : UserBase) (includeQuota : Bool) : AuthWorld :=
  if w.refuses user.id user.authVersion then w
  else
    let w' := w.raiseFloor user.id user.authVersion
    let expiresAt := w.now + 1000 * w.userCacheTTLSeconds
    match w.liveHash user.id with
    | none => if includeQuota then w'.putHash user.id ⟨user, true, expiresAt⟩ else w'
    | some h =>
      let quota := if includeQuota && !h.hasQuota then user.quota else h.base.quota
      w'.putHash user.id ⟨{ user with quota }, h.hasQuota || includeQuota, expiresAt⟩

/-- The script of `SetUserAuthVersionFence`. -/
def setFence (version : ℤ) : AuthWorld :=
  let expiresAt := some (w.now + 1000 * w.userAuthFenceTTLSeconds)
  if w.pendingVersion id < version then { w with fence := update w.fence id (some ⟨version, expiresAt⟩) }
  else
    match w.liveFence id with
    | none => w
    | some f =>
      if w.pendingVersion id = version ∨ f.expiresAt = none then
        { w with fence := update w.fence id (some { f with expiresAt }) }
      else w

/-- The script of `updateUserCacheFieldAtVersion`. -/
def updateField (version : ℤ) (edit : UserColumns → UserColumns) : AuthWorld :=
  if w.refuses id version then w
  else
    let w' := w.raiseFloor id version
    match w.liveHash id with
    | none => w'
    | some h =>
      if w.hashVersion id ≠ version then w'
      else
        let cols := edit h.base.toUserColumns
        w'.putHash id { h with
          base := { h.base with
            toUserColumns := { cols with quota := h.base.quota }
            cacheSchema := userCacheSchemaVersion } }

/-- The guarded quota script: a hash that is absent, foreign or without a quota is left alone. -/
def quotaDelta (delta : ℤ) : AuthWorld :=
  match w.liveHash id with
  | none => w
  | some h =>
    if h.base.id ≠ id ∨ h.base.cacheSchema ≠ userCacheSchemaVersion ∨ ¬ h.hasQuota then w
    else w.putHash id { h with base := { h.base with quota := h.base.quota + delta } }

/-- `UPDATE users SET auth_version = next WHERE id = ? AND auth_version = found`, with whatever else the
enclosing transaction does to the row, and its commit. -/
def commit (found : ℤ) (edit : UserColumns → UserColumns) (delete : Bool) : AuthWorld :=
  match w.users id with
  | none => w
  | some u =>
    if u.authVersion ≠ found then w
    else if delete then { w with users := update w.users id none }
    else { w with users := update w.users id (some ⟨edit u.toUserColumns, nextAuthVersion found⟩) }

/-- An update of other columns. -/
def update (edit : UserColumns → UserColumns) : AuthWorld :=
  match w.users id with
  | none => w
  | some u => { w with users := Function.update w.users id (some { u with toUserColumns := edit u.toUserColumns }) }

end AuthWorld

def AuthOp.exec : AuthOp → AuthWorld → AuthWorld
  | .read, w => w
  | .writeUserCache user includeQuota, w => w.writeUserCache user includeQuota
  | .setFence id version, w => w.setFence id version
  | .publishCommitted id version, w => w.raiseFloor id version
  | .updateField id version edit, w => w.updateField id version edit
  | .quotaDelta id delta, w => w.quotaDelta id delta
  | .delHash id, w => { w with hash := Function.update w.hash id none }
  | .commit id found edit delete, w => w.commit id found edit delete
  | .update id edit, w => w.update id edit
  | .wait ms, w => { w with now := w.now + ms }

/-! ## Calls -/

inductive AuthError where
  | cacheMiss
  | schemaStale
  | cachePending
  | invalidVersion
  | invalidUser
  | recordNotFound
  | versionConflict
  | rolledBack
  | groupBusy

/-- A call that can fail. -/
abbrev AuthM := ExceptT AuthError (Prog AuthOp AuthWorld)

def User.toBaseUser (user : User) (id : ℕ) : UserBase := { user with id, cacheSchema := userCacheSchemaVersion }

/-- `GetUserById`. -/
def getUserById (id : ℕ) : AuthM User :=
  attempt .read fun w =>
    if id = 0 then .error .invalidUser
    else match w.users id with
      | none => .error .recordNotFound
      | some user => .ok user

def writeUserCache (user : UserBase) (includeQuota : Bool) : AuthM Unit := do
  if user.id = 0 then return ()
  else
    failIf (user.authVersion ≤ 0) .invalidVersion
    attempt (.writeUserCache user includeQuota) fun w =>
      if w.refuses user.id user.authVersion then .error .cachePending else .ok ()

def populateUserCache (id : ℕ) (user : User) : AuthM Unit := writeUserCache (user.toBaseUser id) true

def updateUserCache (id : ℕ) (user : User) : AuthM Unit := writeUserCache (user.toBaseUser id) false

/-- A read of the hash, then of the floor. -/
def cacheGetUserBase (id : ℕ) : AuthM UserBase := do
  let some h ← query .read fun w => w.liveHash id | throw .cacheMiss
  failIf (h.base.id ≠ id ∨ h.base.cacheSchema ≠ userCacheSchemaVersion ∨ h.base.authVersion ≤ 0) .schemaStale
  let floor ← query .read fun w => w.getUserAuthVersionFloor id
  failIf (h.base.authVersion < floor) .cachePending
  return if h.hasQuota then h.base else { h.base with quota := 0 }

/-- `GetUserCache` after the cache did not answer: the database, unless a fence is ahead of it.  Only a
refused write of the cache is an error. -/
def hydrateUser (id : ℕ) : AuthM UserBase := do
  let user ← getUserById id
  let floor ← query .read fun w => w.getUserAuthVersionFloor id
  failIf (user.authVersion < floor) .cachePending
  match ← outcome (populateUserCache id user) with
  | .error .cachePending => throw .cachePending
  | _ => return user.toBaseUser id

def getUserCache (id : ℕ) : AuthM UserBase := do
  match ← outcome (cacheGetUserBase id) with
  | .ok user => return user
  | .error _ => hydrateUser id

def setUserAuthVersionFence (id : ℕ) (version : ℤ) : AuthM Unit := do
  failIf (id = 0 ∨ version ≤ 0) .invalidUser
  query (.setFence id version) fun _ => ()

def publishCommittedUserAuthVersion (id : ℕ) (version : ℤ) : AuthM Unit := do
  failIf (id = 0 ∨ version ≤ 0) .invalidUser
  query (.publishCommitted id version) fun _ => ()

/-- What the transaction around an increment does besides it. -/
structure AuthTx where
  edit   : UserColumns → UserColumns
  delete : Bool
  /-- The transaction fails after the increment and is rolled back. -/
  aborts : Bool

/-- `IncrementUserAuthVersionWithTx` inside its transaction: read the row, raise the fence, then update and
commit.  The source tries three times. -/
def incrementUserAuthVersion (id : ℕ) (tx : AuthTx) : ℕ → AuthM ℤ
  | 0 => throw .versionConflict
  | tries + 1 => do
    let some user ← query .read fun w => w.users id | throw .recordNotFound
    let next := nextAuthVersion user.authVersion
    setUserAuthVersionFence id next
    failIf tx.aborts .rolledBack
    let affected ← query (.commit id user.authVersion tx.edit tx.delete) fun w =>
      decide ((w.users id).map (·.authVersion) = some user.authVersion)
    if affected then return next else incrementUserAuthVersion id tx tries

/-- `PublishUserAuthCache`. -/
def publishUserAuthCache (id : ℕ) : AuthM Unit := do
  let user ← getUserById id
  updateUserCache id user

/-- `BumpUserAuthVersion`, and its siblings that change the row in the same transaction. -/
def bumpUserAuthVersion (id : ℕ) (tx : AuthTx) : AuthM ℤ := do
  let next ← incrementUserAuthVersion id tx 3
  publishUserAuthCache id
  return next

/-- `User.Delete` and `User.HardDelete`: the version is published without a snapshot. -/
def deleteUser (id : ℕ) (aborts : Bool) : AuthM ℤ := do
  let next ← incrementUserAuthVersion id ⟨fun u => u, true, aborts⟩ 3
  publishCommittedUserAuthVersion id next
  query (.delHash id) fun _ => next

/-- An edit of columns the version does not guard.  The row as the transaction left it goes to the cache. -/
def editUser (id : ℕ) (edit : UserColumns → UserColumns) : AuthM Unit := do
  let some user ← query (.update id edit) fun w => (w.update id edit).users id | throw .recordNotFound
  updateUserCache id user

def updateUserCacheFieldAtVersion (id : ℕ) (edit : UserColumns → UserColumns) (version : ℤ) : AuthM Unit := do
  failIf (id = 0 ∨ version ≤ 0) .invalidVersion
  attempt (.updateField id version edit) fun w =>
    if w.refuses id version then .error .cachePending else .ok ()

/-- `updateUserCacheField`. -/
def updateUserCacheField (id : ℕ) (edit : UserColumns → UserColumns) : AuthM Unit := do
  let user ← getUserById id
  failIf (user.authVersion ≤ 0) .invalidVersion
  updateUserCacheFieldAtVersion id edit user.authVersion

def setGroup (group : String) (u : UserColumns) : UserColumns := { u with group }

/-- The repair loop of `RefreshUserGroupCache`. -/
def refreshUserGroupCacheLoop (id : ℕ) : ℕ → User → AuthM Unit
  | 0, authoritative => do
    updateUserCacheFieldAtVersion id (setGroup authoritative.group) authoritative.authVersion
    throw .groupBusy
  | tries + 1, authoritative => do
    updateUserCacheFieldAtVersion id (setGroup authoritative.group) authoritative.authVersion
    let verified ← getUserById id
    if verified.authVersion = authoritative.authVersion ∧ verified.group = authoritative.group then return ()
    else refreshUserGroupCacheLoop id tries verified

def refreshUserGroupCache (id : ℕ) : AuthM Unit := do
  let authoritative ← getUserById id
  refreshUserGroupCacheLoop id 3 authoritative

/-! ## The system -/

/-- The calls that touch the three keys or the row.  The last two are the environment: time, and an eviction. -/
inductive AuthCall where
  | getUserCache (id : ℕ)
  | publishUserAuthCache (id : ℕ)
  | bumpUserAuthVersion (id : ℕ) (tx : AuthTx)
  | deleteUser (id : ℕ) (aborts : Bool)
  | editUser (id : ℕ) (edit : UserColumns → UserColumns)
  | updateUserCacheField (id : ℕ) (edit : UserColumns → UserColumns)
  | refreshUserGroupCache (id : ℕ)
  | cacheIncrUserQuota (id : ℕ) (delta : ℤ)
  | invalidateUserCache (id : ℕ)
  | wait (ms : ℕ)

/-- What a call returns. -/
inductive AuthAnswer where
  | user (r : Except AuthError UserBase)
  | version (r : Except AuthError ℤ)
  | unit (r : Except AuthError Unit)

def AuthCall.body (_ : ℕ) : AuthCall → Prog AuthOp AuthWorld AuthAnswer
  | .getUserCache id => .user <$> (Auth.getUserCache id).run
  | .publishUserAuthCache id => .unit <$> (Auth.publishUserAuthCache id).run
  | .bumpUserAuthVersion id tx => .version <$> (Auth.bumpUserAuthVersion id tx).run
  | .deleteUser id aborts => .version <$> (Auth.deleteUser id aborts).run
  | .editUser id edit => .unit <$> (Auth.editUser id edit).run
  | .updateUserCacheField id edit => .unit <$> (Auth.updateUserCacheField id edit).run
  | .refreshUserGroupCache id => .unit <$> (Auth.refreshUserGroupCache id).run
  | .cacheIncrUserQuota id delta => issue (.quotaDelta id delta) fun _ => .unit (.ok ())
  | .invalidateUserCache id => issue (.delHash id) fun _ => .unit (.ok ())
  | .wait ms => issue (.wait ms) fun _ => .unit (.ok ())

abbrev AuthSys := Sys AuthCall AuthOp AuthWorld AuthAnswer

end NovaMaas.Auth
