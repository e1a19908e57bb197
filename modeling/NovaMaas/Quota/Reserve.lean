/-
  Reserving quota (model/quota_reserve.go), and everything else that moves the quota of one token or one user:
  model/token.go, model/token_cache.go, model/user.go, model/user_cache.go, the batch of model/utils.go.

  The quota stands in two places, the ROW of the database and a HASH of the cache.  While the hash is there it
  decides, and the row is told afterwards: by the same call, or in batch mode by the next flush of the process the
  call ran in.  A hash that expires is filled again from the row, by whoever misses it.  Credits and charges go to
  the row or the batch, and a task of the goroutine pool tells the hash later.

  A run is about ONE token or ONE user, `World` is what there is of it.  Any number of processes share the row and
  the hash, each has a batch of its own, and the cache may be unreachable, or do what it is asked without its
  answer coming back, for any time.

  The books (`books`, `released`, `toppedUp`, and the fields `held` and `gain` of a batch) are not in the program: they
  note, per call, what was reserved and which of the two places still waits to hear of it.
-/
import NovaMaas.Lib.Interleave
import NovaMaas.Lib.Shares

namespace NovaMaas.Quota

open Interleave

/-! ## The world -/

/-- Whether a request to the cache is carried out, and whether its answer arrives. -/
inductive Link where
  | up
  | mute
  | down
  deriving DecidableEq

/-- What one call has to do with the books: the reservation it was granted, how much of that the row has yet to
hear of, and the credits the row, or the hash, has yet to hear of. -/
structure Share where
  granted   : ℤ := 0
  unsettled : ℤ := 0
  coming    : ℤ := 0
  due       : ℤ := 0

instance : Inhabited Share := ⟨{}⟩

/-- The entry of `batchUpdateStores` for this token or user: the sum of the recorded deltas, and of it the
reservations and the credits. -/
structure Batch where
  value : ℤ := 0
  held  : ℤ := 0
  gain  : ℤ := 0

instance : Inhabited Batch := ⟨{}⟩

/-- What a credit is for. -/
inductive Purpose where
  | release
  | topUp

structure World where
  /-- `remain_quota` of the token, `quota` of the user. -/
  quota    : ℤ
  deleted  : Bool
  /-- `RemainQuota` of the token's hash, `Quota` of the user's. -/
  hash     : Option ℤ
  /-- No snapshot may fill the hash: the token's fence, or a version floor above the user's. -/
  fence    : Bool
  link     : Link
  /-- The deltas of the tasks that wait in the goroutine pools. -/
  pool     : List ℤ
  stores   : Shares Batch
  books    : Shares Share
  released : ℤ
  toppedUp : ℤ

/-- What a delta is to the books.  A credit has two sides, the row's and the hash's. -/
inductive Booking where
  | charge
  | reserve
  | first (why : Purpose)
  | second
  | only (why : Purpose)

namespace Booking

variable (delta : ℤ) (s : Share)

/-- The part of a call after the row, or a batch, has taken its `delta`. -/
def landed : Booking → Share
  | .charge => s
  | .reserve => { s with unsettled := s.unsettled + delta }
  | .first _ => { s with due := s.due + delta }
  | .second => { s with coming := s.coming - delta }
  | .only _ => s

/-- After the row has refused it.  A reservation is off then, and the hash is to get back what it gave. -/
def refused : Booking → Share
  | .reserve => { s with granted := s.granted + delta, unsettled := s.unsettled + delta, due := s.due - delta }
  | .second => { s with coming := s.coming - delta }
  | _ => s

/-- After a task for the hash was put into the pool. -/
def spawned : Booking → Share
  | .first _ => { s with coming := s.coming + delta }
  | .second => { s with due := s.due - delta }
  | _ => s

/-- A batch after `delta` was recorded in it. -/
def recorded (b : Batch) : Booking → Batch
  | .charge => { b with value := b.value + delta }
  | .reserve => { b with value := b.value + delta, held := b.held - delta }
  | _ => { b with value := b.value + delta, gain := b.gain + delta }

/-- What it brings in. -/
def income : Booking → ℤ
  | .first _ => delta
  | .only _ => delta
  | _ => 0

end Booking

namespace World

variable (w : World)

/-- The answer of the cache arrives. -/
def answers : Bool := w.link = .up

def own (n : ℕ) : Share := w.books.part n

def putOwn (n : ℕ) (s : Share) : World := { w with books := w.books.set n s }

def credit (amount : ℤ) : Booking → World
  | .first .release => { w with released := w.released + amount }
  | .first .topUp => { w with toppedUp := w.toppedUp + amount }
  | .only .release => { w with released := w.released + amount }
  | .only .topUp => { w with toppedUp := w.toppedUp + amount }
  | _ => w

/-! ## Scripts of the cache -/

/-- `userQuotaReserveScript`, `tokenQuotaReserveScript`. -/
def reserveHash (n : ℕ) (amount : ℤ) : World :=
  match w.hash with
  | none => w
  | some h =>
    if w.link = .down ∨ h < amount then w
    else
      let w' := { w with hash := some (h - amount) }
      -- without its answer the caller takes nothing for granted
      if w.link = .mute then w'
      else
        let s := w.own n
        w'.putOwn n { s with granted := s.granted + amount, unsettled := s.unsettled + amount }

/-- `userQuotaDeltaScript`, `tokenQuotaDeltaScript`. -/
def applyDelta (delta : ℤ) : World :=
  match w.hash with
  | none => w
  | some h => if w.link = .down then w else { w with hash := some (h + delta) }

/-- A call tells the hash of `delta` itself. -/
def tellHash (n : ℕ) (delta : ℤ) : World :=
  let s := w.own n
  (w.applyDelta delta).putOwn n { s with due := s.due - delta }

/-- The task `k` of the pool runs. -/
def runTask (k : ℕ) : World :=
  match w.pool[k]? with
  | none => w
  | some delta => { w.applyDelta delta with pool := w.pool.eraseIdx k }

/-- `gopool.Go(func() { cacheApply…QuotaDelta(delta) })`. -/
def spawn (n : ℕ) (delta : ℤ) (as : Booking) : World :=
  ({ w with pool := w.pool ++ [delta] }.putOwn n (as.spawned delta (w.own n))).credit delta as

/-- The hash is cold, and nothing stops a snapshot. -/
def fills : Bool := w.hash.isNone && !w.fence && w.link ≠ .down

/-- `cacheInitToken`; for a user `writeUserCache` with the quota, which a hash that is there keeps. -/
def fill (quota : ℤ) : World := if w.fills then { w with hash := some quota } else w

/-! ## Statements of the database -/

/-- The row is there, and at most `cap` where the statement has such a condition. -/
def rowTakes (cap : Option ℤ) : Bool := !w.deleted && cap.all (w.quota ≤ ·)

/-- `UPDATE … SET quota = quota + delta WHERE id = ? [AND quota <= cap]`. -/
def addRow (n : ℕ) (delta : ℤ) (cap : Option ℤ) (as : Booking) : World :=
  if w.rowTakes cap then
    ({ w with quota := w.quota + delta }.putOwn n (as.landed delta (w.own n))).credit delta as
  else w.putOwn n (as.refused delta (w.own n))

/-- `reserveUserQuotaDB`, `reserveTokenQuotaDB`: the row decides. -/
def rowCovers (quota : ℤ) : Bool := !w.deleted && quota ≤ w.quota

def reserveRow (n : ℕ) (quota : ℤ) : World :=
  if w.rowCovers quota then
    let s := w.own n
    { w with quota := w.quota - quota }.putOwn n { s with granted := s.granted + quota }
  else w

/-- `token.Update()`: the quota the caller wants the token to have.  What it adds is a top-up. -/
def setRow (quota : ℤ) : World :=
  if w.deleted then w
  else { w with quota := quota }.credit (max (quota - w.quota) 0) (.only .topUp)

/-! ## The batch of a process -/

/-- `addNewRecord`. -/
def record (node n : ℕ) (delta : ℤ) (as : Booking) : World :=
  ({ w with stores := w.stores.set node (as.recorded delta (w.stores.part node)) }.putOwn n
    (as.landed delta (w.own n))).credit delta as

/-- `batchUpdate` swaps the store for an empty one. -/
def takeBatch (node n : ℕ) : World :=
  let b := w.stores.part node
  let s := w.own n
  { w with stores := w.stores.set node {} }.putOwn n
    { s with unsettled := s.unsettled + b.held, coming := s.coming + b.gain }

/-- `batchUpdate` writes what it has taken. -/
def landBatch (n : ℕ) (b : Batch) : World :=
  let s := w.own n
  { w with quota := if w.deleted then w.quota else w.quota + b.value }.putOwn n
    { s with unsettled := s.unsettled - b.held, coming := s.coming - b.gain }

end World

/-- One script, one SQL statement, or one step of a process on what it shares.  `read` stands for every one that
only reads. -/
inductive QuotaOp where
  | read
  | reserveHash (n : ℕ) (amount : ℤ)
  | tellHash (n : ℕ) (delta : ℤ)
  | spawn (n : ℕ) (delta : ℤ) (as : Booking)
  | runTask (k : ℕ)
  | fill (quota : ℤ)
  | dropHash
  | expireHash
  | setFence (fence : Bool)
  | setLink (link : Link)
  | addRow (n : ℕ) (delta : ℤ) (cap : Option ℤ) (as : Booking)
  | reserveRow (n : ℕ) (quota : ℤ)
  | setRow (quota : ℤ)
  | deleteRow
  | record (node n : ℕ) (delta : ℤ) (as : Booking)
  | takeBatch (node n : ℕ)
  | landBatch (n : ℕ) (b : Batch)

def QuotaOp.exec : QuotaOp → World → World
  | .read, w => w
  | .reserveHash n amount, w => w.reserveHash n amount
  | .tellHash n delta, w => w.tellHash n delta
  | .spawn n delta as, w => w.spawn n delta as
  | .runTask k, w => w.runTask k
  | .fill quota, w => w.fill quota
  | .dropHash, w => if w.link = .down then w else { w with hash := none }
  | .expireHash, w => { w with hash := none }
  | .setFence fence, w => if w.link = .down ∧ fence then w else { w with fence := fence }
  | .setLink link, w => { w with link := link }
  | .addRow n delta cap as, w => w.addRow n delta cap as
  | .reserveRow n quota, w => w.reserveRow n quota
  | .setRow quota, w => w.setRow quota
  | .deleteRow, w => { w with deleted := true }
  | .record node n delta as, w => w.record node n delta as
  | .takeBatch node n, w => w.takeBatch node n
  | .landBatch n b, w => w.landBatch n b

/-! ## Calls -/

abbrev QuotaM := Prog QuotaOp World

structure Config where
  redisEnabled       : Bool
  batchUpdateEnabled : Bool

inductive QuotaError where
  | negativeQuota
  | recordNotFound
  | walletQuotaLimitExceeded
  | authCachePending
  deriving DecidableEq

inductive Reply where
  | reserved (granted : Bool)
  | done
  | failed (e : QuotaError)
  deriving DecidableEq

inductive CacheQuotaResult where
  | insufficient
  | ok
  | miss
  deriving DecidableEq

def maxWalletQuota : ℤ := 2 ^ 53 - 1

def look {α : Type} (f : World → α) : QuotaM α := Prog.issue .read f

def act (op : QuotaOp) : QuotaM Unit := Prog.issue op fun _ => ()

/-- `if c { … }`, where there is nothing to do otherwise. -/
def whenOn (c : Bool) (p : QuotaM Unit) : QuotaM Unit := if c then p else pure ()

/-- The row a `First` finds. -/
def findRow (w : World) : Option ℤ := if w.deleted then none else some w.quota

/-- What the reserve script answers; no answer is an error. -/
def reserveResult (amount : ℤ) (w : World) : Option CacheQuotaResult :=
  if !w.answers then none
  else
    match w.hash with
    | none => some .miss
    | some h => if h < amount then some .insufficient else some .ok

/-- `cacheTryReserveUserQuota`, `cacheTryReserveTokenQuota`. -/
def cacheTryReserveQuota (n : ℕ) (amount : ℤ) : QuotaM (Option CacheQuotaResult) :=
  Prog.issue (.reserveHash n amount) (reserveResult amount)

section

variable (cfg : Config) (node n : ℕ)

/-- `persistUserQuotaDelta`, `persistTokenQuotaDelta`; `false` is `gorm.ErrRecordNotFound`. -/
def persistQuotaDelta (delta : ℤ) : QuotaM Bool :=
  if cfg.batchUpdateEnabled then Prog.issue (.record node n delta .reserve) fun _ => true
  else Prog.issue (.addRow n delta none .reserve) (·.rowTakes none)

def reserveQuotaDB (quota : ℤ) : QuotaM Reply :=
  Prog.issue (.reserveRow n quota) fun w => .reserved (w.rowCovers quota)

/-- What the hash says.  After a miss it is asked once more, if it could be filled. -/
def askHash (hydrate : QuotaM (Option QuotaError)) (quota : ℤ) : QuotaM (Option CacheQuotaResult) := do
  let first ← cacheTryReserveQuota n quota
  if first = some .miss then do
    let hydrateErr ← hydrate
    if hydrateErr = none then cacheTryReserveQuota n quota else pure first
  else pure first

/-- What the hash has granted is persisted, or given back. -/
def persistReserved (quota : ℤ) : QuotaM Reply := do
  let persisted ← persistQuotaDelta cfg node n (-quota)
  if persisted then pure (.reserved true)
  else do
    act (.tellHash n quota)
    pure (.failed .recordNotFound)

/-- What `TryReserveUserQuota` and `TryReserveTokenQuota` share; `hydrate` is how a miss is filled. -/
def tryReserveQuota (hydrate : QuotaM (Option QuotaError)) (quota : ℤ) : QuotaM Reply := do
  match ← askHash n hydrate quota with
  | none => reserveQuotaDB n quota
  | some .miss => reserveQuotaDB n quota
  | some .insufficient => pure (.reserved false)
  | some .ok => persistReserved cfg node n quota

/-- An increment of the row: recorded in the batch, or written at once. -/
def toRow (batched : Bool) (delta : ℤ) (as : Booking) : QuotaM Unit :=
  if batched then act (.record node n delta as) else act (.addRow n delta none as)

/-! ### Tokens -/

/-- `GetTokenByKey`; the answer is its error. -/
def getTokenByKey (fromDB : Bool) : QuotaM (Option QuotaError) := do
  let found ← (if !fromDB && cfg.redisEnabled then look fun w => w.answers && w.hash.isSome else pure false)
  if found then pure none
  else do
    match ← look findRow with
    | none => pure (some .recordNotFound)
    | some quota =>
      whenOn cfg.redisEnabled (act (.fill quota))
      pure none

def increaseTokenQuota (why : Purpose) (quota : ℤ) : QuotaM Reply :=
  if quota < 0 then pure (.failed .negativeQuota)
  else do
    whenOn cfg.redisEnabled (act (.spawn n quota (.first why)))
    toRow node n cfg.batchUpdateEnabled quota (if cfg.redisEnabled then .second else .only why)
    pure .done

def decreaseTokenQuota (quota : ℤ) : QuotaM Reply :=
  if quota < 0 then pure (.failed .negativeQuota)
  else do
    whenOn cfg.redisEnabled (act (.spawn n (-quota) .charge))
    toRow node n cfg.batchUpdateEnabled (-quota) .charge
    pure .done

def tryReserveTokenQuota (quota : ℤ) (unlimited : Bool) : QuotaM Reply :=
  if quota < 0 then pure (.failed .negativeQuota)
  else if quota = 0 then pure (.reserved true)
  else if unlimited then do
    let _ ← decreaseTokenQuota cfg node n quota
    pure (.reserved true)
  else if !cfg.redisEnabled then reserveQuotaDB n quota
  else tryReserveQuota cfg node n (getTokenByKey cfg true) quota

def invalidateTokenCacheForMutation : QuotaM Unit :=
  if cfg.redisEnabled then do
    let reached ← Prog.issue (.setFence true) (·.answers)
    whenOn reached (act .dropHash)
  else pure ()

/-- `token.Update()`. -/
def updateToken (remain : ℤ) : QuotaM Reply := do
  invalidateTokenCacheForMutation cfg
  act (.setRow remain)
  pure .done

/-- `token.Delete()`. -/
def deleteToken : QuotaM Reply := do
  invalidateTokenCacheForMutation cfg
  act .deleteRow
  pure .done

/-! ### Users -/

/-- `GetUserCache`; the answer is its error. -/
def getUserCache : QuotaM (Option QuotaError) := do
  let hit ← (if cfg.redisEnabled then look fun w => w.answers && w.hash.isSome else pure false)
  -- a hash below the version floor is not served
  let served ← (if hit then look fun w => w.answers && !w.fence else pure false)
  if served then pure none
  else do
    match ← look findRow with
    | none => pure (some .recordNotFound)
    | some quota =>
      if cfg.redisEnabled then do
        let pending ← look fun w => w.answers && w.fence
        if pending then pure (some .authCachePending)
        else Prog.issue (.fill quota) fun w => if w.answers && w.fence then some .authCachePending else none
      else pure none

/-- `increaseUserQuota`; the answer is its error. -/
def increaseUserRow (quota : ℤ) (as : Booking) : QuotaM (Option QuotaError) := do
  let taken ← Prog.issue (.addRow n quota (some (maxWalletQuota - quota)) as) (·.rowTakes (some (maxWalletQuota - quota)))
  if taken then pure none
  else do
    let found ← look fun w => !w.deleted
    pure (some (if found then .walletQuotaLimitExceeded else .recordNotFound))

/-- `gopool.Go` with `cacheIncrUserQuota`, which does nothing without a cache. -/
def spawnUserDelta (delta : ℤ) (as : Booking) : QuotaM Unit :=
  whenOn cfg.redisEnabled (act (.spawn n delta as))

def increaseUserQuota (why : Purpose) (quota : ℤ) (db : Bool) : QuotaM Reply :=
  if quota < 0 then pure (.failed .negativeQuota)
  else if quota > maxWalletQuota then pure (.failed .walletQuotaLimitExceeded)
  else if !db && cfg.batchUpdateEnabled then do
    act (.record node n quota (if cfg.redisEnabled then .first why else .only why))
    spawnUserDelta cfg n quota .second
    pure .done
  else do
    match ← increaseUserRow n quota (if cfg.redisEnabled then .first why else .only why) with
    | some e => pure (.failed e)
    | none => do
      spawnUserDelta cfg n quota .second
      pure .done

def decreaseUserQuota (quota : ℤ) (db : Bool) : QuotaM Reply :=
  if quota < 0 then pure (.failed .negativeQuota)
  else do
    spawnUserDelta cfg n (-quota) .charge
    toRow node n (!db && cfg.batchUpdateEnabled) (-quota) .charge
    pure .done

def tryReserveUserQuota (quota : ℤ) : QuotaM Reply :=
  if quota < 0 then pure (.failed .negativeQuota)
  else if quota = 0 then pure (.reserved true)
  else if !cfg.redisEnabled then reserveQuotaDB n quota
  else tryReserveQuota cfg node n (getUserCache cfg) quota

/-- A top-up or a redemption: `creditTopUpQuota` in its transaction, then `syncCreditUserQuotaCache`. -/
def creditTopUp (quota : ℤ) : QuotaM Reply :=
  if quota ≤ 0 ∨ quota > maxWalletQuota then pure (.failed .walletQuotaLimitExceeded)
  else do
    match ← increaseUserRow n quota (if cfg.redisEnabled then .first .topUp else .only .topUp) with
    | some e => pure (.failed e)
    | none => do
      whenOn cfg.redisEnabled (act (.tellHash n quota))
      pure .done

/-- `TransferAffQuotaToQuota` tells nobody. -/
def transferAffQuotaToQuota (quota : ℤ) : QuotaM Reply := do
  act (.addRow n quota none (if quota ≤ 0 then .charge else .only .topUp))
  pure .done

/-- A transaction of the wallet ledger that moves the wallet by `delta` and commits, then `invalidateUserCache`.
Whether it does is the ledger's business. -/
def changeWallet (delta : ℤ) : QuotaM Reply := do
  act (.addRow n delta none (if delta ≤ 0 then .charge else .only .topUp))
  whenOn cfg.redisEnabled (act .dropHash)
  pure .done

def deleteUser : QuotaM Reply := do
  act .deleteRow
  whenOn cfg.redisEnabled (act .dropHash)
  pure .done

/-! ### The batch -/

def batchUpdate : QuotaM Reply := do
  let b ← Prog.issue (.takeBatch node n) (·.stores.part node)
  act (.landBatch n b)
  pure .done

end

/-! ## The system -/

inductive Request where
  | tryReserveTokenQuota (quota : ℤ) (unlimited : Bool)
  | increaseTokenQuota (why : Purpose) (quota : ℤ)
  | decreaseTokenQuota (quota : ℤ)
  | getTokenByKey (fromDB : Bool)
  | updateToken (remain : ℤ)
  | deleteToken
  | tryReserveUserQuota (quota : ℤ)
  | increaseUserQuota (why : Purpose) (quota : ℤ) (db : Bool)
  | decreaseUserQuota (quota : ℤ) (db : Bool)
  | getUserCache
  | creditTopUp (quota : ℤ)
  | transferAffQuotaToQuota (quota : ℤ)
  | changeWallet (delta : ℤ)
  | deleteUser
  | batchUpdate
  | poolTask (k : ℕ)
  | expireHash
  | fence (raised : Bool)
  | link (link : Link)

/-- A request, and the process that serves it. -/
structure Call where
  node    : ℕ
  request : Request

def Call.body (cfg : Config) (n : ℕ) (c : Call) : QuotaM Reply :=
  match c.request with
  | .tryReserveTokenQuota quota unlimited => Quota.tryReserveTokenQuota cfg c.node n quota unlimited
  | .increaseTokenQuota why quota => Quota.increaseTokenQuota cfg c.node n why quota
  | .decreaseTokenQuota quota => Quota.decreaseTokenQuota cfg c.node n quota
  | .getTokenByKey fromDB => do
    let _ ← Quota.getTokenByKey cfg fromDB
    pure .done
  | .updateToken remain => Quota.updateToken cfg remain
  | .deleteToken => Quota.deleteToken cfg
  | .tryReserveUserQuota quota => Quota.tryReserveUserQuota cfg c.node n quota
  | .increaseUserQuota why quota db => Quota.increaseUserQuota cfg c.node n why quota db
  | .decreaseUserQuota quota db => Quota.decreaseUserQuota cfg c.node n quota db
  | .getUserCache => do
    let _ ← Quota.getUserCache cfg
    pure .done
  | .creditTopUp quota => Quota.creditTopUp cfg n quota
  | .transferAffQuotaToQuota quota => Quota.transferAffQuotaToQuota n quota
  | .changeWallet delta => Quota.changeWallet cfg n delta
  | .deleteUser => Quota.deleteUser cfg
  | .batchUpdate => Quota.batchUpdate c.node n
  | .poolTask k => do
    act (.runTask k)
    pure .done
  | .expireHash => do
    act .expireHash
    pure .done
  | .fence raised => do
    act (.setFence raised)
    pure .done
  | .link link => do
    act (.setLink link)
    pure .done

abbrev QuotaSys := Sys Call QuotaOp World Reply

/-- Nothing is on its way: the hash, where there is one, and the row hold the same quota. -/
def start (quota : ℤ) (cached : Bool) : World where
  quota := quota
  deleted := false
  hash := if cached then some quota else none
  fence := false
  link := .up
  pool := []
  stores := .empty
  books := .empty
  released := 0
  toppedUp := 0

def run (cfg : Config) (w : World) (events : List (Event Call)) : QuotaSys :=
  Sys.run QuotaOp.exec (Call.body cfg) ⟨w, []⟩ events

end NovaMaas.Quota
