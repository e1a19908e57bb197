/-
  The batch updater (model/utils.go) and the functions that record with it or write past it (model/user.go,
  model/token.go, model/channel.go).

  With batch updates on, a change of a quota, of a used quota or of a request count is RECORDED: added to the delta that
  a map in memory holds for the id, one map for each type.  Every so often `batchUpdate` takes the maps away, one type
  after the other, each under its own lock, and writes what they held: tokens and channels key by key, then the three
  types that live in the row of a user in ONE update for each user.  Records go on arriving all the while.  Some functions
  write to the row directly, because they are told to or because batch updates are off.

  A statement is one critical section of a lock or one UPDATE.  An UPDATE of a row that is not there changes nothing.
  The order in which a map is walked is any (`MapOrder`).

  `recorded`, `written`, `direct` and `flight` are not in the program: the sums of what was recorded, of what flushes have
  written and of what was written past the updater, and what each flush has taken and not yet written.
-/
import NovaMaas.Lib.Owned
import NovaMaas.Lib.Shares
import NovaMaas.Lib.Table

open Function

namespace NovaMaas.BatchUpdate

open Interleave

/-! ## Stores -/

inductive BatchUpdateType where
  | userQuota
  | tokenQuota
  | usedQuota
  | channelUsedQuota
  | requestCount
  deriving DecidableEq

/-- The types in the order of their numbers. -/
def batchUpdateTypes : List BatchUpdateType := [.userQuota, .tokenQuota, .usedQuota, .channelUsedQuota, .requestCount]

theorem mem_batchUpdateTypes (t : BatchUpdateType) : t ∈ batchUpdateTypes := by
  cases t <;> decide

/-- A `map[int]int`: an entry is an id and its delta. -/
abbrev Store : Type := Table (Prod.fst : ℤ × ℤ → ℤ)

/-- `store[id]`, which is zero for an id that is not there. -/
def Store.delta (store : Store) (id : ℤ) : ℤ := ((store.get? id).map Prod.snd).getD 0

def Store.keys (store : Store) : List ℤ := store.rows.map Prod.fst

/-- A number for each type and id. -/
abbrev Sums : Type := BatchUpdateType → ℤ → ℤ

def Sums.add (s : Sums) (t : BatchUpdateType) (id value : ℤ) : Sums :=
  update s t (update (s t) id (s t id + value))

/-! ## Integers -/

def maxInt : ℤ := 2 ^ 63 - 1

def minInt : ℤ := -2 ^ 63

/-- What is left of a number in 64 bits. -/
def wrapInt (x : ℤ) : ℤ := (x + 2 ^ 63) % 2 ^ 64 - 2 ^ 63

/-- The sum that `addNewRecord` stores: the one that fits, or the end of the range. -/
def addDelta (old value : ℤ) : ℤ :=
  let sum := wrapInt (old + value)
  if (0 < value ∧ sum < old) ∨ (value < 0 ∧ old < sum) then
    if 0 < value then maxInt else minInt
  else sum

theorem wrapInt_of_fits {x : ℤ} (hlow : minInt ≤ x) (hhigh : x ≤ maxInt) : wrapInt x = x := by
  unfold wrapInt
  unfold minInt at hlow
  unfold maxInt at hhigh
  omega

theorem addDelta_of_fits {old value : ℤ} (hlow : minInt ≤ old + value) (hhigh : old + value ≤ maxInt) :
    addDelta old value = old + value := by
  unfold addDelta
  simp only [wrapInt_of_fits hlow hhigh]
  rw [if_neg]
  omega

/-! ## The world -/

structure UserRow where
  quota        : ℤ
  usedQuota    : ℤ
  requestCount : ℤ

structure TokenRow where
  remainQuota : ℤ
  usedQuota   : ℤ

def UserRow.add (r : UserRow) (quota usedQuota requestCount : ℤ) : UserRow :=
  ⟨r.quota + quota, r.usedQuota + usedQuota, r.requestCount + requestCount⟩

/-- What a token gains is given back by what it has used. -/
def TokenRow.add (r : TokenRow) (delta : ℤ) : TokenRow := ⟨r.remainQuota + delta, r.usedQuota - delta⟩

structure World where
  stores   : BatchUpdateType → Store
  users    : ℤ → Option UserRow
  tokens   : ℤ → Option TokenRow
  channels : ℤ → Option ℤ
  recorded : Sums
  written  : Sums
  direct   : Sums
  flight   : Shares Sums

namespace World

/-- A process starts with empty maps. -/
def start (users : ℤ → Option UserRow) (tokens : ℤ → Option TokenRow) (channels : ℤ → Option ℤ) : World where
  stores := fun _ => Table.empty
  users := users
  tokens := tokens
  channels := channels
  recorded := fun _ _ => 0
  written := fun _ _ => 0
  direct := fun _ _ => 0
  flight := Shares.empty

/-- The delta still waiting in the maps. -/
def pending (w : World) (t : BatchUpdateType) (id : ℤ) : ℤ := (w.stores t).delta id

/-- What the flushes have taken and not yet written. -/
def inFlight (w : World) (t : BatchUpdateType) (id : ℤ) : ℤ := w.flight.sum fun held => held t id

/-- The column that a type is about. -/
def column (w : World) : BatchUpdateType → ℤ → Option ℤ
  | .userQuota, id => (w.users id).map UserRow.quota
  | .usedQuota, id => (w.users id).map UserRow.usedQuota
  | .requestCount, id => (w.users id).map UserRow.requestCount
  | .tokenQuota, id => (w.tokens id).map TokenRow.remainQuota
  | .channelUsedQuota, id => w.channels id

/-- The critical section of `addNewRecord`. -/
def record (w : World) (t : BatchUpdateType) (id value : ℤ) : World :=
  let sum := match (w.stores t).get? id with
    | none => value
    | some (_, old) => addDelta old value
  { w with
    stores := update w.stores t ((w.stores t).put (id, sum))
    recorded := w.recorded.add t id value }

/-- The flush `n` takes the map of a type and leaves an empty one. -/
def swap (w : World) (n : ℕ) (t : BatchUpdateType) : World :=
  { w with
    stores := update w.stores t Table.empty
    flight := w.flight.set n (update (w.flight.part n) t fun id => w.flight.part n t id + w.pending t id) }

/-- The books of an update by `value`: of the flush `n`, or of nobody who recorded it. -/
def book (w : World) (flush : Option ℕ) (t : BatchUpdateType) (id value : ℤ) : World :=
  match flush with
  | none => { w with direct := w.direct.add t id value }
  | some n =>
    { w with written := w.written.add t id value, flight := w.flight.set n ((w.flight.part n).add t id (-value)) }

def updateToken (w : World) (flush : Option ℕ) (id delta : ℤ) : World :=
  { w with tokens := update w.tokens id ((w.tokens id).map fun r => TokenRow.add r delta) }.book flush .tokenQuota id delta

def updateChannel (w : World) (flush : Option ℕ) (id delta : ℤ) : World :=
  { w with channels := update w.channels id ((w.channels id).map (· + delta)) }.book
    flush .channelUsedQuota id delta

def updateUser (w : World) (flush : Option ℕ) (id quota usedQuota requestCount : ℤ) : World :=
  let w := { w with users := update w.users id ((w.users id).map fun r => UserRow.add r quota usedQuota requestCount) }
  ((w.book flush .userQuota id quota).book flush .usedQuota id usedQuota).book flush .requestCount id requestCount

/-- The row takes a credit: it is there, and stays below the limit of a wallet. -/
def takesCredit (w : World) (id limit : ℤ) : Bool := (w.users id).any fun r => r.quota ≤ limit

end World

inductive BatchOp where
  | look
  | record (t : BatchUpdateType) (id value : ℤ)
  | swap (n : ℕ) (t : BatchUpdateType)
  | updateToken (flush : Option ℕ) (id delta : ℤ)
  | updateChannel (flush : Option ℕ) (id delta : ℤ)
  | updateUser (flush : Option ℕ) (id quota usedQuota requestCount : ℤ)
  | creditUser (id quota limit : ℤ)

def BatchOp.exec : BatchOp → World → World
  | look, w => w
  | record t id value, w => w.record t id value
  | swap n t, w => w.swap n t
  | updateToken flush id delta, w => w.updateToken flush id delta
  | updateChannel flush id delta, w => w.updateChannel flush id delta
  | updateUser flush id quota usedQuota requestCount, w => w.updateUser flush id quota usedQuota requestCount
  | creditUser id quota limit, w => if w.takesCredit id limit then w.updateUser none id quota 0 0 else w

/-- No delta in memory leaves the range of an integer. -/
def BatchOp.Fits : BatchOp → World → Prop
  | .record t id value, w => minInt ≤ w.pending t id + value ∧ w.pending t id + value ≤ maxInt
  | _, _ => True

instance : ∀ (op : BatchOp) (w : World), Decidable (op.Fits w)
  | .record t id value, w =>
    inferInstanceAs (Decidable (minInt ≤ w.pending t id + value ∧ w.pending t id + value ≤ maxInt))
  | .look, _ => isTrue trivial
  | .swap _ _, _ => isTrue trivial
  | .updateToken _ _ _, _ => isTrue trivial
  | .updateChannel _ _ _, _ => isTrue trivial
  | .updateUser _ _ _ _ _, _ => isTrue trivial
  | .creditUser _ _ _, _ => isTrue trivial

/-! ## Calls -/

abbrev BatchM : Type → Type := Prog BatchOp World

def act (op : BatchOp) : BatchM Unit := Prog.issue op fun _ => ()

def look {α : Type} (report : World → α) : BatchM α := Prog.issue .look report

def addNewRecord (t : BatchUpdateType) (id value : ℤ) : BatchM Unit := act (.record t id value)

/-- An order in which a map is walked: each key once. -/
structure MapOrder where
  order : List ℤ → List ℤ
  perm : ∀ keys, (order keys).Perm keys

/-- Is there a map with an entry?  The locks are taken one after the other. -/
def hasData : List BatchUpdateType → BatchM Bool
  | [] => pure false
  | t :: types => do
    let filled ← look fun w => decide (0 < (w.stores t).rows.length)
    if filled then pure true else hasData types

def takeStores (n : ℕ) : List BatchUpdateType → BatchM (BatchUpdateType → Store)
  | [] => pure fun _ => Table.empty
  | t :: types => do
    let store ← Prog.issue (.swap n t) (·.stores t)
    let stores ← takeStores n types
    pure (update stores t store)

def updateUserQuotaUsedQuotaAndRequestCount (n : ℕ) (id quota usedQuota requestCount : ℤ) : BatchM Unit :=
  if quota = 0 ∧ usedQuota = 0 ∧ requestCount = 0 then pure ()
  else act (.updateUser (some n) id quota usedQuota requestCount)

/-- The users that one of the three maps names. -/
def userIDs (stores : BatchUpdateType → Store) : List ℤ :=
  ((stores .userQuota).keys ++ (stores .usedQuota).keys ++ (stores .requestCount).keys).dedup

/-- `batchUpdate`, as the call `n`. -/
def batchUpdate (n : ℕ) (tokens channels users : MapOrder) : BatchM Unit := do
  let filled ← hasData batchUpdateTypes
  if filled then do
    let stores ← takeStores n batchUpdateTypes
    Prog.forEach (fun key => act (.updateToken (some n) key ((stores .tokenQuota).delta key)))
      (tokens.order (stores .tokenQuota).keys)
    Prog.forEach (fun key => act (.updateChannel (some n) key ((stores .channelUsedQuota).delta key)))
      (channels.order (stores .channelUsedQuota).keys)
    Prog.forEach (fun key => updateUserQuotaUsedQuotaAndRequestCount n key ((stores .userQuota).delta key)
      ((stores .usedQuota).delta key) ((stores .requestCount).delta key)) (users.order (userIDs stores))
  else pure ()

inductive BatchError where
  | negativeQuota
  | recordNotFound
  | walletQuotaLimitExceeded

def maxWalletQuota : ℤ := 2 ^ 53 - 1

section Callers

variable (batchUpdateEnabled : Bool)

/-- Record a change, or make it with `op`. -/
def recordOr (recorded : Bool) (t : BatchUpdateType) (id value : ℤ) (op : BatchOp) : BatchM Unit :=
  if recorded then addNewRecord t id value else act op

/-- `IncreaseTokenQuota`, the row's part. -/
def increaseTokenQuota (id quota : ℤ) : BatchM (Option BatchError) :=
  if quota < 0 then pure (some .negativeQuota)
  else do
    recordOr batchUpdateEnabled .tokenQuota id quota (.updateToken none id quota)
    pure none

/-- `DecreaseTokenQuota`, the row's part. -/
def decreaseTokenQuota (id quota : ℤ) : BatchM (Option BatchError) :=
  if quota < 0 then pure (some .negativeQuota)
  else do
    recordOr batchUpdateEnabled .tokenQuota id (-quota) (.updateToken none id (-quota))
    pure none

def updateChannelUsedQuota (id quota : ℤ) : BatchM Unit :=
  recordOr batchUpdateEnabled .channelUsedQuota id quota (.updateChannel none id quota)

def updateUserUsedQuota (id quota : ℤ) : BatchM Unit :=
  recordOr batchUpdateEnabled .usedQuota id quota (.updateUser none id 0 quota 0)

def updateUserUsedQuotaAndRequestCount (id quota : ℤ) : BatchM Unit :=
  if batchUpdateEnabled then do
    addNewRecord .usedQuota id quota
    addNewRecord .requestCount id 1
  else act (.updateUser none id 0 quota 1)

/-- `IncreaseUserQuota`, the row's part.  The direct write keeps below the limit of a wallet, the record does not
ask. -/
def increaseUserQuota (id quota : ℤ) (db : Bool) : BatchM (Option BatchError) :=
  if quota < 0 then pure (some .negativeQuota)
  else if maxWalletQuota < quota then pure (some .walletQuotaLimitExceeded)
  else if !db && batchUpdateEnabled then do
    addNewRecord .userQuota id quota
    pure none
  else do
    let taken ← Prog.issue (.creditUser id quota (maxWalletQuota - quota)) (·.takesCredit id (maxWalletQuota - quota))
    if taken then pure none
    else do
      let found ← look fun w => (w.users id).isSome
      pure (some (if found then .walletQuotaLimitExceeded else .recordNotFound))

/-- `DecreaseUserQuota`, the row's part. -/
def decreaseUserQuota (id quota : ℤ) (db : Bool) : BatchM (Option BatchError) :=
  if quota < 0 then pure (some .negativeQuota)
  else do
    recordOr (!db && batchUpdateEnabled) .userQuota id (-quota) (.updateUser none id (-quota) 0 0)
    pure none

end Callers

inductive BatchCall where
  | addNewRecord (t : BatchUpdateType) (id value : ℤ)
  | batchUpdate (tokens channels users : MapOrder)
  | increaseTokenQuota (id quota : ℤ)
  | decreaseTokenQuota (id quota : ℤ)
  | updateChannelUsedQuota (id quota : ℤ)
  | updateUserUsedQuota (id quota : ℤ)
  | updateUserUsedQuotaAndRequestCount (id quota : ℤ)
  | increaseUserQuota (id quota : ℤ) (db : Bool)
  | decreaseUserQuota (id quota : ℤ) (db : Bool)

/-- What the call `n` runs, with what it answers. -/
def BatchCall.body (batchUpdateEnabled : Bool) (n : ℕ) : BatchCall → BatchM (Option BatchError)
  | addNewRecord t id value => do
    BatchUpdate.addNewRecord t id value
    pure none
  | batchUpdate tokens channels users => do
    BatchUpdate.batchUpdate n tokens channels users
    pure none
  | increaseTokenQuota id quota => BatchUpdate.increaseTokenQuota batchUpdateEnabled id quota
  | decreaseTokenQuota id quota => BatchUpdate.decreaseTokenQuota batchUpdateEnabled id quota
  | updateChannelUsedQuota id quota => do
    BatchUpdate.updateChannelUsedQuota batchUpdateEnabled id quota
    pure none
  | updateUserUsedQuota id quota => do
    BatchUpdate.updateUserUsedQuota batchUpdateEnabled id quota
    pure none
  | updateUserUsedQuotaAndRequestCount id quota => do
    BatchUpdate.updateUserUsedQuotaAndRequestCount batchUpdateEnabled id quota
    pure none
  | increaseUserQuota id quota db => BatchUpdate.increaseUserQuota batchUpdateEnabled id quota db
  | decreaseUserQuota id quota db => BatchUpdate.decreaseUserQuota batchUpdateEnabled id quota db

abbrev BatchSys : Type := Sys BatchCall BatchOp World (Option BatchError)

end NovaMaas.BatchUpdate
