/-
  One-time codes by SMS (model/sms_challenge.go).

  A challenge is reserved, sent, delivered and consumed.  A reservation is paid from budgets, rows that count the sends of
  a fixed window, and waits for the cool-down of its phone.  A consumption first counts the attempt and then compares the
  code; a rejection commits the count, a failing action rolls everything back.

  Transactions are atomic and interleave in any order.  There is one clock, which never goes back; a reservation, the mark
  of a delivery and a clean-up read it BEFORE their statements, so any time may pass in between.  Times are nanoseconds.
  Digests are injective, so a row keeps what was digested.  What the table of users says and whether the action fails is
  input of a consumption; an absent action is one that never fails.
-/
import NovaMaas.Lib.Table

namespace NovaMaas.Auth

open Txn

/-! ## Times -/

/-- Nanoseconds since the zero time. -/
abbrev Nanos := ℤ

def smsSecond : Nanos := 1000000000
def smsMinute : Nanos := 60 * smsSecond
def smsHour : Nanos := 60 * smsMinute
def smsDay : Nanos := 24 * smsHour

/-- `now.Truncate(duration)`. -/
def truncateTime (now duration : Nanos) : Nanos := now - now % duration

def smsChallengeTTL : Nanos := 5 * smsMinute
def smsMaxAttempts : ℕ := 5

/-! ## Rows -/

/-- What a budget is for: the key of its digest. -/
inductive BudgetKey where
  | phone (phone : List Char)
  | ip (ip : String)
  | global
  | user (id : ℤ)
  | native (subject : String)
  deriving DecidableEq

/-- `smsDigest` of a text, by the parts of the text. -/
inductive SmsDigest where
  | token (token : String)
  | code (token code : String)
  | flow (flowToken : String)
  | cooldown (phone : List Char)
  | budget (key : BudgetKey) (duration window : Nanos)
  deriving DecidableEq

/-- `SMSChallenge`. -/
structure SMSChallenge where
  id          : ℕ
  tokenHash   : SmsDigest
  codeHash    : SmsDigest
  purpose     : String
  phone       : List Char
  userId      : ℤ
  authVersion : ℤ
  sessionId   : String
  flowHash    : SmsDigest
  attempts    : ℕ := 0
  delivered   : Bool := false
  createdAt   : Nanos
  expiresAt   : Nanos
  consumedAt  : Option Nanos := none
  deriving DecidableEq

/-- `SMSBudget`. -/
structure SMSBudget where
  budgetHash : SmsDigest
  used       : ℕ := 0
  nextAt     : Nanos
  expiresAt  : Nanos

/-- `SMSChallengeInput`. -/
structure SMSChallengeInput where
  purpose       : String
  phone         : List Char
  userId        : ℤ
  authVersion   : ℤ
  sessionId     : String
  flowToken     : String
  ip            : String
  nativeSubject : String

/-- The tables, and the challenges whose actions have their effects in other tables. -/
structure SmsDb where
  nextId     : ℕ
  challenges : Table SMSChallenge.id
  budgets    : Table SMSBudget.budgetHash
  effects    : List ℕ

inductive SmsError where
  | phone | invalid | rateLimit | storage | action

/-! ## Phone numbers -/

/-- `unicode.IsSpace`. -/
def isGoSpace (c : Char) : Bool :=
  [0x09, 0x0A, 0x0B, 0x0C, 0x0D, 0x20, 0x85, 0xA0, 0x1680, 0x2028, 0x2029, 0x202F, 0x205F, 0x3000].contains c.toNat ||
    (0x2000 ≤ c.toNat && c.toNat ≤ 0x200A)

def goTrimSpace (s : List Char) : List Char := ((s.dropWhile isGoSpace).reverse.dropWhile isGoSpace).reverse

/-- `len(s)`: bytes. -/
def byteLength (s : List Char) : ℕ := (s.map Char.utf8Size).sum

/-- The number without the first of the prefixes that leaves eleven digits. -/
def withoutPrefix : List (List Char) → List Char → List Char
  | [], phone => phone
  | area :: areas, phone =>
    if area.isPrefixOf phone && byteLength (goTrimSpace (phone.drop area.length)) = 11
    then goTrimSpace (phone.drop area.length)
    else withoutPrefix areas phone

/-- `CanonicalMobilePhone`. -/
def canonicalMobilePhone (raw : List Char) : Option (List Char) :=
  let phone := withoutPrefix [['+', '8', '6'], ['0', '0', '8', '6'], ['8', '6']] (goTrimSpace raw)
  if byteLength phone = 11 ∧ phone[0]? = some '1' ∧ (phone[1]?).any (fun c => decide ('3' ≤ c ∧ c ≤ '9')) = true ∧
    phone.all Char.isDigit = true then some (['+', '8', '6'] ++ phone) else none

/-! ## Reserving -/

def smsPurposes : List String := ["login", "mfa_login", "phone_bind", "security", "user_mutation"]

/-- A budget: what it is for, its limit, and the length of its windows. -/
structure SmsLimit where
  key      : BudgetKey
  limit    : ℕ
  duration : Nanos
  deriving DecidableEq

/-- The budgets that a reservation is paid from. -/
def smsLimits (phone : List Char) (input : SMSChallengeInput) : List SmsLimit :=
  [⟨.phone phone, 5, smsHour⟩, ⟨.phone phone, 10, smsDay⟩, ⟨.ip input.ip, 20, smsHour⟩, ⟨.ip input.ip, 100, smsDay⟩,
    ⟨.global, 100, smsMinute⟩, ⟨.global, 5000, smsDay⟩] ++
    (if 0 < input.userId then [⟨.user input.userId, 30, smsDay⟩] else []) ++
    (if input.nativeSubject ≠ "" then [⟨.native input.nativeSubject, 30, smsDay⟩] else [])

/-- `Create` with `OnConflict{DoNothing: true}`. -/
def createIfAbsent (row : SMSBudget) (budgets : Table SMSBudget.budgetHash) : Table SMSBudget.budgetHash :=
  if (budgets.get? row.budgetHash).isSome then budgets else budgets.put row

/-- The cool-down of the phone is over, and begins anew. -/
def takeCooldown (phone : List Char) (now : Nanos) : Txn SmsDb SmsError Unit := do
  modify fun db =>
    { db with budgets := createIfAbsent ⟨.cooldown phone, 0, now - smsMinute, now + smsDay⟩ db.budgets }
  let db ← get
  let row ← require (db.budgets.get? (.cooldown phone)) .storage
  rejectIf (now < row.nextAt) .rateLimit
  modify fun db =>
    { db with budgets := db.budgets.put { row with nextAt := now + smsMinute, expiresAt := now + smsDay } }

/-- One send from one budget. -/
def takeBudget (now : Nanos) (b : SmsLimit) : Txn SmsDb SmsError Unit := do
  let window := truncateTime now b.duration
  modify fun db =>
    { db with budgets :=
        createIfAbsent ⟨.budget b.key b.duration window, 0, window, window + b.duration⟩ db.budgets }
  let db ← get
  let row ← require (db.budgets.get? (.budget b.key b.duration window)) .storage
  rejectIf (b.limit ≤ row.used) .rateLimit
  modify fun db => { db with budgets := db.budgets.put { row with used := row.used + 1 } }

/-- The challenge is open, and of the phone, the purpose, the user and the session. -/
def SMSChallenge.openFor (phone : List Char) (purpose : String) (userId : ℤ) (sessionId : String) (c : SMSChallenge) :
    Bool :=
  c.phone = phone && c.purpose = purpose && c.userId = userId && c.sessionId = sessionId && c.consumedAt = none

/-- The challenge of a reservation. -/
def newSmsChallenge (id : ℕ) (phone : List Char) (input : SMSChallengeInput) (token code : String) (now : Nanos) :
    SMSChallenge where
  id := id
  tokenHash := .token token
  codeHash := .code token code
  purpose := input.purpose
  phone := phone
  userId := input.userId
  authVersion := input.authVersion
  sessionId := input.sessionId
  flowHash := .flow input.flowToken
  createdAt := now
  expiresAt := now + smsChallengeTTL

def SMSChallenge.retire (now : Nanos) (c : SMSChallenge) : SMSChallenge := { c with consumedAt := some now }

theorem SMSChallenge.retire_id (now : Nanos) (c : SMSChallenge) : (c.retire now).id = c.id := rfl

/-- The challenges before it are retired, and the challenge is created. -/
def createSmsChallenge (phone : List Char) (input : SMSChallengeInput) (token code : String) (now : Nanos) :
    Txn SmsDb SmsError SMSChallenge := do
  modify fun db =>
    { db with challenges := db.challenges.updateWhere
                (SMSChallenge.openFor phone input.purpose input.userId input.sessionId)
                (SMSChallenge.retire now) (SMSChallenge.retire_id now) }
  let db ← get
  -- the index of the token hashes is unique
  rejectIf ((db.challenges.rows.any fun c => c.tokenHash = .token token) = true) .storage
  modify fun db =>
    { db with nextId := db.nextId + 1,
              challenges := db.challenges.put (newSmsChallenge db.nextId phone input token code now) }
  pure (newSmsChallenge db.nextId phone input token code now)

/-- `ReserveSMSChallenge`, with the random token and code, and the time it has read. -/
def reserveSMSChallenge (input : SMSChallengeInput) (token code : String) (now : Nanos) :
    Txn SmsDb SmsError SMSChallenge := do
  let phone ← require (canonicalMobilePhone input.phone) .phone
  rejectIf (input.purpose ∉ smsPurposes) .invalid
  transaction do
    takeCooldown phone now
    forEach (fun _ b => takeBudget now b) () (smsLimits phone input)
    createSmsChallenge phone input token code now

/-! ## Delivering and consuming -/

def SMSChallenge.deliver (c : SMSChallenge) : SMSChallenge := { c with delivered := true }

/-- `MarkSMSDelivered`, with the time it has read. -/
def markSMSDelivered (id : ℕ) (now : Nanos) (db : SmsDb) : SmsDb :=
  { db with challenges := db.challenges.updateWhere
              (fun c => c.id = id && c.consumedAt = none && decide (now < c.expiresAt)) SMSChallenge.deliver fun _ => rfl }

/-- The challenge that a consumption asks for. -/
def SMSChallenge.isFor (token : String) (wanted : SMSChallengeInput) (c : SMSChallenge) : Bool :=
  c.tokenHash = .token token && c.purpose = wanted.purpose && c.userId = wanted.userId &&
    c.sessionId = wanted.sessionId && c.flowHash = .flow wanted.flowToken

def SMSChallenge.attempt (c : SMSChallenge) : SMSChallenge := { c with attempts := c.attempts + 1 }

/-- A consumption up to the comparison of the code: the challenge as it was loaded, if its attempt is counted. -/
def admitAttempt (token : String) (wanted : SMSChallengeInput) (now : Nanos) (db : SmsDb) : Option SMSChallenge :=
  (db.challenges.rows.find? (SMSChallenge.isFor token wanted)).filter fun c =>
    c.consumedAt = none && c.delivered && decide (now < c.expiresAt) && decide (c.attempts < smsMaxAttempts)

/-- What the table of users says of the user of a challenge. -/
inductive UserAnswer where
  | found | notFound | failed
  deriving DecidableEq

/-- What a consumption finds outside of the tables here. -/
structure ConsumeEnv where
  user        : UserAnswer
  actionFails : Bool

/-- The phone that is asked for, in canonical form; none if it has none. -/
def wantedPhone (wanted : SMSChallengeInput) : Option (List Char) :=
  if wanted.phone = [] then some [] else canonicalMobilePhone wanted.phone

/-- An admitted attempt is counted, and what follows from its code; no value is a rejection that commits. -/
def countedAttempt (env : ConsumeEnv) (token code : String) (phone : List Char) (now : Nanos) (c : SMSChallenge) :
    Txn SmsDb SmsError (Option SMSChallenge) := do
  modify fun db => { db with challenges := db.challenges.put c.attempt }
  if c.codeHash ≠ .code token code then pure none
  else if phone ≠ [] ∧ phone ≠ c.phone then pure none
  else if 0 < c.userId ∧ env.user = .notFound then pure none
  else do
    rejectIf (0 < c.userId ∧ env.user = .failed) .storage
    rejectIf (env.actionFails = true) .action
    modify fun db =>
      { db with effects := db.effects ++ [c.id], challenges := db.challenges.put (c.attempt.retire now) }
    pure (some c)

/-- The transaction of `ConsumeSMSChallenge`. -/
def consumeTx (env : ConsumeEnv) (token code : String) (wanted : SMSChallengeInput) (phone : List Char) (now : Nanos) :
    Txn SmsDb SmsError (Option SMSChallenge) :=
  transaction do
    let db ← get
    match admitAttempt token wanted now db with
    | none => pure none
    | some c => countedAttempt env token code phone now c

/-- The texts that a consumption takes at all. -/
def consumable (token code : String) (wanted : SMSChallengeInput) : Bool :=
  token.utf8ByteSize = 43 && code.utf8ByteSize = 6 && (wantedPhone wanted).isSome

/-- `ConsumeSMSChallenge`. -/
def consumeSMSChallenge (env : ConsumeEnv) (token code : String) (wanted : SMSChallengeInput) (now : Nanos) :
    Txn SmsDb SmsError (Option SMSChallenge) := do
  rejectIf (consumable token code wanted = false) .invalid
  let phone ← require (wantedPhone wanted) .invalid
  consumeTx env token code wanted phone now

/-! ## Cleaning up -/

/-- The first statement of `CleanupSMSChallenges`. -/
def deleteOldChallenges (now : Nanos) (db : SmsDb) : SmsDb :=
  { db with challenges := db.challenges.deleteWhere fun c => decide (c.expiresAt < now - smsDay) }

/-- The second. -/
def deleteOldBudgets (now : Nanos) (db : SmsDb) : SmsDb :=
  { db with budgets := db.budgets.deleteWhere fun b => decide (b.expiresAt < now) }

/-! ## Runs -/

/-- What has happened, for the statements: nothing reads it. -/
inductive SmsEvent where
  /-- A reservation was committed. -/
  | sent (challenge : SMSChallenge) (limits : List SmsLimit)
  /-- A wrong code was compared with that of a challenge. -/
  | wrongCode (id : ℕ)
  /-- A consumption has returned the challenge. -/
  | consumed (id : ℕ)
  /-- Old budgets were deleted. -/
  | cleaned (now : Nanos)
  deriving DecidableEq

structure SmsState where
  time : Nanos
  db   : SmsDb
  log  : List SmsEvent

inductive SmsCall where
  /-- The clock goes on. -/
  | advance (elapsed : ℕ)
  | reserve (input : SMSChallengeInput) (token code : String) (now : Nanos)
  | markDelivered (id : ℕ) (now : Nanos)
  | consume (env : ConsumeEnv) (token code : String) (wanted : SMSChallengeInput)
  | deleteChallenges (now : Nanos)
  | deleteBudgets (now : Nanos)

/-- The limits of a committed reservation. -/
def limitsOf (input : SMSChallengeInput) (challenge : SMSChallenge) : List SmsLimit := smsLimits challenge.phone input

/-- The reservation, and what happened. -/
def reserveEvents (input : SMSChallengeInput) : Except SmsError SMSChallenge → List SmsEvent
  | .ok c => [.sent c (limitsOf input c)]
  | .error _ => []

/-- A wrong code is compared if the attempt is admitted and the code is not that of the challenge. -/
def wrongCodeEvents (token code : String) (wanted : SMSChallengeInput) (now : Nanos) (db : SmsDb) : List SmsEvent :=
  if consumable token code wanted then
    ((admitAttempt token wanted now db).toList.filter fun c => c.codeHash ≠ .code token code).map fun c => .wrongCode c.id
  else []

def consumeEvents : Except SmsError (Option SMSChallenge) → List SmsEvent
  | .ok (some c) => [.consumed c.id]
  | _ => []

/-- A step; a time that a call has read is not after the clock. -/
def SmsState.step (s : SmsState) : SmsCall → Option SmsState
  | .advance elapsed => some { s with time := s.time + elapsed }
  | .reserve input token code now =>
    if now ≤ s.time then
      let r := reserveSMSChallenge input token code now s.db
      some { s with db := r.2, log := s.log ++ reserveEvents input r.1 }
    else none
  | .markDelivered id now => if now ≤ s.time then some { s with db := markSMSDelivered id now s.db } else none
  | .consume env token code wanted =>
    let r := consumeSMSChallenge env token code wanted s.time s.db
    some { s with db := r.2, log := s.log ++ wrongCodeEvents token code wanted s.time s.db ++ consumeEvents r.1 }
  | .deleteChallenges now => if now ≤ s.time then some { s with db := deleteOldChallenges now s.db } else none
  | .deleteBudgets now =>
    if now ≤ s.time then some { s with db := deleteOldBudgets now s.db, log := s.log ++ [.cleaned now] } else none

/-- Empty tables. -/
def SmsState.start (time : Nanos) : SmsState := ⟨time, ⟨1, Table.empty, Table.empty, []⟩, []⟩

/-- A run; a step that cannot be taken ends it without a state. -/
def SmsState.run (s : SmsState) : List SmsCall → Option SmsState
  | [] => some s
  | call :: calls => (s.step call).bind fun s' => s'.run calls

end NovaMaas.Auth
