/-
  One-time flows of authentication (model/auth_flow.go, controller/telegram.go).

  One table keeps two kinds of rows.  A flow is created with a random token, and consumed once, by a request whose fields
  match; the action of the request runs in the transaction of its consumption.  An assertion of a provider is recorded as a
  row that is consumed already; the unique index on the hash refuses to record it again.  A clean-up deletes what expired,
  or was consumed, more than a day ago.

  Every function is one transaction.  A world notes what its transactions have committed: the flows that were issued, the
  consumptions, the assertions that were accepted.  An action touches the table through `ClaimExternalAuthAssertionWithTx`
  only, as often as it likes, and may go on after it has been refused; what else it does is whether it fails.

  The hash of a token is a parameter, and so is the signature that Telegram gives a text.
-/
import NovaMaas.Lib.Table
import NovaMaas.Lib.Text

namespace NovaMaas.Auth

/-! ## The table -/

structure AuthFlow where
  tokenHash  : String
  purpose    : String
  provider   : String
  intent     : String
  userId     : ℕ
  sessionId  : String
  payload    : String
  expiresAt  : ℤ
  consumedAt : Option ℤ

structure AuthFlowCreate where
  purpose   : String
  provider  : String := ""
  intent    : String := ""
  userId    : ℕ := 0
  sessionId : String := ""
  payload   : String := ""
  expiresAt : ℤ

structure AuthFlowMatch where
  purpose   : String
  provider  : String := ""
  intent    : String := ""
  userId    : ℕ := 0
  sessionId : String := ""

inductive AuthFlowError where
  | invalid
  | expired
  | consumed
  /-- The unique index on the hash. -/
  | duplicate
  | action

/-- In nanoseconds, as all times are. -/
def flowSecond : ℤ := 1000000000

/-- `time.Time` is zero in the first year. -/
def zeroTime : ℤ := -62135596800 * flowSecond

def authFlowDefaultCleanupRetention : ℤ := 24 * 3600 * flowSecond

/-- A consumption that has been committed. -/
structure FlowCommit where
  token : String
  fields : AuthFlowMatch
  time  : ℤ

/-- An assertion that has been accepted. -/
structure Acceptance where
  purpose   : String
  assertion : String
  expiresAt : ℤ
  time      : ℤ
  deriving DecidableEq

/-- What a transaction reads and writes, and what it notes. -/
structure FlowDB where
  flows    : Table AuthFlow.tokenHash
  issued   : List (String × AuthFlowCreate)
  commits  : List FlowCommit
  accepted : List Acceptance

/-! ## The functions -/

variable (authFlowTokenHash : String → String)

/-- The conditions on the fields that are given. -/
def AuthFlowMatch.admits (m : AuthFlowMatch) (flow : AuthFlow) : Bool :=
  flow.purpose = m.purpose && (m.provider = "" || flow.provider = m.provider) &&
    (m.intent = "" || flow.intent = m.intent) && (m.userId = 0 || flow.userId = m.userId) &&
    (m.sessionId = "" || flow.sessionId = m.sessionId)

/-- The row that a request is about. -/
def applyAuthFlowMatch (flows : Table AuthFlow.tokenHash) (token : String) (m : AuthFlowMatch) : Option AuthFlow :=
  (flows.get? (authFlowTokenHash token)).filter m.admits

/-- The row of a flow. -/
def AuthFlowCreate.row (input : AuthFlowCreate) (tokenHash : String) : AuthFlow :=
  { tokenHash := tokenHash, purpose := input.purpose, provider := input.provider, intent := input.intent,
    userId := input.userId, sessionId := input.sessionId, payload := input.payload, expiresAt := input.expiresAt,
    consumedAt := none }

/-- `token` is the random token. -/
def createAuthFlow (now : ℤ) (token : String) (input : AuthFlowCreate) (db : FlowDB) : Except AuthFlowError FlowDB :=
  if trimSpace input.purpose = "" ∨ input.expiresAt = zeroTime ∨ ¬ now < input.expiresAt then .error .invalid
  else if (db.flows.get? (authFlowTokenHash token)).isSome then .error .duplicate
  else .ok { db with
    flows := db.flows.put (input.row (authFlowTokenHash token)), issued := db.issued ++ [(token, input)] }

/-- What the hash of an assertion is taken of. -/
def externalText (purpose assertion : String) : String := "external:" ++ trimSpace purpose ++ ":" ++ trimSpace assertion

/-- The row of an assertion. -/
def externalRow (tokenHash purpose : String) (expiresAt now : ℤ) : AuthFlow :=
  { tokenHash := tokenHash, purpose := purpose, provider := "", intent := "", userId := 0, sessionId := "", payload := "",
    expiresAt := expiresAt, consumedAt := some now }

def claimExternalAuthAssertionWithTx (now : ℤ) (purpose assertion : String) (expiresAt : ℤ) (db : FlowDB) :
    Except AuthFlowError FlowDB :=
  if trimSpace purpose = "" ∨ trimSpace assertion = "" ∨ ¬ now < expiresAt then .error .invalid
  else if (db.flows.get? (authFlowTokenHash (externalText purpose assertion))).isSome then .error .consumed
  else .ok { db with
    flows := db.flows.put
      (externalRow (authFlowTokenHash (externalText purpose assertion)) (trimSpace purpose) expiresAt now)
    accepted := db.accepted ++ [⟨purpose, assertion, expiresAt, now⟩] }

/-- What the action of a request does with the table: it claims assertions, looking at each answer, and ends. -/
inductive FlowAction where
  | done
  | fail
  | claim (purpose assertion : String) (expiresAt : ℤ) (next : Option AuthFlowError → FlowAction)

/-- An action in its transaction. -/
def FlowAction.run (now : ℤ) : FlowAction → FlowDB → Except AuthFlowError FlowDB
  | .done, db => .ok db
  | .fail, _ => .error .action
  | .claim purpose assertion expiresAt next, db =>
    match claimExternalAuthAssertionWithTx authFlowTokenHash now purpose assertion expiresAt db with
    | .ok db' => (next none).run now db'
    | .error err => (next (some err)).run now db

/-- `ConsumeAuthFlow` is the one without an action. -/
def consumeAuthFlowWithAction (now : ℤ) (token : String) (m : AuthFlowMatch) (action : Option (AuthFlow → FlowAction))
    (db : FlowDB) : Except AuthFlowError FlowDB :=
  if token = "" ∨ m.purpose = "" then .error .invalid
  else
    match applyAuthFlowMatch authFlowTokenHash db.flows token m with
    | none => .error .invalid
    | some consumed =>
      if consumed.consumedAt.isSome then .error .consumed
      else if ¬ now < consumed.expiresAt then .error .expired
      else
        -- the conditions of the update have been read in the same transaction
        let row := { consumed with consumedAt := some now }
        let db' := { db with flows := db.flows.put row, commits := db.commits ++ [⟨token, m, now⟩] }
        match action with
        | none => .ok db'
        | some action => (action row).run authFlowTokenHash now db'

/-- `DeleteExpiredAuthFlows` of a time that has been read before. -/
def deleteExpiredAuthFlows (now : ℤ) (flows : Table AuthFlow.tokenHash) : Table AuthFlow.tokenHash :=
  flows.deleteWhere fun flow => flow.expiresAt < now - authFlowDefaultCleanupRetention ||
    flow.consumedAt.any (fun consumedAt => consumedAt < now - authFlowDefaultCleanupRetention)

/-! ## Runs -/

structure FlowWorld where
  time : ℤ
  db   : FlowDB

def FlowWorld.start (time : ℤ) : FlowWorld := ⟨time, ⟨Table.empty, [], [], []⟩⟩

inductive FlowMove where
  | advance (elapsed : ℕ)
  | create (token : String) (input : AuthFlowCreate)
  | consume (token : String) (fields : AuthFlowMatch) (action : Option (AuthFlow → FlowAction))
  | claim (purpose assertion : String) (expiresAt : ℤ)
  | cleanup (now : ℤ)

/-- A transaction that returns an error is rolled back. -/
def FlowWorld.commit (w : FlowWorld) (r : Except AuthFlowError FlowDB) : FlowWorld :=
  match r with
  | .ok db => { w with db := db }
  | .error _ => w

/-- One transaction; none if it cannot be: a random token does not come twice, and no clean-up is of a time to come. -/
def FlowWorld.step (w : FlowWorld) : FlowMove → Option FlowWorld
  | .advance elapsed => some { w with time := w.time + elapsed }
  | .create token input =>
    if token ∈ w.db.issued.map Prod.fst then none
    else some (w.commit (createAuthFlow authFlowTokenHash w.time token input w.db))
  | .consume token m action => some (w.commit (consumeAuthFlowWithAction authFlowTokenHash w.time token m action w.db))
  | .claim purpose assertion expiresAt =>
    some (w.commit (claimExternalAuthAssertionWithTx authFlowTokenHash w.time purpose assertion expiresAt w.db))
  | .cleanup now =>
    if now ≤ w.time then some { w with db := { w.db with flows := deleteExpiredAuthFlows now w.db.flows } } else none

def FlowWorld.run (w : FlowWorld) : List FlowMove → Option FlowWorld
  | [] => some w
  | move :: moves => (w.step authFlowTokenHash move).bind fun w' => w'.run moves

/-! ## Authorizations of Telegram -/

def telegramAuthorizationMaxAge : ℤ := 5 * 60 * flowSecond

def telegramAuthorizationFutureSkew : ℤ := 2 * 60 * flowSecond

def authFlowPurposeTelegramAssertion : String := "telegram_assertion"

/-- The parameters of a request, each with its values. -/
abbrev UrlValues := List (String × List String)

/-- `params.Get`. -/
def UrlValues.get (params : UrlValues) (name : String) : String :=
  ((params.lookup name).bind List.head?).getD ""

/-- The assertion of an authorization, and its expiry. -/
def telegramAuthorizationClaim (params : UrlValues) (now : ℤ) : Except String (String × ℤ) :=
  match parseInt (params.get "auth_date") with
  | none => .error "telegram authorization date is invalid"
  | some authDate =>
    match hexDecodeString (params.get "hash") with
    | none => .error "telegram authorization signature is invalid"
    | some hashBytes =>
      let expiresAt := authDate * flowSecond + telegramAuthorizationMaxAge
      if ¬ now < expiresAt then .error "telegram authorization has expired"
      else .ok (hexEncodeToString hashBytes, expiresAt)

/-- The text that Telegram signs. -/
def telegramSignedText (params : UrlValues) : String :=
  "\n".intercalate (((params.filter fun param => param.1 ≠ "hash").map fun param =>
    param.1 ++ "=" ++ param.2.head?.getD "").mergeSort)

/-- `hmacSha256` is the signature of a text under the hash of the bot's token. -/
def verifyTelegramAuthorization (hmacSha256 : String → String → List ℕ) (params : UrlValues) (token : String) (now : ℤ) :
    Except String String :=
  if token = "" then .error "telegram bot token is empty"
  else if params.any (fun param => param.2.length ≠ 1) then
    .error "telegram authorization contains duplicate parameters"
  else if params.get "id" = "" ∨ params.get "hash" = "" ∨ params.get "auth_date" = "" then
    .error "telegram authorization is incomplete"
  else
    match parseInt (params.get "auth_date") with
    | none => .error "telegram authorization date is invalid"
    | some authDate =>
      if authDate < (now - telegramAuthorizationMaxAge) / flowSecond ∨
          (now + telegramAuthorizationFutureSkew) / flowSecond < authDate then
        .error "telegram authorization has expired"
      else if hexDecodeString (params.get "hash") ≠ some (hmacSha256 token (telegramSignedText params)) then
        .error "telegram authorization signature is invalid"
      else .ok (params.get "id")

end NovaMaas.Auth
