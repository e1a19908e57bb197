/-
  The second factor of a user (model/twofa.go, common/totp.go).

  A request loads the row of the factor and works with this object: it looks at the lock of the object, evaluates a code, and
  writes.  A wrong code is counted by a compare-and-swap on the row as it is then, tried five times; the fifth failure, and
  each one after it, stores a lockout.  A right code writes the whole usage back, without a condition.  A backup code is
  spent by an update that requires that it is unused; codes that were replaced are soft-deleted, which every statement on
  them requires too.

  Every statement is a step, and so is every look at the clock; other requests go on in between.  The world counts the writes
  to the row, and a request notes the count when it has read the row or written it: it is overtaken if the count has gone on
  since.  A log tells what happened, in order.
-/
import Mathlib.Logic.Function.Basic
import NovaMaas.Lib.Table
import NovaMaas.Lib.Text

namespace NovaMaas.Auth

/-! ## The rows -/

def maxFailAttempts : ℕ := 5

/-- 300 seconds, in nanoseconds. -/
def lockoutDuration : ℤ := 300 * 1000000000

def backupCodeLength : ℕ := 8

/-- The columns of a factor that a validation reads and writes. -/
structure TwoFA where
  secret         : String
  failedAttempts : ℕ := 0
  lockedUntil    : Option ℤ := none
  lastUsedAt     : Option ℤ := none

structure TwoFABackupCode where
  id       : ℕ
  codeHash : String
  isUsed   : Bool := false
  deleted  : Bool := false

/-- `totp.Validate` of a code and a secret at a time, the comparison of a code with a hash, and upper case. -/
structure FactorEnv where
  totpValidate            : String → String → ℤ → Bool
  validatePasswordAndHash : String → String → Bool
  toUpper                 : String → String

/-! ## Codes -/

variable (env : FactorEnv)

/-- A text without a character. -/
def removeChar (c : Char) (s : String) : String := String.ofList (s.toList.filter fun d => d ≠ c)

def validateTOTPCode (secret code : String) (now : ℤ) : Bool :=
  let cleanCode := removeChar ' ' code
  if cleanCode.utf8ByteSize ≠ 6 then false else env.totpValidate cleanCode secret now

/-- `strings.ToUpper` of a code without its hyphens. -/
def cleanBackupCode (code : String) : String := env.toUpper (removeChar '-' code)

/-- The format of a backup code. -/
def validateBackupCodeFormat (code : String) : Bool :=
  (cleanBackupCode env code).utf8ByteSize = backupCodeLength &&
    (cleanBackupCode env code).toList.all fun c => ('A' ≤ c && c ≤ 'Z') || ('0' ≤ c && c ≤ '9')

def normalizeBackupCode (code : String) : String :=
  let cleanCode := cleanBackupCode env code
  if cleanCode.utf8ByteSize = backupCodeLength then
    String.ofList (cleanCode.toList.take 4) ++ "-" ++ String.ofList (cleanCode.toList.drop 4)
  else code

/-- The time is in the future. -/
def future (lockedUntil : Option ℤ) (now : ℤ) : Bool := lockedUntil.any fun u => now < u

def TwoFA.isLocked (t : TwoFA) (now : ℤ) : Bool := future t.lockedUntil now

/-! ## The world -/

inductive Validation where
  | totp (code : String)
  | backup (code : String)

/-- Where a request is, with its object. -/
inductive FactorPhase where
  | idle
  | ready (t : TwoFA)
  /-- The object is not locked. -/
  | checked (t : TwoFA) (v : Validation)
  | matching (t : TwoFA) (code : String) (found : List TwoFABackupCode)
  /-- The code was wrong; so many tries are left to count it. -/
  | counting (t : TwoFA) (tries : ℕ)
  | swapping (t : TwoFA) (tries : ℕ) (current : TwoFA) (now : ℤ)
  /-- The code was right. -/
  | succeeding (t : TwoFA)

structure FactorRequest where
  phase : FactorPhase := .idle
  seen  : ℕ := 0

inductive FactorEvent where
  /-- A code is evaluated, while the stored lockout is in the future or not. -/
  | evaluated (request : ℕ) (right locked overtaken : Bool)
  /-- A validation of a wrong code ends. -/
  | wrong (request : ℕ) (overtaken : Bool)
  /-- A right code has reset the usage. -/
  | success (request : ℕ)
  | lockout (lockedUntil : ℤ)
  /-- The lockout that was stored, and the one that is. -/
  | stored (bySuccess overtaken : Bool) (before after : Option ℤ) (time : ℤ)
  | accepted (code : ℕ)
  | retired (codes : List ℕ)
  deriving DecidableEq

structure FactorWorld where
  time     : ℤ
  factor   : Option TwoFA
  codes    : Table TwoFABackupCode.id
  nextCode : ℕ
  writes   : ℕ
  requests : ℕ → FactorRequest
  log      : List FactorEvent

/-- A factor without backup codes, and no request. -/
def FactorWorld.start (time : ℤ) (secret : String) : FactorWorld :=
  ⟨time, some { secret := secret }, Table.empty, 1, 0, fun _ => {}, []⟩

/-- The row was written since the request has seen it. -/
def FactorWorld.overtaken (w : FactorWorld) (r : ℕ) : Bool := (w.requests r).seen ≠ w.writes

/-- The stored lockout is in the future. -/
def FactorWorld.locked (w : FactorWorld) : Bool := w.factor.any fun t => t.isLocked w.time

def FactorWorld.setPhase (w : FactorWorld) (r : ℕ) (phase : FactorPhase) : FactorWorld :=
  { w with requests := Function.update w.requests r { w.requests r with phase := phase } }

/-- The request has seen the row as it is. -/
def FactorWorld.see (w : FactorWorld) (r : ℕ) (phase : FactorPhase) : FactorWorld :=
  { w with requests := Function.update w.requests r ⟨phase, w.writes⟩ }

def FactorWorld.note (w : FactorWorld) (events : List FactorEvent) : FactorWorld := { w with log := w.log ++ events }

/-- An update of the row by a request; its object is the row then. -/
def FactorWorld.write (w : FactorWorld) (factor : Option TwoFA) : FactorWorld :=
  { w with factor := factor, writes := w.writes + 1 }

/-! ## The statements -/

/-- The validation of a code ends: a right one goes on to its write, a wrong one is counted. -/
def FactorWorld.evaluated (w : FactorWorld) (r : ℕ) (t : TwoFA) (right : Bool) : FactorWorld :=
  (w.setPhase r (if right then .succeeding t else .counting t 5)).note
    [.evaluated r right w.locked (w.overtaken r)]

/-- The code is evaluated; of a backup code, the unused codes are read. -/
def FactorWorld.evaluate (w : FactorWorld) (r : ℕ) (t : TwoFA) : Validation → FactorWorld
  | .totp code => w.evaluated r t (validateTOTPCode env t.secret code w.time)
  | .backup code =>
    if validateBackupCodeFormat env code = false then w.setPhase r (.ready t)
    else w.setPhase r (.matching t code (w.codes.rows.filter fun c => !c.isUsed && !c.deleted))

/-- The first code that matches is spent, if it is still unused. -/
def FactorWorld.redeem (w : FactorWorld) (r : ℕ) (t : TwoFA) (code : String) (found : List TwoFABackupCode) :
    FactorWorld :=
  match found.find? fun c => env.validatePasswordAndHash (normalizeBackupCode env code) c.codeHash with
  | none => w.evaluated r t false
  | some c =>
    match (w.codes.get? c.id).filter fun row => !row.isUsed && !row.deleted with
    | none => w.evaluated r t false
    | some row =>
      ({ w with codes := w.codes.put { row with isUsed := true } }.evaluated r t true).note [.accepted row.id]

/-- The failure is not counted. -/
def FactorWorld.giveUp (w : FactorWorld) (r : ℕ) (t : TwoFA) : FactorWorld :=
  (w.setPhase r (.ready t)).note [.wrong r (w.overtaken r)]

/-- The row is read to be counted on. -/
def FactorWorld.select (w : FactorWorld) (r : ℕ) (t : TwoFA) : ℕ → FactorWorld
  | 0 => w.giveUp r t
  | tries + 1 =>
    match w.factor with
    | none => w.giveUp r t
    | some current =>
      if current.isLocked w.time then
        (w.see r (.ready { t with failedAttempts := current.failedAttempts, lockedUntil := current.lockedUntil })).note
          [.wrong r (w.overtaken r)]
      else w.setPhase r (.swapping t tries current w.time)

/-- The lockout after a failure. -/
def nextLockedUntil (current : TwoFA) (now : ℤ) : Option ℤ :=
  if maxFailAttempts ≤ current.failedAttempts + 1 then some (now + lockoutDuration) else current.lockedUntil

/-- The compare-and-swap. -/
def FactorWorld.swap (w : FactorWorld) (r : ℕ) (t : TwoFA) (tries : ℕ) (current : TwoFA) (now : ℤ) : FactorWorld :=
  match w.factor.filter fun row => row.failedAttempts = current.failedAttempts && row.lockedUntil.all (fun u => u ≤ now) with
  | none => w.setPhase r (.counting t tries)
  | some row =>
    let lockedUntil := nextLockedUntil current now
    ((w.write (some { row with failedAttempts := current.failedAttempts + 1, lockedUntil := lockedUntil })).see r
        (.ready { t with failedAttempts := current.failedAttempts + 1, lockedUntil := lockedUntil })).note
      ([.stored false (w.overtaken r) row.lockedUntil lockedUntil w.time, .wrong r (w.overtaken r)] ++
        if maxFailAttempts ≤ current.failedAttempts + 1 then [.lockout (now + lockoutDuration)] else [])

/-- `updateUsageState` after a right code. -/
def FactorWorld.succeed (w : FactorWorld) (r : ℕ) (t : TwoFA) : FactorWorld :=
  let t' := { t with failedAttempts := 0, lockedUntil := none, lastUsedAt := some w.time }
  match w.factor with
  | none => (w.setPhase r (.ready t')).note [.success r]
  | some row =>
    ((w.write (some { row with failedAttempts := 0, lockedUntil := none, lastUsedAt := some w.time })).see r
      (.ready t')).note [.stored true (w.overtaken r) row.lockedUntil none w.time, .success r]

/-- The codes of a factor that are not deleted. -/
def FactorWorld.liveCodes (w : FactorWorld) : List ℕ := (w.codes.rows.filter fun c => !c.deleted).map TwoFABackupCode.id

/-- New codes, given by their hashes, in the place of the old ones. -/
def FactorWorld.addCodes (w : FactorWorld) : List String → FactorWorld
  | [] => w
  | codeHash :: hashes =>
    FactorWorld.addCodes { w with codes := w.codes.put ⟨w.nextCode, codeHash, false, false⟩, nextCode := w.nextCode + 1 } hashes

/-- The codes are soft-deleted. -/
def FactorWorld.retireCodes (w : FactorWorld) : FactorWorld :=
  { w with codes := w.codes.updateWhere (fun c => !c.deleted) (fun c => { c with deleted := true }) fun _ => rfl }.note
    [.retired w.liveCodes]

def FactorWorld.replaceBackupCodes (w : FactorWorld) (hashes : List String) : FactorWorld := w.retireCodes.addCodes hashes

/-- The factor and its codes are deleted. -/
def FactorWorld.disableTwoFA (w : FactorWorld) : FactorWorld :=
  ({ w with codes := Table.empty }.write none).note [.retired (w.codes.rows.map TwoFABackupCode.id)]

/-! ## Runs -/

inductive FactorMove where
  | advance (elapsed : ℕ)
  | load (r : ℕ)
  | check (r : ℕ) (v : Validation)
  | evaluate (r : ℕ)
  | redeem (r : ℕ)
  | select (r : ℕ)
  | swap (r : ℕ)
  | succeed (r : ℕ)
  | replaceBackupCodes (hashes : List String)
  | disable

def FactorWorld.step (w : FactorWorld) : FactorMove → Option FactorWorld
  | .advance elapsed => some { w with time := w.time + elapsed }
  | .load r =>
    match (w.requests r).phase with
    | .idle => w.factor.map fun t => w.see r (.ready t)
    | _ => none
  | .check r v =>
    match (w.requests r).phase with
    | .ready t => some (w.setPhase r (if t.isLocked w.time then .ready t else .checked t v))
    | _ => none
  | .evaluate r =>
    match (w.requests r).phase with
    | .checked t v => some (w.evaluate env r t v)
    | _ => none
  | .redeem r =>
    match (w.requests r).phase with
    | .matching t code found => some (w.redeem env r t code found)
    | _ => none
  | .select r =>
    match (w.requests r).phase with
    | .counting t tries => some (w.select r t tries)
    | _ => none
  | .swap r =>
    match (w.requests r).phase with
    | .swapping t tries current now => some (w.swap r t tries current now)
    | _ => none
  | .succeed r =>
    match (w.requests r).phase with
    | .succeeding t => some (w.succeed r t)
    | _ => none
  | .replaceBackupCodes hashes => if w.factor.isSome then some (w.replaceBackupCodes hashes) else none
  | .disable => if w.factor.isSome then some w.disableTwoFA else none

def FactorWorld.run (w : FactorWorld) : List FactorMove → Option FactorWorld
  | [] => some w
  | move :: moves => (w.step env move).bind fun w' => w'.run moves

end NovaMaas.Auth
