/-
  The cache of compiled billing expressions (pkg/billingexpr/compile.go and run.go).

  Entries are kept under the hash of their expression.  A call that misses compiles and stores; the cache is emptied by
  an administrator, and by a store that finds it full.  `UsedVars` is the one call that looks twice: it compiles, lets
  go of the lock, and reads the entry AGAIN, and where it is gone by then it answers nil.

  Every locked section is a statement, so calls interleave as they do in the source.  An entry in the cache is the one
  its expression compiles to, whatever the order; so all answers are those of a call alone with an empty cache, but for
  that second read, which has to find its entry there.

  The compiler, and the machine that runs a program, are parameters: what a program makes of its arguments, the time
  among them, is a function.
-/
import NovaMaas.Lib.Interleave

namespace NovaMaas.Billing.Expr

open Interleave

/-! ## The compiler and the cache -/

/-- `maxCacheSize`. -/
def maxCacheSize : ℕ := 256

/-- `ParseExprVersion`: the version and the body. -/
def parseExprVersion (exprStr : String) : ℤ × String :=
  if "v1:".toList.isPrefixOf exprStr.toList then (1, String.ofList (exprStr.toList.drop 3)) else (1, exprStr)

/-- Programs `P`, request rules `T`, arguments `A` and outcomes `O` of the expression language. -/
structure Compiler (P T A O : Type) where
  compile              : String → Except String P
  /-- An identifier of the body that is kept for internal use, or nothing. -/
  restrictedIdentifier : String → String
  requestRules         : String → T
  usedVars             : P → List String
  /-- `runProgram`. -/
  runProgram           : P → T → A → O

structure CachedEntry (P T : Type) where
  prog         : P
  usedVars     : List String
  requestRules : T
  version      : ℤ

/-- The cache, by hash. -/
abbrev World (P T : Type) := AList fun _ : String => CachedEntry P T

variable {P T A O : Type}

/-- A locked section. -/
inductive Stmt (P T : Type) where
  | lookup (hash : String)
  | store (hash : String) (entry : CachedEntry P T)
  /-- The second read of `UsedVars`. -/
  | reread (hash : String)
  | clear

def full (cache : World P T) : Bool := maxCacheSize ≤ cache.entries.length

def exec (op : Stmt P T) (cache : World P T) : World P T :=
  match op with
  | .lookup _ => cache
  | .store hash entry => (if full cache then ∅ else cache).insert hash entry
  | .reread _ => cache
  | .clear => ∅

/-! ## The calls -/

inductive Call (A : Type) where
  | compileFromCache (exprStr : String)
  | compileFromCacheByHash (exprStr hash : String)
  | runExpr (exprStr : String) (args : A)
  | runExprByHash (exprStr hash : String) (args : A)
  | usedVars (exprStr : String)
  | exprVersion (exprStr : String)
  | invalidateCache
  deriving DecidableEq

/-- What a call returns. -/
inductive Answer (P O : Type) where
  | program (prog : Except String P)
  | outcome (result : Except String O)
  | vars (usedVars : Option (List String))
  | version (version : ℤ)
  | done

section
variable (compiler : Compiler P T A O) (exprHashString : String → String)

/-- What an expression compiles to. -/
def compileEntry (exprStr : String) : Except String (CachedEntry P T) :=
  let body := (parseExprVersion exprStr).2
  if compiler.restrictedIdentifier body ≠ "" then
    .error ("expr compile error: identifier \"" ++ compiler.restrictedIdentifier body ++
      "\" is reserved for internal use")
  else
    match compiler.compile body with
    | .error err => .error ("expr compile error: " ++ err)
    | .ok prog =>
      .ok { prog := prog
            usedVars := compiler.usedVars prog
            requestRules := compiler.requestRules body
            version := (parseExprVersion exprStr).1 }

/-- `compileEntryFromCacheByHash`. -/
def compileEntryFromCacheByHash (exprStr hash : String) :
    Prog (Stmt P T) (World P T) (Except String (CachedEntry P T)) := do
  let hit ← Prog.issue (.lookup hash) fun cache => cache.lookup hash
  match hit with
  | some entry => pure (.ok entry)
  | none =>
    match compileEntry compiler exprStr with
    | .error err => pure (.error err)
    | .ok entry => do
      Prog.issue (.store hash entry) fun _ => ()
      pure (.ok entry)

/-- `compileFromCacheByHash`. -/
def compileFromCacheByHash (exprStr hash : String) : Prog (Stmt P T) (World P T) (Answer P O) := do
  let entry ← compileEntryFromCacheByHash compiler exprStr hash
  pure (.program (entry.map CachedEntry.prog))

/-- `RunExprByHashWithRequest`. -/
def runExprByHash (exprStr hash : String) (args : A) : Prog (Stmt P T) (World P T) (Answer P O) := do
  let entry ← compileEntryFromCacheByHash compiler exprStr hash
  pure (.outcome (entry.map fun entry => compiler.runProgram entry.prog entry.requestRules args))

/-- `UsedVars`. -/
def usedVars (exprStr : String) : Prog (Stmt P T) (World P T) (Answer P O) :=
  if exprStr = "" then pure (.vars none)
  else do
    let hit ← Prog.issue (.lookup (exprHashString exprStr)) fun cache => cache.lookup (exprHashString exprStr)
    match hit with
    | some entry => pure (.vars (some entry.usedVars))
    | none => do
      let compiled ← compileEntryFromCacheByHash compiler exprStr (exprHashString exprStr)
      match compiled with
      | .error _ => pure (.vars none)
      | .ok _ => do
        let again ← Prog.issue (.reread (exprHashString exprStr)) fun cache => cache.lookup (exprHashString exprStr)
        pure (.vars (again.map CachedEntry.usedVars))

/-- `ExprVersion`. -/
def exprVersion (exprStr : String) : Prog (Stmt P T) (World P T) (Answer P O) :=
  if exprStr = "" then pure (.version 1)
  else do
    let hit ← Prog.issue (.lookup (exprHashString exprStr)) fun cache => cache.lookup (exprHashString exprStr)
    match hit with
    | some entry => pure (.version entry.version)
    | none => pure (.version (parseExprVersion exprStr).1)

def body : Call A → Prog (Stmt P T) (World P T) (Answer P O)
  | .compileFromCache exprStr => compileFromCacheByHash compiler exprStr (exprHashString exprStr)
  | .compileFromCacheByHash exprStr hash => compileFromCacheByHash compiler exprStr hash
  | .runExpr exprStr args => runExprByHash compiler exprStr (exprHashString exprStr) args
  | .runExprByHash exprStr hash args => runExprByHash compiler exprStr hash args
  | .usedVars exprStr => usedVars compiler exprHashString exprStr
  | .exprVersion exprStr => exprVersion exprHashString exprStr
  | .invalidateCache => do
    Prog.issue .clear fun _ => ()
    pure .done

/-- What a call returns that nobody interrupts, with a cache of its own that is empty. -/
def privateAnswer (c : Call A) : Answer P O := ((body compiler exprHashString c).alone exec ∅).1

/-- The expression of a call. -/
def Call.exprStr? : Call A → Option String
  | .compileFromCache exprStr => some exprStr
  | .compileFromCacheByHash exprStr _ => some exprStr
  | .runExpr exprStr _ => some exprStr
  | .runExprByHash exprStr _ _ => some exprStr
  | .usedVars exprStr => some exprStr
  | .exprVersion exprStr => some exprStr
  | .invalidateCache => none

/-- A call about one of some expressions, which gives the hash of its expression where it gives one. -/
def Call.Proper (E : Set String) (c : Call A) : Prop :=
  (∀ exprStr ∈ c.exprStr?, exprStr ∈ E) ∧
    match c with
    | .compileFromCacheByHash exprStr hash => hash = exprHashString exprStr
    | .runExprByHash exprStr hash _ => hash = exprHashString exprStr
    | _ => True

/-- A second read finds its entry there. -/
def Finds (op : Stmt P T) (cache : World P T) : Prop :=
  match op with
  | .reread hash => hash ∈ cache
  | _ => True

instance (op : Stmt P T) (cache : World P T) : Decidable (Finds op cache) :=
  match op with
  | .reread hash => inferInstanceAs (Decidable (hash ∈ cache))
  | .lookup _ => isTrue trivial
  | .store _ _ => isTrue trivial
  | .clear => isTrue trivial

end

end NovaMaas.Billing.Expr
