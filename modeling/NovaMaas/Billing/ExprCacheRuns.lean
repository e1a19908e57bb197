/-
  Every call for an expression answers as it would alone, with a cache of its own, whatever the other calls do to the
  shared one, as long as the second read of `UsedVars` finds its entry.

  What carries it: an entry of the cache is the one its expression compiles to, and two expressions with one hash are
  one.  Only an administrator, or a store that finds the cache full, makes an entry go away (`mem_exec`).
-/
import NovaMaas.Billing.ExprCache
import NovaMaas.Billing.Usage

namespace NovaMaas.Billing.Expr

open Interleave Prog.Keeps Prog

variable {P T A O : Type} (compiler : Compiler P T A O) (exprHashString : String → String)

/-! ## A call alone -/

/-- What a call returns, in terms of what its expression compiles to. -/
def expected : Call A → Answer P O
  | .compileFromCache exprStr => .program ((compileEntry compiler exprStr).map CachedEntry.prog)
  | .compileFromCacheByHash exprStr _ => .program ((compileEntry compiler exprStr).map CachedEntry.prog)
  | .runExpr exprStr args => .outcome ((compileEntry compiler exprStr).map fun entry =>
      compiler.runProgram entry.prog entry.requestRules args)
  | .runExprByHash exprStr _ args => .outcome ((compileEntry compiler exprStr).map fun entry =>
      compiler.runProgram entry.prog entry.requestRules args)
  | .usedVars exprStr =>
    .vars (if exprStr = "" then none else (compileEntry compiler exprStr).toOption.map CachedEntry.usedVars)
  | .exprVersion exprStr => .version (if exprStr = "" then 1 else (parseExprVersion exprStr).1)
  | .invalidateCache => .done

/-- A compilation alone, with an empty cache: the entry is stored. -/
theorem alone_compileEntry (exprStr hash : String) :
    ((compileEntryFromCacheByHash compiler exprStr hash).alone exec ∅).1 = compileEntry compiler exprStr ∧
      ∀ entry, compileEntry compiler exprStr = .ok entry →
        ((compileEntryFromCacheByHash compiler exprStr hash).alone exec ∅).2.lookup hash = some entry := by
  have hmiss : (∅ : World P T).lookup hash = none := rfl
  unfold compileEntryFromCacheByHash
  rw [alone_bind, alone_issue, hmiss]
  cases compileEntry compiler exprStr with
  | error =>
    refine ⟨rfl, ?_⟩
    intro entry hentry
    cases hentry
  | ok =>
    refine ⟨rfl, ?_⟩
    intro entry' hentry
    obtain rfl := Except.ok.inj hentry
    exact AList.lookup_insert _

/-- Alone, a call returns what is expected. -/
theorem privateAnswer_eq (c : Call A) : privateAnswer compiler exprHashString c = expected compiler c := by
  unfold privateAnswer
  cases c with
  | compileFromCache exprStr =>
    show ((compileFromCacheByHash compiler exprStr (exprHashString exprStr)).alone exec ∅).1 = _
    rw [compileFromCacheByHash, alone_bind, (alone_compileEntry compiler exprStr _).1]
    rfl
  | compileFromCacheByHash exprStr hash =>
    show ((compileFromCacheByHash compiler exprStr hash).alone exec ∅).1 = _
    rw [compileFromCacheByHash, alone_bind, (alone_compileEntry compiler exprStr hash).1]
    rfl
  | runExpr exprStr args =>
    show ((runExprByHash compiler exprStr (exprHashString exprStr) args).alone exec ∅).1 = _
    rw [runExprByHash, alone_bind, (alone_compileEntry compiler exprStr _).1]
    rfl
  | runExprByHash exprStr hash args =>
    show ((runExprByHash compiler exprStr hash args).alone exec ∅).1 = _
    rw [runExprByHash, alone_bind, (alone_compileEntry compiler exprStr hash).1]
    rfl
  | usedVars exprStr =>
    show ((usedVars compiler exprHashString exprStr).alone exec ∅).1 =
      .vars (if exprStr = "" then none else (compileEntry compiler exprStr).toOption.map CachedEntry.usedVars)
    unfold usedVars
    by_cases hempty : exprStr = ""
    · rw [if_pos hempty, if_pos hempty]
      rfl
    · rw [if_neg hempty, if_neg hempty, alone_bind, alone_issue]
      show ((compileEntryFromCacheByHash compiler exprStr (exprHashString exprStr) >>= _).alone exec ∅).1 = _
      obtain ⟨hanswer, hstored⟩ := alone_compileEntry compiler exprStr (exprHashString exprStr)
      rw [alone_bind, hanswer]
      cases hcompile : compileEntry compiler exprStr with
      | error => rfl
      | ok entry =>
        show ((issue _ _ >>= _ : Prog (Stmt P T) (World P T) (Answer P O)).alone exec _).1 = _
        rw [alone_bind, alone_issue, hstored entry hcompile]
        rfl
  | exprVersion exprStr =>
    show ((exprVersion (P := P) (T := T) (O := O) exprHashString exprStr).alone exec ∅).1 =
      .version (if exprStr = "" then 1 else (parseExprVersion exprStr).1)
    unfold exprVersion
    by_cases hempty : exprStr = ""
    · rw [if_pos hempty, if_pos hempty]
      rfl
    · rw [if_neg hempty, if_neg hempty]
      rfl
  | invalidateCache => rfl

/-- The version of an entry is the one its expression names. -/
theorem compileEntry_version {exprStr : String} {entry : CachedEntry P T}
    (h : compileEntry compiler exprStr = .ok entry) : entry.version = (parseExprVersion exprStr).1 := by
  unfold compileEntry at h
  by_cases hrestricted : compiler.restrictedIdentifier (parseExprVersion exprStr).2 ≠ ""
  · rw [if_pos hrestricted] at h
    cases h
  · rw [if_neg hrestricted] at h
    cases hcompile : compiler.compile (parseExprVersion exprStr).2 with
    | error =>
      rw [hcompile] at h
      cases h
    | ok =>
      rw [hcompile] at h
      obtain rfl := Except.ok.inj h
      rfl

/-! ## The cache -/

/-- An entry of the cache is what its expression compiles to. -/
def Right (E : Set String) (cache : World P T) : Prop :=
  ∀ hash entry, cache.lookup hash = some entry →
    ∃ exprStr ∈ E, hash = exprHashString exprStr ∧ compileEntry compiler exprStr = .ok entry

section
variable {compiler exprHashString} {E : Set String} {cache : World P T}

/-- With one expression for a hash, a hit is what the expression compiles to. -/
theorem Right.hit (h : Right compiler exprHashString E cache) (hinj : Set.InjOn exprHashString E) {exprStr : String}
    (he : exprStr ∈ E) {entry : CachedEntry P T} (hhit : cache.lookup (exprHashString exprStr) = some entry) :
    compileEntry compiler exprStr = .ok entry := by
  obtain ⟨exprStr', he', hhash, hcompile⟩ := h _ _ hhit
  rw [hinj he he' hhash]
  exact hcompile

theorem Right.empty : Right compiler exprHashString E (∅ : World P T) := by
  intro hash entry hlookup
  cases hlookup

theorem Right.store (h : Right compiler exprHashString E cache) {exprStr : String} (he : exprStr ∈ E)
    {entry : CachedEntry P T} (hcompile : compileEntry compiler exprStr = .ok entry) :
    Right compiler exprHashString E (exec (.store (exprHashString exprStr) entry) cache) := by
  intro hash entry' hlookup
  have hlookup : ((if full cache then ∅ else cache).insert (exprHashString exprStr) entry).lookup hash = some entry' :=
    hlookup
  by_cases hhash : hash = exprHashString exprStr
  · rw [hhash, AList.lookup_insert] at hlookup
    obtain rfl := Option.some.inj hlookup
    exact ⟨exprStr, he, hhash, hcompile⟩
  · rw [AList.lookup_insert_ne hhash] at hlookup
    by_cases hfull : full cache = true
    · rw [if_pos hfull] at hlookup
      cases hlookup
    · rw [if_neg hfull] at hlookup
      exact h hash entry' hlookup

end

/-! ## The calls -/

/-- What the calls agree on: the entries of the cache are right. -/
def cacheProtocol (E : Set String) : Protocol (Call A) (Stmt P T) (World P T) :=
  Protocol.plain exec Finds (Right compiler exprHashString E) (fun _ _ => True) (fun _ => trivial) fun _ _ => trivial

section
variable {compiler exprHashString} {E : Set String} {i : ℕ × Call A} {exprStr : String}

/-- A compilation among other calls returns what the expression compiles to. -/
theorem compileEntry_keeps (hinj : Set.InjOn exprHashString E) (he : exprStr ∈ E) (cache : World P T) :
    (compileEntryFromCacheByHash compiler exprStr (exprHashString exprStr)).Keeps (cacheProtocol compiler exprHashString E)
      i (fun compiled _ => compiled = compileEntry compiler exprStr) cache := by
  unfold compileEntryFromCacheByHash
  refine issue_bind ?_
  intro v _ hright _
  refine ⟨hright, trivial, ?_⟩
  cases hhit : v.lookup (exprHashString exprStr) with
  | some =>
    exact keeps_pure fun _ _ _ => (hright.hit hinj he hhit).symm
  | none =>
    cases hcompile : compileEntry compiler exprStr with
    | error => exact keeps_pure fun _ _ _ => rfl
    | ok =>
      refine issue_bind ?_
      intro u _ hright _
      refine ⟨Right.store hright he hcompile, trivial, ?_⟩
      exact keeps_pure fun _ _ _ => rfl

/-- Among other calls, a call about some of the expressions returns what is expected. -/
theorem body_keeps (hinj : Set.InjOn exprHashString E) (c : Call A) (hc : c.Proper exprHashString E)
    (cache : World P T) : (body compiler exprHashString c).Keeps (cacheProtocol compiler exprHashString E) i
      (fun answer _ => answer = expected compiler c) cache := by
  obtain ⟨hexpr, hhash⟩ := hc
  cases c with
  | compileFromCache exprStr | runExpr exprStr =>
    have he : exprStr ∈ E := hexpr exprStr rfl
    refine bind ((compileEntry_keeps hinj he cache).weaken ?_)
    rintro compiled v _ rfl
    exact keeps_pure fun _ _ _ => rfl
  | compileFromCacheByHash exprStr hash | runExprByHash exprStr hash =>
    have he : exprStr ∈ E := hexpr exprStr rfl
    obtain rfl : hash = exprHashString exprStr := hhash
    refine bind ((compileEntry_keeps hinj he cache).weaken ?_)
    rintro compiled v _ rfl
    exact keeps_pure fun _ _ _ => rfl
  | usedVars exprStr =>
    have he : exprStr ∈ E := hexpr exprStr rfl
    show (usedVars compiler exprHashString exprStr).Keeps _ i (fun answer _ => answer =
      .vars (if exprStr = "" then none else (compileEntry compiler exprStr).toOption.map CachedEntry.usedVars)) cache
    unfold usedVars
    by_cases hempty : exprStr = ""
    · rw [if_pos hempty, if_pos hempty]
      exact keeps_pure fun _ _ _ => rfl
    · rw [if_neg hempty, if_neg hempty]
      refine issue_bind ?_
      intro v _ hright _
      refine ⟨hright, trivial, ?_⟩
      cases hhit : v.lookup (exprHashString exprStr) with
      | some =>
        refine keeps_pure fun _ _ _ => ?_
        rw [hright.hit hinj he hhit]
        rfl
      | none =>
        refine bind ((compileEntry_keeps hinj he v).weaken ?_)
        rintro compiled u _ rfl
        cases hcompile : compileEntry compiler exprStr with
        | error => exact keeps_pure fun _ _ _ => rfl
        | ok entry =>
          -- the second read: what it finds is right, and it finds something
          refine issue_bind ?_
          intro u' _ hright' hfinds
          refine ⟨hright', trivial, ?_⟩
          have hmem : exprHashString exprStr ∈ u' := hfinds
          obtain ⟨entry', hentry'⟩ := Option.isSome_iff_exists.1 (AList.lookup_isSome.2 hmem)
          have hsame : Except.ok entry = .ok entry' := hcompile.symm.trans (Right.hit hright' hinj he hentry')
          obtain rfl := Except.ok.inj hsame
          refine keeps_pure fun _ _ _ => ?_
          rw [hentry']
          rfl
  | exprVersion exprStr =>
    have he : exprStr ∈ E := hexpr exprStr rfl
    show (exprVersion exprHashString exprStr).Keeps _ i (fun answer _ => answer =
      .version (if exprStr = "" then 1 else (parseExprVersion exprStr).1)) cache
    unfold exprVersion
    by_cases hempty : exprStr = ""
    · rw [if_pos hempty, if_pos hempty]
      exact keeps_pure fun _ _ _ => rfl
    · rw [if_neg hempty, if_neg hempty]
      refine issue_bind ?_
      intro v _ hright _
      refine ⟨hright, trivial, ?_⟩
      cases hhit : v.lookup (exprHashString exprStr) with
      | none => exact keeps_pure fun _ _ _ => rfl
      | some =>
        refine keeps_pure fun _ _ _ => ?_
        rw [compileEntry_version compiler (hright.hit hinj he hhit)]
  | invalidateCache =>
    refine issue_bind ?_
    intro v _ _ _
    refine ⟨Right.empty, trivial, ?_⟩
    exact keeps_pure fun _ _ _ => rfl

end

/-- **Every run.**  A call that has ended has returned what it returns alone, with an empty cache; and the names that
`UsedVars` returns for an expression are those that its prompt and completion tokens are reduced by. -/
theorem answers_as_alone (E : Set String) (hinj : Set.InjOn exprHashString E) (events : List (Event (Call A)))
    (hadmits : Sys.Admits exec (fun _ => body compiler exprHashString) (fun c _ => c.Proper exprHashString E) Finds
      ⟨∅, []⟩ events) :
    (∀ n c since answer, (Sys.run exec (fun _ => body compiler exprHashString) ⟨∅, []⟩ events).Ended n c since answer →
      answer = privateAnswer compiler exprHashString c) ∧
    ∀ n exprStr since usedVars entry, exprStr ≠ "" → compileEntry compiler exprStr = .ok entry →
      (Sys.run exec (fun _ => body compiler exprHashString) ⟨∅, []⟩ events).Ended n (.usedVars exprStr) since
        (.vars usedVars) →
      usedVars = some entry.usedVars ∧ ∀ usage : UsageTokens, (buildTieredTokenParams usage false usedVars).p =
            max 0 (usage.promptTokens - pricedTokens entry.usedVars usage.promptParts) ∧
          (buildTieredTokenParams usage false usedVars).c =
            max 0 (usage.completionTokens - pricedTokens entry.usedVars usage.completionParts) := by
  have hbody : ∀ (n : ℕ) (c : Call A) (w : World P T), (cacheProtocol compiler exprHashString E).Inv w →
      (cacheProtocol compiler exprHashString E).Rely (n, c) ∅ w → c.Proper exprHashString E →
      (body compiler exprHashString c).Keeps (cacheProtocol compiler exprHashString E) (n, c)
        (fun answer _ => answer = expected compiler c) w :=
    fun n c w _ _ hc => body_keeps hinj c hc w
  have hgood := (Sys.run_keeps (Q := fun _ c _ answer _ => answer = expected compiler c) hbody events
    (Sys.good_init Right.empty) hadmits).1
  have hanswer : ∀ n c since answer,
      (Sys.run exec (fun _ => body compiler exprHashString) ⟨∅, []⟩ events).Ended n c since answer →
        answer = expected compiler c :=
    fun n c since answer hended => hgood.ended hended
  constructor
  · intro n c since answer hended
    rw [privateAnswer_eq]
    exact hanswer n c since answer hended
  · intro n exprStr since usedVars entry hexpr hcompile hended
    have hvars : Answer.vars usedVars =
        .vars (if exprStr = "" then none else (compileEntry compiler exprStr).toOption.map CachedEntry.usedVars) :=
      hanswer n _ since _ hended
    rw [if_neg hexpr, hcompile] at hvars
    obtain rfl : usedVars = some entry.usedVars := Answer.vars.inj hvars
    exact ⟨rfl, fun usage => buildTieredTokenParams_reduced usage entry.usedVars⟩

/-- A compiler that takes every expression, and reads off it which of two names it uses. -/
def sampleCompiler : Compiler String Unit Unit Unit where
  compile := .ok
  restrictedIdentifier := fun _ => ""
  requestRules := fun _ => ()
  usedVars := fun prog => ["p", "cr"].filter fun name => decide (name.toList <:+: prog.toList)
  runProgram := fun _ _ _ => ()

/-- `UsedVars` compiles and stores, an administrator saves, `UsedVars` looks again. -/
def savedBetween : List (Event (Call Unit)) :=
  [.start (.usedVars "p + cr"), .start .invalidateCache] ++ Event.steps 0 3 ++ Event.steps 1 1 ++ Event.steps 0 1

/-- **An expression that prices cached tokens separately is billed for them twice.**  Of 100 tokens, 40 of them cached,
`p` is all 100. -/
theorem cleared_between : ∃ since answer,
    (Sys.run exec (fun _ => body sampleCompiler id) ⟨∅, []⟩ savedBetween).Ended 0 (.usedVars "p + cr") since
        (.vars answer) ∧
      answer = none ∧
      privateAnswer sampleCompiler id (.usedVars "p + cr") = .vars (some ["p", "cr"]) ∧
      (buildTieredTokenParams { promptTokens := 100, promptTokensDetails := { cachedTokens := 40 } } false answer).p =
        100 ∧
      (buildTieredTokenParams { promptTokens := 100, promptTokensDetails := { cachedTokens := 40 } } false
        (some ["p", "cr"])).p = 60 := by
  refine ⟨∅, none, ?_, rfl, ?_, ?_, ?_⟩
  · rfl
  · rfl
  · decide
  · decide

/-- The administrator saves before or after: both calls answer as they would alone. -/
def savedAfter : List (Event (Call Unit)) :=
  [.start (.usedVars "p + cr"), .start .invalidateCache] ++ Event.steps 0 4 ++ Event.steps 1 1

theorem answers_as_alone_savedAfter :
    Sys.Admits exec (fun _ => body sampleCompiler id) (fun c _ => c.Proper id Set.univ) Finds ⟨∅, []⟩ savedAfter ∧
      ∀ n c since answer, (Sys.run exec (fun _ => body sampleCompiler id) ⟨∅, []⟩ savedAfter).Ended n c since answer →
        answer = privateAnswer sampleCompiler id c := by
  have hadmits : Sys.Admits exec (fun _ => body sampleCompiler id) (fun c _ => c.Proper id Set.univ) Finds
      ⟨∅, []⟩ savedAfter := by
    have hfinds : Sys.Admits exec (fun _ => body sampleCompiler id)
        (fun c _ => c ∈ [Call.usedVars "p + cr", Call.invalidateCache]) Finds ⟨∅, []⟩ savedAfter := by
      decide +kernel
    refine hfinds.weaken ?_ fun _ _ h => h
    intro c _ hc
    refine ⟨fun _ _ => Set.mem_univ _, ?_⟩
    rcases List.mem_pair.1 hc with rfl | rfl
    · trivial
    · trivial
  exact ⟨hadmits, (answers_as_alone sampleCompiler id Set.univ (Set.injOn_of_injective Function.injective_id) savedAfter
    hadmits).1⟩

end NovaMaas.Billing.Expr
