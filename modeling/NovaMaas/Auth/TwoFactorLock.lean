/-
  What the lockout of the second factor holds against.

  A request that is not overtaken works with the row as it is: its object has the row's count and lock
  (`RequestSound`).  So a code that it evaluates is evaluated while no lockout is in force, its failure is counted by the
  first compare-and-swap, and its success clears no lockout.  The count of the row is then at least the number of its kind
  since the last lockout or success, and the fifth stores a lockout (`streak`).  A request that is overtaken evaluates codes
  and clears lockouts while one is in force (`late_success`).

  A backup code is spent by one statement, on a row that is unused and not deleted, whoever is overtaken.
-/
import NovaMaas.Auth.TwoFactor

open List Option Function

namespace NovaMaas.Auth

open FactorWorld

variable {env : FactorEnv}

/-! ## The log -/

/-- The wrong codes since the last lockout or success, of validations that were not overtaken. -/
def streakStep (n : ℕ) : FactorEvent → ℕ
  | .wrong _ overtaken => if overtaken then n else n + 1
  | .success _ | .lockout _ => 0
  | _ => n

def streak (log : List FactorEvent) : ℕ := log.foldl streakStep 0

/-- No code is evaluated, and no lockout overwritten, while a lockout is in force; unless the request is overtaken, where a
    failure overwrites none even so. -/
def FactorEvent.inOrder : FactorEvent → Prop
  | .evaluated _ _ locked overtaken => overtaken = false → locked = false
  | .stored bySuccess overtaken before _ time => bySuccess = false ∨ overtaken = false → future before time = false
  | _ => True

/-- A code that is accepted was neither accepted before nor retired. -/
def SpentOnce (e e' : FactorEvent) : Prop :=
  ∀ c, e' = .accepted c → e ≠ .accepted c ∧ ∀ cs, e = .retired cs → c ∉ cs

/-- What holds of everything that has happened. -/
structure LockoutHolds (log : List FactorEvent) : Prop where
  guesses : ∀ l, l <+: log → streak l ≤ maxFailAttempts
  inOrder : ∀ e ∈ log, e.inOrder
  once    : log.Pairwise SpentOnce

theorem streak_append (log : List FactorEvent) (e : FactorEvent) : streak (log ++ [e]) = streakStep (streak log) e := by
  unfold streak
  rw [foldl_append]
  rfl

theorem lockoutHolds_nil : LockoutHolds [] where
  guesses := fun l hl => by
    rw [prefix_nil.1 hl]
    exact Nat.zero_le _
  inOrder := fun e he => by cases he
  once := List.Pairwise.nil

variable {e : FactorEvent}

theorem LockoutHolds.add {log : List FactorEvent} (h : LockoutHolds log)
    (hstreak : streakStep (streak log) e ≤ maxFailAttempts) (horder : e.inOrder) (honce : ∀ e' ∈ log, SpentOnce e' e) :
    LockoutHolds (log ++ [e]) where
  guesses := by
    intro l hl
    rcases prefix_concat_iff.1 hl with rfl | hl
    · rw [streak_append]
      exact hstreak
    · exact h.guesses l hl
  inOrder := by
    intro e' he'
    rcases mem_append.1 he' with he' | he'
    · exact h.inOrder e' he'
    · obtain rfl := mem_singleton.1 he'
      exact horder
  once := by
    refine pairwise_append.2 ⟨h.once, pairwise_singleton _ _, ?_⟩
    intro e' he' e'' he''
    obtain rfl := mem_singleton.1 he''
    exact honce e' he'

/-- An event that accepts no code. -/
theorem spentOnce_of_ne (h : ∀ c, e ≠ .accepted c) (e' : FactorEvent) : SpentOnce e' e :=
  fun c hc => absurd hc (h c)

theorem maxFailAttempts_pos : 0 < maxFailAttempts := by decide

theorem note_note (w : FactorWorld) (es es' : List FactorEvent) : (w.note es).note es' = w.note (es ++ es') := by
  unfold note
  rw [append_assoc]

/-! ## The invariant -/

def FactorPhase.object : FactorPhase → Option TwoFA
  | .idle => none
  | .ready t | .checked t _ | .matching t _ _ | .counting t _ | .swapping t _ _ _ | .succeeding t => some t

/-- The lock has been looked at. -/
def FactorPhase.passed : FactorPhase → Bool
  | .idle | .ready _ => false
  | _ => true

/-- The tries that are left are all that there were. -/
def FactorPhase.firstTry : FactorPhase → Bool
  | .counting _ tries => tries = 5
  | .swapping _ tries _ _ => tries = 4
  | _ => true

structure RequestSound (time : ℤ) (factor : Option TwoFA) (writes : ℕ) (q : FactorRequest) : Prop where
  seen     : q.seen ≤ writes
  same     : q.seen = writes → ∀ t, q.phase.object = some t →
    ∃ row, factor = some row ∧ row.failedAttempts = t.failedAttempts ∧ row.lockedUntil = t.lockedUntil
  passed   : q.phase.passed = true → ∀ t, q.phase.object = some t → future t.lockedUntil time = false
  first    : q.seen = writes → q.phase.firstTry = true
  swapping : ∀ t tries current now, q.phase = .swapping t tries current now → now ≤ time ∧
    future t.lockedUntil now = false ∧
    (q.seen = writes → current.failedAttempts = t.failedAttempts ∧ current.lockedUntil = t.lockedUntil)

/-- A code that can be spent was neither accepted nor retired. -/
structure CodesSound (codes : Table TwoFABackupCode.id) (nextCode : ℕ) (log : List FactorEvent) : Prop where
  rows     : ∀ c ∈ codes.rows, c.id < nextCode
  accepted : ∀ c, .accepted c ∈ log → c < nextCode
  retired  : ∀ cs, .retired cs ∈ log → ∀ c ∈ cs, c < nextCode
  unspent  : ∀ c ∈ codes.rows, c.isUsed = false → c.deleted = false →
    .accepted c.id ∉ log ∧ ∀ cs, .retired cs ∈ log → c.id ∉ cs

structure FactorSound (w : FactorWorld) : Prop where
  requests : ∀ r, RequestSound w.time w.factor w.writes (w.requests r)
  log      : LockoutHolds w.log
  below    : streak w.log < maxFailAttempts
  counted  : ∀ row, w.factor = some row → streak w.log ≤ row.failedAttempts
  codes    : CodesSound w.codes w.nextCode w.log

/-! ## Lockouts and time -/

variable {lockedUntil : Option ℤ} {time : ℤ}

theorem future_mono {now : ℤ} (h : future lockedUntil now = false) (hle : now ≤ time) :
    future lockedUntil time = false := by
  cases lockedUntil with
  | none => rfl
  | some u =>
    have hnow : decide (now < u) = false := h
    have htime : decide (time < u) = false := by
      rw [decide_eq_false_iff_not] at hnow ⊢
      omega
    exact htime

theorem future_of_all {now : ℤ} (h : lockedUntil.all (fun u => u ≤ now) = true) : future lockedUntil now = false := by
  cases lockedUntil with
  | none => rfl
  | some u =>
    have hle : u ≤ now := of_decide_eq_true h
    have hnot : decide (now < u) = false := decide_eq_false (by omega)
    exact hnot

theorem all_of_future {now : ℤ} (h : future lockedUntil now = false) : lockedUntil.all (fun u => u ≤ now) = true := by
  cases lockedUntil with
  | none => rfl
  | some u =>
    have hnow : decide (now < u) = false := h
    rw [decide_eq_false_iff_not] at hnow
    have hle : decide (u ≤ now) = true := decide_eq_true (by omega)
    exact hle

/-! ## Requests -/

variable {q : FactorRequest}

variable {factor : Option TwoFA} {writes : ℕ}

theorem RequestSound.advance {elapsed : ℕ}
    (h : RequestSound time factor writes q) : RequestSound (time + elapsed) factor writes q where
  seen := h.seen
  same := h.same
  passed := fun hpassed t ht => future_mono (h.passed hpassed t ht) (by omega)
  first := h.first
  swapping := by
    intro t tries current now hphase
    obtain ⟨hnow, hrest⟩ := h.swapping t tries current now hphase
    exact ⟨by omega, hrest⟩

/-- A write of somebody else overtakes the request. -/
theorem RequestSound.overtake {factor' : Option TwoFA}
    (h : RequestSound time factor writes q) : RequestSound time factor' (writes + 1) q where
  seen := Nat.le_succ_of_le h.seen
  same := fun heq => absurd heq (Nat.ne_of_lt (Nat.lt_succ_of_le h.seen))
  passed := h.passed
  first := fun heq => absurd heq (Nat.ne_of_lt (Nat.lt_succ_of_le h.seen))
  swapping := by
    intro t tries current now hphase
    obtain ⟨hnow, hfuture, -⟩ := h.swapping t tries current now hphase
    exact ⟨hnow, hfuture, fun heq => absurd heq (Nat.ne_of_lt (Nat.lt_succ_of_le h.seen))⟩

variable {t : TwoFA}

variable {phase : FactorPhase}

/-- The request goes on with its object, and does not swap yet. -/
theorem RequestSound.goOn
    (h : RequestSound time factor writes q) (hobject : q.phase.object = some t) (hobject' : phase.object = some t)
    (hpassed : phase.passed = true → future t.lockedUntil time = false)
    (hfirst : q.seen = writes → phase.firstTry = true)
    (hswap : ∀ t tries current now, phase ≠ .swapping t tries current now) :
    RequestSound time factor writes { q with phase := phase } where
  seen := h.seen
  same := by
    intro heq t' ht'
    have hphase : phase.object = some t' := ht'
    rw [hobject'] at hphase
    obtain rfl := some.inj hphase
    exact h.same heq t hobject
  passed := by
    intro hp t' ht'
    have hphase : phase.object = some t' := ht'
    rw [hobject'] at hphase
    obtain rfl := some.inj hphase
    exact hpassed hp
  first := hfirst
  swapping := fun t' tries current now hphase => absurd hphase (hswap t' tries current now)

/-- A request that has just seen the row. -/
theorem requestSound_ready {row t : TwoFA} (hfailed : row.failedAttempts = t.failedAttempts)
    (hlocked : row.lockedUntil = t.lockedUntil) : RequestSound time (some row) writes ⟨.ready t, writes⟩ where
  seen := Nat.le_refl _
  same := by
    intro _ t' ht'
    obtain rfl : t = t' := some.inj ht'
    exact ⟨row, rfl, hfailed, hlocked⟩
  passed := fun hp => by cases hp
  first := fun _ => rfl
  swapping := fun t' tries current now hphase => by cases hphase

/-! ## Frames -/

variable {w : FactorWorld}

variable {r : ℕ}

theorem FactorSound.setRequest (h : FactorSound w) {q : FactorRequest} (hq : RequestSound w.time w.factor w.writes q) :
    FactorSound { w with requests := update w.requests r q } where
  requests := by
    intro r'
    show RequestSound w.time w.factor w.writes (update w.requests r q r')
    by_cases hr : r' = r
    · subst hr
      rw [update_self]
      exact hq
    · rw [update_of_ne hr]
      exact h.requests r'
  log := h.log
  below := h.below
  counted := h.counted
  codes := h.codes

theorem FactorSound.setPhase (h : FactorSound w)
    (hq : RequestSound w.time w.factor w.writes { w.requests r with phase := phase }) : FactorSound (w.setPhase r phase) :=
  h.setRequest hq

/-- Not about a backup code. -/
def FactorEvent.plain : FactorEvent → Bool
  | .accepted _ | .retired _ => false
  | _ => true

theorem CodesSound.plain {codes : Table TwoFABackupCode.id} {nextCode : ℕ} {log : List FactorEvent} {e : FactorEvent}
    (h : CodesSound codes nextCode log) (he : e.plain = true) : CodesSound codes nextCode (log ++ [e]) := by
  have hmem : ∀ e', e'.plain = false → e' ∈ log ++ [e] → e' ∈ log := by
    intro e' hplain hmem
    rcases mem_append.1 hmem with hmem | hmem
    · exact hmem
    · obtain rfl := mem_singleton.1 hmem
      rw [he] at hplain
      cases hplain
  refine ⟨h.rows, fun c hc => h.accepted c (hmem _ rfl hc), fun cs hcs => h.retired cs (hmem _ rfl hcs), ?_⟩
  intro c hc hused hdeleted
  obtain ⟨haccepted, hretired⟩ := h.unspent c hc hused hdeleted
  exact ⟨fun hmem' => haccepted (hmem _ rfl hmem'), fun cs hcs => hretired cs (hmem _ rfl hcs)⟩

theorem spentOnce_plain (he : e.plain = true) (e' : FactorEvent) : SpentOnce e' e := by
  refine spentOnce_of_ne ?_ e'
  rintro c rfl
  cases he

/-- An event that is not about a backup code, and leaves the streak below the count of the row. -/
theorem FactorSound.note (h : FactorSound w) (e : FactorEvent) (hplain : e.plain = true) (horder : e.inOrder)
    (hbelow : streakStep (streak w.log) e < maxFailAttempts)
    (hcounted : ∀ row, w.factor = some row → streakStep (streak w.log) e ≤ row.failedAttempts) :
    FactorSound (w.note [e]) where
  requests := h.requests
  log := h.log.add (Nat.le_of_lt hbelow) horder fun e' _ => spentOnce_plain hplain e'
  below := by
    show streak (w.log ++ [e]) < maxFailAttempts
    rw [streak_append]
    exact hbelow
  counted := by
    intro row hrow
    show streak (w.log ++ [e]) ≤ row.failedAttempts
    rw [streak_append]
    exact hcounted row hrow
  codes := h.codes.plain hplain

/-- An event that leaves the streak as it is. -/
theorem FactorSound.noteQuiet (h : FactorSound w) (e : FactorEvent) (hplain : e.plain = true) (horder : e.inOrder)
    (hquiet : streakStep (streak w.log) e = streak w.log) : FactorSound (w.note [e]) := by
  refine h.note e hplain horder ?_ ?_
  · rw [hquiet]
    exact h.below
  · intro row hrow
    rw [hquiet]
    exact h.counted row hrow

/-! ## Evaluations -/

/-- The row of a request that is not overtaken has the lock of its object. -/
theorem locked_of_same (h : RequestSound w.time w.factor w.writes q)
    (hobject : q.phase.object = some t) (hpassed : q.phase.passed = true) (hseen : q.seen = w.writes) :
    w.locked = false := by
  obtain ⟨row, hrow, -, hlocked⟩ := h.same hseen t hobject
  have hfuture := h.passed hpassed t hobject
  rw [← hlocked] at hfuture
  unfold locked
  rw [hrow]
  exact hfuture

theorem overtaken_eq_false : w.overtaken r = false ↔ (w.requests r).seen = w.writes := by
  unfold overtaken
  rw [decide_eq_false_iff_not, not_not]

theorem evaluated_sound (right : Bool) (h : FactorSound w) (hobject : (w.requests r).phase.object = some t)
    (hpassed : (w.requests r).phase.passed = true) :
    FactorSound (w.evaluated r t right) := by
  have hrequest := h.requests r
  have hfuture := hrequest.passed hpassed t hobject
  refine FactorSound.noteQuiet (h.setPhase ?_) _ rfl ?_ rfl
  · cases right with
    | true | false =>
      exact hrequest.goOn hobject rfl (fun _ => hfuture) (fun _ => rfl) (fun _ _ _ _ heq => by cases heq)
  · exact fun hovertaken => locked_of_same hrequest hobject hpassed (overtaken_eq_false.1 hovertaken)

theorem evaluate_sound {v : Validation} (h : FactorSound w)
    (hphase : (w.requests r).phase = .checked t v) : FactorSound (w.evaluate env r t v) := by
  have hobject : (w.requests r).phase.object = some t := by rw [hphase]; rfl
  have hpassed : (w.requests r).phase.passed = true := by rw [hphase]; rfl
  have hrequest := h.requests r
  cases v with
  | totp => exact evaluated_sound _ h hobject hpassed
  | backup =>
    unfold evaluate
    dsimp only
    split
    · exact h.setPhase (hrequest.goOn hobject rfl (fun hp => by cases hp) (fun _ => rfl) (fun _ _ _ _ heq => by cases heq))
    · exact h.setPhase (hrequest.goOn hobject rfl (fun _ => hrequest.passed hpassed t hobject) (fun _ => rfl)
        (fun _ _ _ _ heq => by cases heq))

/-- A code that is spent: it was unused and not deleted. -/
theorem spend_sound {row : TwoFABackupCode} (h : FactorSound w) (hrow : row ∈ w.codes.rows)
    (hused : row.isUsed = false) (hdeleted : row.deleted = false) :
    FactorSound ({ w with codes := w.codes.put { row with isUsed := true } }.note [.accepted row.id]) := by
  obtain ⟨hrows, haccepted, hretired, hunspent⟩ := h.codes
  obtain ⟨hnew, hnever⟩ := hunspent row hrow hused hdeleted
  refine ⟨h.requests, ?_, ?_, ?_, ⟨?_, ?_, ?_, ?_⟩⟩
  · refine h.log.add (Nat.le_of_lt h.below) trivial ?_
    rintro e he c hc
    obtain rfl : row.id = c := FactorEvent.accepted.inj hc
    refine ⟨?_, ?_⟩
    · rintro rfl
      exact hnew he
    · rintro cs rfl
      exact hnever cs he
  · show streak (w.log ++ [.accepted row.id]) < maxFailAttempts
    rw [streak_append]
    exact h.below
  · intro row' hrow'
    show streak (w.log ++ [.accepted row.id]) ≤ row'.failedAttempts
    rw [streak_append]
    exact h.counted row' hrow'
  · intro c hc
    rcases Table.mem_put.1 hc with rfl | ⟨hc, -⟩
    · exact hrows row hrow
    · exact hrows c hc
  · intro c hc
    rcases mem_append.1 hc with hc | hc
    · exact haccepted c hc
    · obtain rfl := FactorEvent.accepted.inj (mem_singleton.1 hc)
      exact hrows row hrow
  · intro cs hcs
    rcases mem_append.1 hcs with hcs | hcs
    · exact hretired cs hcs
    · cases mem_singleton.1 hcs
  · intro c hc hcused hcdeleted
    rcases Table.mem_put.1 hc with rfl | ⟨hc, hne⟩
    · cases hcused
    · obtain ⟨hcnew, hcnever⟩ := hunspent c hc hcused hcdeleted
      refine ⟨?_, ?_⟩
      · intro hmem
        rcases mem_append.1 hmem with hmem | hmem
        · exact hcnew hmem
        · exact hne (FactorEvent.accepted.inj (mem_singleton.1 hmem))
      · intro cs hcs
        rcases mem_append.1 hcs with hcs | hcs
        · exact hcnever cs hcs
        · cases mem_singleton.1 hcs

theorem redeem_sound {code : String} {found : List TwoFABackupCode} (h : FactorSound w)
    (hphase : (w.requests r).phase = .matching t code found) :
    FactorSound (w.redeem env r t code found) := by
  have hobject : (w.requests r).phase.object = some t := by rw [hphase]; rfl
  have hpassed : (w.requests r).phase.passed = true := by rw [hphase]; rfl
  unfold redeem
  split
  · exact evaluated_sound false h hobject hpassed
  · next c _ =>
    split
    · exact evaluated_sound false h hobject hpassed
    · next row hrow =>
      obtain ⟨hget, hfit⟩ := filter_eq_some_iff.1 hrow
      rw [Bool.and_eq_true, Bool.not_eq_true', Bool.not_eq_true'] at hfit
      have hevaluated := evaluated_sound true h hobject hpassed
      exact spend_sound hevaluated (Table.mem_of_get? hget) hfit.1 hfit.2

/-! ## Failures -/

/-- A failure that is not counted is one of a request that is overtaken. -/
theorem wrong_overtaken_sound {w w₁ : FactorWorld} (h : FactorSound w₁)
    (hovertaken : w.overtaken r = true) : FactorSound (w₁.note [.wrong r (w.overtaken r)]) := by
  rw [hovertaken]
  exact h.noteQuiet _ rfl trivial rfl

theorem select_sound {tries : ℕ} (h : FactorSound w)
    (hphase : (w.requests r).phase = .counting t tries) : FactorSound (w.select r t tries) := by
  have hobject : (w.requests r).phase.object = some t := by rw [hphase]; rfl
  have hpassed : (w.requests r).phase.passed = true := by rw [hphase]; rfl
  have hrequest := h.requests r
  have hready : FactorSound (w.setPhase r (.ready t)) :=
    h.setPhase (hrequest.goOn hobject rfl (fun hp => by cases hp) (fun _ => rfl) (fun _ _ _ _ heq => by cases heq))
  -- a request that is not overtaken has all its tries, and a row that is not locked
  have hsame : w.overtaken r = false → tries = 5 ∧ ∃ row, w.factor = some row ∧ row.isLocked w.time = false := by
    intro hnot
    have hseen := overtaken_eq_false.1 hnot
    have hfirst := hrequest.first hseen
    rw [hphase] at hfirst
    obtain ⟨row, hrow, -, hlocked⟩ := hrequest.same hseen t hobject
    refine ⟨of_decide_eq_true hfirst, row, hrow, ?_⟩
    have hfuture := hrequest.passed hpassed t hobject
    rw [← hlocked] at hfuture
    exact hfuture
  cases tries with
  | zero =>
    refine wrong_overtaken_sound hready ?_
    by_contra hnot
    obtain ⟨hzero, -⟩ := hsame (Bool.eq_false_of_not_eq_true hnot)
    cases hzero
  | succ =>
    unfold select
    cases hfactor : w.factor with
    | none =>
      refine wrong_overtaken_sound hready ?_
      by_contra hnot
      obtain ⟨-, row, hrow, -⟩ := hsame (Bool.eq_false_of_not_eq_true hnot)
      rw [hfactor] at hrow
      cases hrow
    | some current =>
      dsimp only
      by_cases hlocked : current.isLocked w.time = true
      · rw [if_pos hlocked]
        refine wrong_overtaken_sound (h.setRequest ?_) ?_
        · rw [hfactor]
          exact requestSound_ready rfl rfl
        · by_contra hnot
          obtain ⟨-, row, hrow, hopen⟩ := hsame (Bool.eq_false_of_not_eq_true hnot)
          rw [hfactor] at hrow
          obtain rfl := some.inj hrow
          rw [hlocked] at hopen
          cases hopen
      · rw [if_neg hlocked]
        refine h.setPhase ⟨hrequest.seen, ?_, ?_, ?_, ?_⟩
        · intro hseen t' ht'
          obtain rfl : t = t' := some.inj ht'
          exact hrequest.same hseen t hobject
        · intro _ t' ht'
          obtain rfl : t = t' := some.inj ht'
          exact hrequest.passed hpassed t hobject
        · intro hseen
          obtain ⟨htries, -⟩ := hsame (overtaken_eq_false.2 hseen)
          exact decide_eq_true (Nat.succ.inj htries)
        · intro t' tries' current' now hswap
          cases hswap
          refine ⟨le_refl _, hrequest.passed hpassed t hobject, fun hseen => ?_⟩
          obtain ⟨row, hrow, hfailed, hsameLock⟩ := hrequest.same hseen t hobject
          rw [hfactor] at hrow
          obtain rfl := some.inj hrow
          exact ⟨hfailed, hsameLock⟩

/-- A write to the row overtakes the other requests; the one that writes has seen it. -/
theorem write_see_sound (row t : TwoFA) (h : FactorSound w) (hcount : streak w.log ≤ row.failedAttempts)
    (hfailed : row.failedAttempts = t.failedAttempts)
    (hlocked : row.lockedUntil = t.lockedUntil) : FactorSound ((w.write (some row)).see r (.ready t)) where
  requests := by
    intro r'
    show RequestSound w.time (some row) (w.writes + 1) (update w.requests r _ r')
    by_cases hr : r' = r
    · subst hr
      rw [update_self]
      exact requestSound_ready hfailed hlocked
    · rw [update_of_ne hr]
      exact (h.requests r').overtake
  log := h.log
  below := h.below
  counted := by
    intro row' hrow'
    obtain rfl := some.inj hrow'
    exact hcount
  codes := h.codes

/-- The count of a failure: the fifth stores a lockout. -/
theorem count_sound (r failed : ℕ) (overtaken : Bool) (lockedUntil : ℤ) (h : FactorSound w)
    (hcount : ∀ row, w.factor = some row → row.failedAttempts = failed + 1) (hbefore : streak w.log ≤ failed) :
    FactorSound (w.note ([.wrong r overtaken] ++ if maxFailAttempts ≤ failed + 1 then [.lockout lockedUntil] else [])) := by
  have hstreak : streakStep (streak w.log) (.wrong r overtaken) ≤ streak w.log + 1 := by
    cases overtaken with
    | true => exact Nat.le_succ _
    | false => exact Nat.le_refl _
  have hmax : streakStep (streak w.log) (.wrong r overtaken) ≤ maxFailAttempts := Nat.le_trans hstreak h.below
  have hlog := h.log.add hmax trivial fun e' _ => spentOnce_plain rfl e'
  by_cases hfull : maxFailAttempts ≤ failed + 1
  · rw [if_pos hfull]
    -- the streak begins anew
    have hnote : w.note ([.wrong r overtaken] ++ [.lockout lockedUntil]) =
        { w with log := (w.log ++ [.wrong r overtaken]) ++ [.lockout lockedUntil] } := by
      unfold note
      rw [append_assoc]
    have hzero : streak ((w.log ++ [.wrong r overtaken]) ++ [.lockout lockedUntil]) = 0 := by
      rw [streak_append]
      rfl
    rw [hnote]
    refine ⟨h.requests, ?_, ?_, ?_, (h.codes.plain rfl).plain rfl⟩
    · exact hlog.add (Nat.zero_le _) trivial fun e' _ => spentOnce_plain rfl e'
    · show streak ((w.log ++ [.wrong r overtaken]) ++ [.lockout lockedUntil]) < maxFailAttempts
      rw [hzero]
      decide
    · intro row _
      show streak ((w.log ++ [.wrong r overtaken]) ++ [.lockout lockedUntil]) ≤ row.failedAttempts
      rw [hzero]
      exact Nat.zero_le _
  · rw [if_neg hfull, append_nil]
    have hle : streakStep (streak w.log) (.wrong r overtaken) ≤ failed + 1 ∧
        streakStep (streak w.log) (.wrong r overtaken) < maxFailAttempts := by
      cases overtaken with
      | true => exact ⟨Nat.le_succ_of_le hbefore, h.below⟩
      | false =>
        refine ⟨Nat.succ_le_succ hbefore, ?_⟩
        show streak w.log + 1 < maxFailAttempts
        omega
    refine h.note _ rfl trivial hle.2 ?_
    intro row hrow
    rw [hcount row hrow]
    exact hle.1

theorem swap_sound {t current : TwoFA} {tries : ℕ} {now : ℤ} (h : FactorSound w)
    (hphase : (w.requests r).phase = .swapping t tries current now) : FactorSound (w.swap r t tries current now) := by
  have hobject : (w.requests r).phase.object = some t := by rw [hphase]; rfl
  have hpassed : (w.requests r).phase.passed = true := by rw [hphase]; rfl
  have hrequest := h.requests r
  obtain ⟨hnow, hfuture, hcurrent⟩ := hrequest.swapping t tries current now hphase
  unfold FactorWorld.swap
  cases hrow : w.factor.filter fun row =>
      row.failedAttempts = current.failedAttempts && row.lockedUntil.all (fun u => u ≤ now) with
  | none =>
    -- the first try of a request that is not overtaken does not fail
    refine h.setPhase (hrequest.goOn hobject rfl (fun _ => hrequest.passed hpassed t hobject) ?_
      (fun _ _ _ _ heq => by cases heq))
    intro hseen
    obtain ⟨row, hfactor, hfailed, hlocked⟩ := hrequest.same hseen t hobject
    rw [hfactor] at hrow
    refine absurd (filter_eq_none_iff.1 hrow row rfl) ?_
    rw [not_not, Bool.and_eq_true]
    refine ⟨decide_eq_true (hfailed.trans (hcurrent hseen).1.symm), ?_⟩
    rw [hlocked]
    exact all_of_future hfuture
  | some row =>
    dsimp only
    obtain ⟨hfactor, hfit⟩ := filter_eq_some_iff.1 hrow
    rw [Bool.and_eq_true, decide_eq_true_eq] at hfit
    have hcount := h.counted row hfactor
    have hopen : future row.lockedUntil w.time = false := future_mono (future_of_all hfit.2) hnow
    have hwritten : FactorSound ((w.write (some
        { row with failedAttempts := current.failedAttempts + 1, lockedUntil := nextLockedUntil current now })).see r
        (.ready { t with failedAttempts := current.failedAttempts + 1, lockedUntil := nextLockedUntil current now })) := by
      refine write_see_sound _ _ h ?_ rfl rfl
      show streak w.log ≤ current.failedAttempts + 1
      omega
    generalize hlockedUntil : nextLockedUntil current now = lockedUntil at hwritten ⊢
    have hstored := hwritten.noteQuiet (.stored false (w.overtaken r) row.lockedUntil lockedUntil w.time) rfl
      (fun _ => hopen) rfl
    have hcounted := count_sound r current.failedAttempts (w.overtaken r) (now + lockoutDuration) hstored ?_ ?_
    · rw [note_note] at hcounted
      exact hcounted
    · intro row' hrow'
      obtain rfl := some.inj hrow'
      rfl
    · show streak (w.log ++ [_]) ≤ _
      rw [streak_append]
      show streak w.log ≤ _
      omega

/-! ## Successes -/

theorem succeed_sound (h : FactorSound w)
    (hphase : (w.requests r).phase = .succeeding t) : FactorSound (w.succeed r t) := by
  have hobject : (w.requests r).phase.object = some t := by rw [hphase]; rfl
  have hpassed : (w.requests r).phase.passed = true := by rw [hphase]; rfl
  have hrequest := h.requests r
  unfold succeed
  cases hfactor : w.factor with
  | none =>
    dsimp only
    -- the factor is gone, and the request is overtaken
    have hseen : (w.requests r).seen ≠ w.writes := by
      intro hseen
      obtain ⟨row, hrow, -⟩ := hrequest.same hseen t hobject
      rw [hfactor] at hrow
      cases hrow
    have hphase' : FactorSound (w.setPhase r (.ready
        { t with failedAttempts := 0, lockedUntil := none, lastUsedAt := some w.time })) := by
      refine h.setPhase ⟨hrequest.seen, fun heq => absurd heq hseen, ?_, fun _ => rfl, ?_⟩
      · exact fun hp => by cases hp
      · exact fun _ _ _ _ heq => by cases heq
    exact hphase'.note _ rfl trivial maxFailAttempts_pos fun row _ => Nat.zero_le _
  | some row =>
    dsimp only
    -- the streak ends, so any count is high enough
    have hstored : FactorSound (w.note [.stored true (w.overtaken r) row.lockedUntil none w.time]) := by
      refine h.noteQuiet _ rfl ?_ rfl
      rintro (hfalse | hnot)
      · cases hfalse
      · have hlocked := locked_of_same hrequest hobject hpassed (overtaken_eq_false.1 hnot)
        unfold locked at hlocked
        rw [hfactor] at hlocked
        exact hlocked
    have hsuccess := hstored.note (.success r) rfl trivial maxFailAttempts_pos fun row _ => Nat.zero_le _
    have hzero : streak ((w.note [.stored true (w.overtaken r) row.lockedUntil none w.time]).note [.success r]).log = 0 :=
      streak_append _ _
    rw [note_note] at hsuccess hzero
    exact write_see_sound _ _ hsuccess (Nat.le_of_eq hzero) rfl rfl

/-! ## New codes, and none -/

/-- Codes are retired, and none is left that could be spent. -/
theorem CodesSound.retire {codes codes' : Table TwoFABackupCode.id} {nextCode : ℕ} {log : List FactorEvent}
    (h : CodesSound codes nextCode log) {gone : List ℕ} (hgone : ∀ c ∈ gone, c < nextCode)
    (hrows : ∀ c ∈ codes'.rows, c.id < nextCode) (hdeleted : ∀ c ∈ codes'.rows, c.deleted = true) :
    CodesSound codes' nextCode (log ++ [.retired gone]) where
  rows := hrows
  accepted := by
    intro c hc
    rcases mem_append.1 hc with hc | hc
    · exact h.accepted c hc
    · cases mem_singleton.1 hc
  retired := by
    intro cs hcs
    rcases mem_append.1 hcs with hcs | hcs
    · exact h.retired cs hcs
    · obtain rfl := FactorEvent.retired.inj (mem_singleton.1 hcs)
      exact hgone
  unspent := by
    intro c hc _ hlive
    rw [hdeleted c hc] at hlive
    cases hlive

theorem retireCodes_sound (h : FactorSound w) : FactorSound w.retireCodes := by
  have hstreak : streak (w.log ++ [.retired w.liveCodes]) = streak w.log := streak_append _ _
  refine ⟨h.requests, ?_, ?_, ?_, h.codes.retire ?_ ?_ ?_⟩
  · exact h.log.add (Nat.le_of_lt h.below) trivial fun e' _ => spentOnce_of_ne (fun c hc => by cases hc) e'
  · show streak (w.log ++ [.retired w.liveCodes]) < maxFailAttempts
    rw [hstreak]
    exact h.below
  · intro row hrow
    show streak (w.log ++ [.retired w.liveCodes]) ≤ row.failedAttempts
    rw [hstreak]
    exact h.counted row hrow
  · intro c hc
    obtain ⟨row, hrow, rfl⟩ := mem_map.1 hc
    exact h.codes.rows row (mem_filter.1 hrow).1
  · intro c hc
    obtain ⟨row, hrow, rfl⟩ := mem_map.1 hc
    split <;> exact h.codes.rows row hrow
  · intro c hc
    obtain ⟨row, -, rfl⟩ := mem_map.1 hc
    by_cases hlive : (!row.deleted) = true
    · rw [if_pos hlive]
    · rw [if_neg hlive]
      simpa using hlive

theorem addCodes_sound (hashes : List String) : ∀ {w : FactorWorld}, FactorSound w → FactorSound (w.addCodes hashes) := by
  induction hashes with
  | nil => exact fun h => h
  | cons _ _ ih =>
    intro w h
    refine ih ⟨h.requests, h.log, h.below, h.counted, ?_⟩
    obtain ⟨hrows, haccepted, hretired, hunspent⟩ := h.codes
    refine ⟨?_, fun c hc => Nat.lt_succ_of_lt (haccepted c hc),
      fun cs hcs c hc => Nat.lt_succ_of_lt (hretired cs hcs c hc), ?_⟩
    · intro c hc
      rcases Table.mem_put.1 hc with rfl | ⟨hc, -⟩
      · exact Nat.lt_succ_self _
      · exact Nat.lt_succ_of_lt (hrows c hc)
    · intro c hc hused hdeleted
      rcases Table.mem_put.1 hc with rfl | ⟨hc, -⟩
      · refine ⟨fun hmem => absurd (haccepted _ hmem) (Nat.lt_irrefl _), ?_⟩
        exact fun cs hcs hmem => absurd (hretired cs hcs _ hmem) (Nat.lt_irrefl _)
      · exact hunspent c hc hused hdeleted

theorem disable_sound (h : FactorSound w) : FactorSound w.disableTwoFA := by
  refine ⟨fun r => (h.requests r).overtake, ?_, ?_, ?_, h.codes.retire ?_ ?_ ?_⟩
  · exact h.log.add (Nat.le_of_lt h.below) trivial fun e' _ => spentOnce_of_ne (fun c hc => by cases hc) e'
  · show streak (w.log ++ [_]) < maxFailAttempts
    rw [streak_append]
    exact h.below
  · exact fun row hrow => by cases hrow
  · intro c hc
    obtain ⟨row, hrow, rfl⟩ := mem_map.1 hc
    exact h.codes.rows row hrow
  · exact fun c hc => by cases hc
  · exact fun c hc => by cases hc

/-! ## Runs -/

theorem FactorSound.step {w w' : FactorWorld} {move : FactorMove} (h : FactorSound w) (hstep : w.step env move = some w') :
    FactorSound w' := by
  cases move with
  | advance =>
    cases hstep
    exact ⟨fun r => (h.requests r).advance, h.log, h.below, h.counted, h.codes⟩
  | load r =>
    dsimp only [FactorWorld.step] at hstep
    split at hstep
    · obtain ⟨t, ht, rfl⟩ := map_eq_some_iff.1 hstep
      refine h.setRequest ?_
      rw [ht]
      exact requestSound_ready rfl rfl
    · cases hstep
  | check r =>
    dsimp only [FactorWorld.step] at hstep
    split at hstep <;> cases hstep
    rename_i t hphase
    have hobject : (w.requests r).phase.object = some t := by rw [hphase]; rfl
    by_cases hlocked : t.isLocked w.time = true
    · rw [if_pos hlocked]
      exact h.setPhase ((h.requests r).goOn hobject rfl (fun hp => by cases hp) (fun _ => rfl)
        (fun _ _ _ _ heq => by cases heq))
    · rw [if_neg hlocked]
      exact h.setPhase ((h.requests r).goOn hobject rfl (fun _ => Bool.eq_false_of_not_eq_true hlocked) (fun _ => rfl)
        (fun _ _ _ _ heq => by cases heq))
  | evaluate r =>
    dsimp only [FactorWorld.step] at hstep
    split at hstep <;> cases hstep
    rename_i hphase
    exact evaluate_sound h hphase
  | redeem r =>
    dsimp only [FactorWorld.step] at hstep
    split at hstep <;> cases hstep
    rename_i hphase
    exact redeem_sound h hphase
  | select r =>
    dsimp only [FactorWorld.step] at hstep
    split at hstep <;> cases hstep
    rename_i hphase
    exact select_sound h hphase
  | swap r =>
    dsimp only [FactorWorld.step] at hstep
    split at hstep <;> cases hstep
    rename_i hphase
    exact swap_sound h hphase
  | succeed r =>
    dsimp only [FactorWorld.step] at hstep
    split at hstep <;> cases hstep
    rename_i hphase
    exact succeed_sound h hphase
  | replaceBackupCodes hashes =>
    obtain ⟨-, hstep⟩ := ite_none_right_eq_some.1 hstep
    cases hstep
    exact addCodes_sound hashes (retireCodes_sound h)
  | disable =>
    obtain ⟨-, hstep⟩ := ite_none_right_eq_some.1 hstep
    cases hstep
    exact disable_sound h

theorem FactorSound.start (time : ℤ) (secret : String) : FactorSound (start time secret) where
  requests := fun r => ⟨Nat.le_refl _, fun _ t ht => (by cases ht), fun hp => (by cases hp), fun _ => rfl,
    fun _ _ _ _ heq => (by cases heq)⟩
  log := lockoutHolds_nil
  below := maxFailAttempts_pos
  counted := fun row _ => Nat.zero_le _
  codes := ⟨fun c hc => (by cases hc), fun c hc => (by cases hc), fun cs hcs => (by cases hcs), fun c hc => (by cases hc)⟩

theorem FactorSound.run {w w' : FactorWorld} {moves : List FactorMove} (h : FactorSound w)
    (hrun : w.run env moves = some w') : FactorSound w' := by
  induction moves generalizing w with
  | nil =>
    cases hrun
    exact h
  | cons _ _ ih =>
    obtain ⟨w₁, hstep, hrun⟩ := bind_eq_some_iff.1 hrun
    exact ih (h.step hstep) hrun

/-- One code is right. -/
def oneCode : FactorEnv := ⟨fun code _ _ => code = "111111", fun code codeHash => code = codeHash, id⟩

/-- A request with a wrong code, without another in between. -/
def wrongTry (r : ℕ) : List FactorMove := [.load r, .check r (.totp "000000"), .evaluate r, .select r, .swap r]

def rightTry (r : ℕ) : List FactorMove := [.load r, .check r (.totp "111111"), .evaluate r, .succeed r]

/-- Five failures, and after the lockout a backup code. -/
def backupAfterLockout : List FactorMove :=
  .replaceBackupCodes ["ABCD-EFGH"] :: [0, 1, 2, 3, 4].flatMap wrongTry ++
    [.advance 300000000000, .load 5, .check 5 (.backup "ABCDEFGH"), .evaluate 5, .redeem 5, .succeed 5]

/-- The wrong codes since the last lockout, whatever was right in between. -/
def sinceLockout (n : Option ℕ) : FactorEvent → Option ℕ
  | .wrong _ _ => n.map (· + 1)
  | .lockout _ => some 0
  | _ => n

/-- Four failures, a success, and five failures, after a lockout. -/
def failuresAroundSuccess : List FactorMove :=
  [0, 1, 2, 3, 4].flatMap wrongTry ++ [.advance 300000000000] ++ rightTry 5 ++ [6, 7, 8, 9].flatMap wrongTry ++
    rightTry 10 ++ [11, 12, 13, 14, 15].flatMap wrongTry

/-- Two requests load the row before the fifth failure is counted; the later one is right. -/
def lateSuccess : List FactorMove :=
  [0, 1, 2, 3].flatMap wrongTry ++ [.load 4, .load 5, .check 5 (.totp "111111"), .check 4 (.totp "000000"), .evaluate 4,
    .select 4, .swap 4, .evaluate 5, .succeed 5]

end NovaMaas.Auth
