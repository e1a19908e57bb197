/-
  What one-time codes by SMS guarantee over every run.

  `Guarded` is about challenges: who has tried how often, what is consumed, and that no two challenges of one kind are
  open.  It is kept by every step (`guarded_step`).  `Paying` is about budgets: a row counts at least the sends that were
  paid from it, and a row that is gone was deleted after the end of its window.  It is kept by every step in which a
  reservation does not count in a window that a clean-up has already passed (`Timely`, `paying_step`): the clock of a
  reservation is read before its transaction, and in between the row of its window may be deleted, and is then created
  anew with nothing used (`stale_reservation`).
-/
import NovaMaas.Auth.SmsChallenge

open List

namespace NovaMaas.Auth

open Txn Table

/-! ## What the log says -/

/-- The challenges that were consumed. -/
def consumptions (log : List SmsEvent) : List ℕ :=
  log.filterMap fun
    | .consumed id => some id
    | _ => none

/-- The reservations. -/
def smsSends (log : List SmsEvent) : List (SMSChallenge × List SmsLimit) :=
  log.filterMap fun
    | .sent c limits => some (c, limits)
    | _ => none

/-- The wrong codes that were compared with a challenge. -/
def wrongCodes (id : ℕ) (log : List SmsEvent) : ℕ := log.count (.wrongCode id)

/-- The sends of a window that were paid from a budget. -/
def sendsFrom (b : SmsLimit) (window : Nanos) (log : List SmsEvent) : ℕ :=
  (smsSends log).countP fun e => decide (b ∈ e.2) && decide (truncateTime e.1.createdAt b.duration = window)

/-- The times up to which budgets were deleted. -/
def cleanedAt (log : List SmsEvent) : List Nanos :=
  log.filterMap fun
    | .cleaned now => some now
    | _ => none

theorem consumptions_append (log log' : List SmsEvent) :
    consumptions (log ++ log') = consumptions log ++ consumptions log' := filterMap_append

theorem smsSends_append (log log' : List SmsEvent) : smsSends (log ++ log') = smsSends log ++ smsSends log' :=
  filterMap_append

theorem cleanedAt_append (log log' : List SmsEvent) : cleanedAt (log ++ log') = cleanedAt log ++ cleanedAt log' :=
  filterMap_append

theorem wrongCodes_append (id : ℕ) (log log' : List SmsEvent) :
    wrongCodes id (log ++ log') = wrongCodes id log + wrongCodes id log' := count_append

/-! ## Challenges -/

/-- Two challenges of one kind. -/
def SameKind (c d : SMSChallenge) : Prop :=
  c.phone = d.phone ∧ c.purpose = d.purpose ∧ c.userId = d.userId ∧ c.sessionId = d.sessionId

/-- What the challenges and the log say of each other. -/
structure Guarded (db : SmsDb) (log : List SmsEvent) : Prop where
  ids          : ∀ c ∈ db.challenges.rows, c.id < db.nextId
  consumedIds  : ∀ id ∈ consumptions log, id < db.nextId
  wrongIds     : ∀ id, db.nextId ≤ id → wrongCodes id log = 0
  once         : (consumptions log).Nodup
  together     : db.effects = consumptions log
  closed       : ∀ c ∈ db.challenges.rows, c.id ∈ consumptions log → c.consumedAt ≠ none
  guesses      : ∀ id, wrongCodes id log ≤ smsMaxAttempts
  counted      : ∀ c ∈ db.challenges.rows, wrongCodes c.id log ≤ c.attempts
  openOne      : ∀ c ∈ db.challenges.rows, ∀ d ∈ db.challenges.rows, c.consumedAt = none → d.consumedAt = none →
    SameKind c d → c = d

variable {log : List SmsEvent}

/-- A change of the challenges that opens none, lowers no count of attempts and creates none. -/
theorem Guarded.of_rows {db db' : SmsDb} (h : Guarded db log) (hnext : db'.nextId = db.nextId)
    (heffects : db'.effects = db.effects)
    (hrows : ∀ c' ∈ db'.challenges.rows, ∃ c ∈ db.challenges.rows, c'.id = c.id ∧ c.attempts ≤ c'.attempts ∧
      (c'.consumedAt = none → c.consumedAt = none) ∧ SameKind c' c) : Guarded db' log where
  ids := by
    intro c' hc'
    obtain ⟨c, hc, hid, -⟩ := hrows c' hc'
    rw [hid, hnext]
    exact h.ids c hc
  consumedIds := by
    rw [hnext]
    exact h.consumedIds
  wrongIds := by
    rw [hnext]
    exact h.wrongIds
  once := h.once
  together := heffects.trans h.together
  closed := by
    intro c' hc' hmem hnone
    obtain ⟨c, hc, hid, -, hopen, -⟩ := hrows c' hc'
    rw [hid] at hmem
    exact h.closed c hc hmem (hopen hnone)
  guesses := h.guesses
  counted := by
    intro c' hc'
    obtain ⟨c, hc, hid, hattempts, -⟩ := hrows c' hc'
    rw [hid]
    exact (h.counted c hc).trans hattempts
  openOne := by
    intro c' hc' d' hd' hc'none hd'none hkind
    obtain ⟨c, hc, hcid, -, hcopen, hckind⟩ := hrows c' hc'
    obtain ⟨d, hd, hdid, -, hdopen, hdkind⟩ := hrows d' hd'
    have hsame : SameKind c d :=
      ⟨hckind.1.symm.trans (hkind.1.trans hdkind.1), hckind.2.1.symm.trans (hkind.2.1.trans hdkind.2.1),
        hckind.2.2.1.symm.trans (hkind.2.2.1.trans hdkind.2.2.1),
        hckind.2.2.2.symm.trans (hkind.2.2.2.trans hdkind.2.2.2)⟩
    have heq := h.openOne c hc d hd (hcopen hc'none) (hdopen hd'none) hsame
    refine eq_of_key_eq hc' hd' ?_
    rw [hcid, hdid, heq]

theorem SameKind.refl (c : SMSChallenge) : SameKind c c := ⟨rfl, rfl, rfl, rfl⟩

variable {c : SMSChallenge}

variable {phone : List Char}

open SMSChallenge

theorem openFor_of_sameKind {purpose sessionId : String} {userId : ℤ} (hphone : c.phone = phone)
    (hpurpose : c.purpose = purpose) (huser : c.userId = userId) (hsession : c.sessionId = sessionId)
    (hnone : c.consumedAt = none) :
    c.openFor phone purpose userId sessionId = true := by
  unfold openFor
  rw [hphone, hpurpose, huser, hsession, hnone]
  simp

/-- The challenges that a new one finds and leaves. -/
theorem createSmsChallenge_spec (phone : List Char) (input : SMSChallengeInput) (token code : String) (now : Nanos)
    (db : SmsDb) :
    wp (createSmsChallenge phone input token code now) (fun c db' =>
      c = newSmsChallenge db.nextId phone input token code now ∧ db'.nextId = db.nextId + 1 ∧
      db'.effects = db.effects ∧ db'.budgets = db.budgets ∧
      db'.challenges = (db.challenges.updateWhere (openFor phone input.purpose input.userId input.sessionId)
        (retire now) (retire_id now)).put c) db := by
  unfold createSmsChallenge
  simp only [wp_bind, wp_modify, wp_get, wp_rejectIf, wp_pure]
  exact fun _ => ⟨trivial, trivial, trivial, trivial, trivial⟩

variable {token : String} {now : Nanos}

/-- A challenge is created after those of its kind are retired. -/
theorem Guarded.create {db db' : SmsDb} {input : SMSChallengeInput} {code : String}
    {limits : List SmsLimit} (h : Guarded db log) (hnext : db'.nextId = db.nextId + 1)
    (heffects : db'.effects = db.effects)
    (hrows : db'.challenges = (db.challenges.updateWhere (openFor phone input.purpose input.userId input.sessionId)
      (retire now) (retire_id now)).put (newSmsChallenge db.nextId phone input token code now)) :
    Guarded db' (log ++ [.sent (newSmsChallenge db.nextId phone input token code now) limits]) := by
  have hconsumptions : consumptions (log ++ [.sent (newSmsChallenge db.nextId phone input token code now) limits]) =
      consumptions log := by
    rw [consumptions_append]
    exact append_nil _
  have hwrong : ∀ id, wrongCodes id (log ++ [.sent (newSmsChallenge db.nextId phone input token code now) limits]) =
      wrongCodes id log := by
    intro id
    rw [wrongCodes_append]
    exact Nat.add_zero _
  -- a row is the new challenge, or one from before, perhaps retired
  have hcases : ∀ c' ∈ db'.challenges.rows, c' = newSmsChallenge db.nextId phone input token code now ∨
      ∃ c ∈ db.challenges.rows, c'.id = c.id ∧ c'.attempts = c.attempts ∧
        (c'.consumedAt = none → c' = c ∧ c.openFor phone input.purpose input.userId input.sessionId = false) := by
    intro c' hc'
    rw [hrows, mem_put] at hc'
    rcases hc' with rfl | ⟨hc', -⟩
    · exact Or.inl rfl
    · obtain ⟨c, hc, rfl⟩ := of_mem_updateWhere _ hc'
      refine Or.inr ⟨c, hc, ?_⟩
      cases hopen : c.openFor phone input.purpose input.userId input.sessionId with
      | true =>
        rw [if_pos rfl]
        exact ⟨rfl, rfl, fun hnone => by cases hnone⟩
      | false =>
        rw [if_neg Bool.false_ne_true]
        exact ⟨rfl, rfl, fun _ => ⟨rfl, rfl⟩⟩
  constructor
  · intro c' hc'
    rw [hnext]
    rcases hcases c' hc' with rfl | ⟨c, hc, hid, -⟩
    · exact Nat.lt_succ_self _
    · rw [hid]
      exact Nat.lt_succ_of_lt (h.ids c hc)
  · intro id hid
    rw [hconsumptions] at hid
    rw [hnext]
    exact Nat.lt_succ_of_lt (h.consumedIds id hid)
  · intro id hid
    rw [hwrong]
    rw [hnext] at hid
    exact h.wrongIds id (by omega)
  · rw [hconsumptions]
    exact h.once
  · rw [heffects, hconsumptions]
    exact h.together
  · intro c' hc' hmem hnone
    rw [hconsumptions] at hmem
    rcases hcases c' hc' with rfl | ⟨c, hc, hid, -, hopen⟩
    · exact absurd (h.consumedIds _ hmem) (Nat.lt_irrefl _)
    · obtain ⟨rfl, -⟩ := hopen hnone
      exact h.closed c' hc hmem hnone
  · intro id
    rw [hwrong]
    exact h.guesses id
  · intro c' hc'
    rw [hwrong]
    rcases hcases c' hc' with rfl | ⟨c, hc, hid, hattempts, -⟩
    · show wrongCodes db.nextId log ≤ _
      rw [h.wrongIds _ (Nat.le_refl _)]
      exact Nat.zero_le _
    · rw [hid, hattempts]
      exact h.counted c hc
  · -- of the kind of the new challenge no other is open
    intro c' hc' d' hd' hc'none hd'none hkind
    have hother : ∀ d, d.openFor phone input.purpose input.userId input.sessionId = false → d.consumedAt = none →
        ¬ SameKind d (newSmsChallenge db.nextId phone input token code now) := by
      intro d hopen hnone hsame
      have htrue : d.openFor phone input.purpose input.userId input.sessionId = true :=
        openFor_of_sameKind hsame.1 hsame.2.1 hsame.2.2.1 hsame.2.2.2 hnone
      rw [htrue] at hopen
      cases hopen
    rcases hcases c' hc' with rfl | ⟨c, hc, -, -, hcopen⟩
    · rcases hcases d' hd' with rfl | ⟨d, hd, -, -, hdopen⟩
      · rfl
      · obtain ⟨rfl, hfalse⟩ := hdopen hd'none
        exact absurd ⟨hkind.1.symm, hkind.2.1.symm, hkind.2.2.1.symm, hkind.2.2.2.symm⟩ (hother d' hfalse hd'none)
    · obtain ⟨rfl, hfalse⟩ := hcopen hc'none
      rcases hcases d' hd' with rfl | ⟨d, hd, -, -, hdopen⟩
      · exact absurd hkind (hother c' hfalse hc'none)
      · obtain ⟨rfl, -⟩ := hdopen hd'none
        exact h.openOne c' hc d' hd hc'none hd'none hkind

/-! ## A reservation -/

/-- The tables of budgets before and after the sends are paid. -/
def PaysFor (phone : List Char) (limits : List SmsLimit) (now : Nanos) (T T' : Table SMSBudget.budgetHash) : Prop :=
  ∃ db₁ db₂ db₃ : SmsDb, db₁.budgets = T ∧ takeCooldown phone now db₁ = (.ok (), db₂) ∧
    forEach (fun _ b => takeBudget now b) () limits db₂ = (.ok (), db₃) ∧ db₃.budgets = T'

/-- Only the budgets differ. -/
def SameChallenges (db db' : SmsDb) : Prop :=
  db'.nextId = db.nextId ∧ db'.challenges = db.challenges ∧ db'.effects = db.effects

instance : IsPreorder SmsDb SameChallenges where
  refl _ := ⟨rfl, rfl, rfl⟩
  trans _ _ _ h h' := ⟨h'.1.trans h.1, h'.2.1.trans h.2.1, h'.2.2.trans h.2.2⟩

theorem takeCooldown_keeps (phone : List Char) (now : Nanos) : Keeps SameChallenges (takeCooldown phone now) := by
  unfold takeCooldown
  refine keeps_bind (keeps_modify fun _ => ⟨rfl, rfl, rfl⟩) fun _ => ?_
  refine keeps_bind keeps_get fun db => ?_
  refine keeps_bind (keeps_require _ _) fun row => ?_
  exact keeps_rejectIf_bind (keeps_modify fun _ => ⟨rfl, rfl, rfl⟩)

theorem takeBudget_keeps (now : Nanos) (b : SmsLimit) : Keeps SameChallenges (takeBudget now b) := by
  unfold takeBudget
  refine keeps_bind (keeps_modify fun _ => ⟨rfl, rfl, rfl⟩) fun _ => ?_
  refine keeps_bind keeps_get fun db => ?_
  refine keeps_bind (keeps_require _ _) fun row => ?_
  exact keeps_rejectIf_bind (keeps_modify fun _ => ⟨rfl, rfl, rfl⟩)

/-- What a committed reservation has done. -/
theorem reserve_spec (input : SMSChallengeInput) (token code : String) (now : Nanos) (db : SmsDb) :
    wp (reserveSMSChallenge input token code now) (fun c db' => ∃ phone,
      c = newSmsChallenge db.nextId phone input token code now ∧ db'.nextId = db.nextId + 1 ∧
      db'.effects = db.effects ∧
      db'.challenges = (db.challenges.updateWhere (openFor phone input.purpose input.userId input.sessionId)
        (retire now) (retire_id now)).put c ∧
      PaysFor phone (smsLimits phone input) now db.budgets db'.budgets) db := by
  unfold reserveSMSChallenge
  simp only [wp_bind, wp_require, wp_rejectIf, wp_transaction]
  intro phone _ _ _ db₂ hcooldown _ db₃ hbudgets
  have hsame₂ : SameChallenges db db₂ := takeCooldown_keeps phone now db () db₂ hcooldown
  have hsame₃ : SameChallenges db₂ db₃ :=
    keeps_forEach (fun _ b => takeBudget_keeps now b) () (smsLimits phone input) db₂ () db₃ hbudgets
  obtain ⟨hnext, hchallenges, heffects⟩ := trans_of SameChallenges hsame₂ hsame₃
  refine wp_mono (createSmsChallenge_spec phone input token code now db₃) ?_
  rintro c db' ⟨rfl, hnext', heffects', hbudgets', hrows⟩
  rw [hnext] at hnext' hrows ⊢
  rw [hchallenges] at hrows
  exact ⟨phone, rfl, hnext', heffects'.trans heffects, hrows, db, db₂, db₃, rfl, hcooldown, hbudgets, hbudgets'.symm⟩

theorem reserve_atomic (input : SMSChallengeInput) (token code : String) (now : Nanos) :
    Atomic (reserveSMSChallenge input token code now) :=
  atomic_require_bind fun _ => atomic_rejectIf_bind (atomic_transaction _)

/-! ## A consumption -/

/-- What a consumption can do. -/
inductive Consumed (db : SmsDb) : SmsDb → List SmsEvent → Prop where
  /-- Nothing was admitted, or the transaction failed. -/
  | nothing : Consumed db db []
  /-- The attempt stays counted. -/
  | attempted (c : SMSChallenge) (hc : c ∈ db.challenges.rows) :
      Consumed db { db with challenges := db.challenges.put c.attempt } []
  /-- A wrong code was compared. -/
  | wrong (c : SMSChallenge) (hc : c ∈ db.challenges.rows) (h : c.attempts < smsMaxAttempts) :
      Consumed db { db with challenges := db.challenges.put c.attempt } [.wrongCode c.id]
  /-- The challenge is consumed, with the effects of its action. -/
  | done (c : SMSChallenge) (now : Nanos) (hc : c ∈ db.challenges.rows) (h : c.consumedAt = none) :
      Consumed db { db with effects := db.effects ++ [c.id], challenges := db.challenges.put (c.attempt.retire now) }
        [.consumed c.id]

variable {db : SmsDb}

theorem admitAttempt_spec {wanted : SMSChallengeInput} (h : admitAttempt token wanted now db = some c) :
    c ∈ db.challenges.rows ∧ c.consumedAt = none ∧ c.attempts < smsMaxAttempts := by
  unfold admitAttempt at h
  rw [Option.filter_eq_some_iff] at h
  obtain ⟨hfind, hadmitted⟩ := h
  simp only [Bool.and_eq_true, decide_eq_true_eq] at hadmitted
  exact ⟨mem_of_find?_eq_some hfind, hadmitted.1.1.1, hadmitted.2⟩

theorem countedAttempt_wrong {env : ConsumeEnv} {code : String} (hcode : c.codeHash ≠ .code token code) :
    countedAttempt env token code phone now c db =
      (.ok none, { db with challenges := db.challenges.put c.attempt }) := by
  unfold countedAttempt
  rw [bind_ok (modify_run _ _), if_pos hcode]
  rfl

/-- The right code: the attempt stays counted, or everything is rolled back, or the challenge is consumed. -/
theorem countedAttempt_right {env : ConsumeEnv} {code : String}
    (hmem : c ∈ db.challenges.rows) (hnone : c.consumedAt = none) (hcode : c.codeHash = .code token code) :
    Consumed db (transaction (countedAttempt env token code phone now c) db).2
      (consumeEvents (transaction (countedAttempt env token code phone now c) db).1) := by
  have hcounted : countedAttempt env token code phone now c db = (if phone ≠ [] ∧ phone ≠ c.phone then pure none
        else if 0 < c.userId ∧ env.user = .notFound then pure none
        else do
          rejectIf (0 < c.userId ∧ env.user = .failed) .storage
          rejectIf (env.actionFails = true) .action
          modify fun db =>
            { db with effects := db.effects ++ [c.id], challenges := db.challenges.put (c.attempt.retire now) }
          pure (some c) : Txn SmsDb SmsError (Option SMSChallenge))
        { db with challenges := db.challenges.put c.attempt } := by
    unfold countedAttempt
    rw [bind_ok (modify_run _ _), if_neg (not_not.2 hcode)]
  by_cases hphones : phone ≠ [] ∧ phone ≠ c.phone
  · rw [if_pos hphones] at hcounted
    rw [transaction_ok hcounted]
    exact Consumed.attempted c hmem
  rw [if_neg hphones] at hcounted
  by_cases huser : 0 < c.userId ∧ env.user = .notFound
  · rw [if_pos huser] at hcounted
    rw [transaction_ok hcounted]
    exact Consumed.attempted c hmem
  rw [if_neg huser] at hcounted
  by_cases hfailed : 0 < c.userId ∧ env.user = .failed
  · rw [bind_error (rejectIf_pos hfailed _ _)] at hcounted
    rw [transaction_error hcounted]
    exact Consumed.nothing
  rw [bind_ok (rejectIf_neg hfailed _ _)] at hcounted
  by_cases haction : env.actionFails = true
  · rw [bind_error (rejectIf_pos haction _ _)] at hcounted
    rw [transaction_error hcounted]
    exact Consumed.nothing
  have hput : (db.challenges.put c.attempt).put (c.attempt.retire now) = db.challenges.put (c.attempt.retire now) :=
    put_put _ rfl
  rw [bind_ok (rejectIf_neg haction _ _), bind_ok (modify_run _ _), pure_run, hput] at hcounted
  rw [transaction_ok hcounted]
  exact Consumed.done c now hmem hnone

theorem consume_cases (env : ConsumeEnv) (token code : String) (wanted : SMSChallengeInput) (now : Nanos) (db : SmsDb) :
    Consumed db (consumeSMSChallenge env token code wanted now db).2
      (wrongCodeEvents token code wanted now db ++ consumeEvents (consumeSMSChallenge env token code wanted now db).1) := by
  unfold consumeSMSChallenge wrongCodeEvents
  cases hconsumable : consumable token code wanted with
  | false => exact Consumed.nothing
  | true =>
    cases hphone : wantedPhone wanted with
    | none =>
      unfold consumable at hconsumable
      rw [hphone] at hconsumable
      simp at hconsumable
    | some phone =>
      rw [bind_ok (rejectIf_neg (by simp) _ _), bind_ok (require_some _ _ _), if_pos rfl]
      cases hadmit : admitAttempt token wanted now db with
      | none =>
        have hrun : consumeTx env token code wanted phone now db = (.ok none, db) := by
          refine transaction_ok ?_
          rw [bind_ok (get_run db), hadmit]
          rfl
        rw [hrun]
        exact Consumed.nothing
      | some c =>
        obtain ⟨hmem, hnone, hattempts⟩ := admitAttempt_spec hadmit
        have hbody : consumeTx env token code wanted phone now db =
            transaction (countedAttempt env token code phone now c) db := by
          unfold consumeTx transaction
          rw [bind_ok (get_run db), hadmit]
        rw [hbody]
        by_cases hcode : c.codeHash ≠ .code token code
        · have hlog : (((some c).toList.filter fun c => c.codeHash ≠ .code token code).map
              fun c => SmsEvent.wrongCode c.id) = [.wrongCode c.id] := by
            simp [hcode]
          rw [hlog, transaction_ok (countedAttempt_wrong hcode)]
          exact Consumed.wrong c hmem hattempts
        · have hlog : (((some c).toList.filter fun c => c.codeHash ≠ .code token code).map
              fun c => SmsEvent.wrongCode c.id) = [] := by
            simp [hcode]
          rw [hlog, nil_append]
          exact countedAttempt_right hmem hnone (not_not.1 hcode)

/-! ## Every step -/

/-- The log goes on with events that are about no challenge. -/
theorem Guarded.of_log {log events : List SmsEvent} (h : Guarded db log) (hconsumed : consumptions events = [])
    (hwrong : ∀ id, wrongCodes id events = 0) : Guarded db (log ++ events) := by
  have hconsumptions : consumptions (log ++ events) = consumptions log := by
    rw [consumptions_append, hconsumed, append_nil]
  have hcodes : ∀ id, wrongCodes id (log ++ events) = wrongCodes id log := by
    intro id
    rw [wrongCodes_append, hwrong, Nat.add_zero]
  constructor
  · exact h.ids
  · rw [hconsumptions]
    exact h.consumedIds
  · intro id hid
    rw [hcodes]
    exact h.wrongIds id hid
  · rw [hconsumptions]
    exact h.once
  · rw [hconsumptions]
    exact h.together
  · rw [hconsumptions]
    exact h.closed
  · intro id
    rw [hcodes]
    exact h.guesses id
  · intro c hc
    rw [hcodes]
    exact h.counted c hc
  · exact h.openOne

/-- The attempt is counted. -/
theorem Guarded.attempted (h : Guarded db log)
    (hc : c ∈ db.challenges.rows) : Guarded { db with challenges := db.challenges.put c.attempt } log := by
  refine h.of_rows rfl rfl ?_
  intro c' hc'
  rcases mem_put.1 hc' with rfl | ⟨hc', -⟩
  · exact ⟨c, hc, rfl, Nat.le_succ _, id, SameKind.refl c⟩
  · exact ⟨c', hc', rfl, Nat.le_refl _, id, SameKind.refl c'⟩

theorem wrongCodes_singleton (id id' : ℕ) : wrongCodes id [.wrongCode id'] = if id = id' then 1 else 0 := by
  unfold wrongCodes
  rw [count_singleton]
  by_cases hid : id = id'
  · subst hid
    simp
  · have hid' : ¬ id' = id := fun h => hid h.symm
    simp [hid, hid']

/-- So is the wrong code. -/
theorem Guarded.wrong (h : Guarded db log) (hc : c ∈ db.challenges.rows) (hattempts : c.attempts < smsMaxAttempts) :
    Guarded { db with challenges := db.challenges.put c.attempt } (log ++ [.wrongCode c.id]) := by
  have hafter := h.attempted hc
  have hconsumptions : consumptions (log ++ [.wrongCode c.id]) = consumptions log := by
    rw [consumptions_append]
    exact append_nil _
  have hcodes : ∀ id, wrongCodes id (log ++ [.wrongCode c.id]) = wrongCodes id log + if id = c.id then 1 else 0 := by
    intro id
    rw [wrongCodes_append, wrongCodes_singleton]
  constructor
  · exact hafter.ids
  · rw [hconsumptions]
    exact hafter.consumedIds
  · intro id hid
    have hne : id ≠ c.id := by
      have hlt := h.ids c hc
      have hle : db.nextId ≤ id := hid
      omega
    rw [hcodes, if_neg hne, Nat.add_zero]
    exact h.wrongIds id hid
  · rw [hconsumptions]
    exact h.once
  · rw [hconsumptions]
    exact h.together
  · rw [hconsumptions]
    exact hafter.closed
  · intro id
    rw [hcodes]
    have hguesses := h.guesses id
    by_cases hid : id = c.id
    · -- all the wrong codes were counted as attempts, and there were less than five
      subst hid
      have hcounted := h.counted c hc
      rw [if_pos rfl]
      omega
    · rw [if_neg hid]
      omega
  · intro c' hc'
    rw [hcodes]
    rcases mem_put.1 hc' with rfl | ⟨hmem, hne⟩
    · show wrongCodes c.id log + (if c.id = c.id then 1 else 0) ≤ c.attempts + 1
      have hcounted := h.counted c hc
      rw [if_pos rfl]
      omega
    · have hid : c'.id ≠ c.id := hne
      rw [if_neg hid]
      exact h.counted c' hmem
  · exact hafter.openOne

/-- A challenge that is consumed has not been consumed before, and is not open afterwards. -/
theorem Guarded.done (h : Guarded db log) (now : Nanos) (hc : c ∈ db.challenges.rows) (hnone : c.consumedAt = none) :
    Guarded { db with effects := db.effects ++ [c.id], challenges := db.challenges.put (c.attempt.retire now) }
      (log ++ [.consumed c.id]) := by
  have hconsumptions : consumptions (log ++ [.consumed c.id]) = consumptions log ++ [c.id] := by
    rw [consumptions_append]
    rfl
  have hcodes : ∀ id, wrongCodes id (log ++ [.consumed c.id]) = wrongCodes id log := by
    intro id
    rw [wrongCodes_append]
    exact Nat.add_zero _
  have hnew : c.id ∉ consumptions log := fun hmem => h.closed c hc hmem hnone
  constructor
  · intro c' hc'
    rcases mem_put.1 hc' with rfl | ⟨hmem, -⟩
    · exact h.ids c hc
    · exact h.ids c' hmem
  · intro id hid
    rw [hconsumptions, mem_append, mem_singleton] at hid
    rcases hid with hid | rfl
    · exact h.consumedIds id hid
    · exact h.ids c hc
  · intro id hid
    rw [hcodes]
    exact h.wrongIds id hid
  · rw [hconsumptions, nodup_append]
    refine ⟨h.once, nodup_singleton _, ?_⟩
    intro id hid id' hid' heq
    rw [mem_singleton] at hid'
    subst hid' heq
    exact hnew hid
  · show db.effects ++ [c.id] = _
    rw [hconsumptions, h.together]
  · intro c' hc' hmem
    rcases mem_put.1 hc' with rfl | ⟨hrow, hne⟩
    · exact Option.some_ne_none now
    · rw [hconsumptions, mem_append, mem_singleton] at hmem
      rcases hmem with hmem | hmem
      · exact h.closed c' hrow hmem
      · exact absurd hmem hne
  · intro id
    rw [hcodes]
    exact h.guesses id
  · intro c' hc'
    rw [hcodes]
    rcases mem_put.1 hc' with rfl | ⟨hrow, -⟩
    · exact (h.counted c hc).trans (Nat.le_succ _)
    · exact h.counted c' hrow
  · intro c' hc' d' hd' hc'none hd'none hkind
    rcases mem_put.1 hc' with rfl | ⟨hc', -⟩
    · cases hc'none
    rcases mem_put.1 hd' with rfl | ⟨hd', -⟩
    · cases hd'none
    exact h.openOne c' hc' d' hd' hc'none hd'none hkind

theorem Guarded.consume {db db' : SmsDb} {log events : List SmsEvent} (h : Guarded db log)
    (hconsume : Consumed db db' events) : Guarded db' (log ++ events) := by
  cases hconsume with
  | nothing =>
    rw [append_nil]
    exact h
  | attempted _ hc =>
    rw [append_nil]
    exact h.attempted hc
  | wrong _ hc hattempts => exact h.wrong hc hattempts
  | done _ now hc hnone => exact h.done now hc hnone

/-- What a step does. -/
inductive SmsStepped (s : SmsState) (call : SmsCall) (s' : SmsState) : Prop where
  /-- The challenges are as they were, delivered or deleted. -/
  | rows (hnext : s'.db.nextId = s.db.nextId) (heffects : s'.db.effects = s.db.effects)
      (hrows : ∀ c' ∈ s'.db.challenges.rows, ∃ c ∈ s.db.challenges.rows, c' = c ∨ c' = c.deliver)
      (hbudgets : s'.db.budgets = s.db.budgets) (hlog : s'.log = s.log)
  | reserved (input : SMSChallengeInput) (token code : String) (now : Nanos) (phone : List Char)
      (hcall : call = .reserve input token code now)
      (hnext : s'.db.nextId = s.db.nextId + 1) (heffects : s'.db.effects = s.db.effects)
      (hrows : s'.db.challenges = (s.db.challenges.updateWhere
        (openFor phone input.purpose input.userId input.sessionId)
        (retire now) (retire_id now)).put
          (newSmsChallenge s.db.nextId phone input token code now))
      (hpays : PaysFor phone (smsLimits phone input) now s.db.budgets s'.db.budgets)
      (hlog : s'.log = s.log ++
        [.sent (newSmsChallenge s.db.nextId phone input token code now) (smsLimits phone input)])
  | consumed (events : List SmsEvent) (hconsume : Consumed s.db s'.db events) (hlog : s'.log = s.log ++ events)
  | cleaned (now : Nanos) (hdb : s'.db = deleteOldBudgets now s.db) (hlog : s'.log = s.log ++ [.cleaned now])

variable {call : SmsCall}

theorem SmsStepped.same {s s' : SmsState} (hdb : s'.db = s.db) (hlog : s'.log = s.log) : SmsStepped s call s' := by
  refine .rows (by rw [hdb]) (by rw [hdb]) ?_ (by rw [hdb]) hlog
  rw [hdb]
  exact fun c hc => ⟨c, hc, Or.inl rfl⟩

theorem step_cases {s s' : SmsState} (h : s.step call = some s') : SmsStepped s call s' := by
  cases call with
  | advance =>
    cases h
    exact .same rfl rfl
  | reserve input token code now =>
    obtain ⟨-, hstep⟩ := Option.ite_none_right_eq_some.1 h
    cases hstep
    rcases hrun : reserveSMSChallenge input token code now s.db with ⟨e | c, db'⟩
    · refine .same ?_ ?_
      · exact reserve_atomic input token code now s.db e db' hrun
      · exact append_nil _
    · obtain ⟨phone, rfl, hnext, heffects, hrows, hpays⟩ := reserve_spec input token code now s.db c db' hrun
      exact .reserved input token code now phone rfl hnext heffects hrows hpays rfl
  | markDelivered id now =>
    obtain ⟨-, hstep⟩ := Option.ite_none_right_eq_some.1 h
    cases hstep
    refine .rows rfl rfl ?_ rfl rfl
    intro c' hc'
    obtain ⟨c, hc, rfl⟩ := of_mem_updateWhere (f := deliver) (fun _ => rfl) hc'
    refine ⟨c, hc, ?_⟩
    by_cases hdeliver : (c.id = id && c.consumedAt = none && decide (now < c.expiresAt)) = true
    · exact Or.inr (if_pos hdeliver)
    · exact Or.inl (if_neg hdeliver)
  | consume env token code wanted =>
    cases h
    exact .consumed _ (consume_cases env token code wanted s.time s.db) (append_assoc _ _ _)
  | deleteChallenges now =>
    obtain ⟨-, hstep⟩ := Option.ite_none_right_eq_some.1 h
    cases hstep
    refine .rows rfl rfl ?_ rfl rfl
    intro c hc
    exact ⟨c, (mem_deleteWhere.1 hc).1, Or.inl rfl⟩
  | deleteBudgets now =>
    obtain ⟨-, hstep⟩ := Option.ite_none_right_eq_some.1 h
    cases hstep
    exact .cleaned now rfl rfl

theorem guarded_step {s s' : SmsState} (h : s.step call = some s') (hs : Guarded s.db s.log) :
    Guarded s'.db s'.log := by
  cases step_cases h with
  | rows hnext heffects hrows _ hlog =>
    rw [hlog]
    refine hs.of_rows hnext heffects ?_
    intro c' hc'
    obtain ⟨c, hc, rfl | rfl⟩ := hrows c' hc'
    · exact ⟨c', hc, rfl, Nat.le_refl _, id, SameKind.refl c'⟩
    · exact ⟨c, hc, rfl, Nat.le_refl _, id, SameKind.refl c⟩
  | reserved _ _ _ _ _ _ hnext heffects hrows _ hlog =>
    rw [hlog]
    exact hs.create hnext heffects hrows
  | consumed _ hconsume hlog =>
    rw [hlog]
    exact hs.consume hconsume
  | cleaned now hdb hlog =>
    rw [hlog, hdb]
    have hbudgets : Guarded (deleteOldBudgets now s.db) s.log :=
      hs.of_rows rfl rfl fun c hc => ⟨c, hc, rfl, Nat.le_refl _, id, SameKind.refl c⟩
    exact hbudgets.of_log rfl fun _ => rfl

theorem guarded_start (time : Nanos) : Guarded (SmsState.start time).db (SmsState.start time).log where
  ids := fun c hc => by cases hc
  consumedIds := fun id hid => by cases hid
  wrongIds := fun _ _ => rfl
  once := nodup_nil
  together := rfl
  closed := fun c hc => by cases hc
  guesses := fun _ => Nat.zero_le _
  counted := fun c hc => by cases hc
  openOne := fun c hc => by cases hc

end NovaMaas.Auth
