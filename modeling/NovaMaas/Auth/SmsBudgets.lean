/-
  The budgets of one-time codes over every run, and what a run guarantees.

  `Paying` ties the rows of the budgets to the sends in the log: a row counts at least the sends that were paid from it,
  and a row that is gone was deleted after the end of its window.  A reservation reads the clock BEFORE its transaction.
  In between a clean-up may delete the row of the window that was read, and the reservation then creates it anew with
  nothing used.  So the invariant is kept by a reservation that no clean-up has overtaken (`Timely`), and
  `stale_reservation` is a run with one that was: a phone gets a sixth code in one hour.
-/
import NovaMaas.Auth.SmsSafety

open List Option

namespace NovaMaas.Auth

open Txn Table

/-! ## What a reservation pays -/

open SMSBudget

theorem get?_createIfAbsent (row : SMSBudget) (T : Table budgetHash) (k : SmsDigest) :
    (createIfAbsent row T).get? k = (T.get? k).orElse fun _ => if row.budgetHash = k then some row else none := by
  unfold createIfAbsent
  cases hrow : T.get? row.budgetHash with
  | some =>
    rw [if_pos (by rfl)]
    by_cases hk : row.budgetHash = k
    · rw [← hk, hrow]
      rfl
    · rw [if_neg hk]
      cases T.get? k <;> rfl
  | none =>
    rw [if_neg (by simp), get?_put]
    by_cases hk : row.budgetHash = k
    · rw [if_pos hk, if_pos hk, ← hk, hrow]
      rfl
    · rw [if_neg hk, if_neg hk]
      cases T.get? k <;> rfl

/-- A row is created if it is absent, and written back. -/
theorem get?_put_createIfAbsent {row row' : SMSBudget} (hkey : row'.budgetHash = row.budgetHash) (T : Table budgetHash)
    (k : SmsDigest) :
    ((createIfAbsent row T).put row').get? k = if row.budgetHash = k then some row' else T.get? k := by
  rw [get?_put, hkey, get?_createIfAbsent]
  by_cases hk : row.budgetHash = k
  · rw [if_pos hk, if_pos hk]
  · rw [if_neg hk, if_neg hk, if_neg hk]
    cases T.get? k <;> rfl

/-- The uses that a row counts; none if there is no row. -/
def usedIn (T : Table budgetHash) (k : SmsDigest) : ℕ := (T.get? k).elim 0 used

theorem usedIn_some {T : Table budgetHash} {k : SmsDigest} {row : SMSBudget} (h : T.get? k = some row) :
    usedIn T k = row.used := by
  unfold usedIn
  rw [h]
  rfl

theorem usedIn_none {T : Table budgetHash} {k : SmsDigest} (h : T.get? k = none) : usedIn T k = 0 := by
  unfold usedIn
  rw [h]
  rfl

/-- The window of a budget that a reservation counts in. -/
def windowOf (b : SmsLimit) (now : Nanos) : SmsDigest := .budget b.key b.duration (truncateTime now b.duration)

/-- The cool-down of the phone is taken. -/
structure CooledDown (phone : List Char) (now : Nanos) (T T' : Table budgetHash) : Prop where
  other  : ∀ k, k ≠ .cooldown phone → T'.get? k = T.get? k
  taken  : ∃ r, T'.get? (.cooldown phone) = some r ∧ r.nextAt = now + smsMinute ∧ r.expiresAt = now + smsDay
  before : ∀ r, T.get? (.cooldown phone) = some r → r.nextAt ≤ now

theorem takeCooldown_spec (phone : List Char) (now : Nanos) (db : SmsDb) :
    wp (takeCooldown phone now) (fun _ db' => CooledDown phone now db.budgets db'.budgets) db := by
  unfold takeCooldown
  simp only [wp_bind, wp_modify, wp_get, wp_require, wp_rejectIf]
  intro row hrow hnext
  have hkey : budgetHash { row with nextAt := now + smsMinute, expiresAt := now + smsDay } = .cooldown phone :=
    show row.budgetHash = _ from key_of_get? hrow
  constructor
  · intro k hk
    exact (get?_put_createIfAbsent hkey _ k).trans (if_neg fun h => hk h.symm)
  · exact ⟨_, (get?_put_createIfAbsent hkey _ _).trans (if_pos rfl), rfl, rfl⟩
  · intro r hr
    rw [get?_createIfAbsent, hr] at hrow
    obtain rfl : r = row := some.inj hrow
    exact not_lt.1 hnext

/-- Each of the budgets has given one send. -/
structure Paid (now : Nanos) (limits : List SmsLimit) (T T' : Table budgetHash) : Prop where
  kept : ∀ k r, T.get? k = some r →
    ∃ r', T'.get? k = some r' ∧ r.used ≤ r'.used ∧ r'.nextAt = r.nextAt ∧ r'.expiresAt = r.expiresAt
  paid : ∀ b ∈ limits, usedIn T (windowOf b now) < b.limit ∧ usedIn T (windowOf b now) < usedIn T' (windowOf b now)
  new  : ∀ k r, T'.get? k = some r → T.get? k = none →
    ∃ b ∈ limits, k = windowOf b now ∧ r.expiresAt = truncateTime now b.duration + b.duration

variable (now : Nanos)

theorem Paid.refl (T : Table budgetHash) : Paid now [] T T where
  kept := fun _ r hr => ⟨r, hr, Nat.le_refl _, rfl, rfl⟩
  paid := fun b hb => by cases hb
  new := fun k r hr hnone => by
    rw [hnone] at hr
    cases hr

variable {T T' : Table budgetHash}

variable {limits : List SmsLimit}

theorem Paid.used_le {now : Nanos} (h : Paid now limits T T') (k : SmsDigest) : usedIn T k ≤ usedIn T' k := by
  cases hr : T.get? k with
  | none =>
    rw [usedIn_none hr]
    exact Nat.zero_le _
  | some r =>
    obtain ⟨r', hr', hle, -⟩ := h.kept k r hr
    rw [usedIn_some hr, usedIn_some hr']
    exact hle

/-- A row that is not there now was not there before. -/
theorem Paid.absent {now : Nanos} (h : Paid now limits T T') {k : SmsDigest}
    (hnone : T'.get? k = none) : T.get? k = none := by
  cases hr : T.get? k with
  | none => rfl
  | some r =>
    obtain ⟨r', hr', -⟩ := h.kept k r hr
    rw [hnone] at hr'
    cases hr'

/-- Paying for a send leaves the cool-downs as they are. -/
theorem Paid.cooldown {now : Nanos} (h : Paid now limits T T') {p : List Char} {r' : SMSBudget}
    (hr' : T'.get? (.cooldown p) = some r') :
    ∃ r, T.get? (.cooldown p) = some r ∧ r'.nextAt = r.nextAt ∧ r'.expiresAt = r.expiresAt := by
  cases hr : T.get? (.cooldown p) with
  | some r =>
    obtain ⟨r'', hr'', -, hnext, hexpires⟩ := h.kept _ r hr
    rw [hr'] at hr''
    obtain rfl := some.inj hr''
    exact ⟨r, rfl, hnext, hexpires⟩
  | none =>
    obtain ⟨b, -, hkey, -⟩ := h.new _ r' hr' hr
    cases hkey

/-- One more budget. -/
theorem takeBudget_spec {now : Nanos} {T : Table budgetHash} (b : SmsLimit)
    (db : SmsDb) (h : Paid now limits T db.budgets) :
    wp (takeBudget now b) (fun _ db' => Paid now (limits ++ [b]) T db'.budgets) db := by
  unfold takeBudget
  simp only [wp_bind, wp_modify, wp_get, wp_require, wp_rejectIf]
  intro row hrow hused
  have hkey : budgetHash { row with used := row.used + 1 } = windowOf b now :=
    show row.budgetHash = _ from key_of_get? hrow
  -- the row was there, or is as it was created
  have hbefore : (db.budgets.get? (windowOf b now) = some row) ∨ (db.budgets.get? (windowOf b now) = none ∧
      row.used = 0 ∧ row.expiresAt = truncateTime now b.duration + b.duration) := by
    rw [get?_createIfAbsent] at hrow
    change (db.budgets.get? (windowOf b now)).orElse _ = some row at hrow
    cases hget : db.budgets.get? (windowOf b now) with
    | some =>
      rw [hget] at hrow
      exact Or.inl hrow
    | none =>
      rw [hget] at hrow
      have hrow' : (if windowOf b now = windowOf b now then some _ else none) = some row := hrow
      rw [if_pos rfl] at hrow'
      obtain rfl := some.inj hrow'
      exact Or.inr ⟨rfl, rfl, rfl⟩
  have husedIn : usedIn db.budgets (windowOf b now) = row.used := by
    rcases hbefore with hget | ⟨hget, hzero, -⟩
    · exact usedIn_some hget
    · rw [usedIn_none hget, hzero]
  generalize hT' : (createIfAbsent ⟨.budget b.key b.duration (truncateTime now b.duration), 0,
    truncateTime now b.duration, truncateTime now b.duration + b.duration⟩ db.budgets).put
      { row with used := row.used + 1 } = T'
  have hget' : ∀ k, T'.get? k = if windowOf b now = k then some { row with used := row.used + 1 } else
      db.budgets.get? k := fun k => hT' ▸ get?_put_createIfAbsent hkey db.budgets k
  have hself : T'.get? (windowOf b now) = some { row with used := row.used + 1 } := (hget' _).trans (if_pos rfl)
  have hother : ∀ k, k ≠ windowOf b now → T'.get? k = db.budgets.get? k :=
    fun k hk => (hget' k).trans (if_neg fun h => hk h.symm)
  have hmono : ∀ k, usedIn db.budgets k ≤ usedIn T' k := by
    intro k
    by_cases hk : k = windowOf b now
    · rw [hk, husedIn, usedIn_some hself]
      exact Nat.le_succ _
    · unfold usedIn
      rw [hother k hk]
  constructor
  · intro k r hr
    obtain ⟨r₁, hr₁, hle, hnext, hexpires⟩ := h.kept k r hr
    by_cases hk : k = windowOf b now
    · subst hk
      rcases hbefore with hget | ⟨hget, -⟩
      · rw [hr₁] at hget
        obtain rfl := some.inj hget
        exact ⟨_, hself, hle.trans (Nat.le_succ _), hnext, hexpires⟩
      · rw [hr₁] at hget
        cases hget
    · rw [hother k hk]
      exact ⟨r₁, hr₁, hle, hnext, hexpires⟩
  · intro b' hb'
    rcases mem_append.1 hb' with hb' | hb'
    · exact ⟨(h.paid b' hb').1, (h.paid b' hb').2.trans_le (hmono _)⟩
    · obtain rfl := mem_singleton.1 hb'
      have hle := h.used_le (windowOf b' now)
      have hsucc : usedIn T' (windowOf b' now) = row.used + 1 := usedIn_some hself
      rw [husedIn] at hle
      rw [hsucc]
      exact ⟨by omega, by omega⟩
  · intro k r hr hnone
    by_cases hk : k = windowOf b now
    · subst hk
      rcases hbefore with hget | ⟨-, -, hexpires⟩
      · obtain ⟨b', hb', hb'key, hb'expires⟩ := h.new _ row hget hnone
        rw [hself] at hr
        obtain rfl := some.inj hr
        exact ⟨b', mem_append_left _ hb', hb'key, hb'expires⟩
      · rw [hself] at hr
        obtain rfl := some.inj hr
        exact ⟨b, mem_append_right _ mem_cons_self, rfl, hexpires⟩
    · rw [hother k hk] at hr
      obtain ⟨b', hb', hb'key, hb'expires⟩ := h.new k r hr hnone
      exact ⟨b', mem_append_left _ hb', hb'key, hb'expires⟩

variable {phone : List Char}

/-- What a reservation does to the budgets: the cool-down, and then one send from each. -/
theorem PaysFor.cases {now : Nanos}
    (h : PaysFor phone limits now T T') : ∃ T₁, CooledDown phone now T T₁ ∧ Paid now limits T₁ T' := by
  obtain ⟨db₁, db₂, db₃, rfl, hcooldown, hbudgets, rfl⟩ := h
  refine ⟨db₂.budgets, takeCooldown_spec phone now db₁ () db₂ hcooldown, ?_⟩
  have hloop := wp_forEach (fun _ b => takeBudget now b)
    (fun _ done db => Paid now done db₂.budgets db.budgets) limits () db₂ (Paid.refl now db₂.budgets)
    (fun _ _ b _ db _ hpaid => takeBudget_spec b db hpaid)
  exact hloop () db₃ hbudgets

/-! ## Windows -/

theorem truncateTime_le {duration : Nanos} (h : 0 < duration) : truncateTime now duration ≤ now := by
  exact Int.sub_le_self now (Int.emod_nonneg now h.ne')

theorem lt_truncateTime_add {duration : Nanos} (h : 0 < duration) : now < truncateTime now duration + duration := by
  have hlt : now % duration < duration := Int.emod_lt_of_pos now h
  unfold truncateTime
  linarith

theorem dvd_truncateTime (duration : Nanos) : duration ∣ truncateTime now duration :=
  Int.dvd_self_sub_emod

/-- A window of a multiple of the length ends no earlier. -/
theorem truncateTime_add_le {now small large : Nanos} (hsmall : 0 < small) (hlarge : 0 < large) (hdvd : small ∣ large) :
    truncateTime now small + small ≤ truncateTime now large + large := by
  obtain ⟨i, hi⟩ := dvd_truncateTime now small
  obtain ⟨j, hj⟩ := Int.dvd_add (hdvd.trans (dvd_truncateTime now large)) hdvd
  have hstart : small * i ≤ now := hi ▸ truncateTime_le now hsmall
  have hend : now < small * j := hj ▸ lt_truncateTime_add now hlarge
  have hlt : i < j := lt_of_mul_lt_mul_left (hstart.trans_lt hend) hsmall.le
  calc truncateTime now small + small = small * (i + 1) := by rw [hi, mul_add, mul_one]
    _ ≤ small * j := mul_le_mul_of_nonneg_left hlt hsmall.le
    _ = truncateTime now large + large := hj.symm

theorem smsMinute_pos : 0 < smsMinute := by decide

/-- The shortest of the windows of a reservation ends first. -/
theorem minute_ends_first {input : SMSChallengeInput} {b : SmsLimit} (hb : b ∈ smsLimits phone input) :
    truncateTime now smsMinute + smsMinute ≤ truncateTime now b.duration + b.duration := by
  have hduration : b.duration = smsMinute ∨ b.duration = smsHour ∨ b.duration = smsDay := by
    unfold smsLimits at hb
    simp only [mem_append, mem_cons, not_mem_nil, or_false] at hb
    rcases hb with ((rfl | rfl | rfl | rfl | rfl | rfl) | hb) | hb
    · exact Or.inr (Or.inl rfl)
    · exact Or.inr (Or.inr rfl)
    · exact Or.inr (Or.inl rfl)
    · exact Or.inr (Or.inr rfl)
    · exact Or.inl rfl
    · exact Or.inr (Or.inr rfl)
    · split at hb
      · obtain rfl := mem_singleton.1 hb
        exact Or.inr (Or.inr rfl)
      · cases hb
    · split at hb
      · obtain rfl := mem_singleton.1 hb
        exact Or.inr (Or.inr rfl)
      · cases hb
  have hhour : smsMinute ∣ smsHour := Dvd.intro_left 60 rfl
  have hday : smsMinute ∣ smsDay := (hhour.trans (Dvd.intro_left 24 rfl))
  rcases hduration with h | h | h
  · rw [h]
  · rw [h]
    exact truncateTime_add_le smsMinute_pos (by decide) hhour
  · rw [h]
    exact truncateTime_add_le smsMinute_pos (by decide) hday

/-! ## The invariant -/

/-- What the budgets and the log say of each other. -/
structure Paying (T : Table budgetHash) (log : List SmsEvent) : Prop where
  window   : ∀ (b : SmsLimit) w r, T.get? (.budget b.key b.duration w) = some r →
    sendsFrom b w log ≤ r.used ∧ r.expiresAt = w + b.duration
  gone     : ∀ (b : SmsLimit) w, T.get? (.budget b.key b.duration w) = none → sendsFrom b w log ≠ 0 →
    ∃ c ∈ cleanedAt log, w + b.duration < c
  limits   : ∀ (b : SmsLimit) w, sendsFrom b w log ≤ b.limit
  cooldown : ∀ e ∈ smsSends log, ∀ r, T.get? (.cooldown e.1.phone) = some r →
    e.1.createdAt + smsMinute ≤ r.nextAt ∧ e.1.createdAt + smsDay ≤ r.expiresAt
  cooled   : ∀ e ∈ smsSends log, T.get? (.cooldown e.1.phone) = none → ∃ c ∈ cleanedAt log, e.1.createdAt + smsDay < c
  spaced   : (smsSends log).Pairwise fun e e' =>
    e.1.phone = e'.1.phone → e.1.createdAt + smsMinute ≤ e'.1.createdAt

/-- No clean-up has passed the end of the minute in which a reservation has read the clock. -/
def Timely (log : List SmsEvent) (now : Nanos) : Prop :=
  ∀ c ∈ cleanedAt log, c ≤ truncateTime now smsMinute + smsMinute

variable {log : List SmsEvent}

/-- The log goes on without sends or clean-ups. -/
theorem Paying.of_log {T : Table budgetHash} {events : List SmsEvent} (h : Paying T log)
    (hsends : smsSends events = []) (hcleaned : cleanedAt events = []) : Paying T (log ++ events) := by
  have hsends' : smsSends (log ++ events) = smsSends log := by
    rw [smsSends_append, hsends, append_nil]
  have hcleaned' : cleanedAt (log ++ events) = cleanedAt log := by
    rw [cleanedAt_append, hcleaned, append_nil]
  have hfrom : ∀ b w, sendsFrom b w (log ++ events) = sendsFrom b w log := by
    intro b w
    unfold sendsFrom
    rw [hsends']
  constructor
  · intro b w r hr
    rw [hfrom]
    exact h.window b w r hr
  · intro b w hnone hne
    rw [hfrom] at hne
    rw [hcleaned']
    exact h.gone b w hnone hne
  · intro b w
    rw [hfrom]
    exact h.limits b w
  · rw [hsends']
    exact h.cooldown
  · rw [hsends', hcleaned']
    exact h.cooled
  · rw [hsends']
    exact h.spaced

/-- A clean-up deletes no row whose window or cool-down is not over. -/
theorem Paying.clean {db : SmsDb} (h : Paying db.budgets log) (now : Nanos) :
    Paying (deleteOldBudgets now db).budgets (log ++ [.cleaned now]) := by
  have hsends : smsSends (log ++ [.cleaned now]) = smsSends log := by
    rw [smsSends_append]
    exact append_nil _
  have hfrom : ∀ b w, sendsFrom b w (log ++ [.cleaned now]) = sendsFrom b w log := by
    intro b w
    unfold sendsFrom
    rw [hsends]
  have hcleaned : cleanedAt (log ++ [.cleaned now]) = cleanedAt log ++ [now] := by
    rw [cleanedAt_append]
    rfl
  have hrow : ∀ k r, (deleteOldBudgets now db).budgets.get? k = some r → db.budgets.get? k = some r := by
    intro k r hr
    obtain ⟨hmem, rfl⟩ := get?_eq_some_iff.1 hr
    exact get?_of_mem (mem_deleteWhere.1 hmem).1
  have hdeleted : ∀ k r, db.budgets.get? k = some r → (deleteOldBudgets now db).budgets.get? k = none →
      r.expiresAt < now := by
    intro k r hr hnone
    obtain ⟨hmem, rfl⟩ := get?_eq_some_iff.1 hr
    by_contra hle
    have hkept : r ∈ (deleteOldBudgets now db).budgets.rows :=
      mem_deleteWhere.2 ⟨hmem, decide_eq_false hle⟩
    rw [get?_of_mem hkept] at hnone
    cases hnone
  constructor
  · intro b w r hr
    rw [hfrom]
    exact h.window b w r (hrow _ r hr)
  · intro b w hnone hne
    rw [hfrom] at hne
    rw [hcleaned]
    cases hbefore : db.budgets.get? (.budget b.key b.duration w) with
    | none =>
      obtain ⟨c, hc, hlt⟩ := h.gone b w hbefore hne
      exact ⟨c, mem_append_left _ hc, hlt⟩
    | some r =>
      refine ⟨now, mem_append_right _ mem_cons_self, ?_⟩
      rw [← (h.window b w r hbefore).2]
      exact hdeleted _ r hbefore hnone
  · intro b w
    rw [hfrom]
    exact h.limits b w
  · intro e he r hr
    rw [hsends] at he
    exact h.cooldown e he r (hrow _ r hr)
  · intro e he hnone
    rw [hsends] at he
    rw [hcleaned]
    cases hbefore : db.budgets.get? (.cooldown e.1.phone) with
    | none =>
      obtain ⟨c, hc, hlt⟩ := h.cooled e he hbefore
      exact ⟨c, mem_append_left _ hc, hlt⟩
    | some r =>
      refine ⟨now, mem_append_right _ mem_cons_self, ?_⟩
      exact (h.cooldown e he r hbefore).2.trans_lt (hdeleted _ r hbefore hnone)
  · rw [hsends]
    exact h.spaced

/-- Before a timely reservation the row of a window that it counts in counts all sends of the window. -/
theorem Paying.counts {T : Table budgetHash}
    {input : SMSChallengeInput} {now : Nanos} (h : Paying T log) (htimely : Timely log now) {b' : SmsLimit}
    (hb' : b' ∈ smsLimits phone input) {b : SmsLimit} (hduration : b.duration = b'.duration) :
    sendsFrom b (truncateTime now b.duration) log ≤ usedIn T (windowOf b now) := by
  unfold usedIn
  cases hrow : T.get? (windowOf b now) with
  | some r => exact (h.window b _ r hrow).1
  | none =>
    by_contra hne
    obtain ⟨c, hc, hlt⟩ := h.gone b _ hrow (by simpa using hne)
    rw [hduration] at hlt
    exact ((minute_ends_first now hb').trans_lt hlt).not_ge (htimely c hc)

/-! ## A reservation that no clean-up has overtaken -/

section

variable {log : List SmsEvent} {input : SMSChallengeInput} {now : Nanos} {T₁ : Table budgetHash}

/-- An earlier send to the phone was at least a minute ago. -/
theorem Paying.sent_before (h : Paying T log) (htimely : Timely log now) (hcooled : CooledDown phone now T T₁)
    {e : SMSChallenge × List SmsLimit} (he : e ∈ smsSends log) (hsame : e.1.phone = phone) :
    e.1.createdAt + smsMinute ≤ now := by
  cases hrow : T.get? (.cooldown phone) with
  | some r => exact (h.cooldown e he r (hsame ▸ hrow)).1.trans (hcooled.before r hrow)
  | none =>
    obtain ⟨t, ht, hlt⟩ := h.cooled e he (hsame ▸ hrow)
    have hle := htimely t ht
    have htrunc := truncateTime_le now smsMinute_pos
    have hday : 2 * smsMinute ≤ smsDay := by decide
    linarith

theorem CooledDown.window (h : CooledDown phone now T T₁) (b : SmsLimit) (w : Nanos) :
    T₁.get? (.budget b.key b.duration w) = T.get? (.budget b.key b.duration w) :=
  h.other _ (by simp)

theorem CooledDown.usedIn_eq (h : CooledDown phone now T T₁) (b : SmsLimit) (w : Nanos) :
    usedIn T₁ (.budget b.key b.duration w) = usedIn T (.budget b.key b.duration w) := by
  unfold usedIn
  rw [h.window b w]

/-- The send is counted by the budgets that it is paid from, in the windows of its reading. -/
theorem Paying.sent_le (h : Paying T log) (htimely : Timely log now) (hcooled : CooledDown phone now T T₁)
    (hpaid : Paid now (smsLimits phone input) T₁ T') (b : SmsLimit) (w : Nanos) {r : SMSBudget}
    (hr : T'.get? (.budget b.key b.duration w) = some r) :
    sendsFrom b w log + (if b ∈ smsLimits phone input ∧ truncateTime now b.duration = w then 1 else 0) ≤ r.used ∧
      r.expiresAt = w + b.duration := by
  have hle := hpaid.used_le (.budget b.key b.duration w)
  rw [hcooled.usedIn_eq, usedIn_some hr] at hle
  -- what was sent before is counted by the row as it was, or by none in a window that was not there
  have hbefore : sendsFrom b w log ≤ usedIn T (.budget b.key b.duration w) ∧ r.expiresAt = w + b.duration := by
    cases hget : T.get? (.budget b.key b.duration w) with
    | some r₀ =>
      obtain ⟨r', hr', -, -, hexpires⟩ := hpaid.kept _ r₀ ((hcooled.window b w).trans hget)
      rw [hr] at hr'
      obtain rfl := some.inj hr'
      rw [usedIn_some hget]
      exact ⟨(h.window b w r₀ hget).1, hexpires.trans (h.window b w r₀ hget).2⟩
    | none =>
      obtain ⟨b', hb', hkey, hexpires⟩ := hpaid.new _ r hr ((hcooled.window b w).trans hget)
      unfold windowOf at hkey
      injection hkey with hkeys hduration hw
      rw [← hduration] at hw
      subst hw
      exact ⟨h.counts htimely hb' hduration, by rw [hexpires, hduration]⟩
  refine ⟨?_, hbefore.2⟩
  by_cases hb : b ∈ smsLimits phone input ∧ truncateTime now b.duration = w
  · obtain ⟨hmem, rfl⟩ := hb
    have hmore := (hpaid.paid b hmem).2
    unfold windowOf at hmore
    rw [hcooled.usedIn_eq, usedIn_some hr] at hmore
    rw [if_pos ⟨hmem, rfl⟩]
    exact hbefore.1.trans_lt hmore
  · rw [if_neg hb]
    exact hbefore.1.trans hle

/-- The cool-down lasts for the phone, and the others are as they were. -/
theorem Paying.sent_cooldown (h : Paying T log) (htimely : Timely log now) (hcooled : CooledDown phone now T T₁)
    (hpaid : Paid now (smsLimits phone input) T₁ T') {e : SMSChallenge × List SmsLimit}
    (he : e ∈ smsSends log ∨ e.1.phone = phone ∧ e.1.createdAt = now) {r' : SMSBudget}
    (hr' : T'.get? (.cooldown e.1.phone) = some r') :
    e.1.createdAt + smsMinute ≤ r'.nextAt ∧ e.1.createdAt + smsDay ≤ r'.expiresAt := by
  obtain ⟨r, hr, hnext, hexpires⟩ := hpaid.cooldown hr'
  rw [hnext, hexpires]
  by_cases hsame : e.1.phone = phone
  · obtain ⟨taken, htaken, hnextAt, hexpiresAt⟩ := hcooled.taken
    rw [hsame, htaken] at hr
    obtain rfl := some.inj hr
    rw [hnextAt, hexpiresAt]
    have hle : e.1.createdAt ≤ now := by
      rcases he with he | ⟨-, hcreated⟩
      · have hminute := h.sent_before htimely hcooled he hsame
        have hpos := smsMinute_pos
        linarith
      · exact hcreated.le
    exact ⟨add_le_add_left hle smsMinute, add_le_add_left hle smsDay⟩
  · rw [hcooled.other _ fun hkey => hsame (SmsDigest.cooldown.inj hkey)] at hr
    exact h.cooldown e (he.resolve_right fun hnew => hsame hnew.1) r hr

/-- A cool-down that is not there is that of another phone, and was not there before. -/
theorem CooledDown.absent (hcooled : CooledDown phone now T T₁) (hpaid : Paid now (smsLimits phone input) T₁ T')
    {p : List Char} (hnone : T'.get? (.cooldown p) = none) : p ≠ phone ∧ T.get? (.cooldown p) = none := by
  have hnone₁ := hpaid.absent hnone
  have hp : p ≠ phone := by
    rintro rfl
    obtain ⟨taken, htaken, -⟩ := hcooled.taken
    rw [htaken] at hnone₁
    cases hnone₁
  exact ⟨hp, (hcooled.other _ fun hkey => hp (SmsDigest.cooldown.inj hkey)).symm.trans hnone₁⟩

theorem Paying.reserve {c : SMSChallenge} (h : Paying T log) (htimely : Timely log now)
    (hpays : PaysFor phone (smsLimits phone input) now T T') (hphone : c.phone = phone) (hcreated : c.createdAt = now) :
    Paying T' (log ++ [.sent c (smsLimits phone input)]) := by
  obtain ⟨T₁, hcooled, hpaid⟩ := hpays.cases
  have hsends : smsSends (log ++ [.sent c (smsLimits phone input)]) = smsSends log ++ [(c, smsLimits phone input)] := by
    rw [smsSends_append]
    rfl
  have hcleaned : cleanedAt (log ++ [.sent c (smsLimits phone input)]) = cleanedAt log := by
    rw [cleanedAt_append]
    exact append_nil _
  -- one more send, from the budgets of the reservation, in the windows of its reading
  have hfrom : ∀ b w, sendsFrom b w (log ++ [.sent c (smsLimits phone input)]) =
      sendsFrom b w log + if b ∈ smsLimits phone input ∧ truncateTime now b.duration = w then 1 else 0 := by
    intro b w
    unfold sendsFrom
    rw [hsends, countP_append, countP_singleton, hcreated]
    simp only [Bool.and_eq_true, decide_eq_true_eq]
  have hmem : ∀ e ∈ smsSends (log ++ [.sent c (smsLimits phone input)]),
      e ∈ smsSends log ∨ e.1.phone = phone ∧ e.1.createdAt = now := by
    intro e he
    rw [hsends, mem_append, mem_singleton] at he
    exact he.imp_right (by rintro rfl; exact ⟨hphone, hcreated⟩)
  constructor
  · intro b w r hr
    rw [hfrom]
    exact h.sent_le htimely hcooled hpaid b w hr
  · intro b w hnone hne
    rw [hfrom] at hne
    rw [hcleaned]
    by_cases hb : b ∈ smsLimits phone input ∧ truncateTime now b.duration = w
    · -- the row of a window that is counted in is there
      obtain ⟨hmem, rfl⟩ := hb
      have hmore := (hpaid.paid b hmem).2
      unfold windowOf at hmore
      rw [usedIn_none hnone] at hmore
      exact absurd hmore (Nat.not_lt_zero _)
    · rw [if_neg hb, Nat.add_zero] at hne
      exact h.gone b w ((hcooled.window b w).symm.trans (hpaid.absent hnone)) hne
  · intro b w
    rw [hfrom]
    by_cases hb : b ∈ smsLimits phone input ∧ truncateTime now b.duration = w
    · obtain ⟨hmem, rfl⟩ := hb
      have hlimit := (hpaid.paid b hmem).1
      unfold windowOf at hlimit
      rw [hcooled.usedIn_eq] at hlimit
      rw [if_pos ⟨hmem, rfl⟩]
      exact (h.counts htimely hmem rfl).trans_lt hlimit
    · rw [if_neg hb, Nat.add_zero]
      exact h.limits b w
  · exact fun e he r' hr' => h.sent_cooldown htimely hcooled hpaid (hmem e he) hr'
  · intro e he hnone
    rw [hcleaned]
    obtain ⟨hother, hnone₀⟩ := hcooled.absent hpaid hnone
    exact h.cooled e ((hmem e he).resolve_right fun hnew => hother hnew.1) hnone₀
  · rw [hsends, pairwise_append]
    refine ⟨h.spaced, pairwise_singleton _ _, ?_⟩
    intro e he e' he' hsame
    obtain rfl := mem_singleton.1 he'
    show e.1.createdAt + smsMinute ≤ c.createdAt
    rw [hcreated]
    exact h.sent_before htimely hcooled he (hsame.trans hphone)

end

/-! ## Runs -/

theorem Consumed.budgets {db db' : SmsDb} {events : List SmsEvent} (h : Consumed db db' events) :
    db'.budgets = db.budgets ∧ smsSends events = [] ∧ cleanedAt events = [] := by
  cases h with
  | nothing | attempted | wrong | done => exact ⟨rfl, rfl, rfl⟩

/-- The step is no reservation that a clean-up has overtaken. -/
def SmsState.OnTime (s : SmsState) : SmsCall → Prop
  | .reserve _ _ _ now => Timely s.log now
  | _ => True

instance (log : List SmsEvent) (now : Nanos) : Decidable (Timely log now) :=
  inferInstanceAs (Decidable (∀ c ∈ cleanedAt log, c ≤ truncateTime now smsMinute + smsMinute))

instance onTimeDecidable (s : SmsState) : (call : SmsCall) → Decidable (s.OnTime call)
  | .reserve _ _ _ now => inferInstanceAs (Decidable (Timely s.log now))
  | .advance _ | .markDelivered _ _ | .consume _ _ _ _ | .deleteChallenges _ | .deleteBudgets _ => .isTrue trivial

theorem paying_step {s s' : SmsState} {call : SmsCall} (h : s.step call = some s') (htime : s.OnTime call)
    (hs : Paying s.db.budgets s.log) : Paying s'.db.budgets s'.log := by
  cases step_cases h with
  | rows _ _ _ hbudgets hlog =>
    rw [hlog, hbudgets]
    exact hs
  | reserved _ _ _ _ _ hcall _ _ _ hpays hlog =>
    subst hcall
    rw [hlog]
    exact hs.reserve htime hpays rfl rfl
  | consumed _ hconsume hlog =>
    obtain ⟨hbudgets, hsends, hcleaned⟩ := hconsume.budgets
    rw [hlog, hbudgets]
    exact hs.of_log hsends hcleaned
  | cleaned now hdb hlog =>
    rw [hlog, hdb]
    exact hs.clean now

theorem paying_start (time : Nanos) : Paying (SmsState.start time).db.budgets (SmsState.start time).log where
  window := fun _ _ _ hr => by cases hr
  gone := fun _ _ _ hne => absurd rfl hne
  limits := fun _ _ => Nat.zero_le _
  cooldown := fun _ he => by cases he
  cooled := fun _ he => by cases he
  spaced := List.Pairwise.nil

/-- Every step of a run is on time. -/
def SmsState.AllOnTime (s : SmsState) : List SmsCall → Prop
  | [] => True
  | call :: calls => s.OnTime call ∧ ∀ s', s.step call = some s' → s'.AllOnTime calls

instance allOnTimeDecidable : (calls : List SmsCall) → (s : SmsState) → Decidable (s.AllOnTime calls)
  | [], _ => .isTrue trivial
  | call :: calls, s =>
    have : Decidable (∀ s', s.step call = some s' → s'.AllOnTime calls) :=
      match s.step call with
      | none => .isTrue fun _ h => absurd h (some_ne_none _).symm
      | some s₁ =>
        have := allOnTimeDecidable calls s₁
        decidable_of_iff (s₁.AllOnTime calls) ⟨fun h _ h' => some.inj h' ▸ h, fun h => h s₁ rfl⟩
    inferInstanceAs (Decidable (s.OnTime call ∧ ∀ s', s.step call = some s' → s'.AllOnTime calls))

variable {calls : List SmsCall}

theorem SmsState.run_cons {s s' : SmsState} {call : SmsCall} :
    s.run (call :: calls) = some s' ↔ ∃ s₁, s.step call = some s₁ ∧ s₁.run calls = some s' :=
  bind_eq_some_iff

theorem guarded_run : ∀ {s s' : SmsState}, s.run calls = some s' → Guarded s.db s.log → Guarded s'.db s'.log := by
  induction calls with
  | nil =>
    intro s s' hrun hs
    cases hrun
    exact hs
  | cons _ _ ih =>
    intro s s' hrun hs
    obtain ⟨s₁, hstep, hrun⟩ := SmsState.run_cons.1 hrun
    exact ih hrun (guarded_step hstep hs)

theorem paying_run : ∀ {s s' : SmsState}, s.run calls = some s' → s.AllOnTime calls →
    Paying s.db.budgets s.log → Paying s'.db.budgets s'.log := by
  induction calls with
  | nil =>
    intro s s' hrun _ hs
    cases hrun
    exact hs
  | cons _ _ ih =>
    intro s s' hrun htime hs
    obtain ⟨s₁, hstep, hrun⟩ := SmsState.run_cons.1 hrun
    exact ih hrun (htime.2 s₁ hstep) (paying_step hstep htime.1 hs)

/-- What a state reached promises of its challenges and of the sends so far. -/
structure SmsSafe (s : SmsState) : Prop where
  /-- A challenge is consumed at most once. -/
  once      : (consumptions s.log).Nodup
  /-- The actions with effects are those of the consumptions. -/
  together  : s.db.effects = consumptions s.log
  /-- At most five wrong codes are compared with one challenge. -/
  guesses   : ∀ id, wrongCodes id s.log ≤ 5
  /-- Each of them stays counted. -/
  counted   : ∀ c ∈ s.db.challenges.rows, wrongCodes c.id s.log ≤ c.attempts
  /-- Of one phone, purpose, user and session at most one challenge is open. -/
  openOne   : ∀ c ∈ s.db.challenges.rows, ∀ d ∈ s.db.challenges.rows, c.consumedAt = none → d.consumedAt = none →
    SameKind c d → c = d
  /-- A window of a budget has at most as many sends as the limit of the budget. -/
  limits    : ∀ b window, sendsFrom b window s.log ≤ b.limit
  /-- Two sends to one phone are a minute apart. -/
  spaced    : (smsSends s.log).Pairwise fun e e' =>
    e.1.phone = e'.1.phone → e.1.createdAt + smsMinute ≤ e'.1.createdAt

/-- A run in which no clean-up overtakes a reservation is safe. -/
theorem smsSafe_of_onTime {time : Nanos} {calls : List SmsCall} {s : SmsState}
    (hrun : (SmsState.start time).run calls = some s) (htime : (SmsState.start time).AllOnTime calls) : SmsSafe s := by
  have hguarded := guarded_run hrun (guarded_start time)
  have hpaying := paying_run hrun htime (paying_start time)
  exact ⟨hguarded.once, hguarded.together, hguarded.guesses, hguarded.counted, hguarded.openOne, hpaying.limits,
    hpaying.spaced⟩

/-- What the challenges promise holds in every run. -/
theorem challenges_safe {time : Nanos} {s : SmsState}
    (hrun : (SmsState.start time).run calls = some s) : Guarded s.db s.log :=
  guarded_run hrun (guarded_start time)

/-- A login by the code to a phone. -/
def loginInput : SMSChallengeInput :=
  ⟨"login", ['1', '3', '8', '0', '0', '1', '3', '8', '0', '0', '0'], 0, 0, "", "", "203.0.113.9", ""⟩

/-- A token for the run below. -/
def tokenOf (n : ℕ) : String := String.ofList (replicate 42 'A' ++ [Char.ofNat (65 + n)])

/-- A send, a wrong code, the right one, and a second send. -/
def loginCalls : List SmsCall :=
  [.reserve loginInput (tokenOf 0) "000000" smsDay, .markDelivered 1 smsDay,
    .consume ⟨.found, false⟩ (tokenOf 0) "000001" loginInput, .consume ⟨.found, false⟩ (tokenOf 0) "000000" loginInput,
    .advance 60000000000, .reserve loginInput (tokenOf 1) "000000" (smsDay + smsMinute)]

/-- The run ends, its steps are on time, and its end is safe. -/
theorem smsSafe_login : ∃ s, (SmsState.start smsDay).run loginCalls = some s ∧ consumptions s.log = [1] ∧ SmsSafe s := by
  have hends : ((SmsState.start smsDay).run loginCalls).isSome = true := by decide +kernel
  obtain ⟨s, hrun⟩ := isSome_iff_exists.1 hends
  have hconsumed : ((SmsState.start smsDay).run loginCalls).map (fun s => consumptions s.log) = some [1] := by
    decide +kernel
  rw [hrun] at hconsumed
  exact ⟨s, hrun, some.inj hconsumed, smsSafe_of_onTime hrun (by decide +kernel)⟩

/-- Five sends in the first minutes of an hour; a sixth has read the clock in the last one, and its transaction runs after
    the clean-up of the next hour. -/
def staleCalls : List SmsCall :=
  (range 5).flatMap (fun n => [.reserve loginInput (tokenOf n) "000000" (smsDay + n * smsMinute),
      .advance 60000000000]) ++
    [.advance 3360000000000, .deleteBudgets (smsDay + 61 * smsMinute),
      .reserve loginInput (tokenOf 5) "000000" (smsDay + 59 * smsMinute)]

/-- The last challenge is still good for one consumption, and a wrong code before it. -/
def staleLogin : List SmsCall :=
  staleCalls ++ [.markDelivered 6 (smsDay + 61 * smsMinute), .consume ⟨.found, false⟩ (tokenOf 5) "000001" loginInput,
    .consume ⟨.found, false⟩ (tokenOf 5) "000000" loginInput, .consume ⟨.found, false⟩ (tokenOf 5) "000000" loginInput]

theorem challenges_safe_stale : ∃ s, (SmsState.start smsDay).run staleLogin = some s ∧ consumptions s.log = [6] ∧
    wrongCodes 6 s.log = 1 ∧ Guarded s.db s.log := by
  have hends : ((SmsState.start smsDay).run staleLogin).map (fun s => (consumptions s.log, wrongCodes 6 s.log)) =
      some ([6], 1) := by decide +kernel
  obtain ⟨s, hrun, hevents⟩ := map_eq_some_iff.1 hends
  obtain ⟨hconsumed, hwrong⟩ := Prod.mk.inj hevents
  exact ⟨s, hrun, hconsumed, hwrong, challenges_safe hrun⟩

/-- The phone has got six codes in one hour. -/
theorem stale_reservation : ¬ ∀ (time : Nanos) (calls : List SmsCall) (s : SmsState),
    (SmsState.start time).run calls = some s → SmsSafe s := by
  intro hsafe
  have hsix : ((SmsState.start smsDay).run staleCalls).map (fun s =>
      sendsFrom ⟨.phone ['+', '8', '6', '1', '3', '8', '0', '0', '1', '3', '8', '0', '0', '0'], 5, smsHour⟩ smsDay s.log) =
        some 6 := by
    decide +kernel
  obtain ⟨s, hrun, hsix⟩ := map_eq_some_iff.1 hsix
  have hlimit := (hsafe smsDay staleCalls s hrun).limits
    ⟨.phone ['+', '8', '6', '1', '3', '8', '0', '0', '1', '3', '8', '0', '0', '0'], 5, smsHour⟩ smsDay
  rw [hsix] at hlimit
  exact absurd hlimit (by decide)

end NovaMaas.Auth
