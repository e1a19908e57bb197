/-
  Sequences and hour aggregates.

  The hour table is redundant: each row repeats what the entries of one customer hour add up to.  It
  is maintained three ways — extended by one on every append, inserted in bulk by a history import,
  and reinterpreted when the accounting start moves — and `LedgerOK` is the one invariant all three
  keep:

  * a user's entries carry the sequences `1, …, account.sequence` in table order;
  * the row of an hour is the CLOSED FORM `hourRow` of exactly the eligible entries of that hour, and
    an hour without eligible entries has no row.

  The load-bearing facts are `hourRow_add` (extending a row by one entry is the closed form of the
  longer list — the first sequence is only ever overwritten while it is `0`, and sequences start at
  `1`) and `TallyOK` for the single pass of an import.  A start change never invalidates a row because
  it is refused while any eligible entry exists.
-/
import NovaMaas.Billing.Conservation
import NovaMaas.Billing.Account

open List

namespace NovaMaas.Billing

open Txn BillingEntry

/-! ## The closed form -/

/-- The user's entries, in table order. -/
def entriesOf (db : DB) (u : ℤ) : List BillingEntry := db.entries.rows.filter fun e => e.userID = u

/-- The sequences `1, …, n`. -/
def upTo (n : ℕ) : List ℤ := (range n).map fun i : ℕ => (i : ℤ) + 1

/-- The row of an hour, from its entries. -/
def hourRow (u hour : ℤ) (es : List BillingEntry) : BillingHour where
  userID := u
  hour := hour
  charge := (es.map charge).sum
  refund := (es.map refunded).sum
  count := es.length
  firstSequence := (es.map BillingEntry.sequence).headD 0
  lastSequence := (es.map BillingEntry.sequence).getLastD 0

/-- The eligible entries of one hour. -/
def hourEntries (a : BillingAccount) (hour : ℤ) (es : List BillingEntry) : List BillingEntry :=
  es.filter fun e => Eligible a e ∧ hourOf e.postedAt = hour

/-- The row an hour has: none without entries. -/
def expectedHour (u hour : ℤ) (es : List BillingEntry) : Option BillingHour :=
  if es = [] then none else some (hourRow u hour es)

/-- The invariant of one user's ledger. -/
structure LedgerOK (db : DB) (u : ℤ) : Prop where
  sequences : ∃ n : ℕ, (accountOf db u).sequence = n ∧ (entriesOf db u).map BillingEntry.sequence = upTo n
  hours : ∀ hour, db.hours.get? (u, hour) = expectedHour u hour (hourEntries (accountOf db u) hour (entriesOf db u))
  start_nonneg : 0 ≤ (accountOf db u).accountingStartAt
  start_le : (accountOf db u).startSequence ≤ (accountOf db u).sequence + 1

/-! ## Extending a row -/

theorem upTo_succ (n : ℕ) : upTo (n + 1) = upTo n ++ [(n : ℤ) + 1] := by
  simp [upTo, range_succ]

theorem one_le_of_mem_upTo {n : ℕ} {x : ℤ} (h : x ∈ upTo n) : 1 ≤ x := by
  obtain ⟨i, -, rfl⟩ := mem_map.mp h
  omega

variable {es : List BillingEntry}

/-- The closed form of a longer list: sums and count grow, the first sequence stays. -/
theorem hourRow_concat (u hour : ℤ) (hne : es ≠ []) (e : BillingEntry) :
    hourRow u hour (es ++ [e]) = { hourRow u hour es with
        charge := (hourRow u hour es).charge + e.charge
        refund := (hourRow u hour es).refund + e.refunded
        count := (hourRow u hour es).count + 1
        lastSequence := e.sequence } := by
  obtain ⟨x, xs, rfl⟩ := exists_cons_of_ne_nil hne
  simp only [hourRow, map_append, sum_append, map_singleton, sum_singleton,
    length_append, length_singleton, getLastD_concat, BillingHour.mk.injEq, true_and]
  exact ⟨by push_cast; rfl, rfl, trivial⟩

/-- One more entry in the closed form is the incremental update.  The guard on `firstSequence`
    needs sequences to start at one. -/
theorem hourRow_add (u hour : ℤ) (hpos : ∀ e ∈ es, 1 ≤ e.sequence)
    (e : BillingEntry) : (hourRow u hour es).add e = hourRow u hour (es ++ [e]) := by
  cases es with
  | nil => simp [hourRow, BillingHour.add]
  | cons x xs =>
    have hx : ¬ (hourRow u hour (x :: xs)).firstSequence = 0 := by
      have := hpos x mem_cons_self
      change ¬ x.sequence = 0
      omega
    rw [hourRow_concat u hour (cons_ne_nil x xs), BillingHour.add, if_neg hx]

/-- The row a missing hour starts from is the closed form of no entries. -/
theorem hourRow_nil (u hour : ℤ) : hourRow u hour [] = { userID := u, hour := hour } := rfl

theorem expectedHour_getD (u hour : ℤ) (es : List BillingEntry) :
    (expectedHour u hour es).getD { userID := u, hour := hour } = hourRow u hour es := by
  unfold expectedHour
  split
  · rename_i hnil
    rw [hnil, hourRow_nil]
    rfl
  · rfl

theorem hourEntries_append (a : BillingAccount) (hour : ℤ) (es fs : List BillingEntry) :
    hourEntries a hour (es ++ fs) = hourEntries a hour es ++ hourEntries a hour fs :=
  filter_append ..

variable {a : BillingAccount}

/-- Eligibility does not depend on how far the sequence got. -/
theorem hourEntries_congr {b : BillingAccount} (hstart : a.accountingStartAt = b.accountingStartAt)
    (hseq : a.startSequence = b.startSequence) (hour : ℤ) (es : List BillingEntry) :
    hourEntries a hour es = hourEntries b hour es := by
  refine filter_congr ?_
  intro e _
  have hiff : Eligible a e ↔ Eligible b e := by
    rw [Eligible, Eligible, hstart, hseq]
  rw [decide_eq_decide, hiff]

variable {u : ℤ}

variable {e : BillingEntry}

theorem LedgerOK.one_le {db : DB} (h : LedgerOK db u) (he : e ∈ entriesOf db u) : 1 ≤ e.sequence := by
  obtain ⟨n, -, hseq⟩ := h.sequences
  refine one_le_of_mem_upTo (n := n) ?_
  rw [← hseq]
  exact mem_map_of_mem he

/-! ## Appends -/

variable {s s' : DB}

/-- Nothing the invariant reads changed. -/
theorem LedgerOK.of_same (h : LedgerOK s u)
    (haccount : accountOf s' u = accountOf s u) (hentries : entriesOf s' u = entriesOf s u)
    (hhours : ∀ hour, s'.hours.get? (u, hour) = s.hours.get? (u, hour)) : LedgerOK s' u := by
  obtain ⟨hseq, hhour, hstart, hle⟩ := h
  refine ⟨?_, ?_, ?_, ?_⟩
  · rw [haccount, hentries]
    exact hseq
  · intro hour
    rw [hhours, haccount, hentries]
    exact hhour hour
  · rw [haccount]
    exact hstart
  · rw [haccount]
    exact hle

/-- The three tables of the ledger are unchanged. -/
theorem LedgerOK.of_ledger (h : LedgerOK s u) (ha : s'.accounts = s.accounts)
    (he : s'.entries = s.entries) (hh : s'.hours = s.hours) : LedgerOK s' u := by
  refine h.of_same ?_ ?_ ?_
  · rw [accountOf, ha, accountOf]
  · rw [entriesOf, he, entriesOf]
  · intro hour
    rw [hh]

variable {entry : BillingEntry}

theorem entriesOf_appended {now : ℤ} {user : User} (h : Appended now user entry s s') (u : ℤ) :
    entriesOf s' u = entriesOf s u ++ (if user.id = u then [stored s now user entry] else []) := by
  have huser : (stored s now user entry).userID = user.id := rfl
  unfold entriesOf
  rw [h.entries, filter_append, filter_singleton, huser]
  by_cases hu : user.id = u
  · simp [hu]
  · simp [hu]

/-- One append keeps every user's ledger. -/
theorem LedgerOK.appended {now : ℤ} {user : User}
    (h : LedgerOK s u) (happ : Appended now user entry s s') : LedgerOK s' u := by
  have hentries := entriesOf_appended happ u
  have haccount := happ.account u
  by_cases hu : user.id = u
  · subst hu
    rw [if_pos rfl] at hentries haccount
    generalize hstored : stored s now user entry = e at hentries
    have hseq : e.sequence = (accountOf s user.id).sequence + 1 := by rw [← hstored]; rfl
    have hposted : e.postedAt = now := by rw [← hstored]; rfl
    obtain ⟨n, hn, hsequences⟩ := h.sequences
    refine ⟨⟨n + 1, ?_, ?_⟩, ?_, ?_, ?_⟩
    · rw [haccount]
      simp only
      rw [hn]
      push_cast
      rfl
    · rw [hentries, map_append, hsequences, upTo_succ, map_singleton, hseq, hn]
    · intro hour
      have hhour := happ.hour (user.id, hour)
      rw [hstored, h.hours hour] at hhour
      have hscope : hourEntries (accountOf s' user.id) hour (entriesOf s' user.id) =
          hourEntries (accountOf s user.id) hour (entriesOf s user.id) ++
            hourEntries (accountOf s user.id) hour [e] := by
        rw [hentries, ← hourEntries_append]
        exact hourEntries_congr (by rw [haccount]) (by rw [haccount]) hour _
      rw [hhour, hscope]
      by_cases hin : Eligible (accountOf s user.id) e ∧ hourOf now = hour
      · -- the entry belongs to this hour
        have hcond : Eligible (accountOf s user.id) e ∧ (user.id, hourOf now) = (user.id, hour) :=
          ⟨hin.1, by rw [hin.2]⟩
        have hone : hourEntries (accountOf s user.id) hour [e] = [e] := by
          simp [hourEntries, hposted, hin.1, hin.2]
        rw [if_pos hcond, hone, hin.2, expectedHour_getD, hourRow_add]
        · rw [expectedHour, if_neg (by simp)]
        · intro x hx
          exact h.one_le (mem_of_mem_filter hx)
      · have hcond : ¬ (Eligible (accountOf s user.id) e ∧ (user.id, hourOf now) = (user.id, hour)) := by
          rintro ⟨h1, h2⟩
          exact hin ⟨h1, (Prod.mk.injEq .. ▸ h2).2⟩
        have hnone : hourEntries (accountOf s user.id) hour [e] = [] := by
          simp only [hourEntries, hposted, filter_cons, filter_nil]
          rw [if_neg]
          simpa using hin
        rw [if_neg hcond, hnone, append_nil]
    · rw [haccount]
      exact h.start_nonneg
    · have := h.start_le
      rw [haccount]
      simp only
      omega
  · rw [if_neg hu, append_nil] at hentries
    rw [if_neg hu] at haccount
    refine h.of_same haccount hentries ?_
    intro hour
    rw [happ.hour, if_neg]
    rintro ⟨-, hk⟩
    exact hu (Prod.mk.injEq .. ▸ hk).1

/-- So does charging: the user row is not part of the ledger. -/
theorem LedgerOK.charged {now delta : ℤ} {user : User}
    (h : LedgerOK s u) (hc : Charged now user delta entry s s') : LedgerOK s' u := by
  have h1 : LedgerOK (s.putUser (paid user delta)) u := h.of_ledger rfl rfl rfl
  exact h1.appended hc.appended

/-! ## The ledger calls -/

theorem exec_ledger (c : LedgerCall) (u : ℤ) : ∀ s, LedgerOK s u → LedgerOK (c.exec s).2 u := by
  refine (exec_atomic c).preserves ?_
  intro s h
  cases c with
  | begin now op =>
    refine wp_mono (beginBillingOperation_spec now op s) ?_
    rintro _ s' ⟨user, -, -, -, rfl⟩
    exact h.of_ledger rfl rfl rfl
  | resize now id userID target =>
    refine wp_mono (resizeBillingReservation_spec now id userID target s) ?_
    rintro _ s' ⟨user, op, -, -, -, -, -, -, rfl⟩
    exact h.of_ledger rfl rfl rfl
  | finish now id userID actual refund =>
    refine wp_mono (finishBillingOperation_spec now id userID actual refund s) ?_
    rintro _ s' ⟨-, op, -, ⟨-, -, -, -, rfl⟩ | ⟨-, -, -, user, -, heffect⟩⟩
    · exact h
    · rcases heffect with ⟨-, -, rfl⟩ | ⟨-, s1, hcharged, rfl⟩
      · exact h.of_ledger rfl rfl rfl
      · exact (h.charged hcharged).of_ledger rfl rfl rfl
  | adjust now entry override =>
    rw [LedgerCall.exec, wp_drop]
    refine wp_mono (postBillingAdjustment_spec now entry override s) ?_
    rintro _ s' (rfl | ⟨user, -, hcharged⟩)
    · exact h
    · exact h.charged hcharged
  | taskQuota now uuid task target modelName =>
    rw [LedgerCall.exec, wp_drop]
    refine wp_mono (adjustBillingTaskQuota_spec now uuid task target modelName s) ?_
    rintro _ s' (rfl | ⟨user, current, s1, -, -, -, hcharged, rfl⟩)
    · exact h
    · exact (h.charged hcharged).of_ledger rfl rfl rfl
  | midjourney now uuid task modelName =>
    rw [LedgerCall.exec, wp_drop]
    refine wp_mono (refundBillingMidjourney_spec now uuid task modelName s) ?_
    rintro _ s' (rfl | ⟨user, current, s1, -, -, hcharged, rfl⟩)
    · exact h
    · exact (h.charged hcharged).of_ledger rfl rfl rfl

/-! ## Moving the accounting start -/

variable (digest : BillingHistoryRecord → String) (now : ℤ)

/-- A change of the start is refused while an entry is eligible, so it finds no entry eligible
    under the old start, and leaves none eligible under the new one. -/
theorem changeStart_spec (account : BillingAccount) (startAt : Option ℤ) (s : DB) :
    wp (changeStart now account startAt) (fun a s' => s' = s ∧ a.userID = account.userID ∧
      a.sequence = account.sequence ∧
      ((a.accountingStartAt = account.accountingStartAt ∧ a.startSequence = account.startSequence) ∨
        (0 ≤ a.accountingStartAt ∧ a.startSequence = account.sequence + 1 ∧ (0 < account.accountingStartAt →
            ∀ e ∈ s.entries.rows, e.userID = account.userID → ¬ Eligible account e)))) s := by
  cases startAt with
  | none =>
    rw [changeStart, wp_pure]
    exact ⟨rfl, rfl, rfl, Or.inl ⟨rfl, rfl⟩⟩
  | some =>
    rw [changeStart, wp_ite]
    constructor
    · intro _
      dsimp only
      rw [wp_bind, wp_rejectIf]
      intro hstart
      rw [wp_bind, wp_get, wp_bind, wp_rejectIf]
      intro _
      rw [wp_bind, wp_rejectIf]
      intro hlocked
      rw [wp_pure]
      refine ⟨rfl, rfl, rfl, Or.inr ⟨by simpa using hstart, rfl, ?_⟩⟩
      intro hpos e he huser helig
      refine hlocked ⟨hpos, any_eq_true.mpr ⟨e, he, ?_⟩⟩
      obtain ⟨hkind, -, hposted, hseq⟩ := helig
      simp [locksStart, huser, hkind, hposted, hseq]
    · intro _
      rw [wp_pure]
      exact ⟨rfl, rfl, rfl, Or.inl ⟨rfl, rfl⟩⟩

theorem LedgerOK.sequence_le {db : DB} (h : LedgerOK db u)
    (he : e ∈ entriesOf db u) : e.sequence ≤ (accountOf db u).sequence := by
  obtain ⟨n, hn, hseq⟩ := h.sequences
  have hmem : e.sequence ∈ upTo n := by
    rw [← hseq]
    exact mem_map_of_mem he
  obtain ⟨i, hi, hval⟩ := mem_map.mp hmem
  have := mem_range.mp hi
  omega

/-- Without eligible entries there is no hour row. -/
theorem hourEntries_eq_nil {hour : ℤ} (h : ∀ e ∈ es, ¬ Eligible a e) : hourEntries a hour es = [] := by
  refine filter_eq_nil_iff.mpr ?_
  intro e he hp
  exact h e he (of_decide_eq_true hp).1

theorem mem_entriesOf {db : DB} : e ∈ entriesOf db u ↔ e ∈ db.entries.rows ∧ e.userID = u := by
  simp [entriesOf]

/-- Writing an account whose start is unchanged, or moved while nothing was eligible. -/
theorem LedgerOK.putAccount {s : DB} (h : LedgerOK s u) (hseq : a.sequence = (accountOf s a.userID).sequence)
    (hstart : (a.accountingStartAt = (accountOf s a.userID).accountingStartAt ∧
        a.startSequence = (accountOf s a.userID).startSequence) ∨
      (0 ≤ a.accountingStartAt ∧ a.startSequence = (accountOf s a.userID).sequence + 1 ∧
        (0 < (accountOf s a.userID).accountingStartAt →
          ∀ e ∈ s.entries.rows, e.userID = a.userID → ¬ Eligible (accountOf s a.userID) e))) :
    LedgerOK (s.putAccount a) u := by
  have haccount := accountOf_put s a u
  by_cases hu : a.userID = u
  · subst hu
    rw [if_pos rfl] at haccount
    obtain ⟨n, hn, hsequences⟩ := h.sequences
    refine ⟨⟨n, by rw [haccount, hseq, hn], hsequences⟩, ?_, ?_, ?_⟩
    · intro hour
      rw [haccount]
      refine (h.hours hour).trans ?_
      rcases hstart with ⟨h1, h2⟩ | ⟨-, h2, h3⟩
      · rw [hourEntries_congr h1 h2]
        rfl
      · -- nothing was eligible before …
        have hold : ∀ e ∈ entriesOf s a.userID, ¬ Eligible (accountOf s a.userID) e := by
          intro e he helig
          have hnonneg := h.start_nonneg
          have hpos : 0 < (accountOf s a.userID).accountingStartAt := by
            have := helig.2.1
            omega
          obtain ⟨hmem, huser⟩ := mem_entriesOf.mp he
          exact h3 hpos e hmem huser helig
        -- … and every entry precedes the new start sequence
        have hnew : ∀ e ∈ entriesOf s a.userID, ¬ Eligible a e := by
          intro e he helig
          have := h.sequence_le he
          have := helig.2.2.2
          omega
        rw [hourEntries_eq_nil hold, show entriesOf (s.putAccount a) a.userID =
          entriesOf s a.userID from rfl, hourEntries_eq_nil hnew]
    · rw [haccount]
      rcases hstart with ⟨h1, -⟩ | ⟨h1, -, -⟩
      · rw [h1]
        exact h.start_nonneg
      · exact h1
    · rw [haccount]
      rcases hstart with ⟨-, h2⟩ | ⟨-, h2, -⟩
      · have := h.start_le
        omega
      · omega
  · rw [if_neg hu] at haccount
    exact h.of_same haccount rfl (fun _ => rfl)

theorem LedgerOK.locked (h : LedgerOK s u)
    (haccount : ∀ v, accountOf s' v = accountOf s v) (hentries : s'.entries = s.entries)
    (hhours : s'.hours = s.hours) : LedgerOK s' u := by
  refine h.of_same (haccount u) ?_ ?_
  · rw [entriesOf, hentries, entriesOf]
  · intro hour
    rw [hhours]

theorem saveBillingAccount_ledger (userID expectedVersion : ℤ) (title taxID : String)
    (startAt : Option ℤ) (u : ℤ) (s : DB) (h : LedgerOK s u) :
    wp (saveBillingAccount now userID expectedVersion title taxID startAt) (fun _ s' => LedgerOK s' u) s := by
  rw [saveBillingAccount]
  dsimp only
  rw [wp_bind, wp_rejectIf]
  intro _
  rw [wp_transaction, wp_bind]
  refine wp_mono (firstUser_spec userID s) ?_
  rintro user s1 ⟨rfl, -, -⟩
  rw [wp_bind]
  refine wp_mono (lockBillingAccount_spec userID s1) ?_
  rintro account s2 ⟨rfl, hacc, -, hentries, hhours⟩
  have h2 : LedgerOK s2 u := h.locked hacc hentries hhours
  rw [wp_bind, wp_rejectIf]
  intro _
  rw [wp_bind]
  refine wp_mono (changeStart_spec now _ startAt s2) ?_
  rintro a s3 ⟨rfl, huser, hseq, hstart⟩
  rw [wp_bind, wp_modify, wp_pure]
  rw [accountOf_userID] at huser hstart
  rw [← hacc userID] at hseq hstart
  refine h2.putAccount ?_ ?_
  · rw [huser]
    exact hseq
  · rw [huser]
    exact hstart

/-! ## History imports

  The entries of an import get their ids only when they are created, so the pass over the records
  and the table agree up to ids (`unnumbered`), which no amount depends on. -/

/-- An entry without its id. -/
def BillingEntry.unnumbered (e : BillingEntry) : BillingEntry := { e with id := 0 }

variable {fs : List BillingEntry}

theorem map_of_unnumbered {β : Type} {f : BillingEntry → β} (hf : ∀ e, f e.unnumbered = f e)

    (h : es.map unnumbered = fs.map unnumbered) : es.map f = fs.map f := by
  have hcomp : f ∘ unnumbered = f := funext hf
  have hmap := congrArg (map f) h
  rwa [map_map, map_map, hcomp] at hmap

theorem filter_unnumbered {p : BillingEntry → Bool} (hp : ∀ e, p e.unnumbered = p e)
    (h : es.map unnumbered = fs.map unnumbered) :
    (es.filter p).map unnumbered = (fs.filter p).map unnumbered := by
  have hcomp : p ∘ unnumbered = p := funext hp
  have hfilter := congrArg (filter p) h
  rwa [filter_map, filter_map, hcomp] at hfilter

theorem expectedHour_unnumbered (u hour : ℤ) (h : es.map unnumbered = fs.map unnumbered) :
    expectedHour u hour es = expectedHour u hour fs := by
  have hlen : es.length = fs.length := by
    simpa using congrArg length h
  have hnil : es = [] ↔ fs = [] := by
    rw [← length_eq_zero_iff, ← length_eq_zero_iff, hlen]
  have hrow : hourRow u hour es = hourRow u hour fs := by
    unfold hourRow
    rw [map_of_unnumbered (f := charge) (fun _ => rfl) h, map_of_unnumbered (f := refunded) (fun _ => rfl) h,
      map_of_unnumbered (f := BillingEntry.sequence) (fun _ => rfl) h, hlen]
  unfold expectedHour
  rw [hrow]
  simp only [hnil]

/-- The new entries of one hour, all of them eligible. -/
def inHour (hour : ℤ) (es : List BillingEntry) : List BillingEntry :=
  es.filter fun e => hourOf e.postedAt = hour

theorem inHour_concat (hour : ℤ) (es : List BillingEntry) (e : BillingEntry) :
    inHour hour (es ++ [e]) = inHour hour es ++ (if hourOf e.postedAt = hour then [e] else []) := by
  unfold inHour
  rw [filter_append, filter_singleton]
  by_cases hh : hourOf e.postedAt = hour
  · simp [hh]
  · simp [hh]

/-- What the pass over the records maintains: consecutive sequences from `base + 1`, entries inside
    the period, and one row per hour in closed form. -/
structure TallyOK (u base start finish : ℤ) (tally : HistoryTally) : Prop where
  base_nonneg : 0 ≤ base
  sequences : ∃ n : ℕ, tally.sequence = base + n ∧ tally.entries.map BillingEntry.sequence = (upTo n).map (base + ·)
  entries : ∀ e ∈ tally.entries,
    e.userID = u ∧ e.kind ≠ .funding ∧ start ≤ e.postedAt ∧ e.postedAt < finish ∧ base < e.sequence
  hours : ∀ hour, tally.byHour.get? hour = expectedHour u hour (inHour hour tally.entries)

theorem hourRow_addRecord (batch : BillingHistoryImport)
    (balance sequence : ℤ) (record : BillingHistoryRecord) (hquota : 0 ≤ record.quota)
    (es : List BillingEntry) (hour : ℤ) :
    ((expectedHour batch.userID hour es).getD
        { userID := batch.userID, hour := hour, firstSequence := sequence }).addRecord sequence record =
      hourRow batch.userID hour (es ++ [historyEntry digest batch balance sequence record]) := by
  generalize he : historyEntry digest batch balance sequence record = e
  have hcharge : e.charge = if record.type = .refund then 0 else record.quota := by
    rw [← he]
    by_cases hr : record.type = .refund
    · simp only [charge, historyEntry, if_pos hr]
      split <;> omega
    · simp only [charge, historyEntry, if_neg hr]
      split <;> omega
  have hrefund : e.refunded = if record.type = .refund then record.quota else 0 := by
    rw [← he]
    by_cases hr : record.type = .refund
    · simp only [refunded, historyEntry, if_pos hr]
      split <;> omega
    · simp only [refunded, historyEntry, if_neg hr]
      split <;> omega
  have hsequence : e.sequence = sequence := by rw [← he]; rfl
  cases es with
  | nil =>
    simp only [expectedHour, if_pos, Option.getD_none, BillingHour.addRecord, hourRow,
      nil_append, map_singleton, sum_singleton, hcharge, hrefund, hsequence]
    by_cases hr : record.type = .refund <;> simp [hr]
  | cons x xs =>
    rw [expectedHour, if_neg (cons_ne_nil x xs), Option.getD_some,
      hourRow_concat _ _ (cons_ne_nil x xs), BillingHour.addRecord, hcharge, hrefund, hsequence]
    by_cases hr : record.type = .refund
    · simp only [if_pos hr, Int.add_zero]
    · simp only [if_neg hr, Int.add_zero]

/-- One record keeps the tally. -/
theorem TallyOK.step {digest : BillingHistoryRecord → String} {batch : BillingHistoryImport}
    {balance base start finish : ℤ} {tally tally' : HistoryTally} {record : BillingHistoryRecord}
    (h : TallyOK batch.userID base start finish tally)
    (hstep : importRecord digest batch balance start finish tally record = .ok tally') :
    TallyOK batch.userID base start finish tally' := by
  unfold importRecord at hstep
  split at hstep
  · cases hstep
  rename_i hvalid
  split at hstep
  · cases hstep
  split at hstep
  · cases hstep
  cases hstep
  simp only [not_or, not_lt, ge_iff_le, not_le] at hvalid
  obtain ⟨-, -, -, hstart, hfinish, hquota, -, -⟩ := hvalid
  obtain ⟨n, hn, hseq⟩ := h.sequences
  have hnew : (historyEntry digest batch balance (tally.sequence + 1) record).sequence = tally.sequence + 1 := rfl
  refine ⟨h.base_nonneg, ⟨n + 1, ?_, ?_⟩, ?_, ?_⟩
  · simp only
    rw [hn]
    push_cast
    omega
  · rw [map_append, hseq, map_singleton, hnew, upTo_succ, map_append, hn, map_singleton, Int.add_assoc]
  · intro e he
    rcases mem_append.mp he with he | he
    · exact h.entries e he
    · rw [mem_singleton.mp he]
      refine ⟨rfl, ?_, hstart, hfinish, ?_⟩
      · simp only [historyEntry]
        split <;> decide
      · rw [hnew, hn]
        omega
  · intro hour
    have hposted : (historyEntry digest batch balance (tally.sequence + 1) record).postedAt = record.createdAt := rfl
    have hrow := hourRow_addRecord digest batch balance (tally.sequence + 1) record hquota
      (inHour (hourOf record.createdAt) tally.entries) (hourOf record.createdAt)
    rw [← h.hours] at hrow
    simp only [hrow, Table.get?_put]
    have hkey : (hourRow batch.userID (hourOf record.createdAt)
      (inHour (hourOf record.createdAt) tally.entries ++
        [historyEntry digest batch balance (tally.sequence + 1) record])).hour =
        hourOf record.createdAt := rfl
    rw [hkey, inHour_concat, hposted]
    by_cases hh : hourOf record.createdAt = hour
    · subst hh
      rw [if_pos rfl, if_pos rfl, expectedHour, if_neg (by simp)]
    · rw [if_neg hh, if_neg hh, append_nil]
      exact h.hours hour

theorem TallyOK.importRecords {digest : BillingHistoryRecord → String} {batch : BillingHistoryImport}
    {balance base start finish : ℤ} : ∀ {records : List BillingHistoryRecord}
    {tally tally' : HistoryTally}, TallyOK batch.userID base start finish tally →
      importRecords digest batch balance start finish tally records = .ok tally' →
        TallyOK batch.userID base start finish tally' := by
  intro records
  induction records with
  | nil =>
    intro tally tally' h hrun
    cases hrun
    exact h
  | cons record _ ih =>
    intro tally tally' h hrun
    rw [Billing.importRecords] at hrun
    cases hstep : importRecord digest batch balance start finish tally record with
    | error =>
      rw [hstep] at hrun
      cases hrun
    | ok =>
      rw [hstep] at hrun
      exact ih (h.step hstep) hrun

/-! ### The writes of an import -/

theorem createEntries_spec (es : List BillingEntry) (s : DB) :
    wp (forEach (fun _ entry => drop (createEntry entry)) () es) (fun _ s' => ∃ fs,
      fs.map unnumbered = es.map unnumbered ∧
        s'.entries.rows = s.entries.rows ++ fs ∧ s' = s.setEntries s'.entries) s := by
  refine wp_forEach _ (fun (_ : Unit) done s' => ∃ fs, fs.map unnumbered = done.map unnumbered ∧
      s'.entries.rows = s.entries.rows ++ fs ∧ s' = s.setEntries s'.entries)
    es () s ⟨[], rfl, by rw [append_nil], rfl⟩ ?_
  rintro _ done e - s1 - ⟨fs, hfs, hrows, hframe⟩
  rw [wp_drop]
  refine wp_mono (createEntry_spec e s1) ?_
  rintro e' s2 ⟨he', hrows2, -, hframe2⟩
  refine ⟨fs ++ [e'], ?_, ?_, ?_⟩
  · rw [map_append, map_append, hfs, map_singleton, map_singleton, he']
    rfl
  · rw [hrows2, hrows, append_assoc]
  · rw [hframe2, hframe]
    rfl

theorem createHours_spec (hs : List BillingHour) (s : DB) :
    wp (forEach (fun _ hour => createHour hour) () hs) (fun _ s' =>
      (∀ h ∈ hs, s.hours.get? h.key = none ∧ s'.hours.get? h.key = some h) ∧
        (∀ k, (∀ h ∈ hs, h.key ≠ k) → s'.hours.get? k = s.hours.get? k) ∧
        s'.entries = s.entries ∧ s'.accounts = s.accounts) s := by
  refine wp_forEach _ (fun (_ : Unit) done s' =>
    (∀ h ∈ done, s.hours.get? h.key = none ∧ s'.hours.get? h.key = some h) ∧
      (∀ k, (∀ h ∈ done, h.key ≠ k) → s'.hours.get? k = s.hours.get? k) ∧
      s'.entries = s.entries ∧ s'.accounts = s.accounts)
    hs () s ⟨by simp, fun _ _ => rfl, rfl, rfl⟩ ?_
  rintro _ done a - s1 - ⟨hdone, hother, hentries, haccounts⟩
  rw [createHour, wp_bind, wp_get, wp_bind, wp_rejectIf]
  intro hnew
  have hnone : s1.hours.get? a.key = none := Option.not_isSome_iff_eq_none.mp hnew
  -- a row of this key would have been created by this loop or been there before
  have hkey : ∀ h ∈ done, h.key ≠ a.key := by
    intro h hh hk
    have := (hdone h hh).2
    rw [hk, hnone] at this
    cases this
  rw [wp_modify]
  refine ⟨?_, ?_, hentries, haccounts⟩
  · intro h hh
    rcases mem_append.mp hh with hh | hh
    · refine ⟨(hdone h hh).1, ?_⟩
      rw [DB.putHour, Table.get?_put_ne (fun hk => hkey h hh hk.symm)]
      exact (hdone h hh).2
    · rw [mem_singleton.mp hh, ← hother a.key hkey]
      exact ⟨hnone, Table.get?_put_self s1.hours a⟩
  · intro k hk
    rw [DB.putHour, Table.get?_put_ne (hk a (by simp))]
    exact hother k (fun h hh => hk h (mem_append_left _ hh))

/-- The import as a whole: new entries, their hour rows, and the account's sequence. -/
structure Imported (u : ℤ) (tally : HistoryTally) (s s' : DB) : Prop where
  entries : ∃ fs, fs.map unnumbered = tally.entries.map unnumbered ∧ s'.entries.rows = s.entries.rows ++ fs
  hour : ∀ hour row, tally.byHour.get? hour = some row →
    s.hours.get? (u, hour) = none ∧ s'.hours.get? (u, hour) = some row
  other : ∀ v hour, (v = u → tally.byHour.get? hour = none) → s'.hours.get? (v, hour) = s.hours.get? (v, hour)
  startAt : (accountOf s' u).accountingStartAt = (accountOf s u).accountingStartAt
  startSequence : (accountOf s' u).startSequence = (accountOf s u).startSequence
  sequence : (accountOf s' u).sequence = tally.sequence
  accounts : ∀ v, u ≠ v → accountOf s' v = accountOf s v

/-- An import under an account with a start keeps every user's ledger. -/
theorem LedgerOK.imported {u v base start finish : ℤ} {tally : HistoryTally}
    (h : LedgerOK s v) (hbase : base = (accountOf s u).sequence)
    (hpos : 0 < (accountOf s u).accountingStartAt) (hstart : (accountOf s u).accountingStartAt ≤ start)
    (htally : TallyOK u base start finish tally) (himp : Imported u tally s s') : LedgerOK s' v := by
  obtain ⟨fs, hfs, hrows⟩ := himp.entries
  -- the created rows satisfy what the tally says of its entries
  have hall : ∀ e ∈ fs, e.userID = u ∧ e.kind ≠ .funding ∧ start ≤ e.postedAt ∧ base < e.sequence := by
    intro e he
    have hmem : e.unnumbered ∈ tally.entries.map unnumbered := by
      rw [← hfs]
      exact mem_map_of_mem he
    obtain ⟨e', he', heq⟩ := mem_map.mp hmem
    obtain ⟨h1, h2, h3, -, h5⟩ := htally.entries e' he'
    exact ⟨(congrArg userID heq).symm.trans h1, (congrArg kind heq) ▸ h2, (congrArg postedAt heq) ▸ h3,
      (congrArg BillingEntry.sequence heq) ▸ h5⟩
  have hentries : entriesOf s' v = entriesOf s v ++ (if u = v then fs else []) := by
    unfold entriesOf
    rw [hrows, filter_append]
    by_cases huv : u = v
    · have hself : fs.filter (fun e => e.userID = v) = fs := by
        refine filter_eq_self.mpr ?_
        intro e he
        simp [(hall e he).1, huv]
      rw [if_pos huv, hself]
    · have hnil : fs.filter (fun e => e.userID = v) = [] := by
        refine filter_eq_nil_iff.mpr ?_
        intro e he
        simp [(hall e he).1, huv]
      rw [if_neg huv, hnil]
  by_cases huv : u = v
  · subst huv
    rw [if_pos rfl] at hentries
    have hstartAt := himp.startAt
    have hstartSeq := himp.startSequence
    have hsequence := himp.sequence
    obtain ⟨n, hn, hseq⟩ := h.sequences
    obtain ⟨m, hm, hseqm⟩ := htally.sequences
    refine ⟨⟨n + m, ?_, ?_⟩, ?_, ?_, ?_⟩
    · rw [hsequence, hm, hbase, hn]
      push_cast
      rfl
    · rw [hentries, map_append, hseq,
        map_of_unnumbered (f := BillingEntry.sequence) (fun _ => rfl) hfs, hseqm, hbase, hn]
      simp only [upTo, range_add, map_append, map_map, append_cancel_left_eq]
      refine map_congr_left ?_
      intro i _
      simp only [Function.comp_apply]
      push_cast
      omega
    · intro hour
      have hnew : hourEntries (accountOf s u) hour fs = inHour hour fs := by
        refine filter_congr ?_
        intro e he
        obtain ⟨-, h2, h3, h4⟩ := hall e he
        have hle := h.start_le
        have helig : Eligible (accountOf s u) e := ⟨h2, by omega, by omega, by omega⟩
        simp [helig]
      have hrow : expectedHour u hour (inHour hour fs) = tally.byHour.get? hour := by
        rw [htally.hours]
        exact expectedHour_unnumbered u hour (filter_unnumbered (fun _ => rfl) hfs)
      rw [hentries, hourEntries_append, hourEntries_congr hstartAt hstartSeq,
        hourEntries_congr hstartAt hstartSeq, hnew]
      cases hby : tally.byHour.get? hour with
      | none =>
        -- no record in this hour
        rw [himp.other u hour (fun _ => hby), h.hours]
        rw [hby, expectedHour] at hrow
        have hnil : inHour hour fs = [] := by
          by_contra hne
          rw [if_neg hne] at hrow
          cases hrow
        rw [hnil, append_nil]
      | some row =>
        -- a new row, so the hour had no eligible entry before
        obtain ⟨hold, hnow⟩ := himp.hour hour row hby
        rw [h.hours, expectedHour] at hold
        have hnil : hourEntries (accountOf s u) hour (entriesOf s u) = [] := by
          by_contra hne
          rw [if_neg hne] at hold
          cases hold
        rw [hnil, nil_append, hrow, hby, hnow]
    · rw [hstartAt]
      exact h.start_nonneg
    · have := h.start_le
      rw [hstartSeq, hsequence, hm]
      omega
  · rw [if_neg huv, append_nil] at hentries
    refine h.of_same (himp.accounts v huv) hentries ?_
    intro hour
    exact himp.other v hour (fun hvu => absurd hvu.symm huv)

theorem importHistory_ledger (committedAt : ℤ)
    (batch : BillingHistoryImport) (expected : BillingAccount) (user : User)
    (records : List BillingHistoryRecord) (v : ℤ) (s : DB) (h : LedgerOK s v)
    (hu : LedgerOK s batch.userID) :
    wp (importHistory digest committedAt batch expected (accountOf s batch.userID) user records)
      (fun _ s' => LedgerOK s' v) s := by
  rw [importHistory, wp_bind, wp_rejectIf]
  intro _
  rw [wp_bind, wp_get]
  dsimp only
  rw [wp_bind, wp_rejectIf]
  intro hstate
  rw [wp_bind, wp_ofExcept]
  intro tally htallyRun
  obtain ⟨n, hn, -⟩ := hu.sequences
  have hpos : 0 < (accountOf s batch.userID).accountingStartAt := by
    by_contra hneg
    refine hstate (Or.inr (Or.inr (Or.inr (Or.inr (Or.inl ?_)))))
    simp only [readBillingHistoryState, Bool.and_eq_true, decide_eq_true_eq]
    omega
  have hstart : (accountOf s batch.userID).accountingStartAt ≤
      historyStart (accountOf s batch.userID) batch.month := by
    unfold historyStart
    split <;> omega
  have htally : TallyOK batch.userID (accountOf s batch.userID).sequence
      (historyStart (accountOf s batch.userID) batch.month) batch.month.endAt tally := by
    refine TallyOK.importRecords ?_ htallyRun
    refine ⟨by omega, ⟨0, by simp, rfl⟩, ?_, fun _ => rfl⟩
    intro e he
    exact absurd he not_mem_nil
  rw [wp_bind]
  refine wp_mono (createEntries_spec _ s) ?_
  rintro _ s1 ⟨fs, hfs, hrows1, hframe1⟩
  rw [wp_bind]
  refine wp_mono (createHours_spec _ s1) ?_
  rintro _ s2 ⟨hmade, hkept, hentries2, haccounts2⟩
  rw [wp_bind, wp_modify, wp_bind, createImport, wp_bind, wp_get, wp_bind, wp_rejectIf]
  intro _
  rw [wp_modify, wp_pure]
  have hhours1 : s1.hours = s.hours := by rw [hframe1]; rfl
  have haccounts : s2.accounts = s.accounts := by
    rw [haccounts2, hframe1]
    rfl
  have haccount2 : ∀ w, accountOf s2 w = accountOf s w := by
    intro w
    rw [accountOf, haccounts, accountOf]
  -- the rows of the tally carry the importing user's id
  have hrowKey : ∀ hour row, tally.byHour.get? hour = some row → row.key = (batch.userID, hour) := by
    intro hour row hget
    have hh := htally.hours hour
    rw [hget, expectedHour] at hh
    split at hh
    · cases hh
    · cases hh
      rfl
  have hput := accountOf_put s2
    { accountOf s batch.userID with
      sequence := tally.sequence
      profileVersion := (accountOf s batch.userID).profileVersion + 1
      updatedAt := committedAt }
  simp only [accountOf_userID] at hput ⊢
  have hself := (hput batch.userID).trans (if_pos rfl)
  refine h.imported rfl hpos hstart htally ⟨⟨fs, hfs, ?_⟩, ?_, ?_, ?_, ?_, ?_, ?_⟩
  · rw [← hrows1, ← hentries2]
    rfl
  · intro hour row hget
    have hrow := hmade row (mem_orderBy.mpr (Table.mem_of_get? hget))
    rw [hrowKey hour row hget, hhours1] at hrow
    exact hrow
  · intro w hour hnone
    rw [← hhours1]
    refine hkept (w, hour) ?_
    intro row hrow hkey
    have hget := Table.get?_of_mem (mem_orderBy.mp hrow)
    rw [hrowKey row.hour row hget, Prod.mk.injEq] at hkey
    obtain ⟨h1, h2⟩ := hkey
    rw [h2, hnone h1.symm] at hget
    cases hget
  · have := congrArg BillingAccount.accountingStartAt hself
    exact this
  · have := congrArg BillingAccount.startSequence hself
    exact this
  · have := congrArg BillingAccount.sequence hself
    exact this
  · intro w hw
    exact ((hput w).trans (if_neg hw)).trans (haccount2 w)

theorem applyBillingHistoryImport_ledger (committedAt : ℤ) (batch : BillingHistoryImport) (expected : BillingAccount)
    (records : List BillingHistoryRecord) (v : ℤ) (s : DB) (h : LedgerOK s v)
    (hu : LedgerOK s batch.userID) :
    wp (applyBillingHistoryImport digest now committedAt batch expected records) (fun _ s' => LedgerOK s' v) s := by
  rw [applyBillingHistoryImport, wp_bind, wp_rejectIf]
  intro _
  rw [wp_bind, wp_rejectIf]
  intro _
  rw [wp_transaction, wp_bind]
  refine wp_mono (firstUser_spec batch.userID s) ?_
  rintro user s1 ⟨rfl, -, -⟩
  rw [wp_bind]
  refine wp_mono (lockBillingAccount_spec batch.userID s1) ?_
  rintro account s2 ⟨rfl, hacc, -, hentries, hhours⟩
  have h2 : LedgerOK s2 v := h.locked hacc hentries hhours
  rw [wp_bind, wp_get]
  cases himport : s2.imports.get? batch.id with
  | some =>
    rw [wp_bind, wp_rejectIf]
    intro _
    rw [wp_pure]
    exact h2
  | none =>
    dsimp only
    rw [← hacc batch.userID]
    exact importHistory_ledger digest committedAt batch expected user records v s2 h2
      (hu.locked hacc hentries hhours)

end NovaMaas.Billing
