/-
  Conservation of the wallet ledger.

  The abstract model is a `Book`: what a user can spend (`wallet`), what is set aside for running
  requests (`held`), and what has been posted (`posted`).  Money only ever moves two ways — HOLD
  takes it from the wallet to the held side, POST books a wallet change — and neither changes
  `wallet + held - posted` (`equity_play`).

  The faithful model refines it: `bookOf db u` reads a user's book off the database, and every
  successful ledger call is a list of moves on every user's book (`exec_moves`).  A failed call
  changes nothing at all (`exec_atomic`).  Conservation over a whole history is then the induction
  `Txn.run_invariant`.
-/
import NovaMaas.Billing.LedgerSpec

open List

namespace NovaMaas.Billing

open Txn

/-! ## The abstract model -/

/-- One user's money: spendable, set aside, and posted. -/
structure Book where
  wallet : ℤ
  held : ℤ
  posted : ℤ

/-- The two ways money moves. -/
inductive Move
  | hold (amount : ℤ)
  | post (delta : ℤ)

namespace Book

def move (b : Book) : Move → Book
  | .hold amount => { b with wallet := b.wallet - amount, held := b.held + amount }
  | .post delta => { b with wallet := b.wallet + delta, posted := b.posted + delta }

/-- Several moves, one after another. -/
def play (b : Book) (moves : List Move) : Book := moves.foldl move b

/-- The conserved quantity. -/
def equity (b : Book) : ℤ := b.wallet + b.held - b.posted

theorem equity_move (b : Book) (m : Move) : (b.move m).equity = b.equity := by
  cases m with
  | hold | post =>
    simp only [equity, move]
    omega

theorem equity_play (moves : List Move) : ∀ b : Book, (b.play moves).equity = b.equity := by
  induction moves with
  | nil =>
    intro b
    rfl
  | cons m _ ih =>
    intro b
    exact (ih (b.move m)).trans (equity_move b m)

end Book

/-! ## A user's book in the database -/

/-- The user's wallet. -/
def wallet (db : DB) (u : ℤ) : ℤ := (db.users.get? u).elim 0 User.quota

/-- What an operation holds back from the wallet of `u`. -/
def heldBy (u : ℤ) (op : BillingOperation) : ℤ :=
  if op.userID = u ∧ op.state = .reserved then op.reserved else 0

/-- The reserved amounts of the user's operations still in state `reserved`. -/
def held (db : DB) (u : ℤ) : ℤ := db.operations.total (heldBy u)

/-- What an entry posted to the wallet of `u`. -/
def postedBy (u : ℤ) (e : BillingEntry) : ℤ := if e.userID = u then e.walletDelta else 0

/-- The sum of `wallet_delta` over the user's entries. -/
def posted (db : DB) (u : ℤ) : ℤ := (db.entries.rows.map (postedBy u)).sum

/-- The abstraction function. -/
def bookOf (db : DB) (u : ℤ) : Book := ⟨wallet db u, held db u, posted db u⟩

theorem bookOf_eq {db db' : DB} {u : ℤ} (hw : wallet db' u = wallet db u) (hh : held db' u = held db u)
    (hp : posted db' u = posted db u) : bookOf db' u = bookOf db u := by
  rw [bookOf, hw, hh, hp, bookOf]

/-! ### How the table writes move it -/

variable {user : User}

theorem wallet_putUser {db : DB} (h : db.users.get? user.id = some user) (delta u : ℤ) :
    wallet (db.putUser (paid user delta)) u = wallet db u + (if user.id = u then delta else 0) := by
  have hid : (paid user delta).id = user.id := rfl
  unfold wallet DB.putUser
  rw [Table.get?_put, hid]
  by_cases hu : user.id = u
  · subst hu
    rw [if_pos rfl, if_pos rfl, h]
    rfl
  · rw [if_neg hu, if_neg hu, Int.add_zero]

theorem held_putOperation (db : DB) (op : BillingOperation) (u : ℤ) : held (db.putOperation op) u =
      held db u - ((db.operations.get? op.id).elim 0 (heldBy u)) + heldBy u op :=
  Table.total_put db.operations (heldBy u) op

/-- Rewriting an open operation releases what it held and holds what the new row holds. -/
theorem held_rewrite {db : DB} {op : BillingOperation} (op' : BillingOperation)
    (hrow : db.operations.get? op.id = some op) (hopen : op.state = .reserved) (hid : op'.id = op.id)
    (u : ℤ) :
    held (db.putOperation op') u = held db u - (if op.userID = u then op.reserved else 0) + heldBy u op' := by
  have hold : heldBy u op = if op.userID = u then op.reserved else 0 := by
    simp [heldBy, hopen]
  rw [held_putOperation, hid, hrow, Option.elim_some, hold]

variable {entry : BillingEntry}

theorem posted_appended {now : ℤ} {s s' : DB} (h : Appended now user entry s s') (u : ℤ) :
    posted s' u = posted s u + (if user.id = u then entry.walletDelta else 0) := by
  unfold posted
  rw [h.entries, map_append, sum_append, map_singleton, sum_singleton]
  rfl

theorem wallet_of_frame {s s' : DB} (h : s' = s.withLedgerOf s') (u : ℤ) : wallet s' u = wallet s u := by
  rw [h]
  rfl

theorem held_of_frame {s s' : DB} (h : s' = s.withLedgerOf s') (u : ℤ) : held s' u = held s u := by
  rw [h]
  rfl

/-- What a charge does to a book: the wallet moves by `delta`, the entries by the new one's. -/
theorem bookOf_charged {now delta : ℤ} {s s' : DB}
    (h : Charged now user delta entry s s') (u : ℤ) :
    bookOf s' u = { bookOf s u with
        wallet := wallet s u + (if user.id = u then delta else 0)
        posted := posted s u + (if user.id = u then entry.walletDelta else 0) } := by
  have hw := wallet_of_frame h.appended.frame u
  have hh := held_of_frame h.appended.frame u
  have hp := posted_appended h.appended u
  rw [wallet_putUser h.user_row] at hw
  rw [bookOf, hw, hh, hp]
  rfl

/-- A charge whose entry carries the wallet change is a single POST on its user's book. -/
theorem post_of_charged {now delta : ℤ} {s s' : DB}
    (h : Charged now user delta entry s s') (hdelta : entry.walletDelta = delta) (u : ℤ) :
    ∃ moves, bookOf s' u = (bookOf s u).play moves := by
  have hbook := bookOf_charged h u
  rw [hdelta] at hbook
  by_cases hu : user.id = u
  · rw [if_pos hu] at hbook
    exact ⟨[.post delta], hbook⟩
  · rw [if_neg hu] at hbook
    refine ⟨[], hbook.trans ?_⟩
    simp only [Int.add_zero]
    rfl

/-! ## Calls -/

/-- The ledger calls, with the readings of the clock and the identifiers they draw. -/
inductive LedgerCall
  | begin (now : ℤ) (op : BillingOperation)
  | resize (now : ℤ) (id : String) (userID target : ℤ)
  | finish (now : ℤ) (id : String) (userID actual : ℤ) (refund : Bool)
  | adjust (now : ℤ) (entry : BillingEntry) (override : Option ℤ)
  | taskQuota (now : ℤ) (uuid : String) (task : Task) (target : ℤ) (modelName : String)
  | midjourney (now : ℤ) (uuid : String) (task : Midjourney) (modelName : String)

def LedgerCall.exec : LedgerCall → Tx Unit
  | .begin now op => beginBillingOperation now op
  | .resize now id userID target => resizeBillingReservation now id userID target
  | .finish now id userID actual refund => finishBillingOperation now id userID actual refund
  | .adjust now entry override => drop (postBillingAdjustment now entry override)
  | .taskQuota now uuid task target modelName =>
      drop (adjustBillingTaskQuota now uuid task target modelName)
  | .midjourney now uuid task modelName => drop (refundBillingMidjourney now uuid task modelName)

variable (now : ℤ) (c : LedgerCall)

/-- Every call does all of its writes inside its transaction. -/
theorem exec_atomic : Atomic c.exec := by
  cases c with
  | begin | resize | finish =>
    exact atomic_rejectIf_bind (atomic_transaction _)
  | adjust =>
    refine Atomic.drop ?_
    exact atomic_rejectIf_bind (atomic_rejectIf_bind (atomic_rejectIf_bind
      (atomic_rejectIf_bind (atomic_transaction _))))
  | taskQuota =>
    exact Atomic.drop (atomic_rejectIf_bind (atomic_transaction _))
  | midjourney => exact Atomic.drop (atomic_transaction _)

/-! ## Every call is a list of moves on every book -/

theorem begin_moves (op : BillingOperation) (s : DB) : wp (beginBillingOperation now op) (fun _ s' =>
      ∀ u, ∃ moves, bookOf s' u = (bookOf s u).play moves) s := by
  refine wp_mono (beginBillingOperation_spec now op s) ?_
  rintro _ s' ⟨user, hrow, hid, hnew, rfl⟩ u
  generalize hop : ({ op with state := .reserved, createdAt := now, updatedAt := now } :
    BillingOperation) = op'
  have hrow' : (s.putOperation op').users.get? user.id = some user := hrow
  have hw := wallet_putUser hrow' (-op.reserved) u
  have hh := held_putOperation s op' u
  have hopid : op'.id = op.id := by rw [← hop]
  have hheld : heldBy u op' = if user.id = u then op.reserved else 0 := by
    rw [← hop, heldBy, hid]
    simp
  rw [hopid, hnew, hheld] at hh
  by_cases hu : user.id = u
  · rw [if_pos hu] at hw hh
    refine ⟨[.hold op.reserved], ?_⟩
    simp only [bookOf, Book.play, Book.move, foldl_cons, foldl_nil, Book.mk.injEq]
    refine ⟨hw, ?_, rfl⟩
    change held (s.putOperation op') u = _
    rw [hh]
    simp
  · rw [if_neg hu] at hw hh
    refine ⟨[], bookOf_eq ?_ ?_ rfl⟩
    · rw [hw, Int.add_zero]
      rfl
    · change held (s.putOperation op') u = _
      rw [hh]
      simp

theorem resize_moves (id : String) (userID target : ℤ) (s : DB) :
    wp (resizeBillingReservation now id userID target) (fun _ s' =>
      ∀ u, ∃ moves, bookOf s' u = (bookOf s u).play moves) s := by
  refine wp_mono (resizeBillingReservation_spec now id userID target s) ?_
  rintro _ s' ⟨user, op, hrow, hid, hoprow, -, hopuser, hstate, rfl⟩ u
  generalize hop : ({ op with reserved := target, updatedAt := now } : BillingOperation) = op'
  have hw := wallet_putUser hrow (op.reserved - target) u
  have hh := held_rewrite op' hoprow hstate (by rw [← hop]) u
  have hheld : heldBy u op' = if op.userID = u then target else 0 := by
    simp [← hop, heldBy, hstate]
  rw [hheld, hopuser, ← hid] at hh
  by_cases hu : user.id = u
  · rw [if_pos hu] at hw
    rw [if_pos hu, if_pos hu] at hh
    refine ⟨[.hold (target - op.reserved)], ?_⟩
    simp only [bookOf, Book.play, Book.move, foldl_cons, foldl_nil, Book.mk.injEq]
    refine ⟨Eq.trans hw ?_, Eq.trans hh ?_, rfl⟩
    · omega
    · omega
  · rw [if_neg hu, Int.add_zero] at hw
    rw [if_neg hu, if_neg hu, Int.sub_zero, Int.add_zero] at hh
    exact ⟨[], bookOf_eq hw hh rfl⟩

/-- Finishing releases the reservation; a settlement also posts the actual amount. -/
theorem finish_moves (id : String) (userID actual : ℤ) (refund : Bool) (s : DB) :
    wp (finishBillingOperation now id userID actual refund) (fun _ s' =>
      ∀ u, ∃ moves, bookOf s' u = (bookOf s u).play moves) s := by
  refine wp_mono (finishBillingOperation_spec now id userID actual refund s) ?_
  rintro _ s' ⟨-, op, -, ⟨-, -, -, -, rfl⟩ | ⟨hoprow, hopuser, hopen, user, hid, heffect⟩⟩ u
  · exact ⟨[], rfl⟩
  have hclosed : heldBy u (finished now op actual refund) = 0 := by
    rw [heldBy, if_neg]
    rintro ⟨-, h⟩
    cases refund <;> cases h
  rcases heffect with ⟨rfl, hrow, rfl⟩ | ⟨rfl, s1, hcharged, rfl⟩
  · -- refund
    have hw := wallet_putUser hrow op.reserved u
    have hh := held_rewrite (finished now op actual true) hoprow hopen rfl u
    rw [hclosed, hopuser, ← hid] at hh
    by_cases hu : user.id = u
    · rw [if_pos hu] at hw hh
      refine ⟨[.hold (-op.reserved)], ?_⟩
      simp only [bookOf, Book.play, Book.move, foldl_cons, foldl_nil, Book.mk.injEq]
      refine ⟨Eq.trans hw ?_, Eq.trans hh ?_, rfl⟩
      · omega
      · omega
    · rw [if_neg hu, Int.add_zero] at hw
      rw [if_neg hu, Int.sub_zero, Int.add_zero] at hh
      exact ⟨[], bookOf_eq hw hh rfl⟩
  · -- settlement: the entry was appended before the operation row is rewritten
    have hbook := bookOf_charged hcharged u
    have hoprow1 : s1.operations.get? op.id = some op := by
      rw [hcharged.appended.frame]
      exact hoprow
    have hh := held_rewrite (finished now op actual false) hoprow1 hopen rfl u
    rw [hclosed, hopuser, ← hid] at hh
    simp only [bookOf, Book.mk.injEq] at hbook
    obtain ⟨hw, hh1, hp⟩ := hbook
    have hdelta : (settleEntry op actual).walletDelta = -actual := rfl
    rw [hdelta] at hp
    by_cases hu : user.id = u
    · rw [if_pos hu] at hw hh hp
      refine ⟨[.hold (-op.reserved), .post (-actual)], ?_⟩
      simp only [bookOf, Book.play, Book.move, foldl_cons, foldl_nil, Book.mk.injEq]
      refine ⟨Eq.trans hw ?_, Eq.trans hh ?_, hp⟩
      · omega
      · omega
    · rw [if_neg hu, Int.add_zero] at hw hp
      rw [if_neg hu, Int.sub_zero, Int.add_zero] at hh
      exact ⟨[], bookOf_eq hw (hh.trans hh1) hp⟩

open LedgerCall

/-- Every successful call is a list of moves on every user's book. -/
theorem exec_moves (s : DB) : wp c.exec (fun _ s' => ∀ u, ∃ moves, bookOf s' u = (bookOf s u).play moves) s := by
  cases c with
  | begin now op => exact begin_moves now op s
  | resize now id userID target => exact resize_moves now id userID target s
  | finish now id userID actual refund => exact finish_moves now id userID actual refund s
  | adjust now entry override =>
    rw [exec, wp_drop]
    refine wp_mono (postBillingAdjustment_spec now entry override s) ?_
    rintro _ s' (rfl | ⟨user, -, hcharged⟩) u
    · exact ⟨[], rfl⟩
    · exact post_of_charged hcharged rfl u
  | taskQuota now uuid task target modelName =>
    rw [exec, wp_drop]
    refine wp_mono (adjustBillingTaskQuota_spec now uuid task target modelName s) ?_
    rintro _ s' (rfl | ⟨user, current, s1, -, -, -, hcharged, rfl⟩) u
    · exact ⟨[], rfl⟩
    · exact post_of_charged hcharged rfl u
  | midjourney now uuid task modelName =>
    rw [exec, wp_drop]
    refine wp_mono (refundBillingMidjourney_spec now uuid task modelName s) ?_
    rintro _ s' (rfl | ⟨user, current, s1, -, -, hcharged, rfl⟩) u
    · exact ⟨[], rfl⟩
    · exact post_of_charged hcharged rfl u

/-! ## Conservation over histories -/

/-- A call, successful or not, keeps every user's equity. -/
theorem exec_equity (s : DB) (u : ℤ) : (bookOf (c.exec s).2 u).equity = (bookOf s u).equity := by
  refine (exec_atomic c).preserves (I := fun s' => (bookOf s' u).equity = (bookOf s u).equity)
    ?_ s rfl
  intro s1 h1
  refine wp_mono (exec_moves c s1) ?_
  intro _ s' hmoves
  obtain ⟨moves, hm⟩ := hmoves u
  rw [hm, Book.equity_play, h1]

/-- **Conservation.**  From every state and along every sequence of ledger calls, no user's
    `quota + reserved - posted` ever changes; and a call that returns an error leaves the whole
    database as it found it. -/
theorem ledger_conservation (s : DB) (calls : List LedgerCall) :
    (∀ u, wallet (run exec s calls) u + held (run exec s calls) u -
        posted (run exec s calls) u = wallet s u + held s u - posted s u) ∧
      ∀ (c : LedgerCall) (e : BillingError), (c.exec (run exec s calls)).1 = .error e →
          (c.exec (run exec s calls)).2 = run exec s calls := by
  constructor
  · intro u
    refine run_invariant (I := fun s' => (bookOf s' u).equity = (bookOf s u).equity) ?_ s rfl
    intro c _ s1 h1
    rw [exec_equity, h1]
  · intro c e herr
    exact exec_atomic c _ e _ (Prod.ext herr rfl)

/-- A user with a wallet of 100. -/
def walletOfHundred : DB :=
  DB.empty.putUser { id := 1, username := "u", group := "default", quota := 100, usedQuota := 0 }

/-- Reserve 30, resize to 40, settle at 50. -/
def settleAtFifty : List LedgerCall :=
  [.begin 5 { id := "r", userID := 1, reserved := 30 }, .resize 6 "r" 1 40, .finish 7 "r" 1 50 false]

theorem ledger_conservation_settleAtFifty : (exec (.resize 8 "r" 1 60) (run exec walletOfHundred settleAtFifty)).1 =
        .error .conflict ∧
      wallet (run exec walletOfHundred settleAtFifty) 1 = 50 ∧
      (exec (.resize 8 "r" 1 60) (run exec walletOfHundred settleAtFifty)).2 =
        run exec walletOfHundred settleAtFifty :=
  ⟨by decide, by decide, (ledger_conservation walletOfHundred settleAtFifty).2 _ .conflict (by decide)⟩

end NovaMaas.Billing
