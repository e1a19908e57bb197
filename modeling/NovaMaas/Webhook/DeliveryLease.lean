/-
  The lease of a delivery keeps its workers apart.

  The invariant (`Inv`) is about the rows (`RowsOk`) and about every attempt (`PhaseOk`): from its claim to its last
  statement an attempt HOLDS its row as long as the lease runs (`Holds`).  A claim by another attempt needs a clock reading
  that the lease does not outlast, and all readings are of the past; so a lease that runs is never taken over, and a post,
  which ends before the lease does, is alone (`leaseKept`).

  The 72 hours of a delivery bound its next attempt, not its lease: a row that nobody has claimed in time is claimed later
  than that, to be given up, and its lease then ends one lease after the claim (`late_claim`).
-/
import NovaMaas.Webhook.Delivery

open Option hiding map_map

open List

namespace NovaMaas.Webhook

/-! ## The invariant -/

/-- The bounds of a row. -/
structure RowOk (time : ℕ) (r : Delivery) : Prop where
  due   : r.status = .pending ∨ r.status = .failed → r.nextAttemptAt ≤ r.createdAt + asyncWebhookDeliveryMaxAge
  lease : r.status = .delivering →
    r.leaseUntil = r.updatedAt + asyncWebhookDeliveryLease ∧ r.updatedAt ≤ getTimestamp time

structure RowsOk (time nextId : ℕ) (rows : List Delivery) : Prop where
  ids   : (rows.map Delivery.id).Nodup
  below : ∀ r ∈ rows, r.id < nextId
  row   : ∀ r ∈ rows, RowOk time r

/-- A copy of a row. -/
def Known (nextId : ℕ) (rows : List Delivery) (d : Delivery) : Prop :=
  d.id < nextId ∧ ∀ r ∈ rows, r.id = d.id → r.createdAt = d.createdAt

/-- As long as the lease runs, the row is the attempt's. -/
structure Holds (time nextId : ℕ) (rows : List Delivery) (attempt : ℕ) (d : Delivery) : Prop where
  known : Known nextId rows d
  lease : 0 < d.leaseUntil
  held  : getTimestamp time < d.leaseUntil →
    ∃ r ∈ rows, r.id = d.id ∧ r.status = .delivering ∧ r.lockedBy = some attempt ∧ r.leaseUntil = d.leaseUntil

/-- What a failed row is written with. -/
def EndingOk (d : Delivery) : Ending → Prop
  | .finish status _ nextAttemptAt =>
    (status = .failed ∧ nextAttemptAt ≤ d.createdAt + asyncWebhookDeliveryMaxAge) ∨ status.terminal = true
  | .supersede => True

def PhaseOk (time nextId : ℕ) (rows : List Delivery) (attempt : ℕ) : Phase → Prop
  | .claiming now => now ≤ getTimestamp time
  | .updating now d => now ≤ getTimestamp time ∧ Known nextId rows d
  | .claimed d | .fresh d | .looking d | .checking d _ | .owned d | .failing d _ _ =>
    Holds time nextId rows attempt d
  | .ready d deadline => Holds time nextId rows attempt d ∧ deadline ≤ d.leaseDeadline ∧ deadline ≤ d.deadline
  | .posting d deadline =>
    Holds time nextId rows attempt d ∧ deadline ≤ d.leaseDeadline ∧ deadline ≤ d.deadline ∧ time ≤ deadline
  | .ending d ending | .writing d ending _ => Holds time nextId rows attempt d ∧ EndingOk d ending
  | .done => True

structure Inv (s : State) : Prop where
  rows   : RowsOk s.time s.nextId s.rows
  phases : ∀ a phase, s.attempts[a]? = some phase → PhaseOk s.time s.nextId s.rows a phase

/-! ## Times -/

theorem getTimestamp_mono {time time' : ℕ} (h : time ≤ time') : getTimestamp time ≤ getTimestamp time' :=
  Nat.div_le_div_right h

theorem getTimestamp_lt {time t : ℕ} : getTimestamp time < t ↔ time < t * second := by
  unfold getTimestamp second
  omega

/-- Before the end of its context the lease runs. -/
theorem runs_of_le {time : ℕ} {d : Delivery} (hlease : 0 < d.leaseUntil) (h : time ≤ d.leaseDeadline) :
    getTimestamp time < d.leaseUntil := by
  rw [getTimestamp_lt]
  unfold Delivery.leaseDeadline asyncWebhookLeaseMargin second at h
  unfold second
  omega

/-! ## Rows that change -/

/-- What the other attempts count on when rows change. -/
structure Keeps (time nextId : ℕ) (rows rows' : List Delivery) (attempt : ℕ) : Prop where
  old  : ∀ r' ∈ rows', r'.id < nextId → ∃ r ∈ rows, r.id = r'.id ∧ r.createdAt = r'.createdAt
  held : ∀ r ∈ rows, r.status = .delivering → r.lockedBy = some attempt → getTimestamp time < r.leaseUntil → r ∈ rows'

theorem Keeps.refl (time nextId : ℕ) (rows : List Delivery) (attempt : ℕ) : Keeps time nextId rows rows attempt :=
  ⟨fun r hr _ => ⟨r, hr, rfl, rfl⟩, fun _ hr _ _ _ => hr⟩

section
variable {time time' nextId nextId' attempt : ℕ} {rows rows' : List Delivery}
  (hkeeps : Keeps time nextId rows rows' attempt) (hnext : nextId ≤ nextId') (htime : time ≤ time')
include hkeeps hnext

theorem Known.keep {d : Delivery} (h : Known nextId rows d) : Known nextId' rows' d := by
  refine ⟨Nat.lt_of_lt_of_le h.1 hnext, fun r' hr' hid => ?_⟩
  obtain ⟨r, hr, hsame, hcreated⟩ := hkeeps.old r' hr' (hid ▸ h.1)
  rw [← hcreated]
  exact h.2 r hr (hsame.trans hid)

include htime

theorem Holds.keep {d : Delivery} (h : Holds time nextId rows attempt d) : Holds time' nextId' rows' attempt d := by
  refine ⟨h.known.keep hkeeps hnext, h.lease, fun hruns => ?_⟩
  have hruns' := Nat.lt_of_le_of_lt (getTimestamp_mono htime) hruns
  obtain ⟨r, hr, hid, hstatus, hlocked, huntil⟩ := h.held hruns'
  exact ⟨r, hkeeps.held r hr hstatus hlocked (huntil ▸ hruns'), hid, hstatus, hlocked, huntil⟩

theorem PhaseOk.keep {phase : Phase} (h : PhaseOk time nextId rows attempt phase)
    (hallows : phase.allows time' = true) : PhaseOk time' nextId' rows' attempt phase := by
  cases phase with
  | claiming => exact Nat.le_trans h (getTimestamp_mono htime)
  | updating => exact ⟨Nat.le_trans h.1 (getTimestamp_mono htime), h.2.keep hkeeps hnext⟩
  | claimed | fresh | looking | checking | owned | failing =>
    exact Holds.keep hkeeps hnext htime h
  | ready | ending | writing => exact ⟨h.1.keep hkeeps hnext htime, h.2⟩
  | posting =>
    exact ⟨h.1.keep hkeeps hnext htime, h.2.1, h.2.2.1, of_decide_eq_true hallows⟩
  | done => exact trivial

end

variable {rows : List Delivery}

theorem PhaseOk.allows {time nextId attempt : ℕ} {phase : Phase}
    (h : PhaseOk time nextId rows attempt phase) : phase.allows time = true := by
  cases phase with
  | posting => exact decide_eq_true h.2.2.2
  | _ => rfl

theorem RowOk.later {time time' : ℕ} (htime : time ≤ time') {r : Delivery} (h : RowOk time r) : RowOk time' r :=
  ⟨h.due, fun hstatus => ⟨(h.lease hstatus).1, Nat.le_trans (h.lease hstatus).2 (getTimestamp_mono htime)⟩⟩

theorem mem_update {cond : Delivery → Bool} {write : Delivery → Delivery} {r' : Delivery} :
    r' ∈ update cond write rows ↔ ∃ r ∈ rows, (if cond r then write r else r) = r' := by
  unfold update
  exact mem_map

theorem mem_update_of_neg {cond : Delivery → Bool} {write : Delivery → Delivery} {r : Delivery}
    (hr : r ∈ rows) (hcond : cond r ≠ true) : r ∈ update cond write rows :=
  mem_update.2 ⟨r, hr, if_neg hcond⟩

section
variable {time nextId : ℕ} {rows : List Delivery} (h : RowsOk time nextId rows) {cond : Delivery → Bool}
  {write : Delivery → Delivery} (hid : ∀ r, (write r).id = r.id)
include hid

omit hid in
/-- Two rows with one id are one. -/
theorem RowsOk.eq_of_id (h : RowsOk time nextId rows) {r r' : Delivery} (hr : r ∈ rows) (hr' : r' ∈ rows)
    (hid : r.id = r'.id) : r = r' :=
  inj_on_of_nodup_map h.ids hr hr' hid

include h in
theorem RowsOk.update (hrow : ∀ r ∈ rows, cond r = true → RowOk time (write r)) :
    RowsOk time nextId (update cond write rows) := by
  have hids : (Webhook.update cond write rows).map Delivery.id = rows.map Delivery.id := by
    unfold Webhook.update
    rw [map_map]
    refine map_congr_left fun r _ => ?_
    show (if cond r then write r else r).id = r.id
    split
    · exact hid r
    · rfl
  refine ⟨hids ▸ h.ids, ?_, ?_⟩
  · intro r' hr'
    have hmem : r'.id ∈ rows.map Delivery.id := hids ▸ mem_map_of_mem hr'
    obtain ⟨r, hr, hsame⟩ := mem_map.1 hmem
    exact hsame ▸ h.below r hr
  · intro r' hr'
    obtain ⟨r, hr, rfl⟩ := mem_update.1 hr'
    split
    · next hcond => exact hrow r hr hcond
    · exact h.row r hr

theorem Keeps.update (hcreated : ∀ r, (write r).createdAt = r.createdAt) {attempt : ℕ}
    (hheld : ∀ r ∈ rows, cond r = true → r.status = .delivering → r.lockedBy = some attempt →
      ¬ getTimestamp time < r.leaseUntil) :
    Keeps time nextId rows (Webhook.update cond write rows) attempt := by
  constructor
  · intro r' hr' _
    obtain ⟨r, hr, rfl⟩ := mem_update.1 hr'
    refine ⟨r, hr, ?_, ?_⟩
    · split
      · exact (hid r).symm
      · rfl
    · split
      · exact (hcreated r).symm
      · rfl
  · intro r hr hstatus hlocked hruns
    exact mem_update_of_neg hr fun hcond => hheld r hr hcond hstatus hlocked hruns

end

/-! ## Moves -/

/-- What a move leaves: the bounds of the rows, its own phase, and what the other attempts count on. -/
structure Moved (time nextId : ℕ) (rows : List Delivery) (attempt : ℕ) (phase : Phase) (rows' : List Delivery) :
    Prop where
  bounds : RowsOk time nextId rows'
  own    : PhaseOk time nextId rows' attempt phase
  others : ∀ b, b ≠ attempt → Keeps time nextId rows rows' b

section
variable {time nextId attempt : ℕ} {rows : List Delivery} (h : RowsOk time nextId rows)
include h

theorem Moved.same {phase : Phase} (hphase : PhaseOk time nextId rows attempt phase) :
    Moved time nextId rows attempt phase rows :=
  ⟨h, hphase, fun _ _ => Keeps.refl _ _ _ _⟩

omit h in
theorem failureEnding_ok (d : Delivery) (now responseStatus : ℕ) (permanent : Bool) :
    EndingOk d (failureEnding d now responseStatus permanent) := by
  unfold failureEnding
  split
  · exact Or.inr rfl
  · exact Or.inl ⟨rfl, Nat.min_le_right _ _⟩

omit h in
theorem claimable_expired {now : ℕ} {r : Delivery} (hclaim : claimable now r = true)
    (hstatus : r.status = .delivering) : r.leaseUntil ≤ now := by
  unfold claimable at hclaim
  simp only [hstatus] at hclaim
  simpa using hclaim

/-- The claim of a row. -/
theorem moved_claim {now : ℕ} {d : Delivery} (hnow : now ≤ getTimestamp time) (hknown : Known nextId rows d)
    (hone : rows.countP (isClaimable d.id now) = 1) :
    Moved time nextId rows attempt
      (.claimed { d with status := .delivering, lockedBy := some attempt,
                         leaseUntil := now + asyncWebhookDeliveryLease })
      (update (isClaimable d.id now)
        (fun row => row.claimed now (now + asyncWebhookDeliveryLease) attempt) rows) := by
  have hid : ∀ row : Delivery, (row.claimed now (now + asyncWebhookDeliveryLease) attempt).id = row.id := fun _ => rfl
  have hcreated : ∀ row : Delivery,
      (row.claimed now (now + asyncWebhookDeliveryLease) attempt).createdAt = row.createdAt := fun _ => rfl
  refine ⟨h.update hid ?_, ⟨⟨hknown.1, ?_⟩, ?_, ?_⟩, ?_⟩
  · intro r _ _
    refine ⟨fun hstatus => ?_, fun _ => ⟨rfl, hnow⟩⟩
    rcases hstatus with hstatus | hstatus
    · cases hstatus
    · cases hstatus
  · intro r' hr' hid
    obtain ⟨r, hr, rfl⟩ := mem_update.1 hr'
    split at hid
    · next hcond =>
      rw [if_pos hcond]
      exact hknown.2 r hr hid
    · next hcond =>
      rw [if_neg hcond]
      exact hknown.2 r hr hid
  · show 0 < now + asyncWebhookDeliveryLease
    unfold asyncWebhookDeliveryLease
    omega
  · intro _
    obtain ⟨r, hr, hcond⟩ := countP_pos_iff.1 (Nat.lt_of_lt_of_eq Nat.one_pos hone.symm)
    refine ⟨_, mem_update.2 ⟨r, hr, if_pos hcond⟩, ?_, rfl, rfl, rfl⟩
    have hcond := hcond
    unfold isClaimable at hcond
    rw [Bool.and_eq_true, decide_eq_true_eq] at hcond
    exact hcond.1
  · intro b _
    refine Keeps.update hid hcreated fun r _ hcond hstatus _ hruns => ?_
    -- the lease of another attempt is over
    unfold isClaimable at hcond
    rw [Bool.and_eq_true] at hcond
    have hexpired := claimable_expired hcond.2 hstatus
    omega

omit h in
theorem heldBy_iff {id lockedBy now : ℕ} {r : Delivery} : heldBy id lockedBy now r = true ↔
      r.id = id ∧ r.status = .delivering ∧ r.lockedBy = some lockedBy ∧ now < r.leaseUntil := by
  unfold heldBy
  simp only [Bool.and_eq_true, decide_eq_true_eq, and_assoc]

/-- The write that ends a claim. -/
theorem moved_write {now : ℕ} {d : Delivery} {ending : Ending} (hholds : Holds time nextId rows attempt d)
    (hending : EndingOk d ending) :
    Moved time nextId rows attempt .done (update (heldBy d.id attempt now) (ending.write now) rows) := by
  have hid : ∀ r, (ending.write now r).id = r.id := by
    intro r
    cases ending with
    | finish => rfl
    | supersede => rfl
  have hcreated : ∀ r, (ending.write now r).createdAt = r.createdAt := by
    intro r
    cases ending with
    | finish => rfl
    | supersede => rfl
  refine ⟨h.update hid ?_, trivial, ?_⟩
  · intro r hr hcond
    obtain ⟨hrid, _⟩ := heldBy_iff.1 hcond
    cases ending with
    | supersede =>
      refine ⟨fun hstatus => ?_, fun hstatus => by cases hstatus⟩
      rcases hstatus with hstatus | hstatus
      · cases hstatus
      · cases hstatus
    | finish status _ nextAttemptAt =>
      rcases hending with ⟨hfailed, hnext⟩ | hterminal
      · refine ⟨fun _ => ?_, fun hstatus => ?_⟩
        · show nextAttemptAt ≤ r.createdAt + asyncWebhookDeliveryMaxAge
          rw [hholds.known.2 r hr hrid]
          exact hnext
        · have hstatus : status = .delivering := hstatus
          rw [hfailed] at hstatus
          cases hstatus
      · refine ⟨fun hstatus => ?_, fun hstatus => ?_⟩
        · have hstatus : status = .pending ∨ status = .failed := hstatus
          rcases hstatus with hstatus | hstatus
          · rw [hstatus] at hterminal
            cases hterminal
          · rw [hstatus] at hterminal
            cases hterminal
        · have hstatus : status = .delivering := hstatus
          rw [hstatus] at hterminal
          cases hterminal
  · intro b hb
    refine Keeps.update hid hcreated fun r _ hcond _ hlocked _ => ?_
    obtain ⟨_, _, hlocked', _⟩ := heldBy_iff.1 hcond
    exact hb (some.inj (hlocked.symm.trans hlocked'))

omit h in
/-- After the check the attempt fails, goes on with the lease that is its own, or is over. -/
theorem move_checking {answer : Answer} {d : Delivery} {now : ℕ} {phase' : Phase} {rows' : List Delivery}
    (hmove : move time rows attempt answer (.checking d now) = some (phase', rows')) :
    rows' = rows ∧ (phase' = .failing d 0 false ∨ phase' = .owned d ∨ phase' = .done) := by
  cases answer with
  | failure =>
    cases hmove
    exact ⟨rfl, Or.inl rfl⟩
  | superseded | ok =>
    dsimp only [move] at hmove
    split at hmove
    · cases hmove
      exact ⟨rfl, Or.inl rfl⟩
    · split at hmove
      · cases hmove
        exact ⟨rfl, Or.inr (Or.inl rfl)⟩
      · cases hmove
        exact ⟨rfl, Or.inr (Or.inr rfl)⟩

/-- A move keeps the invariant, whatever is answered. -/
theorem move_ok {answer : Answer} {phase phase' : Phase} {rows' : List Delivery}
    (hphase : PhaseOk time nextId rows attempt phase)
    (hmove : move time rows attempt answer phase = some (phase', rows')) :
    Moved time nextId rows attempt phase' rows' := by
  cases phase with
  | claiming now =>
    unfold move at hmove
    cases hcandidate : candidate rows now with
    | none =>
      simp only [hcandidate] at hmove
      cases hmove
      exact Moved.same h trivial
    | some d =>
      simp only [hcandidate] at hmove
      cases hmove
      have hd : d ∈ rows := by
        have hmem := mem_of_head? hcandidate
        rw [mem_orderBy] at hmem
        exact (mem_filter.1 hmem).1
      refine Moved.same h ⟨hphase, h.below d hd, fun r hr hid => ?_⟩
      rw [h.eq_of_id hr hd hid]
  | updating =>
    dsimp only [move] at hmove
    split at hmove
    · next hone =>
      cases hmove
      exact moved_claim h hphase.1 hphase.2 hone
    · cases hmove
      exact Moved.same h trivial
  | claimed =>
    dsimp only [move] at hmove
    split at hmove
    · cases hmove
      exact Moved.same h hphase
    · cases hmove
      exact Moved.same h trivial
  | fresh =>
    dsimp only [move] at hmove
    split at hmove
    · cases hmove
      exact Moved.same h hphase
    · cases hmove
      exact Moved.same h hphase
  | looking =>
    cases answer with
    | superseded =>
      cases hmove
      exact Moved.same h ⟨hphase, trivial⟩
    | failure | ok =>
      cases hmove
      exact Moved.same h hphase
  | checking =>
    obtain ⟨rfl, rfl | rfl | rfl⟩ := move_checking hmove
    · exact Moved.same h hphase
    · exact Moved.same h hphase
    · exact Moved.same h trivial
  | owned =>
    cases hmove
    exact Moved.same h ⟨hphase, Nat.min_le_left _ _, Nat.le_trans (Nat.min_le_right _ _) (Nat.min_le_left _ _)⟩
  | ready =>
    dsimp only [move] at hmove
    split at hmove
    · next htime =>
      cases hmove
      exact Moved.same h ⟨hphase.1, hphase.2.1, hphase.2.2, Nat.le_of_lt htime⟩
    · cases hmove
      exact Moved.same h hphase.1
  | posting =>
    cases answer with
    | superseded => cases hmove
    | failure =>
      cases hmove
      exact Moved.same h hphase.1
    | ok =>
      cases hmove
      exact Moved.same h ⟨hphase.1, Or.inr rfl⟩
  | failing =>
    cases hmove
    exact Moved.same h ⟨hphase, failureEnding_ok _ _ _ _⟩
  | ending =>
    cases hmove
    exact Moved.same h hphase
  | writing =>
    dsimp only [move] at hmove
    split at hmove
    · cases hmove
      exact Moved.same h trivial
    · cases hmove
      exact moved_write h hphase.1 hphase.2
  | done => cases hmove

end

/-! ## Steps -/

variable {s s' : State}

/-- A move of an attempt, seen from the whole state. -/
theorem step_move {attempt : ℕ} {answer : Answer} (hstep : step s (.move attempt answer) = some s') :
    ∃ phase phase' rows', s.attempts[attempt]? = some phase ∧
      move s.time s.rows attempt answer phase = some (phase', rows') ∧
      s' = { s with attempts := s.attempts.set attempt phase', rows := rows' } := by
  unfold step at hstep
  dsimp only at hstep
  cases hphase : s.attempts[attempt]? with
  | none =>
    rw [hphase] at hstep
    cases hstep
  | some phase =>
    rw [hphase] at hstep
    dsimp only at hstep
    cases hmove : move s.time s.rows attempt answer phase with
    | none =>
      rw [hmove] at hstep
      cases hstep
    | some result =>
      rw [hmove] at hstep
      exact ⟨phase, result.1, result.2, rfl, hmove, (some.inj hstep).symm⟩

/-- A step that changes rows but not the attempts. -/
theorem Inv.keep (h : Inv s) (hattempts : s'.attempts = s.attempts) (htime : s.time = s'.time)
    (hnext : s.nextId ≤ s'.nextId) (hrows : RowsOk s'.time s'.nextId s'.rows)
    (hkeeps : ∀ a, Keeps s.time s.nextId s.rows s'.rows a) : Inv s' := by
  refine ⟨hrows, fun a phase hphase => ?_⟩
  rw [hattempts] at hphase
  have hok := h.phases a phase hphase
  exact hok.keep (hkeeps a) hnext (Nat.le_of_eq htime) (htime ▸ hok.allows)

variable {action : Action}

theorem inv_step (h : Inv s) (hstep : step s action = some s') : Inv s' := by
  cases action with
  | advance elapsed =>
    obtain ⟨hallows, hstep⟩ := ite_none_right_eq_some.1 hstep
    cases hstep
    have htime : s.time ≤ s.time + elapsed := Nat.le_add_right _ _
    refine ⟨⟨h.rows.ids, h.rows.below, fun r hr => (h.rows.row r hr).later htime⟩, fun a phase hphase => ?_⟩
    have hmem : phase ∈ s.attempts := mem_of_getElem? hphase
    exact (h.phases a phase hphase).keep (Keeps.refl _ _ _ _) (Nat.le_refl _) htime
      (all_eq_true.1 hallows phase hmem)
  | queue _ _ now =>
    obtain ⟨hnow, hstep⟩ := ite_none_right_eq_some.1 hstep
    cases hstep
    refine h.keep rfl rfl (Nat.le_succ _) ⟨?_, ?_, ?_⟩ fun a => ⟨?_, ?_⟩
    · show ((s.rows ++ [_]).map Delivery.id).Nodup
      rw [map_append, nodup_append]
      refine ⟨h.rows.ids, nodup_singleton _, fun id hid id' hid' heq => ?_⟩
      obtain ⟨r, hr, rfl⟩ := mem_map.1 hid
      have hbelow := h.rows.below r hr
      have hnew : id' = s.nextId := mem_singleton.1 hid'
      omega
    · intro r hr
      rcases mem_append.1 hr with hr | hr
      · exact Nat.lt_succ_of_lt (h.rows.below r hr)
      · rw [mem_singleton.1 hr]
        exact Nat.lt_succ_self _
    · intro r hr
      rcases mem_append.1 hr with hr | hr
      · exact h.rows.row r hr
      · rw [mem_singleton.1 hr]
        refine ⟨fun _ => ?_, fun hstatus => by cases hstatus⟩
        show now ≤ getTimestamp s.time + asyncWebhookDeliveryMaxAge
        omega
    · intro r hr hbelow
      rcases mem_append.1 hr with hr | hr
      · exact ⟨r, hr, rfl, rfl⟩
      · rw [mem_singleton.1 hr] at hbelow
        exact absurd hbelow (Nat.lt_irrefl _)
    · exact fun r hr _ _ _ => mem_append_left _ hr
  | assetFailed =>
    cases hstep
    have hid : ∀ r : Delivery, (r.supersededAt (getTimestamp s.time)).id = r.id := fun _ => rfl
    have hcreated : ∀ r : Delivery, (r.supersededAt (getTimestamp s.time)).createdAt = r.createdAt := fun _ => rfl
    refine h.keep rfl rfl (Nat.le_refl _) (h.rows.update hid ?_) fun a => Keeps.update hid hcreated ?_
    · intro r _ _
      refine ⟨fun hstatus => ?_, fun hstatus => by cases hstatus⟩
      rcases hstatus with hstatus | hstatus
      · cases hstatus
      · cases hstatus
    · intro r _ hcond hstatus
      unfold announces at hcond
      rw [hstatus] at hcond
      simp at hcond
  | purge statuses _ ids =>
    obtain ⟨hterminal, hstep⟩ := ite_none_right_eq_some.1 hstep
    cases hstep
    refine h.keep rfl rfl (Nat.le_refl _) ⟨?_, ?_, ?_⟩ fun a => ⟨?_, ?_⟩
    · exact h.rows.ids.sublist (filter_sublist.map _)
    · exact fun r hr => h.rows.below r (mem_filter.1 hr).1
    · exact fun r hr => h.rows.row r (mem_filter.1 hr).1
    · exact fun r hr _ => ⟨r, (mem_filter.1 hr).1, rfl, rfl⟩
    · intro r hr hstatus _ _
      refine mem_filter.2 ⟨hr, ?_⟩
      have hnot : r.status ∉ statuses := by
        intro hmem
        have hmem := all_eq_true.1 hterminal _ hmem
        rw [hstatus] at hmem
        cases hmem
      unfold purgeable
      simp [hnot]
  | begin =>
    cases hstep
    refine ⟨h.rows, fun a phase hphase => ?_⟩
    rcases Nat.lt_or_ge a s.attempts.length with hlt | hge
    · have hphase : (s.attempts ++ [.claiming (getTimestamp s.time)])[a]? = some phase := hphase
      rw [getElem?_append_left hlt] at hphase
      exact h.phases a phase hphase
    · have hphase : (s.attempts ++ [.claiming (getTimestamp s.time)])[a]? = some phase := hphase
      rw [getElem?_append_right hge] at hphase
      have hmem := mem_of_getElem? hphase
      rw [mem_singleton.1 hmem]
      exact Nat.le_refl _
  | move attempt =>
    obtain ⟨phase, phase', rows', hphase, hmove, rfl⟩ := step_move hstep
    have hmoved := move_ok h.rows (h.phases attempt phase hphase) hmove
    refine ⟨hmoved.bounds, fun a other hother => ?_⟩
    have hother : (s.attempts.set attempt phase')[a]? = some other := hother
    by_cases hsame : attempt = a
    · have hlt : attempt < s.attempts.length := (List.getElem?_eq_some_iff.1 hphase).1
      rw [← hsame, getElem?_set_self hlt] at hother
      rw [← hsame, ← some.inj hother]
      exact hmoved.own
    · rw [getElem?_set_ne hsame] at hother
      have hok := h.phases a other hother
      exact hok.keep (hmoved.others a fun heq => hsame heq.symm) (Nat.le_refl _) (Nat.le_refl _) hok.allows

theorem inv_of_reachable {s : State} (h : Reachable s) : Inv s := by
  induction h with
  | start =>
    refine ⟨⟨nodup_nil, fun r hr => (by cases hr), fun r hr => (by cases hr)⟩, fun a phase hphase => ?_⟩
    cases hphase
  | step _ _ hstep ih => exact inv_step ih hstep

/-! ## What a step changes -/

/-- The rows are changed by the claim and by the write that ends it, and by no other move. -/
theorem move_rows {time attempt : ℕ} {rows rows' : List Delivery} {answer : Answer} {phase phase' : Phase}
    (hmove : move time rows attempt answer phase = some (phase', rows')) :
    rows' = rows ∨
    (∃ now d, phase = .updating now d ∧ rows' = update (isClaimable d.id now)
      (fun row => row.claimed now (now + asyncWebhookDeliveryLease) attempt) rows) ∨
    ∃ d ending now, phase = .writing d ending now ∧ time < d.leaseDeadline ∧
      rows' = update (heldBy d.id attempt now) (ending.write now) rows := by
  cases phase with
  | updating now d =>
    dsimp only [move] at hmove
    split at hmove
    · cases hmove
      exact Or.inr (Or.inl ⟨now, d, rfl, rfl⟩)
    · cases hmove
      exact Or.inl rfl
  | writing d ending now =>
    dsimp only [move] at hmove
    split at hmove
    · cases hmove
      exact Or.inl rfl
    · next hctx =>
      cases hmove
      exact Or.inr (Or.inr ⟨d, ending, now, rfl, Nat.lt_of_not_le hctx, rfl⟩)
  | claiming now =>
    left
    unfold move at hmove
    cases hcandidate : candidate rows now with
    | none | some =>
      simp only [hcandidate] at hmove
      cases hmove
      rfl
  | claimed | fresh | ready =>
    left
    dsimp only [move] at hmove
    split at hmove
    · cases hmove
      rfl
    · cases hmove
      rfl
  | looking =>
    left
    cases answer with
    | superseded | failure | ok =>
      cases hmove
      rfl
  | checking => exact Or.inl (move_checking hmove).1
  | owned | failing | ending =>
    left
    cases hmove
    rfl
  | posting =>
    left
    cases answer with
    | superseded => cases hmove
    | failure | ok =>
      cases hmove
      rfl
  | done => cases hmove

/-- How a row changes or goes: its announcement is outdated, it has come to its end and is purged, an attempt claims it,
or the attempt that holds it ends its claim. -/
theorem row_change (h : Inv s) (hstep : step s action = some s') {r : Delivery}
    (hr : r ∈ s.rows) (hgone : r ∉ s'.rows) :
    (∃ assetId, action = .assetFailed assetId ∧ announces assetId r = true) ∨
    (∃ statuses cutoff ids, action = .purge statuses cutoff ids ∧ r.status.terminal = true) ∨
    ∃ attempt answer, action = .move attempt answer ∧ ((∃ now, claimable now r = true ∧ now ≤ getTimestamp s.time ∧
          r.claimed now (now + asyncWebhookDeliveryLease) attempt ∈ s'.rows) ∨
        (r.status = .delivering ∧ r.lockedBy = some attempt ∧ getTimestamp s.time < r.leaseUntil)) := by
  cases action with
  | advance =>
    dsimp only [step] at hstep
    split at hstep
    · cases hstep
      exact absurd hr hgone
    · cases hstep
  | queue =>
    dsimp only [step] at hstep
    split at hstep
    · cases hstep
      exact absurd (mem_append_left _ hr) hgone
    · cases hstep
  | begin =>
    cases hstep
    exact absurd hr hgone
  | assetFailed assetId =>
    cases hstep
    refine Or.inl ⟨assetId, rfl, ?_⟩
    by_contra hcond
    exact hgone (mem_update_of_neg hr hcond)
  | purge statuses cutoff ids =>
    dsimp only [step] at hstep
    split at hstep
    · next hterminal =>
      cases hstep
      refine Or.inr (Or.inl ⟨statuses, cutoff, ids, rfl, ?_⟩)
      by_contra hnot
      apply hgone
      refine mem_filter.2 ⟨hr, ?_⟩
      have hmem : r.status ∉ statuses := fun hmem => hnot (all_eq_true.1 hterminal _ hmem)
      unfold purgeable
      simp [hmem]
    · cases hstep
  | move attempt answer =>
    obtain ⟨phase, phase', rows', hphase, hmove, rfl⟩ := step_move hstep
    refine Or.inr (Or.inr ⟨attempt, answer, rfl, ?_⟩)
    have hok := h.phases attempt phase hphase
    have hgone : r ∉ rows' := hgone
    rcases move_rows hmove with rfl | ⟨now, d, rfl, rfl⟩ | ⟨d, ending, now, rfl, hctx, rfl⟩
    · exact absurd hr hgone
    · left
      have hcond : isClaimable d.id now r = true := by
        by_contra hcond
        exact hgone (mem_update_of_neg hr hcond)
      refine ⟨now, ?_, hok.1, mem_update.2 ⟨r, hr, if_pos hcond⟩⟩
      unfold isClaimable at hcond
      rw [Bool.and_eq_true] at hcond
      exact hcond.2
    · right
      have hcond : heldBy d.id attempt now r = true := by
        by_contra hcond
        exact hgone (mem_update_of_neg hr hcond)
      obtain ⟨hid, hstatus, hlocked, _⟩ := heldBy_iff.1 hcond
      -- the statement was issued in time, so the lease still runs
      have hruns : getTimestamp s.time < d.leaseUntil := runs_of_le hok.1.lease (Nat.le_of_lt hctx)
      obtain ⟨held, hheld, hheldId, _, _, hheldUntil⟩ := hok.1.held hruns
      have hrheld : r = held := h.rows.eq_of_id hr hheld (hid.trans hheldId.symm)
      refine ⟨hstatus, hlocked, ?_⟩
      rw [hrheld, hheldUntil]
      exact hruns

/-- A row that has come to its end stays as it is until it is purged. -/
theorem terminal_change (h : Inv s) (hstep : step s action = some s') {r : Delivery}
    (hr : r ∈ s.rows) (hterminal : r.status.terminal = true) (hgone : r ∉ s'.rows) :
    ∃ statuses cutoff ids, action = .purge statuses cutoff ids := by
  rcases row_change h hstep hr hgone with
    ⟨assetId, _, hcond⟩ | ⟨statuses, cutoff, ids, hpurge, _⟩ | ⟨attempt, answer, _, hmove⟩
  · unfold announces at hcond
    rw [Bool.and_eq_true, Bool.or_eq_true, decide_eq_true_eq, decide_eq_true_eq] at hcond
    rcases hcond.2 with hstatus | hstatus
    · rw [hstatus] at hterminal
      cases hterminal
    · rw [hstatus] at hterminal
      cases hterminal
  · exact ⟨statuses, cutoff, ids, hpurge⟩
  · rcases hmove with ⟨now, hcond, _⟩ | ⟨hstatus, _⟩
    · unfold claimable at hcond
      cases hstatus : r.status with
      | pending | delivering | failed =>
        rw [hstatus] at hterminal
        cases hterminal
      | _ =>
        rw [hstatus] at hcond
        simp at hcond
    · rw [hstatus] at hterminal
      cases hterminal

/-! ## The claim -/

/-- What the lease of the deliveries keeps. -/
structure LeaseKept (s : State) : Prop where
  /-- Two attempts that post one delivery are one. -/
  alone    : ∀ (a b : ℕ) (d d' : Delivery) (deadline deadline' : ℕ), s.attempts[a]? = some (.posting d deadline) →
    s.attempts[b]? = some (.posting d' deadline') → d.id = d'.id → a = b
  /-- While its lease runs, a delivering row is changed by the attempt that has claimed it, and after that also by the
  attempt that claims it next. -/
  holder   : ∀ action s', step s action = some s' → ∀ r ∈ s.rows, r.status = .delivering → r ∉ s'.rows →
    ∃ attempt answer, action = .move attempt answer ∧
      ((r.lockedBy = some attempt ∧ getTimestamp s.time < r.leaseUntil) ∨ (r.leaseUntil ≤ getTimestamp s.time ∧
          ∃ now, r.claimed now (now + asyncWebhookDeliveryLease) attempt ∈ s'.rows))
  /-- A row that has come to its end changes no more, except that it is purged. -/
  terminal : ∀ action s', step s action = some s' → ∀ r ∈ s.rows, r.status.terminal = true → r ∉ s'.rows →
    (∃ statuses cutoff ids, action = .purge statuses cutoff ids) ∧ ∀ r' ∈ s'.rows, r'.id ≠ r.id
  /-- A row that waits is due within 72 hours of its creation. -/
  due      : ∀ r ∈ s.rows, r.status = .pending ∨ r.status = .failed →
    r.nextAttemptAt ≤ r.createdAt + asyncWebhookDeliveryMaxAge
  /-- A lease ends one lease after the claim. -/
  lease    : ∀ r ∈ s.rows, r.status = .delivering →
    r.leaseUntil = r.updatedAt + asyncWebhookDeliveryLease ∧ r.updatedAt ≤ getTimestamp s.time
  /-- Nothing is posted later than 72 hours after its creation. -/
  expired  : ∀ (a : ℕ) (d : Delivery) (deadline : ℕ), s.attempts[a]? = some (.posting d deadline) → s.time ≤ d.deadline

theorem leaseKept {s : State} (h : Reachable s) : LeaseKept s := by
  have hinv := inv_of_reachable h
  constructor
  · intro a b d d' deadline deadline' ha hb hid
    obtain ⟨hholds, hlease, _, htime⟩ := hinv.phases a _ ha
    obtain ⟨hholds', hlease', _, htime'⟩ := hinv.phases b _ hb
    obtain ⟨r, hr, hrid, _, hlocked, _⟩ := hholds.held (runs_of_le hholds.lease (Nat.le_trans htime hlease))
    obtain ⟨r', hr', hrid', _, hlocked', _⟩ := hholds'.held (runs_of_le hholds'.lease (Nat.le_trans htime' hlease'))
    have hsame : r = r' := hinv.rows.eq_of_id hr hr' (hrid.trans (hid.trans hrid'.symm))
    rw [← hsame, hlocked] at hlocked'
    exact some.inj hlocked'
  · intro action s' hstep r hr hstatus hgone
    rcases row_change hinv hstep hr hgone with
      ⟨assetId, _, hcond⟩ | ⟨_, _, _, _, hterminal⟩ | ⟨attempt, answer, hmove, hchange⟩
    · unfold announces at hcond
      rw [hstatus] at hcond
      simp at hcond
    · rw [hstatus] at hterminal
      cases hterminal
    · refine ⟨attempt, answer, hmove, ?_⟩
      rcases hchange with ⟨now, hclaim, hnow, hmem⟩ | ⟨_, hlocked, hruns⟩
      · exact Or.inr ⟨Nat.le_trans (claimable_expired hclaim hstatus) hnow, now, hmem⟩
      · exact Or.inl ⟨hlocked, hruns⟩
  · intro action s' hstep r hr hterminal hgone
    obtain ⟨statuses, cutoff, ids, rfl⟩ := terminal_change hinv hstep hr hterminal hgone
    refine ⟨⟨statuses, cutoff, ids, rfl⟩, fun r' hr' hid => ?_⟩
    dsimp only [step] at hstep
    split at hstep
    · cases hstep
      have hmem := (mem_filter.1 hr').1
      rw [← hinv.rows.eq_of_id hmem hr hid] at hgone
      exact hgone hr'
    · cases hstep
  · exact fun r hr => (hinv.rows.row r hr).due
  · exact fun r hr => (hinv.rows.row r hr).lease
  · intro a d deadline ha
    obtain ⟨_, _, hdeadline, htime⟩ := hinv.phases a _ ha
    exact Nat.le_trans htime hdeadline

/-- A run of actions. -/
def run (s : State) (actions : List Action) : Option State := actions.foldlM step s

theorem reachable_run (h : Reachable s) {actions : List Action} (hrun : run s actions = some s') : Reachable s' := by
  induction actions generalizing s with
  | nil =>
    obtain rfl : s = s' := some.inj hrun
    exact h
  | cons action actions ih =>
    have hrun : (step s action).bind (fun s => run s actions) = some s' := hrun
    cases hstep : step s action with
    | none =>
      rw [hstep] at hrun
      cases hrun
    | some =>
      rw [hstep] at hrun
      exact ih (h.step action hstep) hrun

/-- A row is claimed and posted, and the attempt is in the middle of it. -/
def postingRun : List Action :=
  [.queue 1 "asset.failed" 0, .begin, .move 0 .superseded, .move 0 .superseded, .move 0 .superseded,
   .move 0 .superseded, .move 0 (.ok 200), .move 0 (.ok 200), .move 0 .superseded, .move 0 .superseded]

theorem leaseKept_posting :
    ∃ s, run { time := 0 } postingRun = some s ∧ (∃ d deadline, s.attempts = [.posting d deadline]) ∧
      LeaseKept s := by
  have hsome : (run { time := 0 } postingRun).isSome = true := by decide +kernel
  obtain ⟨s, hs⟩ := isSome_iff_exists.1 hsome
  refine ⟨s, hs, ?_, leaseKept (reachable_run (Reachable.start 0) hs)⟩
  have hposting : (run { time := 0 } postingRun).map State.attempts =
      some [.posting { id := 0, assetId := 1, eventType := "asset.failed", status := .delivering, nextAttemptAt := 0,
                       lockedBy := some 0, leaseUntil := 60, createdAt := 0, updatedAt := 0 }
        (10 * second)] := by
    decide +kernel
  rw [hs] at hposting
  exact ⟨_, _, some.inj hposting⟩

/-- A row that nobody has claimed for 72 hours and a minute. -/
def lateRun : List Action :=
  [.queue 1 "asset.failed" 0, .advance ((asyncWebhookDeliveryMaxAge + 60) * second), .begin, .move 0 .superseded,
   .move 0 .superseded]

/-- The same when the lease is over, and the next attempt is about to claim it. -/
def takeoverRun : List Action := lateRun ++ [.advance (60 * second), .begin, .move 1 .superseded]

/-- A lease ends later than 72 hours and one lease after the creation; and when it is over, a delivering row is changed
by an attempt that has not claimed it. -/
theorem late_claim : (∃ s, Reachable s ∧ ∃ r ∈ s.rows, r.status = .delivering ∧
      r.createdAt + asyncWebhookDeliveryMaxAge + asyncWebhookDeliveryLease < r.leaseUntil) ∧
    ∃ s s' answer, Reachable s ∧ step s (.move 1 answer) = some s' ∧
      ∃ r ∈ s.rows, r.status = .delivering ∧ r.lockedBy = some 0 ∧ r ∉ s'.rows := by
  constructor
  · have hrows : (run { time := 0 } lateRun).map State.rows =
        some [{ id := 0, assetId := 1, eventType := "asset.failed", status := .delivering, nextAttemptAt := 0,
                lockedBy := some 0, leaseUntil := 259320, createdAt := 0, updatedAt := 259260 }] := by
      decide +kernel
    obtain ⟨s, hs, hrows⟩ := map_eq_some_iff.1 hrows
    refine ⟨s, reachable_run (Reachable.start 0) hs, _, hrows ▸ mem_cons_self, rfl, ?_⟩
    decide
  · have hrows : (run { time := 0 } takeoverRun).map State.rows =
        some [{ id := 0, assetId := 1, eventType := "asset.failed", status := .delivering, nextAttemptAt := 0,
                lockedBy := some 0, leaseUntil := 259320, createdAt := 0, updatedAt := 259260 }] := by
      decide +kernel
    have hrows' : (run { time := 0 } (takeoverRun ++ [.move 1 .superseded])).map State.rows =
        some [{ id := 0, assetId := 1, eventType := "asset.failed", status := .delivering, nextAttemptAt := 0,
                lockedBy := some 1, leaseUntil := 259380, createdAt := 0, updatedAt := 259320 }] := by
      decide +kernel
    obtain ⟨s, hs, hrows⟩ := map_eq_some_iff.1 hrows
    obtain ⟨s', hs', hrows'⟩ := map_eq_some_iff.1 hrows'
    have hstep : step s (.move 1 .superseded) = some s' := by
      unfold run at hs hs'
      rw [foldlM_append, hs] at hs'
      simpa using hs'
    refine ⟨s, s', .superseded, reachable_run (Reachable.start 0) hs, hstep, _, hrows ▸ mem_cons_self, rfl, rfl, ?_⟩
    rw [hrows']
    decide

end NovaMaas.Webhook
