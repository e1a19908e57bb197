/-
  No more is reserved than there is — as long as the two places never contradict each other.

  A fill of the hash publishes what the row says, and a fallback lets the row decide.  Both are right only about a
  row that has heard of every reservation, and a fill only where no credit will be added to it a second time.  The
  code checks neither, and either of them alone lets quota that is gone be reserved again.

  The rest of the code is right in any order (`reservations_never_oversell`): whatever else the calls do, whichever
  of them stall, expire or lose the cache in between, the reservations that were granted are covered by the quota
  there was and the credits that came in.
-/
import NovaMaas.Quota.Sound

namespace NovaMaas.Quota

open Interleave World

/-! ## What a statement does to the part of a call -/

/-- The call a statement books on. -/
def QuotaOp.booksOn : QuotaOp → Option ℕ
  | .reserveHash n _ => some n
  | .tellHash n _ => some n
  | .spawn n _ _ => some n
  | .addRow n _ _ _ => some n
  | .reserveRow n _ => some n
  | .record _ n _ _ => some n
  | .takeBatch _ n => some n
  | .landBatch n _ => some n
  | _ => none

namespace World

variable {w : World} {n m : ℕ}

theorem own_credit (amount : ℤ) (as : Booking) : (w.credit amount as).own m = w.own m := by
  unfold credit
  split <;> rfl

theorem own_putOwn_self (s : Share) : (w.putOwn n s).own n = s := Shares.part_set_self _ _ _

theorem own_putOwn_ne (h : m ≠ n) (s : Share) : (w.putOwn n s).own m = w.own m := Shares.part_set_ne _ h _

theorem own_applyDelta (delta : ℤ) : (w.applyDelta delta).own m = w.own m := by
  obtain ⟨x, hx, -⟩ := applyDelta_eq (w := w) delta
  rw [hx]
  rfl

end World

/-- Nobody's part changes but that of the call a statement books on. -/
theorem exec_own {op : QuotaOp} {w : World} {m : ℕ} (h : op.booksOn ≠ some m) : (op.exec w).own m = w.own m := by
  have hne : ∀ {n : ℕ}, (some n : Option ℕ) ≠ some m → m ≠ n := fun hn hmn => hn (by rw [hmn])
  cases op with
  | read | expireHash | setLink | deleteRow => rfl
  | dropHash | setFence | setRow =>
    show (if _ then w else _ : World).own m = _
    split <;> rfl
  | fill =>
    show (if _ then _ else w : World).own m = _
    split <;> rfl
  | runTask k =>
    show (w.runTask k).own m = _
    unfold runTask
    split
    · rfl
    · exact own_applyDelta _
  | reserveHash n amount =>
    show (w.reserveHash n amount).own m = _
    unfold reserveHash
    split
    · rfl
    · split
      · rfl
      · simp only
        split
        · rfl
        · exact own_putOwn_ne (hne h) _
  | tellHash n =>
    show (putOwn _ n _).own m = _
    rw [own_putOwn_ne (hne h), own_applyDelta]
  | spawn n delta as | record _ n delta as =>
    show (credit (putOwn _ n _) delta as).own m = _
    rw [own_credit, own_putOwn_ne (hne h)]
    rfl
  | addRow n delta cap as =>
    show (w.addRow n delta cap as).own m = _
    unfold addRow
    split
    · rw [own_credit, own_putOwn_ne (hne h)]
      rfl
    · exact own_putOwn_ne (hne h) _
  | reserveRow n quota =>
    show (w.reserveRow n quota).own m = _
    unfold reserveRow
    split
    · exact own_putOwn_ne (hne h) _
    · rfl
  | takeBatch | landBatch => exact own_putOwn_ne (hne h) _

/-! ## The condition -/

/-- A snapshot fills the hash only while it is still what the row says, every reservation has reached the row and
every credit of the row the hash; and the row decides only while there is no hash, and every reservation has reached
it. -/
def Careful : QuotaOp → World → Prop
  | .fill quota, w => w.fills = true → w.deleted = false ∧ quota ≤ w.quota ∧ w.Settled ∧ w.Told
  | .reserveRow _ quota, w => w.rowCovers quota = true → w.hash = none ∧ w.Settled
  | _, _ => True

instance (op : QuotaOp) (w : World) : Decidable (Careful op w) := by
  cases op <;> unfold Careful <;> infer_instance

def quotaProtocol (o : ℤ) : Protocol Call QuotaOp World where
  exec := QuotaOp.exec
  ok := Careful
  Inv := World.Sound o
  Rel := fun _ _ => True
  Rely := fun κ w v => v.own κ.1 = w.own κ.1
  Guar := fun κ w v => ∀ m, m ≠ κ.1 → v.own m = w.own m
  refl := fun _ => trivial
  trans := fun _ _ => trivial
  rely_refl := fun _ _ => rfl
  rely_trans := fun huv hvw => hvw.trans huv
  rely_rel := fun _ => trivial
  guar_rel := fun _ => trivial
  guar_rely := fun hne h => h _ hne

section Programs

variable {o : ℤ} {κ : ℕ × Call} {α β : Type}

/-- A call whose part is `s` ends with an answer and a part that `T` allows, and keeps the protocol. -/
def Holds (o : ℤ) (κ : ℕ × Call) (s : Share) (p : QuotaM α) (T : α → Share → Prop) : Prop :=
  ∀ w, w.own κ.1 = s → p.Keeps (quotaProtocol o) κ (fun a v => T a (v.own κ.1)) w

variable {T : α → Share → Prop}

theorem Holds.pure {s : Share} {a : α} (h : T a s) : Holds o κ s (pure a) T := by
  intro w hw v hwv _
  have hv : v.own κ.1 = s := by rw [hwv, hw]
  rw [hv]
  exact h

theorem Holds.bind {s : Share} {p : QuotaM α} {f : α → QuotaM β} {R : α → Share → Prop} {T : β → Share → Prop}
    (hp : Holds o κ s p R) (hf : ∀ a s', R a s' → Holds o κ s' (f a) T) : Holds o κ s (p >>= f) T := by
  intro w hw
  refine Prog.Keeps.bind ((hp w hw).weaken ?_)
  intro a v _ hR
  exact hf a _ hR v rfl

/-- The same after something that leaves the part as it is. -/
theorem Holds.seq {s : Share} {p : QuotaM α} {f : α → QuotaM β} {T : β → Share → Prop}
    (hp : Holds o κ s p fun _ s' => s' = s) (hf : ∀ a, Holds o κ s (f a) T) : Holds o κ s (p >>= f) T := by
  refine hp.bind ?_
  rintro a s' rfl
  exact hf a

theorem Holds.weaken {s : Share} {p : QuotaM α} {R : α → Share → Prop} (hp : Holds o κ s p R)
    (h : ∀ a s', R a s' → T a s') : Holds o κ s p T :=
  fun w hw => (hp w hw).weaken fun a _ _ hR => h a _ hR

variable {report : World → α}

/-- The rule for one statement. -/
theorem Holds.issue {s : Share} {op : QuotaOp}
    (hbooks : op.booksOn = some κ.1 ∨ op.booksOn = none)
    (h : ∀ v, v.Sound o → v.own κ.1 = s → Careful op v →
      (op.exec v).Sound o ∧ T (report v) ((op.exec v).own κ.1)) : Holds o κ s (Prog.issue op report) T := by
  intro w hw
  refine Prog.Keeps.issue ?_
  intro v hwv hv hop
  have hown : v.own κ.1 = s := by rw [hwv, hw]
  obtain ⟨hsound, hT⟩ := h v hv hown hop
  refine ⟨hsound, ?_, ?_⟩
  · intro m hm
    refine exec_own ?_
    rcases hbooks with hb | hb
    · rw [hb]
      exact fun heq => hm (Option.some.inj heq).symm
    · rw [hb]
      exact fun heq => by cases heq
  · intro u hu _
    have hu : u.own κ.1 = (op.exec v).own κ.1 := hu
    rw [hu]
    exact hT

open Holds

/-- A statement that books on nobody. -/
theorem Holds.quiet {s : Share} {op : QuotaOp} (hbooks : op.booksOn = none)
    (h : ∀ v, v.Sound o → Careful op v → (op.exec v).Sound o) :
    Holds o κ s (Prog.issue op report) (fun _ s' => s' = s) := by
  refine issue (Or.inr hbooks) ?_
  intro v hv hown hop
  refine ⟨h v hv hop, ?_⟩
  rw [exec_own (by rw [hbooks]; exact fun heq => by cases heq), hown]

theorem holds_look {s : Share} (f : World → α) : Holds o κ s (look f) (fun _ s' => s' = s) :=
  quiet rfl fun _ hv _ => hv

/-! ### The statements that book -/

variable {node : ℕ} {c : Call} {n : ℕ} {s : Share}

theorem own_reserveHash {w : World} {amount : ℤ} : (w.reserveHash n amount).own n =
    if reserveResult amount w = some .ok then
      { w.own n with granted := (w.own n).granted + amount, unsettled := (w.own n).unsettled + amount }
    else w.own n := by
  unfold reserveHash reserveResult answers
  cases hh : w.hash with
  | none => cases hl : w.link <;> rfl
  | some h =>
    cases hl : w.link with
    | down => rfl
    | mute =>
      rcases lt_or_ge h amount with hlt | hge
      · simp [hlt]
      · simp [hge.not_gt, own]
    | up =>
      rcases lt_or_ge h amount with hlt | hge
      · simp [hlt]
      · simp only [hge.not_gt, reduceCtorEq, or_self, if_false, decide_true, Bool.not_true, Bool.false_eq_true, if_true]
        exact own_putOwn_self _

theorem holds_cacheTryReserveQuota {amount : ℤ} (ha : 0 ≤ amount) :
    Holds o (n, c) s (cacheTryReserveQuota n amount) (fun r s' => s' =
      if r = some .ok then { s with granted := s.granted + amount, unsettled := s.unsettled + amount } else s) := by
  refine issue (Or.inl rfl) ?_
  rintro v hv rfl -
  exact ⟨hv.reserveHash ha, own_reserveHash⟩

variable {delta : ℤ}

theorem holds_tellHash (hpos : 0 ≤ delta) (hdelta : delta ≤ s.due) :
    Holds o (n, c) s (act (.tellHash n delta)) (fun _ s' => s' = { s with due := s.due - delta }) := by
  refine issue (Or.inl rfl) ?_
  rintro v hv rfl -
  exact ⟨hv.tellHash hpos hdelta, own_putOwn_self _⟩

variable {quota : ℤ}

theorem holds_reserveQuotaDB (hpos : 0 ≤ quota) : Holds o (n, c) s (reserveQuotaDB n quota) (fun r s' => s' =
      if r = .reserved true then { s with granted := s.granted + quota } else s) := by
  refine issue (Or.inl rfl) ?_
  rintro v hv rfl hok
  refine ⟨hv.reserveRow hpos hok, ?_⟩
  show (v.reserveRow n quota).own n = _
  unfold reserveRow
  cases hcov : v.rowCovers quota with
  | true => exact own_putOwn_self _
  | false => rfl

theorem holds_reserved (hpos : 0 ≤ quota) (hs : s.Nonneg) :
    Holds o (n, c) s (reserveQuotaDB n quota) (fun r s' => r = .reserved true → quota ≤ s'.granted) := by
  refine (holds_reserveQuotaDB hpos).weaken ?_
  rintro r s' rfl rfl
  have := hs.granted
  show quota ≤ s.granted + quota
  omega

variable {as : Booking}

theorem own_landed {w : World} {s : Share} : ((w.putOwn n s).credit delta as).own n = s := by
  rw [own_credit, own_putOwn_self]

theorem holds_spawn (as : Booking) (has : as.Spawns delta s) :
    Holds o (n, c) s (act (.spawn n delta as)) (fun _ s' => s' = as.spawned delta s) := by
  refine issue (Or.inl rfl) ?_
  rintro v hv rfl -
  exact ⟨hv.spawn has, own_landed⟩

theorem holds_record (has : as.Lands delta s) :
    Holds o (n, c) s (Prog.issue (.record node n delta as) report) (fun _ s' => s' = as.landed delta s) := by
  refine issue (Or.inl rfl) ?_
  rintro v hv rfl -
  exact ⟨hv.record has, own_landed⟩

theorem holds_addRow {cap : Option ℤ} (has : as.Lands delta s) :
    Holds o (n, c) s (Prog.issue (.addRow n delta cap as) (·.rowTakes cap)) (fun taken s' =>
      s' = if taken then as.landed delta s else as.refused delta s) := by
  refine issue (Or.inl rfl) ?_
  rintro v hv rfl -
  refine ⟨hv.addRow has, ?_⟩
  show (v.addRow n delta cap as).own n = _
  unfold addRow
  cases htakes : v.rowTakes cap with
  | true => exact own_landed
  | false => exact own_putOwn_self _

/-- The same, where nobody looks whether the row has taken it. -/
theorem holds_act_addRow {cap : Option ℤ} (has : as.Lands delta s) :
    Holds o (n, c) s (act (.addRow n delta cap as)) (fun _ s' =>
      s' = as.landed delta s ∨ s' = as.refused delta s) := by
  refine issue (Or.inl rfl) ?_
  rintro v hv rfl -
  refine ⟨hv.addRow has, ?_⟩
  show (v.addRow n delta cap as).own n = as.landed delta (v.own n) ∨
    (v.addRow n delta cap as).own n = as.refused delta (v.own n)
  unfold addRow
  split
  · exact Or.inl own_landed
  · exact Or.inr (own_putOwn_self _)

/-! ### The calls -/

variable {cfg : Config}

theorem holds_persistQuotaDelta (hdelta : delta ≤ 0) (hg : -delta ≤ s.granted) (hu : -delta ≤ s.unsettled) :
    Holds o (n, c) s (persistQuotaDelta cfg node n delta) (fun persisted s' =>
      s' = if persisted then Booking.reserve.landed delta s else Booking.reserve.refused delta s) := by
  have has : Booking.reserve.Lands delta s := ⟨hdelta, hg, hu⟩
  unfold persistQuotaDelta
  split
  · refine issue (Or.inl rfl) ?_
    rintro v hv rfl -
    exact ⟨hv.record has, own_landed⟩
  · exact holds_addRow has

/-- A snapshot is published only where that is in order, and is nobody's business. -/
theorem holds_fill (quota : ℤ) : Holds o κ s (Prog.issue (.fill quota) report) (fun _ s' => s' = s) :=
  quiet rfl fun _ hv hok => hv.fill hok

theorem Holds.whenOn {b : Bool} {p : QuotaM Unit} {T : Unit → Share → Prop} (hp : b = true → Holds o κ s p T)
    (hskip : b = false → T () s) : Holds o κ s (whenOn b p) T := by
  unfold Quota.whenOn
  cases b with
  | true => exact hp rfl
  | false => exact pure (hskip rfl)

theorem Holds.look_if {b : Bool} {f : World → Bool} :
    Holds o κ s (if b then look f else Pure.pure false) (fun _ s' => s' = s) := by
  split
  · exact holds_look f
  · exact pure rfl

theorem holds_getTokenByKey (fromDB : Bool) : Holds o κ s (getTokenByKey cfg fromDB) (fun _ s' => s' = s) := by
  unfold getTokenByKey
  refine look_if.seq fun found => ?_
  split
  · exact pure rfl
  · refine (holds_look findRow).seq fun row => ?_
    cases row with
    | none => exact pure rfl
    | some quota =>
      refine (Holds.whenOn (fun _ => holds_fill quota) fun _ => rfl).seq fun _ => ?_
      exact pure rfl

theorem holds_getUserCache : Holds o κ s (getUserCache cfg) (fun _ s' => s' = s) := by
  unfold getUserCache
  refine look_if.seq fun hit => ?_
  refine look_if.seq fun served => ?_
  split
  · exact pure rfl
  · refine (holds_look findRow).seq fun row => ?_
    cases row with
    | none => exact pure rfl
    | some quota =>
      simp only
      split
      · refine (holds_look _).seq fun pending => ?_
        split
        · exact pure rfl
        · exact holds_fill quota
      · exact pure rfl

/-- The part of a call that the hash has granted `amount`. -/
def Share.grant (s : Share) (amount : ℤ) : Share :=
  { s with granted := s.granted + amount, unsettled := s.unsettled + amount }

theorem holds_askHash {hydrate : QuotaM (Option QuotaError)} (hpos : 0 ≤ quota)
    (hhydrate : Holds o (n, c) s hydrate (fun _ s' => s' = s)) :
    Holds o (n, c) s (askHash n hydrate quota) (fun r s' => s' = if r = some .ok then s.grant quota else s) := by
  unfold askHash
  refine bind (holds_cacheTryReserveQuota hpos) ?_
  intro first s' hs'
  split
  · rename_i hmiss
    rw [hmiss, if_neg (by decide)] at hs'
    subst hs'
    refine hhydrate.seq fun hydrateErr => ?_
    split
    · exact holds_cacheTryReserveQuota hpos
    · rw [hmiss]
      exact pure (if_neg (by decide)).symm
  · exact pure hs'

theorem holds_persistReserved (hpos : 0 ≤ quota) (hs : s.Nonneg) :
    Holds o (n, c) (s.grant quota) (persistReserved cfg node n quota) (fun r s' =>
      r = .reserved true → quota ≤ s'.granted) := by
  obtain ⟨h1, h2, h3, h4⟩ := hs
  have hgranted : (s.grant quota).granted = s.granted + quota := rfl
  have hunsettled : (s.grant quota).unsettled = s.unsettled + quota := rfl
  refine bind (holds_persistQuotaDelta (by omega) (by omega) (by omega)) ?_
  intro persisted s' hs'
  cases persisted with
  | true =>
    subst hs'
    refine pure fun _ => ?_
    show quota ≤ (s.grant quota).granted
    omega
  | false =>
    subst hs'
    refine bind (holds_tellHash hpos ?_) ?_
    · show quota ≤ s.due - -quota
      omega
    · rintro _ _ rfl
      exact pure fun h => by cases h

/-- A reservation ends with what it was granted on the books, or with nothing. -/
theorem holds_tryReserveQuota {hydrate : QuotaM (Option QuotaError)} (hpos : 0 ≤ quota)
    (hs : s.Nonneg) (hhydrate : Holds o (n, c) s hydrate (fun _ s' => s' = s)) :
    Holds o (n, c) s (tryReserveQuota cfg node n hydrate quota) (fun r s' =>
      r = .reserved true → quota ≤ s'.granted) := by
  refine bind (holds_askHash hpos hhydrate) ?_
  intro result s' hs'
  cases result with
  | none =>
    subst hs'
    exact holds_reserved hpos hs
  | some result =>
    cases result with
    | miss =>
      subst hs'
      exact holds_reserved hpos hs
    | insufficient => exact pure fun h => by cases h
    | ok =>
      subst hs'
      exact holds_persistReserved hpos hs

/-! Credits and charges. -/

theorem holds_toRow {batched : Bool} (as : Booking) (has : as.Lands delta s) :
    Holds o (n, c) s (toRow node n batched delta as) (fun _ _ => True) := by
  unfold toRow
  split
  · exact (holds_record has).weaken fun _ _ _ => trivial
  · exact (holds_act_addRow has).weaken fun _ _ _ => trivial

/-- Nothing is claimed of what a call other than a reservation ends with. -/
theorem holds_done {s : Share} : Holds o κ s (pure .done) (fun (_ : Reply) _ => True) := pure trivial

variable {why : Purpose}

theorem holds_increaseTokenQuota (hs : s.Nonneg) :
    Holds o (n, c) s (increaseTokenQuota cfg node n why quota) (fun _ _ => True) := by
  unfold increaseTokenQuota
  split
  · exact pure trivial
  · rename_i hneg
    have hpos : 0 ≤ quota := by omega
    cases cfg.redisEnabled with
    | true =>
      refine bind (holds_spawn (.first why) hpos) ?_
      rintro _ _ rfl
      refine bind (holds_toRow .second ⟨hpos, ?_⟩) fun _ _ _ => holds_done
      have := hs.coming
      show quota ≤ s.coming + quota
      omega
    | false =>
      refine seq (pure rfl) fun _ => ?_
      exact bind (holds_toRow (.only why) hpos) fun _ _ _ => holds_done

theorem holds_decreaseTokenQuota : Holds o (n, c) s (decreaseTokenQuota cfg node n quota) (fun _ _ => True) := by
  unfold decreaseTokenQuota
  split
  · exact pure trivial
  · have hdelta : -quota ≤ 0 := by omega
    refine bind (R := fun _ s' => s' = s) (Holds.whenOn (fun _ => ?_) fun _ => rfl) ?_
    · exact holds_spawn .charge hdelta
    · rintro _ _ rfl
      exact bind (holds_toRow .charge hdelta) fun _ _ _ => holds_done

theorem holds_increaseUserRow (has : as.Lands quota s) :
    Holds o (n, c) s (increaseUserRow n quota as) (fun r s' => r = none → s' = as.landed quota s) := by
  refine bind (holds_addRow has) ?_
  intro taken s' hs'
  cases taken with
  | true => exact pure fun _ => hs'
  | false =>
    refine (holds_look _).seq fun found => ?_
    exact pure fun h => by cases h

/-- What a credit of a user is to the books: the hash is told of it where there is a cache. -/
def creditBooking (cfg : Config) (why : Purpose) : Booking := if cfg.redisEnabled then .first why else .only why

theorem lands_creditBooking (hpos : 0 ≤ quota) : (creditBooking cfg why).Lands quota s := by
  unfold creditBooking
  split <;> exact hpos

theorem due_creditBooking (hs : s.Nonneg) (hredis : cfg.redisEnabled = true) :
    quota ≤ ((creditBooking cfg why).landed quota s).due := by
  have := hs.due
  rw [creditBooking, if_pos hredis]
  show quota ≤ s.due + quota
  omega

theorem holds_spawnUserDelta (hs : s.Nonneg) (hpos : 0 ≤ quota) :
    Holds o (n, c) ((creditBooking cfg why).landed quota s) (spawnUserDelta cfg n quota .second)
      (fun _ _ => True) := by
  refine Holds.whenOn (fun hredis => ?_) fun _ => trivial
  exact (holds_spawn .second ⟨hpos, due_creditBooking hs hredis⟩).weaken fun _ _ _ => trivial

theorem holds_increaseUserQuota {db : Bool} (hs : s.Nonneg) :
    Holds o (n, c) s (increaseUserQuota cfg node n why quota db) (fun _ _ => True) := by
  unfold increaseUserQuota
  split
  · exact pure trivial
  split
  · exact pure trivial
  have hpos : 0 ≤ quota := by omega
  have hlands : (creditBooking cfg why).Lands quota s := lands_creditBooking hpos
  split
  · refine bind (holds_record hlands) ?_
    rintro _ _ rfl
    exact bind (holds_spawnUserDelta hs hpos) fun _ _ _ => holds_done
  · refine bind (holds_increaseUserRow hlands) ?_
    intro r s' hs'
    cases r with
    | some => exact pure trivial
    | none =>
      obtain rfl := hs' rfl
      exact bind (holds_spawnUserDelta hs hpos) fun _ _ _ => holds_done

theorem holds_creditTopUp (hs : s.Nonneg) : Holds o (n, c) s (creditTopUp cfg n quota) (fun _ _ => True) := by
  unfold creditTopUp
  split
  · exact pure trivial
  · have hpos : 0 ≤ quota := by omega
    have hlands : (creditBooking cfg .topUp).Lands quota s := lands_creditBooking hpos
    refine bind (holds_increaseUserRow hlands) ?_
    intro r s' hs'
    cases r with
    | some => exact pure trivial
    | none =>
      obtain rfl := hs' rfl
      refine bind (R := fun _ _ => True) (Holds.whenOn (fun hredis => ?_) fun _ => trivial)
        fun _ _ _ => holds_done
      exact (holds_tellHash hpos (due_creditBooking hs hredis)).weaken fun _ _ _ => trivial

theorem holds_decreaseUserQuota {db : Bool} :
    Holds o (n, c) s (decreaseUserQuota cfg node n quota db) (fun _ _ => True) := by
  unfold decreaseUserQuota
  split
  · exact pure trivial
  · have hdelta : -quota ≤ 0 := by omega
    refine seq (Holds.whenOn (fun _ => ?_) fun _ => rfl) fun _ => ?_
    · exact holds_spawn .charge hdelta
    · exact bind (holds_toRow .charge hdelta) fun _ _ _ => holds_done

/-- A change of the row that no call of the cache is told of in so many words. -/
theorem holds_changeRow :
    Holds o (n, c) s (act (.addRow n delta none (if delta ≤ 0 then .charge else .only .topUp))) (fun _ _ => True) := by
  refine (holds_act_addRow ?_).weaken fun _ _ _ => trivial
  split
  · exact ‹_›
  · show 0 ≤ delta
    omega

theorem holds_dropHash : Holds o κ s (Prog.issue .dropHash report) (fun _ s' => s' = s) := by
  refine quiet rfl ?_
  intro v hv _
  show (if _ then v else _ : World).Sound o
  split
  · exact hv
  · exact hv.noHash

theorem holds_setFence {fence : Bool} : Holds o κ s (Prog.issue (.setFence fence) report) (fun _ s' => s' = s) := by
  refine quiet rfl ?_
  intro v hv _
  show (if _ then v else _ : World).Sound o
  split
  · exact hv
  · exact ⟨hv.share, hv.store, hv.row, hv.hash, hv.rest⟩

theorem holds_deleteRow : Holds o κ s (act .deleteRow) (fun _ s' => s' = s) :=
  quiet rfl fun _ hv _ => hv.deleteRow

theorem holds_invalidateTokenCacheForMutation :
    Holds o κ s (invalidateTokenCacheForMutation cfg) (fun _ s' => s' = s) := by
  unfold invalidateTokenCacheForMutation
  split
  · refine holds_setFence.seq fun reached => ?_
    exact Holds.whenOn (fun _ => holds_dropHash) fun _ => rfl
  · exact pure rfl

theorem holds_batchUpdate (hs : s.Nonneg) : Holds o (n, c) s (batchUpdate node n) (fun _ _ => True) := by
  -- the batch that was taken is on the books of the flush until it lands
  refine bind (R := fun b s' => b.Fits ∧ b.held ≤ s'.unsettled ∧ b.gain ≤ s'.coming) ?_ ?_
  · refine issue (Or.inl rfl) ?_
    rintro v hv rfl -
    have hbatch := hv.store node
    refine ⟨hv.takeBatch, hbatch, ?_⟩
    show _ ≤ ((v.takeBatch node n).own n).unsettled ∧ _ ≤ ((v.takeBatch node n).own n).coming
    have hown : (v.takeBatch node n).own n = _ := own_putOwn_self _
    rw [hown]
    have h2 := hs.unsettled
    have h3 := hs.coming
    constructor
    · show (v.stores.part node).held ≤ (v.own n).unsettled + (v.stores.part node).held
      have : 0 ≤ (v.own n).unsettled := h2
      omega
    · show (v.stores.part node).gain ≤ (v.own n).coming + (v.stores.part node).gain
      have : 0 ≤ (v.own n).coming := h3
      omega
  · rintro b s' ⟨hb, hheld, hgain⟩
    refine bind (R := fun _ _ => True) ?_ fun _ _ _ => holds_done
    refine issue (Or.inl rfl) ?_
    rintro v hv rfl -
    exact ⟨hv.landBatch hb hheld hgain, trivial⟩

end Programs

/-! ## Every run -/

/-- What a request asks to reserve.  A token without a limit reserves nothing: it is charged. -/
def Request.reserves : Request → ℤ
  | .tryReserveTokenQuota quota unlimited => if unlimited then 0 else quota
  | .tryReserveUserQuota quota => quota
  | _ => 0

section Runs

variable {o : ℤ} {cfg : Config} {n : ℕ} {c : Call} {s : Share}

/-- A call that reserves nothing ends with that much on the books. -/
theorem Holds.reservesNothing {p : QuotaM Reply} (hc : c.request.reserves ≤ 0)
    (hp : Holds o (n, c) s p fun _ _ => True) :
    Holds o (n, c) s p fun r s' => r = .reserved true → c.request.reserves ≤ s'.granted :=
  fun w hw => (hp w hw).weaken fun _ v (hv : v.Sound o) _ _ => hc.trans (hv.share n).granted

theorem holds_tryReserveTokenQuota {node : ℕ} {quota : ℤ} {unlimited : Bool} (hs : s.Nonneg) :
    Holds o (n, c) s (tryReserveTokenQuota cfg node n quota unlimited) (fun r s' =>
      r = .reserved true → (if unlimited then 0 else quota) ≤ s'.granted) := by
  unfold tryReserveTokenQuota
  split
  · exact Holds.pure fun h => by cases h
  split
  · rename_i hzero
    refine Holds.pure fun _ => ?_
    have := hs.granted
    rw [hzero, ite_self]
    exact this
  have hpos : 0 ≤ quota := by omega
  cases unlimited with
  | true =>
    intro w hw
    have hcharge : Holds o (n, c) s (decreaseTokenQuota cfg node n quota >>= fun _ => pure (.reserved true))
        (fun (_ : Reply) _ => True) := Holds.bind holds_decreaseTokenQuota fun _ _ _ => Holds.pure trivial
    exact (hcharge w hw).weaken fun _ v (hv : v.Sound o) _ _ => (hv.share n).granted
  | false =>
    show Holds o (n, c) s (if (!cfg.redisEnabled) = true then _ else _) _
    split
    · exact holds_reserved hpos hs
    · exact holds_tryReserveQuota hpos hs (holds_getTokenByKey true)

theorem holds_tryReserveUserQuota {node : ℕ} {quota : ℤ} (hs : s.Nonneg) :
    Holds o (n, c) s (tryReserveUserQuota cfg node n quota) (fun r s' =>
      r = .reserved true → quota ≤ s'.granted) := by
  unfold tryReserveUserQuota
  split
  · exact Holds.pure fun h => by cases h
  split
  · rename_i hzero
    refine Holds.pure fun _ => ?_
    rw [hzero]
    exact hs.granted
  have hpos : 0 ≤ quota := by omega
  split
  · exact holds_reserved hpos hs
  · exact holds_tryReserveQuota hpos hs holds_getUserCache

/-- Every call keeps the protocol, and a reservation that was granted is on the books. -/
theorem holds_body (hs : s.Nonneg) : Holds o (n, c) s (Call.body cfg n c) (fun r s' =>
    r = .reserved true → c.request.reserves ≤ s'.granted) := by
  have hsame : ∀ {p : QuotaM Unit}, c.request.reserves ≤ 0 → Holds o (n, c) s p (fun _ s' => s' = s) →
      Holds o (n, c) s (p >>= fun _ => pure Reply.done) (fun r s' =>
        r = Reply.reserved true → c.request.reserves ≤ s'.granted) :=
    fun hc hp => Holds.reservesNothing hc (hp.seq fun _ => holds_done)
  obtain ⟨node, request⟩ := c
  cases request with
  | tryReserveTokenQuota => exact holds_tryReserveTokenQuota hs
  | tryReserveUserQuota => exact holds_tryReserveUserQuota hs
  | increaseTokenQuota => exact Holds.reservesNothing le_rfl (holds_increaseTokenQuota hs)
  | decreaseTokenQuota => exact Holds.reservesNothing le_rfl holds_decreaseTokenQuota
  | increaseUserQuota => exact Holds.reservesNothing le_rfl (holds_increaseUserQuota hs)
  | decreaseUserQuota => exact Holds.reservesNothing le_rfl holds_decreaseUserQuota
  | creditTopUp => exact Holds.reservesNothing le_rfl (holds_creditTopUp hs)
  | batchUpdate => exact Holds.reservesNothing le_rfl (holds_batchUpdate hs)
  | getTokenByKey fromDB =>
    exact Holds.reservesNothing le_rfl ((holds_getTokenByKey fromDB).seq fun _ => holds_done)
  | getUserCache => exact Holds.reservesNothing le_rfl (holds_getUserCache.seq fun _ => holds_done)
  | transferAffQuotaToQuota =>
    exact Holds.reservesNothing le_rfl (Holds.bind holds_changeRow fun _ _ _ => holds_done)
  | changeWallet =>
    refine Holds.reservesNothing le_rfl (Holds.bind holds_changeRow fun _ s' _ => ?_)
    exact Holds.seq (Holds.whenOn (fun _ => holds_dropHash) fun _ => rfl) fun _ => holds_done
  | updateToken remain =>
    refine Holds.reservesNothing le_rfl (holds_invalidateTokenCacheForMutation.seq fun _ => ?_)
    exact Holds.seq (Holds.quiet rfl fun _ hv _ => hv.setRow remain) fun _ => holds_done
  | deleteToken =>
    refine Holds.reservesNothing le_rfl (holds_invalidateTokenCacheForMutation.seq fun _ => ?_)
    exact holds_deleteRow.seq fun _ => holds_done
  | deleteUser =>
    refine Holds.reservesNothing le_rfl (holds_deleteRow.seq fun _ => ?_)
    exact Holds.seq (Holds.whenOn (fun _ => holds_dropHash) fun _ => rfl) fun _ => holds_done
  | poolTask k => exact hsame le_rfl (Holds.quiet rfl fun _ hv _ => hv.runTask k)
  | expireHash => exact hsame le_rfl (Holds.quiet rfl fun _ hv _ => hv.noHash)
  | fence => exact hsame le_rfl holds_setFence
  | link =>
    exact hsame le_rfl (Holds.quiet rfl fun _ hv _ => ⟨hv.share, hv.store, hv.row, hv.hash, hv.rest⟩)

end Runs

theorem sound_start (quota : ℤ) (cached : Bool) : (start quota cached).Sound quota := by
  refine ⟨?_, ?_, ?_, ?_, ?_⟩
  · exact fun n => ⟨le_rfl, le_rfl, le_rfl, le_rfl⟩
  · exact fun p => ⟨le_rfl, le_rfl, le_rfl⟩
  · intro _
    show quota + 0 + 0 ≤ max quota 0 + 0 + 0 - 0 + 0 + 0
    omega
  · intro h hh
    cases cached with
    | false => cases hh
    | true =>
      obtain rfl : quota = h := Option.some.inj hh
      show quota + 0 + 0 ≤ max quota 0 + 0 + 0 - 0
      omega
  · show 0 ≤ max quota 0 + 0 + 0 - 0
    omega

/-- What the calls that have ended with a reservation have reserved, all together. -/
def reservedBy (s : QuotaSys) : ℤ :=
  ∑ i ∈ Finset.range s.calls.length, match s.answer? i with
    | some (c, .reserved true) => c.request.reserves
    | _ => 0

/-- What the call `i` has ended with is on its books. -/
def Booked (i : ℕ) (c : Call) (_ : World) (r : Reply) (v : World) : Prop :=
  r = .reserved true → c.request.reserves ≤ (v.own i).granted

theorem reservedBy_le_granted {o : ℤ} {w : World} {s : QuotaSys} (hs : Sys.Good (quotaProtocol o) w Booked s) :
    reservedBy s ≤ s.world.granted := by
  have hsound : s.world.Sound o := hs.inv
  have hnonneg : ∀ i, 0 ≤ (s.world.books.part i).granted := fun i => (hsound.share i).granted
  refine le_trans (Finset.sum_le_sum fun i _ => ?_) (Shares.sum_range_le rfl hnonneg s.calls.length)
  split
  · rename_i c hc
    obtain ⟨since, hended⟩ := Sys.ended_of_answer? hc
    exact hs.ended hended rfl
  · exact hnonneg i

/-- **No oversell.**  In a run in which every fill and every fallback is careful, and nothing else is asked of it,
what was reserved, less what was released, is covered by the quota there was and the top-ups. -/
theorem reservations_never_oversell (cfg : Config) (quota : ℤ) (cached : Bool) (events : List (Event Call))
    (hcareful : Sys.Admits QuotaOp.exec (Call.body cfg) (fun _ _ => True) Careful ⟨start quota cached, []⟩ events) :
    reservedBy (run cfg (start quota cached) events) - (run cfg (start quota cached) events).world.released ≤
      max quota 0 + (run cfg (start quota cached) events).world.toppedUp := by
  have hbody : ∀ n c w, (quotaProtocol quota).Inv w → (quotaProtocol quota).Rely (n, c) (start quota cached) w →
      True → (Call.body cfg n c).Keeps (quotaProtocol quota) (n, c) (Booked n c w) w := by
    intro n c w _ hown _
    exact holds_body (s := {}) ⟨le_rfl, le_rfl, le_rfl, le_rfl⟩ w hown
  have hgood := (Sys.run_keeps hbody events (Sys.good_init (sound_start quota cached)) hcareful).1
  have hreserved : reservedBy (run cfg (start quota cached) events) ≤ _ := reservedBy_le_granted hgood
  have hsound : (run cfg (start quota cached) events).world.Sound quota := hgood.inv
  have hrest := hsound.rest
  unfold rest at hrest
  omega

open Event

/-- Two reservations, the flush of the batch they were recorded in, and a third after the hash has expired. -/
def flushedFirst : List (Event Call) := List.flatten
  [ begin ⟨0, .tryReserveTokenQuota 6 false⟩, begin ⟨1, .tryReserveTokenQuota 3 false⟩, steps 0 2, steps 1 2,
    begin ⟨0, .batchUpdate⟩, steps 2 2, begin ⟨1, .batchUpdate⟩, steps 3 2,
    begin ⟨0, .expireHash⟩, steps 4 1,
    begin ⟨0, .tryReserveTokenQuota 1 false⟩, steps 5 5 ]

theorem reservations_never_oversell_flushedFirst : reservedBy (run ⟨true, true⟩ (start 10 true) flushedFirst) = 10 ∧
    reservedBy (run ⟨true, true⟩ (start 10 true) flushedFirst) -
        (run ⟨true, true⟩ (start 10 true) flushedFirst).world.released ≤
      max 10 0 + (run ⟨true, true⟩ (start 10 true) flushedFirst).world.toppedUp :=
  ⟨by decide +kernel, reservations_never_oversell ⟨true, true⟩ 10 true flushedFirst (by decide +kernel)⟩

/-- The hash expires before the flush, and is filled again from a row that has not heard of the reservation. -/
def expiredFirst : List (Event Call) := List.flatten
  [ begin ⟨0, .tryReserveTokenQuota 10 false⟩, steps 0 2, begin ⟨0, .expireHash⟩, steps 1 1,
    begin ⟨0, .tryReserveTokenQuota 10 false⟩, steps 2 5 ]

/-- The same between the script and the write of one call, without a batch. -/
def expiredBetween : List (Event Call) := List.flatten
  [ begin ⟨0, .tryReserveUserQuota 10⟩, steps 0 1, begin ⟨0, .expireHash⟩, steps 1 1,
    begin ⟨0, .tryReserveUserQuota 10⟩, steps 2 8, steps 0 1 ]

/-- Of a quota of 10, 20 are reserved: of a token in batch mode, of a user without. -/
theorem expired_hash_oversells : ¬ (reservedBy (run ⟨true, true⟩ (start 10 true) expiredFirst) -
          (run ⟨true, true⟩ (start 10 true) expiredFirst).world.released ≤
        10 + (run ⟨true, true⟩ (start 10 true) expiredFirst).world.toppedUp) ∧
    ¬ (reservedBy (run ⟨true, false⟩ (start 10 true) expiredBetween) -
          (run ⟨true, false⟩ (start 10 true) expiredBetween).world.released ≤
        10 + (run ⟨true, false⟩ (start 10 true) expiredBetween).world.toppedUp) := by
  decide +kernel

end NovaMaas.Quota
