/-
  What the two places and everything on its way between them may hold together.

  `rest` is the quota that is really left: what there was at the start, plus what came in, less what calls were
  granted.  The row may be above it by the reservations it has not heard of.  The hash may not be above it, even
  with every credit it has not heard of.  Each statement keeps this up (`Sound`), two kinds of statement under a
  condition of their own: filling the hash, and letting the row decide.
-/
import NovaMaas.Quota.Reserve

namespace NovaMaas.Quota

/-! ## The books add up -/

structure Share.Nonneg (s : Share) : Prop where
  granted   : 0 ≤ s.granted
  unsettled : 0 ≤ s.unsettled
  coming    : 0 ≤ s.coming
  due       : 0 ≤ s.due

/-- What a batch holds, with charges, is no more than its credits less its reservations. -/
structure Batch.Fits (b : Batch) : Prop where
  held  : 0 ≤ b.held
  gain  : 0 ≤ b.gain
  value : b.value + b.held ≤ b.gain

/-- What a call with the part `s` may tell the pool of. -/
def Booking.Spawns (delta : ℤ) (s : Share) : Booking → Prop
  | .first _ => 0 ≤ delta
  | .second => 0 ≤ delta ∧ delta ≤ s.due
  | .only _ => 0 ≤ delta
  | _ => delta ≤ 0

/-- What it may write to the row, or record for it. -/
def Booking.Lands (delta : ℤ) (s : Share) : Booking → Prop
  | .charge => delta ≤ 0
  | .reserve => delta ≤ 0 ∧ -delta ≤ s.granted ∧ -delta ≤ s.unsettled
  | .first _ => 0 ≤ delta
  | .second => 0 ≤ delta ∧ delta ≤ s.coming
  | .only _ => 0 ≤ delta

namespace Booking

variable {delta : ℤ} {s : Share} {as : Booking}

theorem Spawns.spawned (h : as.Spawns delta s) (hs : s.Nonneg) : (as.spawned delta s).Nonneg ∧
    (as.spawned delta s).coming + (as.spawned delta s).granted + s.unsettled ≤
      s.coming + s.granted + (as.spawned delta s).unsettled + as.income delta ∧
    max delta 0 + (as.spawned delta s).due ≤ s.due + as.income delta ∧
    (as.spawned delta s).granted = s.granted ∧ 0 ≤ as.income delta := by
  obtain ⟨h1, h2, h3, h4⟩ := hs
  cases as with
  | charge | reserve =>
    have h : delta ≤ 0 := h
    refine ⟨⟨h1, h2, h3, h4⟩, ?_, ?_, rfl, le_rfl⟩
    all_goals simp only [spawned, income]; omega
  | first =>
    have h : 0 ≤ delta := h
    refine ⟨⟨h1, h2, ?_, h4⟩, ?_, ?_, rfl, h⟩
    all_goals simp only [spawned, income]; omega
  | second =>
    obtain ⟨hpos, hdue⟩ : 0 ≤ delta ∧ delta ≤ s.due := h
    refine ⟨⟨h1, h2, h3, ?_⟩, ?_, ?_, rfl, le_rfl⟩
    all_goals simp only [spawned, income]; omega
  | only =>
    have h : 0 ≤ delta := h
    refine ⟨⟨h1, h2, h3, h4⟩, ?_, ?_, rfl, h⟩
    all_goals simp only [spawned, income]; omega

theorem Lands.landed (h : as.Lands delta s) (hs : s.Nonneg) : (as.landed delta s).Nonneg ∧
    delta + (as.landed delta s).coming + s.unsettled ≤ s.coming + (as.landed delta s).unsettled + as.income delta ∧
    (as.landed delta s).due ≤ s.due + as.income delta ∧
    (as.landed delta s).granted = s.granted ∧ 0 ≤ as.income delta := by
  obtain ⟨h1, h2, h3, h4⟩ := hs
  cases as with
  | charge =>
    have h : delta ≤ 0 := h
    refine ⟨⟨h1, h2, h3, h4⟩, ?_, ?_, rfl, le_rfl⟩
    all_goals simp only [landed, income]; omega
  | reserve =>
    obtain ⟨hdelta, hg, hu⟩ : delta ≤ 0 ∧ -delta ≤ s.granted ∧ -delta ≤ s.unsettled := h
    refine ⟨⟨h1, ?_, h3, h4⟩, ?_, ?_, rfl, le_rfl⟩
    all_goals simp only [landed, income]; omega
  | first =>
    have h : 0 ≤ delta := h
    refine ⟨⟨h1, h2, h3, ?_⟩, ?_, ?_, rfl, h⟩
    all_goals simp only [landed, income]; omega
  | second =>
    obtain ⟨hpos, hc⟩ : 0 ≤ delta ∧ delta ≤ s.coming := h
    refine ⟨⟨h1, h2, ?_, h4⟩, ?_, ?_, rfl, le_rfl⟩
    all_goals simp only [landed, income]; omega
  | only =>
    have h : 0 ≤ delta := h
    refine ⟨⟨h1, h2, h3, h4⟩, ?_, ?_, rfl, h⟩
    all_goals simp only [landed, income]; omega

theorem Lands.refused (h : as.Lands delta s) (hs : s.Nonneg) : (as.refused delta s).Nonneg ∧
    (as.refused delta s).coming + (as.refused delta s).granted + s.unsettled ≤
      s.coming + s.granted + (as.refused delta s).unsettled ∧
    (as.refused delta s).due + (as.refused delta s).granted ≤ s.due + s.granted ∧
    (as.refused delta s).granted ≤ s.granted := by
  obtain ⟨h1, h2, h3, h4⟩ := hs
  cases as with
  | charge | first | only => exact ⟨⟨h1, h2, h3, h4⟩, le_rfl, le_rfl, le_rfl⟩
  | reserve =>
    obtain ⟨hdelta, hg, hu⟩ : delta ≤ 0 ∧ -delta ≤ s.granted ∧ -delta ≤ s.unsettled := h
    refine ⟨⟨?_, ?_, h3, ?_⟩, ?_, ?_, ?_⟩
    all_goals simp only [refused]; omega
  | second =>
    obtain ⟨hpos, hc⟩ : 0 ≤ delta ∧ delta ≤ s.coming := h
    refine ⟨⟨h1, h2, ?_, h4⟩, ?_, ?_, ?_⟩
    all_goals simp only [refused]; omega

/-- What a batch gains by a record, it gains in its books as well. -/
theorem Lands.recorded {b : Batch} (h : as.Lands delta s) (hb : b.Fits) : (as.recorded delta b).Fits ∧
    (as.recorded delta b).gain + b.held + (as.landed delta s).coming + s.unsettled ≤
      b.gain + (as.recorded delta b).held + s.coming + (as.landed delta s).unsettled + as.income delta := by
  obtain ⟨b1, b2, b3⟩ := hb
  cases as with
  | charge =>
    have h : delta ≤ 0 := h
    refine ⟨⟨b1, b2, ?_⟩, ?_⟩
    all_goals simp only [Booking.recorded, Booking.landed, income]; omega
  | reserve =>
    obtain ⟨hdelta, hg, hu⟩ : delta ≤ 0 ∧ -delta ≤ s.granted ∧ -delta ≤ s.unsettled := h
    refine ⟨⟨?_, b2, ?_⟩, ?_⟩
    all_goals simp only [Booking.recorded, Booking.landed, income]; omega
  | first | only =>
    have h : 0 ≤ delta := h
    refine ⟨⟨b1, ?_, ?_⟩, ?_⟩
    all_goals simp only [Booking.recorded, Booking.landed, income]; omega
  | second =>
    obtain ⟨hpos, hc⟩ : 0 ≤ delta ∧ delta ≤ s.coming := h
    refine ⟨⟨b1, ?_, ?_⟩, ?_⟩
    all_goals simp only [Booking.recorded, Booking.landed, income]; omega

end Booking

namespace World

variable (o : ℤ) (w : World)

def granted : ℤ := w.books.sum (·.granted)

def unsettled : ℤ := w.books.sum (·.unsettled)

def coming : ℤ := w.books.sum (·.coming)

def due : ℤ := w.books.sum (·.due)

def held : ℤ := w.stores.sum (·.held)

def gain : ℤ := w.stores.sum (·.gain)

/-- The credits that wait in the pools. -/
def poolDue : ℤ := (w.pool.map fun delta => max delta 0).sum

/-- What is really left of the quota `o` the run began with. -/
def rest : ℤ := max o 0 + w.toppedUp + w.released - w.granted

/-- Every reservation the hash has granted has reached the row. -/
def Settled : Prop := w.unsettled = 0 ∧ w.held = 0

/-- Every credit that has reached the row has reached the hash. -/
def Told : Prop := w.poolDue = 0 ∧ w.due = 0

instance : Decidable w.Settled := inferInstanceAs (Decidable (_ ∧ _))

instance : Decidable w.Told := inferInstanceAs (Decidable (_ ∧ _))

structure Sound : Prop where
  share : ∀ n, (w.own n).Nonneg
  store : ∀ p, (w.stores.part p).Fits
  row   : w.deleted = false → w.quota + w.gain + w.coming ≤ w.rest o + w.held + w.unsettled
  hash  : ∀ h, w.hash = some h → h + w.poolDue + w.due ≤ w.rest o
  rest  : 0 ≤ w.rest o

end World

namespace World

variable {o : ℤ} {w : World} {n p : ℕ}

theorem Sound.due_nonneg (hw : w.Sound o) : 0 ≤ w.due :=
  Shares.sum_nonneg rfl fun n => (hw.share n).due

theorem Sound.coming_nonneg (hw : w.Sound o) : 0 ≤ w.coming :=
  Shares.sum_nonneg rfl fun n => (hw.share n).coming

theorem Sound.gain_nonneg (hw : w.Sound o) : 0 ≤ w.gain :=
  Shares.sum_nonneg rfl fun p => (hw.store p).gain

theorem poolDue_nonneg : 0 ≤ w.poolDue := by
  refine List.sum_nonneg ?_
  intro x hx
  obtain ⟨delta, -, rfl⟩ := List.mem_map.mp hx
  exact le_max_right _ _

theorem poolDue_append (l : List ℤ) (delta : ℤ) :
    ((l ++ [delta]).map fun d => max d 0).sum = (l.map fun d => max d 0).sum + max delta 0 := by
  simp

variable {delta : ℤ}

theorem poolDue_eraseIdx {l : List ℤ} {k : ℕ} (h : l[k]? = some delta) :
    (l.map fun d => max d 0).sum = ((l.eraseIdx k).map fun d => max d 0).sum + max delta 0 := by
  induction l generalizing k with
  | nil => cases h
  | cons x _ ih =>
    cases k with
    | zero =>
      obtain rfl : x = delta := Option.some.inj h
      simp [add_comm]
    | succ k =>
      have := ih (k := k) h
      simp only [List.eraseIdx_cons_succ, List.map_cons, List.sum_cons]
      omega

/-! ## How a statement moves the books -/

/-- What a statement must not do to the part of the call `n` and to the batch of the process `p`. -/
theorem Sound.of_parts {w' : World} {s : Share} {b : Batch} {i : ℤ} (hw : w.Sound o)
    (hin : w'.toppedUp + w'.released = w.toppedUp + w.released + i) (hbooks : w.books.Changed w'.books n s)
    (hstores : w.stores.Changed w'.stores p b) (hs : s.Nonneg) (hb : b.Fits)
    (hrow : w'.deleted = false → w.deleted = false ∧
      w'.quota + b.gain + s.coming + s.granted + (w.stores.part p).held + (w.own n).unsettled ≤
        w.quota + (w.stores.part p).gain + (w.own n).coming + (w.own n).granted + b.held + s.unsettled + i)
    (hhash : ∀ h', w'.hash = some h' → ∃ h, w.hash = some h ∧
      h' + w'.poolDue + s.due + s.granted ≤ h + w.poolDue + (w.own n).due + (w.own n).granted + i)
    (hrest : s.granted ≤ w.rest o + i + (w.own n).granted) : w'.Sound o := by
  have hgranted : w'.granted = w.granted - (w.own n).granted + s.granted := hbooks.sum (·.granted) rfl
  have hunsettled : w'.unsettled = w.unsettled - (w.own n).unsettled + s.unsettled := hbooks.sum (·.unsettled) rfl
  have hcoming : w'.coming = w.coming - (w.own n).coming + s.coming := hbooks.sum (·.coming) rfl
  have hdue : w'.due = w.due - (w.own n).due + s.due := hbooks.sum (·.due) rfl
  have hheld : w'.held = w.held - (w.stores.part p).held + b.held := hstores.sum (·.held) rfl
  have hgain : w'.gain = w.gain - (w.stores.part p).gain + b.gain := hstores.sum (·.gain) rfl
  have hrest' : w'.rest o = w.rest o + i + (w.own n).granted - s.granted := by
    unfold World.rest
    omega
  refine ⟨?_, ?_, ?_, ?_, ?_⟩
  · intro m
    rw [own]
    rcases hbooks.part m with hm | hm <;> rw [hm]
    · exact hs
    · exact hw.share m
  · intro q
    rcases hstores.part q with hq | hq
    · rw [hq]
      exact hb
    · rw [hq]
      exact hw.store q
  · intro hd
    obtain ⟨hd, hq⟩ := hrow hd
    have := hw.row hd
    omega
  · intro h' hh'
    obtain ⟨h, hh, hle⟩ := hhash h' hh'
    have := hw.hash h hh
    omega
  · omega

/-- A statement that changes the part of one call. -/
theorem Sound.of_books {w' : World} {s : Share} {i : ℤ} (hw : w.Sound o)
    (hin : w'.toppedUp + w'.released = w.toppedUp + w.released + i) (hbooks : w.books.Changed w'.books n s)
    (hstores : w'.stores = w.stores) (hs : s.Nonneg)
    (hrow : w'.deleted = false → w.deleted = false ∧ w'.quota + s.coming + s.granted + (w.own n).unsettled ≤
        w.quota + (w.own n).coming + (w.own n).granted + s.unsettled + i)
    (hhash : ∀ h', w'.hash = some h' → ∃ h, w.hash = some h ∧
      h' + w'.poolDue + s.due + s.granted ≤ h + w.poolDue + (w.own n).due + (w.own n).granted + i)
    (hrest : s.granted ≤ w.rest o + i + (w.own n).granted) : w'.Sound o := by
  refine hw.of_parts hin hbooks (Shares.changed_of_eq hstores 0) hs (hw.store 0) ?_ hhash hrest
  intro hd
  obtain ⟨hd, hq⟩ := hrow hd
  exact ⟨hd, by omega⟩

/-- A statement that leaves the books and the batches alone. -/
theorem Sound.of_same {w' : World} {i : ℤ} (hw : w.Sound o)
    (hin : w'.toppedUp + w'.released = w.toppedUp + w.released + i) (hpos : 0 ≤ i) (hbooks : w'.books = w.books)
    (hstores : w'.stores = w.stores) (hrow : w'.deleted = false → w.deleted = false ∧ w'.quota ≤ w.quota + i)
    (hhash : ∀ h', w'.hash = some h' → ∃ h, w.hash = some h ∧ h' + w'.poolDue ≤ h + w.poolDue + i) : w'.Sound o := by
  refine hw.of_books hin (Shares.changed_of_eq hbooks 0) hstores (hw.share 0) ?_ ?_ ?_
  · intro hd
    obtain ⟨hd, hq⟩ := hrow hd
    exact ⟨hd, by show _ + (w.own 0).coming + (w.own 0).granted + _ ≤ _ + _ + _ + (w.own 0).unsettled + _; omega⟩
  · intro h' hh'
    obtain ⟨h, hh, hle⟩ := hhash h' hh'
    exact ⟨h, hh, by show _ + _ + (w.own 0).due + (w.own 0).granted ≤ _; omega⟩
  · have := hw.rest
    show (w.own 0).granted ≤ _
    omega

/-! ## The statements -/

theorem Sound.reserveHash {amount : ℤ} (hw : w.Sound o) (ha : 0 ≤ amount) : (w.reserveHash n amount).Sound o := by
  unfold World.reserveHash
  split
  · exact hw
  · rename_i h hh
    have hle := hw.hash h hh
    have hdue := hw.due_nonneg
    have hpool := poolDue_nonneg (w := w)
    split
    · exact hw
    · rename_i hcond
      have hcov : amount ≤ h := by
        by_contra hlt
        exact hcond (Or.inr (by omega))
      simp only
      split
      · refine hw.of_same (i := 0) (add_zero _).symm le_rfl rfl rfl ?_ ?_
        · exact fun hd => ⟨hd, by simp⟩
        · intro h' hh'
          obtain rfl : h - amount = h' := Option.some.inj hh'
          exact ⟨h, hh, by show h - amount + w.poolDue ≤ h + w.poolDue + 0; omega⟩
      · obtain ⟨h1, h2, h3, h4⟩ := hw.share n
        refine hw.of_books (i := 0) (add_zero _).symm (w.books.changed_set n _) rfl ⟨?_, ?_, h3, h4⟩ ?_ ?_ ?_
        · show 0 ≤ (w.own n).granted + amount
          omega
        · show 0 ≤ (w.own n).unsettled + amount
          omega
        · intro hd
          refine ⟨hd, ?_⟩
          show w.quota + (w.own n).coming + ((w.own n).granted + amount) + (w.own n).unsettled ≤
            w.quota + (w.own n).coming + (w.own n).granted + ((w.own n).unsettled + amount) + 0
          omega
        · intro h' hh'
          obtain rfl : h - amount = h' := Option.some.inj hh'
          refine ⟨h, hh, ?_⟩
          show h - amount + w.poolDue + (w.own n).due + ((w.own n).granted + amount) ≤
            h + w.poolDue + (w.own n).due + (w.own n).granted + 0
          omega
        · show (w.own n).granted + amount ≤ w.rest o + 0 + (w.own n).granted
          omega

/-- A delta of the hash alone: what it adds was due, from a call or from the pools. -/
theorem applyDelta_eq (delta : ℤ) : ∃ x, w.applyDelta delta = { w with hash := x } ∧
    ∀ h', x = some h' → ∃ g, w.hash = some g ∧ h' ≤ g + max delta 0 := by
  unfold applyDelta
  split
  · exact ⟨w.hash, rfl, fun h' h => ⟨h', h, by omega⟩⟩
  · rename_i g hg
    split
    · exact ⟨w.hash, rfl, fun h' h => ⟨h', h, by omega⟩⟩
    · exact ⟨_, rfl, fun h' h => ⟨g, hg, by cases h; omega⟩⟩

theorem Sound.tellHash (hw : w.Sound o) (hpos : 0 ≤ delta) (hdelta : delta ≤ (w.own n).due) :
    (w.tellHash n delta).Sound o := by
  obtain ⟨h1, h2, h3, h4⟩ := hw.share n
  obtain ⟨x, hx, hhash⟩ := applyDelta_eq (w := w) delta
  unfold World.tellHash
  rw [hx]
  refine hw.of_books (i := 0) (add_zero _).symm (w.books.changed_set n _) rfl ⟨h1, h2, h3, ?_⟩ ?_ ?_ ?_
  · show 0 ≤ (w.own n).due - delta
    omega
  · intro hd
    refine ⟨hd, ?_⟩
    show w.quota + (w.own n).coming + (w.own n).granted + (w.own n).unsettled ≤
      w.quota + (w.own n).coming + (w.own n).granted + (w.own n).unsettled + 0
    omega
  · intro h' hh'
    obtain ⟨h, hh, hle⟩ := hhash h' hh'
    refine ⟨h, hh, ?_⟩
    show h' + w.poolDue + ((w.own n).due - delta) + (w.own n).granted ≤
      h + w.poolDue + (w.own n).due + (w.own n).granted + 0
    omega
  · have := hw.rest
    show (w.own n).granted ≤ w.rest o + 0 + (w.own n).granted
    omega

theorem Sound.runTask (hw : w.Sound o) (k : ℕ) : (w.runTask k).Sound o := by
  unfold World.runTask
  split
  · exact hw
  · rename_i delta hk
    have hpool := poolDue_eraseIdx hk
    obtain ⟨x, hx, hhash⟩ := applyDelta_eq (w := w) delta
    rw [hx]
    refine hw.of_same (i := 0) (add_zero _).symm le_rfl rfl rfl ?_ ?_
    · exact fun hd => ⟨hd, by show w.quota ≤ w.quota + 0; omega⟩
    · intro h' hh'
      obtain ⟨h, hh, hle⟩ := hhash h' hh'
      refine ⟨h, hh, ?_⟩
      show h' + ((w.pool.eraseIdx k).map fun d => max d 0).sum ≤ h + (w.pool.map fun d => max d 0).sum + 0
      omega

variable {as : Booking}

/-- What a credit is for makes no difference to what it does. -/
theorem sound_credit {amount : ℤ} (h : ∀ r t, t + r = w.toppedUp + w.released + as.income amount →
    ({ w with released := r, toppedUp := t } : World).Sound o) : (w.credit amount as).Sound o := by
  have hrelease : w.toppedUp + (w.released + amount) = w.toppedUp + w.released + amount := by omega
  have htopUp : w.toppedUp + amount + w.released = w.toppedUp + w.released + amount := by omega
  cases as with
  | charge | reserve | second => exact h _ _ (add_zero _).symm
  | first why | only why =>
    cases why with
    | release => exact h _ _ hrelease
    | topUp => exact h _ _ htopUp

theorem Sound.spawn (hw : w.Sound o) (has : as.Spawns delta (w.own n)) :
    (w.spawn n delta as).Sound o := by
  have hshare := hw.share n
  have hpool := poolDue_append w.pool delta
  have hrest := hw.rest
  obtain ⟨hs, hrow, hhash, hgranted, hin⟩ := has.spawned hshare
  refine sound_credit fun r t hi => ?_
  refine hw.of_books hi (w.books.changed_set n _) rfl hs ?_ ?_ ?_
  · intro hd
    refine ⟨hd, ?_⟩
    show w.quota + _ + _ + _ ≤ _
    omega
  · intro h hh
    refine ⟨h, hh, ?_⟩
    show h + ((w.pool ++ [delta]).map fun d => max d 0).sum + _ + _ ≤ h + (w.pool.map fun d => max d 0).sum + _ + _ + _
    omega
  · omega

/-- Nothing fills the hash but a snapshot that is still true. -/
theorem Sound.fill {quota : ℤ} (hw : w.Sound o)
    (hok : w.fills = true → w.deleted = false ∧ quota ≤ w.quota ∧ w.Settled ∧ w.Told) : (w.fill quota).Sound o := by
  unfold World.fill
  split
  · rename_i hfills
    obtain ⟨hd, hq, ⟨hu, he⟩, hp, hdue⟩ := hok hfills
    refine ⟨hw.share, hw.store, hw.row, ?_, hw.rest⟩
    intro h hh
    obtain rfl : quota = h := Option.some.inj hh
    have hrow := hw.row hd
    have hgain := hw.gain_nonneg
    have hcoming := hw.coming_nonneg
    show quota + w.poolDue + w.due ≤ w.rest o
    omega
  · exact hw

theorem Sound.noHash (hw : w.Sound o) : ({ w with hash := none } : World).Sound o :=
  ⟨hw.share, hw.store, hw.row, (fun h hh => by cases hh), hw.rest⟩

theorem Sound.addRow {cap : Option ℤ} (hw : w.Sound o)
    (has : as.Lands delta (w.own n)) : (w.addRow n delta cap as).Sound o := by
  have hshare := hw.share n
  have hrest := hw.rest
  unfold World.addRow
  split
  · obtain ⟨hs, hrow, hdue, hgranted, hin⟩ := has.landed hshare
    refine sound_credit fun r t hi => ?_
    refine hw.of_books hi (w.books.changed_set n _) rfl hs ?_ ?_ ?_
    · intro hd
      refine ⟨hd, ?_⟩
      show w.quota + delta + _ + _ + _ ≤ _
      omega
    · intro h hh
      refine ⟨h, hh, ?_⟩
      show h + w.poolDue + _ + _ ≤ _
      omega
    · omega
  · obtain ⟨hs, hrow, hdue, hgranted⟩ := has.refused hshare
    refine hw.of_books (i := 0) (add_zero _).symm (w.books.changed_set n _) rfl hs ?_ ?_ ?_
    · intro hd
      refine ⟨hd, ?_⟩
      show w.quota + _ + _ + _ ≤ _
      omega
    · intro h hh
      refine ⟨h, hh, ?_⟩
      show h + w.poolDue + _ + _ ≤ _
      omega
    · omega

/-- The row may decide while there is no hash, and every reservation has reached it. -/
theorem Sound.reserveRow {quota : ℤ} (hw : w.Sound o) (hpos : 0 ≤ quota)
    (hok : w.rowCovers quota = true → w.hash = none ∧ w.Settled) : (w.reserveRow n quota).Sound o := by
  unfold World.reserveRow
  split
  · rename_i hcov
    obtain ⟨hhash, hu, he⟩ := hok hcov
    obtain ⟨hd, hq⟩ : w.deleted = false ∧ quota ≤ w.quota := by simpa [rowCovers] using hcov
    obtain ⟨h1, h2, h3, h4⟩ := hw.share n
    have hrow := hw.row hd
    have hgain := hw.gain_nonneg
    have hcoming := hw.coming_nonneg
    refine hw.of_books (i := 0) (add_zero _).symm (w.books.changed_set n _) rfl ⟨?_, h2, h3, h4⟩ ?_ ?_ ?_
    · show 0 ≤ (w.own n).granted + quota
      omega
    · intro hd
      refine ⟨hd, ?_⟩
      show w.quota - quota + (w.own n).coming + ((w.own n).granted + quota) + (w.own n).unsettled ≤
        w.quota + (w.own n).coming + (w.own n).granted + (w.own n).unsettled + 0
      omega
    · intro h hh
      have hh : w.hash = some h := hh
      rw [hhash] at hh
      cases hh
    · show (w.own n).granted + quota ≤ w.rest o + 0 + (w.own n).granted
      omega
  · exact hw

theorem Sound.setRow (hw : w.Sound o) (quota : ℤ) : (w.setRow quota).Sound o := by
  unfold World.setRow
  split
  · exact hw
  · refine sound_credit fun r t hin => ?_
    refine hw.of_same hin (le_max_right _ _) rfl rfl ?_ ?_
    · exact fun hd => ⟨hd, by show quota ≤ w.quota + max (quota - w.quota) 0; omega⟩
    · intro h hh
      refine ⟨h, hh, ?_⟩
      show h + w.poolDue ≤ h + w.poolDue + max (quota - w.quota) 0
      omega

theorem Sound.deleteRow (hw : w.Sound o) : ({ w with deleted := true } : World).Sound o :=
  ⟨hw.share, hw.store, (fun hd => by cases hd), hw.hash, hw.rest⟩

theorem Sound.record (hw : w.Sound o) (has : as.Lands delta (w.own n)) :
    (w.record p n delta as).Sound o := by
  obtain ⟨hs, hrow, hdue, hgranted, hin⟩ := has.landed (hw.share n)
  obtain ⟨hb, hbatch⟩ := has.recorded (hw.store p)
  refine sound_credit fun r t hi => ?_
  refine hw.of_parts hi (w.books.changed_set n _) (w.stores.changed_set p _) hs hb ?_ ?_ ?_
  · intro hd
    refine ⟨hd, ?_⟩
    show w.quota + _ + _ + _ + _ + _ ≤ _
    omega
  · intro h hh
    refine ⟨h, hh, ?_⟩
    show h + w.poolDue + _ + _ ≤ _
    omega
  · have := hw.rest
    omega

theorem Sound.takeBatch (hw : w.Sound o) : (w.takeBatch p n).Sound o := by
  obtain ⟨h1, h2, h3, h4⟩ := hw.share n
  obtain ⟨b1, b2, b3⟩ := hw.store p
  refine hw.of_parts (i := 0) (add_zero _).symm (w.books.changed_set n _) (w.stores.changed_set p _) ⟨h1, ?_, ?_, h4⟩
    ⟨le_rfl, le_rfl, le_rfl⟩ ?_ (fun h hh => ⟨h, hh, (add_zero _).ge⟩) ?_
  · show 0 ≤ (w.own n).unsettled + (w.stores.part p).held
    omega
  · show 0 ≤ (w.own n).coming + (w.stores.part p).gain
    omega
  · intro hd
    refine ⟨hd, ?_⟩
    show w.quota + 0 + ((w.own n).coming + (w.stores.part p).gain) + (w.own n).granted + (w.stores.part p).held +
        (w.own n).unsettled ≤
      w.quota + (w.stores.part p).gain + (w.own n).coming + (w.own n).granted + 0 +
        ((w.own n).unsettled + (w.stores.part p).held) + 0
    omega
  · have := hw.rest
    show (w.own n).granted ≤ w.rest o + 0 + (w.own n).granted
    omega

theorem Sound.landBatch {b : Batch} (hw : w.Sound o) (hb : b.Fits) (hheld : b.held ≤ (w.own n).unsettled)
    (hgain : b.gain ≤ (w.own n).coming) : (w.landBatch n b).Sound o := by
  obtain ⟨h1, h2, h3, h4⟩ := hw.share n
  obtain ⟨b1, b2, b3⟩ := hb
  refine hw.of_books (i := 0) (add_zero _).symm (w.books.changed_set n _) rfl ⟨h1, ?_, ?_, h4⟩ ?_
    (fun h hh => ⟨h, hh, (add_zero _).ge⟩) ?_
  · show 0 ≤ (w.own n).unsettled - b.held
    omega
  · show 0 ≤ (w.own n).coming - b.gain
    omega
  · intro hd
    have hd : w.deleted = false := hd
    refine ⟨hd, ?_⟩
    show (if w.deleted then w.quota else w.quota + b.value) + ((w.own n).coming - b.gain) + (w.own n).granted +
        (w.own n).unsettled ≤
      w.quota + (w.own n).coming + (w.own n).granted + ((w.own n).unsettled - b.held) + 0
    rw [hd, if_neg Bool.false_ne_true]
    omega
  · have := hw.rest
    show (w.own n).granted ≤ w.rest o + 0 + (w.own n).granted
    omega

end World

end NovaMaas.Quota
