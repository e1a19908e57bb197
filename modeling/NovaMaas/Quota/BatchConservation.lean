/-
  Nothing recorded with the batch updater is lost.

  Whatever was recorded for a type and an id is written, or in a map, or in the hands of a flush
  (`Conserved.recorded`): each statement moves an amount from one of the three to another.  That says little while a
  flush may keep what it holds for good.  A flush knows what it holds: the maps it took.  It walks the keys of each,
  and a key that it has walked is a key of which it holds nothing any more, so it ends with nothing in its hands
  (`owns_batchUpdate`).  The keys of the three maps of users are walked together, once each, whichever of the maps
  they came from.
-/
import NovaMaas.Quota.BatchUpdate

open List Function

namespace NovaMaas.BatchUpdate

open Interleave World Prog.Owns

/-! ## Sums -/

/-- `value` at one type and id. -/
def spike (t : BatchUpdateType) (id value : ℤ) : Sums := fun t' id' => if t' = t ∧ id' = id then value else 0

theorem spike_self (t : BatchUpdateType) (id value : ℤ) : spike t id value t id = value := if_pos ⟨rfl, rfl⟩

theorem spike_ne {t t' : BatchUpdateType} (h : t' ≠ t) (id value id' : ℤ) : spike t id value t' id' = 0 :=
  if_neg fun heq => h heq.1

theorem spike_neg (t t' : BatchUpdateType) (id value id' : ℤ) :
    spike t id (-value) t' id' = -spike t id value t' id' := by
  unfold spike
  split <;> rfl

theorem Sums.add_apply (s : Sums) (t : BatchUpdateType) (id value : ℤ) (t' : BatchUpdateType) (id' : ℤ) :
    s.add t id value t' id' = s t' id' + spike t id value t' id' := by
  unfold Sums.add spike
  by_cases ht : t' = t
  · subst ht
    by_cases hid : id' = id
    · subst hid
      simp
    · simp [hid]
  · simp [ht]

theorem map_add_zero (x : Option ℤ) : x.map (· + 0) = x := by
  cases x with
  | none => rfl
  | some a => exact congrArg some (add_zero a)

/-- A column after one row has gained `value`. -/
theorem map_update {α : Type} {g : α → ℤ} {h : α → α} {value : ℤ} (hg : ∀ r, g (h r) = g r + value)
    (rows : ℤ → Option α) (t : BatchUpdateType) (id id' : ℤ) :
    (update rows id ((rows id).map h) id').map g = ((rows id').map g).map (· + spike t id value t id') := by
  by_cases hid : id' = id
  · subst hid
    rw [update_self, spike_self, Option.map_map, Option.map_map]
    congr 1
    funext r
    exact hg r
  · have hspike : spike t id value t id' = 0 := if_neg fun heq => hid heq.2
    rw [update_of_ne hid, hspike, map_add_zero]

theorem Store.delta_empty (id : ℤ) : Store.delta Table.empty id = 0 := rfl

theorem Store.delta_put (store : Store) (id sum id' : ℤ) :
    Store.delta (store.put (id, sum)) id' = if id' = id then sum else store.delta id' := by
  unfold Store.delta
  rw [Table.get?_put]
  by_cases h : id' = id
  · subst h
    simp
  · have h' : ¬ id = id' := fun heq => h heq.symm
    simp [h, h']

theorem Store.delta_of_not_mem {store : Store} {id : ℤ} (h : id ∉ store.keys) : store.delta id = 0 := by
  have hnone : store.get? id = none := by
    rw [Table.get?_eq_none]
    intro r hr hid
    exact h (mem_map.mpr ⟨r, hr, hid⟩)
  unfold Store.delta
  rw [hnone]
  rfl

theorem Store.keys_nodup (store : Store) : store.keys.Nodup := store.nodup

/-! ## What is conserved -/

namespace World

/-- What has reached the database, recorded or not. -/
def applied (w : World) (t : BatchUpdateType) (id : ℤ) : ℤ := w.written t id + w.direct t id

variable {w : World}

variable (n : ℕ) (flush : Option ℕ) (t t' : BatchUpdateType) (id value : ℤ)

theorem inFlight_set (held : Sums) (t : BatchUpdateType) (id : ℤ) :
    (w.flight.set n held).sum (fun held => held t id) = w.inFlight t id - w.flight.part n t id + held t id :=
  Shares.sum_set rfl w.flight n held

theorem pending_record {t : BatchUpdateType} {id value : ℤ} (hfits : (BatchOp.record t id value).Fits w)
    (t' : BatchUpdateType) (id' : ℤ) :
    (w.record t id value).pending t' id' = w.pending t' id' + spike t id value t' id' := by
  obtain ⟨hlow, hhigh⟩ := hfits
  show (update w.stores t ((w.stores t).put (id, _)) t').delta id' = (w.stores t').delta id' + _
  by_cases ht : t' = t
  · subst ht
    rw [update_self, Store.delta_put]
    by_cases hid : id' = id
    · subst hid
      rw [if_pos rfl, spike_self]
      unfold pending at hlow hhigh
      unfold Store.delta at hlow hhigh ⊢
      cases hold : (w.stores t').get? id' with
      | none => simp
      | some r =>
        obtain ⟨k, old⟩ := r
        rw [hold] at hlow hhigh
        exact addDelta_of_fits hlow hhigh
    · have hspike : spike t' id value t' id' = 0 := if_neg fun heq => hid heq.2
      rw [if_neg hid, hspike, add_zero]
  · rw [update_of_ne ht, spike_ne ht, add_zero]

theorem pending_swap :
    (w.swap n t).pending t' id = if t' = t then 0 else w.pending t' id := by
  show (update w.stores t Table.empty t').delta id = _
  by_cases ht : t' = t
  · subst ht
    rw [update_self, if_pos rfl, Store.delta_empty]
  · rw [update_of_ne ht, if_neg ht]
    rfl

theorem part_swap :
    (w.swap n t).flight.part n t' id = w.flight.part n t' id + if t' = t then w.pending t' id else 0 := by
  show (w.flight.set n _).part n t' id = _
  rw [Shares.part_set_self]
  by_cases ht : t' = t
  · subst ht
    rw [update_self, if_pos rfl]
  · rw [update_of_ne ht, if_neg ht, add_zero]

theorem inFlight_swap :
    (w.swap n t).inFlight t' id = w.inFlight t' id + if t' = t then w.pending t' id else 0 := by
  have hset := inFlight_set (w := w) n ((w.swap n t).flight.part n) t' id
  rw [part_swap] at hset
  have hsame : (w.swap n t).flight = w.flight.set n ((w.swap n t).flight.part n) := by
    show w.flight.set n _ = w.flight.set n ((w.flight.set n _).part n)
    rw [Shares.part_set_self]
  unfold inFlight at hset ⊢
  rw [hsame, hset]
  omega

theorem applied_book (t' : BatchUpdateType) (id' : ℤ) :
    (w.book flush t id value).applied t' id' = w.applied t' id' + spike t id value t' id' := by
  unfold applied book
  cases flush with
  | none =>
    show w.written t' id' + w.direct.add t id value t' id' = _
    rw [Sums.add_apply]
    omega
  | some =>
    show w.written.add t id value t' id' + w.direct t' id' = _
    rw [Sums.add_apply]
    omega

/-- What a flush writes it no longer holds. -/
theorem handled_book (t' : BatchUpdateType) (id' : ℤ) :
    (w.book flush t id value).written t' id' + (w.book flush t id value).inFlight t' id' =
      w.written t' id' + w.inFlight t' id' := by
  unfold book
  cases flush with
  | none => rfl
  | some n =>
    show w.written.add t id value t' id' + (w.flight.set n _).sum (fun held => held t' id') = _
    rw [inFlight_set, Sums.add_apply, Sums.add_apply, spike_neg]
    omega

theorem column_book (t' : BatchUpdateType) (id' : ℤ) :
    (w.book flush t id value).column t' id' = w.column t' id' := by
  unfold book
  cases flush with
  | none => cases t' <;> rfl
  | some => cases t' <;> rfl

end World

/-- Everything recorded is written, in flight or pending, and a row has gained what was written to it since the world
`o` in which the process started. -/
structure Conserved (o w : World) : Prop where
  recorded : ∀ t id, w.written t id + w.inFlight t id + w.pending t id = w.recorded t id
  rows : ∀ t id, w.column t id = (o.column t id).map (· + w.applied t id)

theorem conserved_start (users : ℤ → Option UserRow) (tokens : ℤ → Option TokenRow) (channels : ℤ → Option ℤ) :
    Conserved (start users tokens channels) (start users tokens channels) := by
  constructor
  · intro t id
    rfl
  · intro t id
    have hzero : (start users tokens channels).applied t id = 0 := rfl
    simp [hzero]

namespace Conserved

variable {o w : World}

theorem record (hw : Conserved o w) {t : BatchUpdateType} {id value : ℤ}
    (hfits : (BatchOp.record t id value).Fits w) : Conserved o (w.record t id value) := by
  refine ⟨?_, ?_⟩
  · intro t' id'
    have hrecorded : (w.record t id value).recorded t' id' = w.recorded t' id' + spike t id value t' id' :=
      Sums.add_apply _ _ _ _ _ _
    rw [hrecorded, pending_record hfits, ← hw.recorded t' id']
    show w.written t' id' + w.inFlight t' id' + (w.pending t' id' + spike t id value t' id') = _
    omega
  · intro t' id'
    show w.column t' id' = (o.column t' id').map (· + w.applied t' id')
    exact hw.rows t' id'

theorem swap (hw : Conserved o w) (n : ℕ) (t : BatchUpdateType) : Conserved o (w.swap n t) := by
  refine ⟨?_, hw.rows⟩
  intro t' id'
  rw [pending_swap, inFlight_swap]
  show w.written t' id' + _ + _ = w.recorded t' id'
  have := hw.recorded t' id'
  split <;> omega

/-- An update adds to rows what it books. -/
theorem of_update (hw : Conserved o w) {v : World}
    (hhandled : ∀ t id, v.written t id + v.inFlight t id = w.written t id + w.inFlight t id)
    (hpending : ∀ t id, v.pending t id = w.pending t id) (hrecorded : v.recorded = w.recorded)
    (hrows : ∀ t id, v.column t id = (w.column t id).map (· + (v.applied t id - w.applied t id))) :
    Conserved o v := by
  refine ⟨?_, ?_⟩
  · intro t id
    have := hw.recorded t id
    rw [hhandled, hpending, hrecorded]
    exact this
  · intro t id
    rw [hrows, hw.rows, Option.map_map]
    congr 1
    funext x
    show x + w.applied t id + (v.applied t id - w.applied t id) = x + v.applied t id
    omega

theorem updateToken (hw : Conserved o w) (flush : Option ℕ) (id delta : ℤ) :
    Conserved o (w.updateToken flush id delta) := by
  refine hw.of_update (handled_book _ _ _ _) ?_ ?_ ?_
  · intro t id'
    cases flush <;> rfl
  · cases flush <;> rfl
  · intro t id'
    unfold World.updateToken
    rw [World.column_book, World.applied_book]
    show _ = (w.column t id').map (· + (w.applied t id' + spike .tokenQuota id delta t id' - w.applied t id'))
    rw [add_sub_cancel_left]
    cases t with
    | tokenQuota => exact map_update (fun _ => rfl) _ _ _ _
    | _ => exact (map_add_zero _).symm

theorem updateChannel (hw : Conserved o w) (flush : Option ℕ) (id delta : ℤ) :
    Conserved o (w.updateChannel flush id delta) := by
  refine hw.of_update (handled_book _ _ _ _) ?_ ?_ ?_
  · intro t id'
    cases flush <;> rfl
  · cases flush <;> rfl
  · intro t id'
    unfold World.updateChannel
    rw [World.column_book, World.applied_book]
    show _ = (w.column t id').map (· + (w.applied t id' + spike .channelUsedQuota id delta t id' - w.applied t id'))
    rw [add_sub_cancel_left]
    cases t with
    | channelUsedQuota =>
      have hrow := map_update (g := fun x : ℤ => x) (h := (· + delta)) (fun _ => rfl) w.channels .channelUsedQuota id id'
      simp only [Option.map_id_fun', id_eq] at hrow
      exact hrow
    | _ => exact (map_add_zero _).symm

theorem updateUser (hw : Conserved o w) (flush : Option ℕ) (id quota usedQuota requestCount : ℤ) :
    Conserved o (w.updateUser flush id quota usedQuota requestCount) := by
  refine hw.of_update ?_ ?_ ?_ ?_
  · intro t id'
    unfold World.updateUser
    rw [World.handled_book, World.handled_book, World.handled_book]
    rfl
  · intro t id'
    cases flush <;> rfl
  · cases flush <;> rfl
  · intro t id'
    unfold World.updateUser
    simp only [World.column_book, World.applied_book]
    show _ = (w.column t id').map (· + (w.applied t id' + spike .userQuota id quota t id' +
      spike .usedQuota id usedQuota t id' + spike .requestCount id requestCount t id' - w.applied t id'))
    have hsum : ∀ a b c d : ℤ, a + b + c + d - a = b + c + d := fun a b c d => by omega
    rw [hsum]
    cases t with
    | userQuota =>
      rw [spike_ne (by decide) id usedQuota, spike_ne (by decide) id requestCount, add_zero, add_zero]
      exact map_update (fun _ => rfl) _ _ _ _
    | usedQuota =>
      rw [spike_ne (by decide) id quota, spike_ne (by decide) id requestCount, zero_add, add_zero]
      exact map_update (fun _ => rfl) _ _ _ _
    | requestCount =>
      rw [spike_ne (by decide) id quota, spike_ne (by decide) id usedQuota, zero_add, zero_add]
      exact map_update (fun _ => rfl) _ _ _ _
    | _ => exact (map_add_zero _).symm

theorem exec (hw : Conserved o w) {op : BatchOp} (hfits : op.Fits w) : Conserved o (op.exec w) := by
  cases op with
  | look => exact hw
  | record => exact hw.record hfits
  | swap n t => exact hw.swap n t
  | updateToken flush id delta => exact hw.updateToken flush id delta
  | updateChannel flush id delta => exact hw.updateChannel flush id delta
  | updateUser flush id quota usedQuota requestCount => exact hw.updateUser flush id quota usedQuota requestCount
  | creditUser id quota limit =>
    show Conserved o (if w.takesCredit id limit then w.updateUser none id quota 0 0 else w)
    split
    · exact hw.updateUser none id quota 0 0
    · exact hw

end Conserved

/-! ## What a flush holds -/

/-- What the call `n` holds. -/
def held (n : ℕ) (w : World) : Sums := w.flight.part n

abbrev Owns {α : Type} (o : World) (i : ℕ × BatchCall) (s : Sums) (p : BatchM α) (T : α → Sums → Prop) : Prop :=
  Prog.Owns BatchOp.exec BatchOp.Fits (Conserved o) held i s p T

/-- The call a statement is booked on. -/
def BatchOp.flush : BatchOp → Option ℕ
  | swap n _ => some n
  | updateToken flush _ _ => flush
  | updateChannel flush _ _ => flush
  | updateUser flush _ _ _ _ => flush
  | _ => none

theorem held_book_ne {w : World} {flush : Option ℕ} {m : ℕ} (h : flush ≠ some m) (t : BatchUpdateType)
    (id value : ℤ) : held m (w.book flush t id value) = held m w := by
  cases flush with
  | none => rfl
  | some n =>
    have hne : m ≠ n := fun heq => h (by rw [heq])
    exact Shares.part_set_ne _ hne _

theorem held_book_self {w : World} {n : ℕ} (t : BatchUpdateType) (id value : ℤ) :
    held n (w.book (some n) t id value) = (held n w).add t id (-value) :=
  Shares.part_set_self _ _ _

theorem held_exec {w : World} {op : BatchOp} {m : ℕ} (h : op.flush ≠ some m) : held m (op.exec w) = held m w := by
  cases op with
  | look => rfl
  | record => rfl
  | swap n =>
    have hne : m ≠ n := fun heq => h (congrArg some heq.symm)
    exact Shares.part_set_ne _ hne _
  | updateToken | updateChannel => exact held_book_ne h _ _ _
  | updateUser flush id quota usedQuota requestCount =>
    show held m (updateUser w flush id quota usedQuota requestCount) = held m w
    have hflush : flush ≠ some m := h
    unfold updateUser
    simp only [held_book_ne hflush]
    rfl
  | creditUser id quota limit =>
    show held m (if w.takesCredit id limit then w.updateUser none id quota 0 0 else w) = held m w
    split <;> rfl

section Programs

variable {o : World} {n : ℕ} {c : BatchCall} {s : Sums} {α β : Type}

variable {op : BatchOp}

/-- The rule for a statement that is booked on the call or on nobody. -/
theorem owns_issue {report : World → α} {T : α → Sums → Prop}
    (hflush : op.flush = some n ∨ op.flush = none)
    (h : ∀ w, held n w = s → T (report w) (held n (op.exec w))) : Owns o (n, c) s (Prog.issue op report) T := by
  refine issue ?_
  intro w hw hown hfits
  refine ⟨hw.exec hfits, ?_, h w hown⟩
  intro m hm
  refine held_exec ?_
  rcases hflush with hf | hf
  · rw [hf]
    exact fun heq => hm (Option.some.inj heq).symm
  · rw [hf]
    exact fun heq => by cases heq

/-- A statement that is booked on nobody leaves what a call holds. -/
theorem owns_quiet {report : World → α} (hflush : op.flush = none) :
    Owns o (n, c) s (Prog.issue op report) fun _ s' => s' = s := by
  refine owns_issue (Or.inr hflush) ?_
  intro w hown
  rw [held_exec (by rw [hflush]; exact fun heq => by cases heq), hown]

variable (types : List BatchUpdateType)

theorem owns_hasData : Owns o (n, c) s (hasData types) fun _ s' => s' = s := by
  induction types with
  | nil => exact pure rfl
  | cons _ _ ih =>
    refine bind (owns_quiet rfl) ?_
    rintro filled _ rfl
    cases filled with
    | true => exact pure rfl
    | false => exact ih

theorem owns_takeStores (hnodup : types.Nodup) : Owns o (n, c) s (takeStores n types)
      fun stores s' => ∀ t id, s' t id = s t id + if t ∈ types then (stores t).delta id else 0 := by
  induction types generalizing s with
  | nil => exact pure fun t id => by simp
  | cons t types ih =>
    obtain ⟨hfresh, hnodup⟩ := nodup_cons.mp hnodup
    refine bind (R := fun store s' => ∀ t' id, s' t' id = s t' id + if t' = t then store.delta id else 0)
      (owns_issue (Or.inl rfl) ?_) ?_
    · rintro w rfl t' id
      show (w.swap n t).flight.part n t' id = _
      rw [part_swap]
      by_cases ht : t' = t
      · subst ht
        rfl
      · rw [if_neg ht, if_neg ht]
        rfl
    intro store s' hs'
    refine bind (ih hnodup) ?_
    intro stores s'' hs''
    refine pure ?_
    intro t' id
    rw [hs'', hs']
    by_cases ht : t' = t
    · subst ht
      rw [if_pos rfl, if_neg hfresh, if_pos mem_cons_self, update_self, add_zero]
    · have hmem : t' ∈ t :: types ↔ t' ∈ types := by simp [ht]
      rw [if_neg ht, add_zero, update_of_ne ht]
      simp only [hmem]

/-- What a flush still holds of the maps it took: nothing of the types it has `done`, and of the types it is at `now`
what they held for the keys still to walk. -/
structure Remains (stores : BatchUpdateType → Store) (done now : List BatchUpdateType) (keys : List ℤ) (s : Sums) :
    Prop where
  nodup : keys.Nodup
  left : ∀ t id, s t id = if t ∈ done then 0 else if t ∈ now → id ∈ keys then (stores t).delta id else 0

variable {stores : BatchUpdateType → Store}

variable {done now : List BatchUpdateType} {keys : List ℤ}

theorem Remains.walk {key : ℤ} {s' : Sums}
    (hdone : ∀ t ∈ now, t ∉ done) (h : Remains stores done now (key :: keys) s)
    (hs' : ∀ t id, s' t id = s t id - if t ∈ now ∧ id = key then (stores t).delta id else 0) :
    Remains stores done now keys s' := by
  obtain ⟨hfresh, hnodup⟩ := nodup_cons.mp h.nodup
  refine ⟨hnodup, ?_⟩
  intro t id
  rw [hs', h.left]
  by_cases hnow : t ∈ now
  · rw [if_neg (hdone t hnow), if_neg (hdone t hnow)]
    by_cases hid : id = key
    · subst hid
      simp [hnow, hfresh]
    · simp [hnow, hid]
  · simp [hnow]

theorem Remains.next {now' : List BatchUpdateType} (h : Remains stores done now [] s)
    (hnodup : keys.Nodup)
    (hkeys : ∀ t ∈ now', ∀ id, id ∉ keys → (stores t).delta id = 0) : Remains stores (now ++ done) now' keys s := by
  refine ⟨hnodup, ?_⟩
  intro t id
  rw [h.left]
  by_cases hdone : t ∈ done
  · simp [hdone]
  · by_cases hnow : t ∈ now
    · simp [hdone, hnow]
    · have hnone : t ∉ now ++ done := by simp [hdone, hnow]
      rw [if_neg hdone, if_pos (fun h => absurd h hnow), if_neg hnone]
      split
      · rfl
      · rename_i hrest
        obtain ⟨hnow', hid⟩ := Classical.not_imp.mp hrest
        exact hkeys t hnow' id hid

/-- One statement of a flush writes what the maps held for a key. -/
theorem owns_write {key : ℤ}
    (hflush : op.flush = some n) (hdone : ∀ t ∈ now, t ∉ done)
    (hop : ∀ w t id, held n (op.exec w) t id = held n w t id - if t ∈ now ∧ id = key then (stores t).delta id else 0)
    (h : Remains stores done now (key :: keys) s) :
    Owns o (n, c) s (act op) fun _ s' => Remains stores done now keys s' := by
  refine owns_issue (Or.inl hflush) ?_
  rintro w rfl
  exact h.walk hdone (hop w)

theorem userIDs_nodup (stores : BatchUpdateType → Store) : (userIDs stores).Nodup := nodup_dedup _

theorem delta_of_not_mem_userIDs {id : ℤ} (hid : id ∉ userIDs stores) :
    ∀ t ∈ [BatchUpdateType.userQuota, .usedQuota, .requestCount], (stores t).delta id = 0 := by
  have hnone : id ∉ (stores .userQuota).keys ∧ id ∉ (stores .usedQuota).keys ∧ id ∉ (stores .requestCount).keys := by
    simpa [userIDs, not_or, and_assoc] using hid
  intro t ht
  refine Store.delta_of_not_mem ?_
  simp only [mem_cons, not_mem_nil, or_false] at ht
  rcases ht with rfl | rfl | rfl
  · exact hnone.1
  · exact hnone.2.1
  · exact hnone.2.2

theorem owns_tokens (keys : List ℤ) (h : Remains stores [] [.tokenQuota] keys s) :
    Owns o (n, c) s (Prog.forEach (fun key => act (.updateToken (some n) key ((stores .tokenQuota).delta key))) keys)
      fun _ s' => Remains stores [] [.tokenQuota] [] s' := by
  refine forEach (Remains stores [] [.tokenQuota]) ?_ keys s h
  intro key keys s hs
  refine owns_write rfl (fun _ _ h => by cases h) ?_ hs
  intro w t id
  have hheld : held n ((BatchOp.updateToken (some n) key ((stores .tokenQuota).delta key)).exec w) =
      (held n w).add .tokenQuota key (-(stores .tokenQuota).delta key) := held_book_self _ _ _
  rw [hheld, Sums.add_apply, spike_neg]
  by_cases h : t = .tokenQuota ∧ id = key
  · obtain ⟨rfl, rfl⟩ := h
    simp [spike_self, sub_eq_add_neg]
  · simp [spike, h]

theorem owns_channels (keys : List ℤ) (h : Remains stores [.tokenQuota] [.channelUsedQuota] keys s) : Owns o (n, c) s
      (Prog.forEach (fun key => act (.updateChannel (some n) key ((stores .channelUsedQuota).delta key))) keys)
      fun _ s' => Remains stores [.tokenQuota] [.channelUsedQuota] [] s' := by
  refine forEach (Remains stores [.tokenQuota] [.channelUsedQuota]) ?_ keys s h
  intro key keys s hs
  refine owns_write rfl (by decide) ?_ hs
  intro w t id
  have hheld : held n ((BatchOp.updateChannel (some n) key ((stores .channelUsedQuota).delta key)).exec w) =
      (held n w).add .channelUsedQuota key (-(stores .channelUsedQuota).delta key) := held_book_self _ _ _
  rw [hheld, Sums.add_apply, spike_neg]
  by_cases h : t = .channelUsedQuota ∧ id = key
  · obtain ⟨rfl, rfl⟩ := h
    simp [spike_self, sub_eq_add_neg]
  · simp [spike, h]

/-- The types that live in the row of a user. -/
def userTypes : List BatchUpdateType := [.userQuota, .usedQuota, .requestCount]

theorem held_updateUser (w : World) (n : ℕ) (stores : BatchUpdateType → Store) (key : ℤ) (t : BatchUpdateType) (id : ℤ) :
    held n (w.updateUser (some n) key ((stores .userQuota).delta key) ((stores .usedQuota).delta key)
      ((stores .requestCount).delta key)) t id =
      held n w t id - if t ∈ userTypes ∧ id = key then (stores t).delta id else 0 := by
  unfold updateUser
  simp only [held_book_self, Sums.add_apply, spike_neg]
  show held n w t id + _ + _ + _ = _
  by_cases hid : id = key
  · subst hid
    cases t <;> simp [spike, userTypes, sub_eq_add_neg]
  · simp [spike, hid]

theorem owns_users (hdone : ∀ t ∈ userTypes, t ∉ done) (keys : List ℤ)
    (h : Remains stores done userTypes keys s) :
    Owns o (n, c) s (Prog.forEach (fun key => updateUserQuotaUsedQuotaAndRequestCount n key
      ((stores .userQuota).delta key) ((stores .usedQuota).delta key) ((stores .requestCount).delta key)) keys)
      fun _ s' => Remains stores done userTypes [] s' := by
  refine forEach (Remains stores done userTypes) ?_ keys s h
  intro key keys s hs
  unfold updateUserQuotaUsedQuotaAndRequestCount
  split
  · -- nothing to write, and nothing held for the key
    rename_i hzero
    refine pure (hs.walk hdone ?_)
    intro t id
    split
    · rename_i hkey
      obtain ⟨ht, rfl⟩ := hkey
      have hdelta : (stores t).delta id = 0 := by
        simp only [userTypes, mem_cons, not_mem_nil, or_false] at ht
        rcases ht with rfl | rfl | rfl
        · exact hzero.1
        · exact hzero.2.1
        · exact hzero.2.2
      omega
    · omega
  · exact owns_write rfl hdone (fun w t id => held_updateUser w n stores key t id) hs

/-- A flush ends with nothing in its hands. -/
theorem owns_batchUpdate (tokens channels users : MapOrder) (hs : s = fun _ _ => 0) :
    Owns o (n, c) s (batchUpdate n tokens channels users) fun _ s' => s' = fun _ _ => 0 := by
  refine bind (owns_hasData _) ?_
  rintro filled _ rfl
  cases filled with
  | false => exact pure hs
  | true =>
    refine bind (owns_takeStores batchUpdateTypes (by decide)) ?_
    intro stores s₁ hs₁
    have hnone : ∀ (t : BatchUpdateType) (order : MapOrder) id, id ∉ order.order (stores t).keys →
        (stores t).delta id = 0 := by
      intro t order id hid
      exact Store.delta_of_not_mem fun hmem => hid ((order.perm _).mem_iff.mpr hmem)
    have hwalk : ∀ (t : BatchUpdateType) (order : MapOrder), (order.order (stores t).keys).Nodup :=
      fun t order => (order.perm _).nodup_iff.mpr (stores t).keys_nodup
    have h₀ : Remains stores [] [] [] s₁ := by
      refine ⟨nodup_nil, ?_⟩
      intro t id
      rw [hs₁, hs, if_pos (mem_batchUpdateTypes t)]
      simp
    refine bind (owns_tokens _ (h₀.next (hwalk .tokenQuota tokens) ?_)) ?_
    · intro t ht id hid
      obtain rfl := mem_singleton.mp ht
      exact hnone _ tokens id hid
    intro _ s₂ h₂
    refine bind (owns_channels _ (h₂.next (hwalk .channelUsedQuota channels) ?_)) ?_
    · intro t ht id hid
      obtain rfl := mem_singleton.mp ht
      exact hnone _ channels id hid
    intro _ s₃ h₃
    have husers : Remains stores [.channelUsedQuota, .tokenQuota] userTypes (users.order (userIDs stores)) s₃ := by
      refine h₃.next ((users.perm _).nodup_iff.mpr (userIDs_nodup stores)) ?_
      intro t ht id hid
      exact delta_of_not_mem_userIDs (fun hmem => hid ((users.perm _).mem_iff.mpr hmem)) t ht
    refine (owns_users (by decide) _ husers).weaken ?_
    intro _ s₄ h₄
    funext t id
    rw [h₄.left]
    cases t <;> simp [userTypes]

theorem owns_addNewRecord (t : BatchUpdateType) (id value : ℤ) :
    Owns o (n, c) s (addNewRecord t id value) fun _ s' => s' = s :=
  owns_quiet rfl

theorem owns_recordOr {recorded : Bool} {t : BatchUpdateType} {id value : ℤ} (hflush : op.flush = none) :
    Owns o (n, c) s (recordOr recorded t id value op) fun _ s' => s' = s := by
  cases recorded with
  | true => exact owns_addNewRecord t id value
  | false => exact owns_quiet hflush

theorem owns_then {p : BatchM Unit} {answer : Option BatchError} (hp : Owns o (n, c) s p fun _ s' => s' = s) :
    Owns o (n, c) s (p >>= fun _ => pure answer) fun _ s' => s' = s :=
  bind hp fun _ _ hs' => pure hs'

theorem owns_ite {α : Type} {b : Prop} [Decidable b] {p q : BatchM α} {T : α → Sums → Prop}
    (hp : Owns o (n, c) s p T) (hq : Owns o (n, c) s q T) : Owns o (n, c) s (if b then p else q) T := by
  split
  · exact hp
  · exact hq

/-- Every call ends with nothing in its hands. -/
theorem owns_body (enabled : Bool) (call : BatchCall) (hs : s = fun _ _ => 0) :
    Owns o (n, c) s (call.body enabled n) fun _ s' => s' = fun _ _ => 0 := by
  have hquiet : Owns o (n, c) s (call.body enabled n) (fun _ s' => s' = s) →
      Owns o (n, c) s (call.body enabled n) fun _ s' => s' = fun _ _ => 0 :=
    fun h => h.weaken fun _ s' hs' => hs'.trans hs
  cases call with
  | batchUpdate tokens channels users =>
    exact bind (owns_batchUpdate tokens channels users hs) fun _ _ hs' => pure hs'
  | addNewRecord t id value => exact hquiet (owns_then (owns_addNewRecord t id value))
  | increaseTokenQuota | decreaseTokenQuota | decreaseUserQuota =>
    exact hquiet (owns_ite (pure rfl) (owns_then (owns_recordOr rfl)))
  | updateChannelUsedQuota | updateUserUsedQuota => exact hquiet (owns_then (owns_recordOr rfl))
  | updateUserUsedQuotaAndRequestCount =>
    refine hquiet (owns_then (owns_ite ?_ (owns_quiet rfl)))
    refine bind (owns_addNewRecord _ _ _) ?_
    rintro _ _ rfl
    exact owns_addNewRecord _ _ _
  | increaseUserQuota =>
    refine hquiet (owns_ite (pure rfl) (owns_ite (pure rfl) ?_))
    refine owns_ite (owns_then (owns_addNewRecord _ _ _)) (bind (owns_quiet rfl) ?_)
    rintro taken _ rfl
    refine owns_ite (pure rfl) ?_
    exact bind (owns_quiet rfl) fun _ _ hs' => pure hs'

end Programs

/-! ## Runs -/

/-- A call that has ended holds nothing. -/
def EndsEmpty (n : ℕ) (_ : BatchCall) (_ : World) (_ : Option BatchError) (v : World) : Prop := held n v = fun _ _ => 0

theorem run_conserved (enabled : Bool) {o : World} (hw : Conserved o o) (hempty : ∀ n, held n o = fun _ _ => 0)
    {events : List (Event BatchCall)}
    (hfits : Sys.Admits BatchOp.exec (BatchCall.body enabled) (fun _ _ => True) BatchOp.Fits ⟨o, []⟩ events) :
    Sys.Good (Protocol.owned BatchOp.exec BatchOp.Fits (Conserved o) held) o EndsEmpty
      (Sys.run BatchOp.exec (BatchCall.body enabled) ⟨o, []⟩ events) := by
  refine (Sys.run_keeps (P := Protocol.owned BatchOp.exec BatchOp.Fits (Conserved o) held) ?_ events
    (Sys.good_init hw) hfits).1
  intro n call w _ hrely _
  have hheld : held n w = held n o := hrely
  exact owns_body enabled call ((hheld.trans (hempty n))) w rfl

/-- **Nothing recorded with the batch updater is lost.**  In every state of every run of records, flushes and writes
past the updater in which no delta in memory overflows, what was written for a type and an id, what flushes hold of it
and what is pending add up to what was recorded.  A call that has ended holds nothing; so with no call in progress
what was written and what is pending are all that was recorded.  A row has gained what was written to it. -/
theorem batch_updates_conserved (enabled : Bool) (users : ℤ → Option UserRow) (tokens : ℤ → Option TokenRow)
    (channels : ℤ → Option ℤ) (events : List (Event BatchCall))
    (hfits : Sys.Admits BatchOp.exec (BatchCall.body enabled) (fun _ _ => True) BatchOp.Fits
      ⟨start users tokens channels, []⟩ events) :
    let s : BatchSys := Sys.run BatchOp.exec (BatchCall.body enabled) ⟨start users tokens channels, []⟩ events
    (∀ t id, s.world.written t id + s.world.inFlight t id + s.world.pending t id = s.world.recorded t id) ∧
    (∀ n call since answer, s.Ended n call since answer → ∀ t id, s.world.flight.part n t id = 0) ∧
    ((∀ n < s.calls.length, ∃ call since answer, s.Ended n call since answer) →
      ∀ t id, s.world.written t id + s.world.pending t id = s.world.recorded t id) ∧
    ∀ t id, s.world.column t id = ((start users tokens channels).column t id).map
      (· + (s.world.written t id + s.world.direct t id)) := by
  intro s
  have hgood : Sys.Good (Protocol.owned BatchOp.exec BatchOp.Fits (Conserved _) held) _ EndsEmpty s :=
    run_conserved enabled (conserved_start users tokens channels) (fun _ => rfl) hfits
  have hended : ∀ n call since answer, s.Ended n call since answer → ∀ t id, s.world.flight.part n t id = 0 := by
    intro n call since answer h t id
    exact congrFun (congrFun (hgood.ended h) t) id
  refine ⟨hgood.inv.recorded, hended, ?_, hgood.inv.rows⟩
  intro hall t id
  have hparts : ∀ n, s.world.flight.part n t id = 0 := by
    intro n
    rcases lt_or_ge n s.calls.length with hlt | hge
    · obtain ⟨call, since, answer, h⟩ := hall n hlt
      exact hended n call since answer h t id
    · have hfresh : held n s.world = held n (start users tokens channels) :=
        hgood.fresh n (.addNewRecord .userQuota 0 0) hge
      exact congrFun (congrFun hfresh t) id
  have hflight : s.world.inFlight t id = 0 := Shares.sum_eq_zero hparts
  have := hgood.inv.recorded t id
  omega

/-- The map as it is. -/
def MapOrder.asIs : MapOrder := ⟨id, fun _ => List.Perm.refl _⟩

/-- A user's used quota is recorded, a flush takes the map, a second record comes before the flush writes. -/
def lateRecord : List (Event BatchCall) :=
  flatten [Event.begin (.updateUserUsedQuota 7 5), Event.steps 0 1,
    Event.begin (.batchUpdate .asIs .asIs .asIs), Event.steps 1 6,
    Event.begin (.updateUserUsedQuota 7 3), Event.steps 2 1, Event.steps 1 3]

def oneUser : ℤ → Option UserRow := fun id => if id = 7 then some ⟨100, 0, 0⟩ else none

theorem batch_updates_conserved_lateRecord :
    let s : BatchSys := Sys.run BatchOp.exec (BatchCall.body true)
      ⟨start oneUser (fun _ => none) (fun _ => none), []⟩ lateRecord
    s.world.written .usedQuota 7 = 5 ∧ s.world.pending .usedQuota 7 = 3 ∧ s.world.column .usedQuota 7 = some 5 ∧
      s.world.written .usedQuota 7 + s.world.inFlight .usedQuota 7 + s.world.pending .usedQuota 7 =
        s.world.recorded .usedQuota 7 :=
  ⟨by decide +kernel, by decide +kernel, by decide +kernel,
    (batch_updates_conserved true oneUser (fun _ => none) (fun _ => none) lateRecord (by decide +kernel)).1 _ _⟩

end NovaMaas.BatchUpdate
