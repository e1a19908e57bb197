/-
  Keyed tables: a list of rows, no two with the same key.

  The primary key of a database table is a constraint the database enforces, so it is a FIELD of the
  structure here (`nodup`), and no proof about a table has to carry the fact around.  Rows keep the
  order they were created in.

  `get?` reads a row by key, `put` is the upsert (replace the row of that key, or append),
  `updateWhere` and `deleteWhere` are the statements with a condition.  The laws say what `put` does
  to a read (`get?_put`), to the keys, and to a sum over all rows (`total_put`).  A `Counter` is a
  table of sums, `bump` its `+=`.  `forEach_rewrite` is the loop that rewrites a table row by row.
-/
import Mathlib
import NovaMaas.Lib.Txn

open List

/-- Rows with pairwise distinct keys, in creation order. -/
structure Table {ρ κ : Type} (key : ρ → κ) where
  rows : List ρ
  nodup : (rows.map key).Nodup

namespace Table

variable {ρ κ : Type} [DecidableEq κ] {key : ρ → κ}

/-- The table with no rows. -/
def empty : Table key := ⟨[], nodup_nil⟩

/-- The row of key `k`. -/
def get? (t : Table key) (k : κ) : Option ρ := t.rows.find? (fun r => key r = k)

/-- Replace the first row with `r`'s key by `r`, or append `r`. -/
def upsert (key : ρ → κ) (r : ρ) : List ρ → List ρ
  | [] => [r]
  | x :: xs => if key x = key r then r :: xs else x :: upsert key r xs

theorem map_key_upsert (r : ρ) : ∀ xs : List ρ, (upsert key r xs).map key =
      if key r ∈ xs.map key then xs.map key else xs.map key ++ [key r] := by
  intro xs
  induction xs with
  | nil => simp [upsert]
  | cons x xs ih =>
    by_cases hx : key x = key r
    · simp [upsert, hx]
    · have hx' : ¬ key r = key x := fun h => hx h.symm
      rw [upsert, if_neg hx, map_cons, ih]
      by_cases hm : key r ∈ xs.map key
      · have hm' : key r ∈ (x :: xs).map key := mem_cons_of_mem _ hm
        rw [if_pos hm, if_pos hm', map_cons]
      · have hm' : key r ∉ (x :: xs).map key := by
          rw [map_cons, mem_cons]
          rintro (h | h)
          · exact hx' h
          · exact hm h
        rw [if_neg hm, if_neg hm', map_cons, cons_append]

theorem nodup_upsert (r : ρ) {xs : List ρ} (h : (xs.map key).Nodup) : ((upsert key r xs).map key).Nodup := by
  rw [map_key_upsert]
  split
  · exact h
  · rename_i hm
    rw [nodup_append_comm, singleton_append, nodup_cons]
    exact ⟨hm, h⟩

/-- Write the row `r` under its key. -/
def put (t : Table key) (r : ρ) : Table key := ⟨upsert key r t.rows, nodup_upsert r t.nodup⟩

/-! ## Reads -/

@[simp] theorem get?_empty (k : κ) : (empty : Table key).get? k = none := rfl

variable {t : Table key} {r : ρ}

theorem key_of_get? {k : κ} (h : t.get? k = some r) : key r = k := by
  simpa using find?_some h

theorem mem_of_get? {k : κ} (h : t.get? k = some r) : r ∈ t.rows :=
  mem_of_find?_eq_some h

theorem find?_of_mem : ∀ {xs : List ρ}, (xs.map key).Nodup → r ∈ xs → xs.find? (fun x => key x = key r) = some r
  | x :: xs, hnd, hmem => by
      rw [map_cons, nodup_cons] at hnd
      rcases mem_cons.mp hmem with h | h
      · subst h
        simp
      · have hne : ¬ key x = key r := fun hk => hnd.1 (hk ▸ mem_map_of_mem h)
        rw [find?_cons, decide_eq_false hne]
        exact find?_of_mem hnd.2 h

theorem get?_of_mem (h : r ∈ t.rows) : t.get? (key r) = some r :=
  find?_of_mem t.nodup h

theorem mem_iff_get? : r ∈ t.rows ↔ t.get? (key r) = some r :=
  ⟨get?_of_mem, mem_of_get?⟩

theorem get?_eq_none {k : κ} : t.get? k = none ↔ ∀ r ∈ t.rows, key r ≠ k := by
  simp [get?, find?_eq_none]

theorem find?_upsert (r : ρ) (k : κ) : ∀ xs : List ρ, (upsert key r xs).find? (fun x => key x = k) =
      if key r = k then some r else xs.find? (fun x => key x = k) := by
  intro xs
  induction xs with
  | nil =>
    by_cases hk : key r = k <;> simp [upsert, hk]
  | cons x xs ih =>
    by_cases hx : key x = key r
    · by_cases hk : key r = k <;> simp [upsert, hx, hk]
    · rw [upsert, if_neg hx, find?_cons, ih]
      by_cases hk : key r = k
      · have hxk : ¬ key x = k := fun h => hx (h.trans hk.symm)
        simp [hk, hxk]
      · rw [if_neg hk, find?_cons, if_neg hk]

/-- Reading after a write. -/
theorem get?_put (t : Table key) (r : ρ) (k : κ) : (t.put r).get? k = if key r = k then some r else t.get? k :=
  find?_upsert r k t.rows

@[simp] theorem get?_put_self (t : Table key) (r : ρ) : (t.put r).get? (key r) = some r := by
  rw [get?_put, if_pos rfl]

theorem get?_put_ne {k : κ} (h : key r ≠ k) : (t.put r).get? k = t.get? k := by
  rw [get?_put, if_neg h]

theorem upsert_upsert {r r' : ρ} (h : key r = key r') : ∀ xs : List ρ,
    upsert key r' (upsert key r xs) = upsert key r' xs := by
  intro xs
  induction xs with
  | nil => simp [upsert, h]
  | cons x xs ih =>
    by_cases hx : key x = key r
    · simp [upsert, h, hx]
    · have hx' : ¬ key x = key r' := h ▸ hx
      rw [upsert, if_neg hx, upsert, if_neg hx', ih, upsert, if_neg hx']

/-- The last write under a key is the one that counts. -/
theorem put_put (t : Table key) {r r' : ρ} (h : key r = key r') : (t.put r).put r' = t.put r' := by
  have hrows : ((t.put r).put r').rows = (t.put r').rows := upsert_upsert h t.rows
  cases hp : (t.put r).put r'
  cases hq : t.put r'
  rw [hp, hq] at hrows
  simp only at hrows
  subst hrows
  rfl

theorem mem_put {r x : ρ} : x ∈ (t.put r).rows ↔ x = r ∨ (x ∈ t.rows ∧ key x ≠ key r) := by
  rw [mem_iff_get?, get?_put]
  by_cases hk : key r = key x
  · rw [if_pos hk]
    constructor
    · intro h
      exact Or.inl (Option.some.inj h).symm
    · rintro (h | h)
      · rw [h]
      · exact absurd hk.symm h.2
  · rw [if_neg hk, ← mem_iff_get?]
    constructor
    · intro h
      exact Or.inr ⟨h, fun h' => hk h'.symm⟩
    · rintro (h | h)
      · exact absurd (congrArg key h).symm hk
      · exact h.1

theorem get?_eq_some_iff {k : κ} : t.get? k = some r ↔ r ∈ t.rows ∧ key r = k := by
  constructor
  · exact fun h => ⟨mem_of_get? h, key_of_get? h⟩
  · rintro ⟨hmem, rfl⟩
    exact get?_of_mem hmem

theorem eq_of_key_eq {r r' : ρ} (hr : r ∈ t.rows) (hr' : r' ∈ t.rows) (h : key r = key r') : r = r' := by
  have hget := get?_of_mem hr
  rw [h, get?_of_mem hr'] at hget
  exact (Option.some.inj hget).symm

/-- `UPDATE … WHERE p`.  The key of a row is not updated. -/
def updateWhere (t : Table key) (p : ρ → Bool) (f : ρ → ρ) (hf : ∀ r, key (f r) = key r) : Table key where
  rows := t.rows.map fun r => if p r then f r else r
  nodup := by
    have hkeys : (t.rows.map fun r => if p r then f r else r).map key = t.rows.map key := by
      rw [map_map]
      refine map_congr_left fun r _ => ?_
      show key (if p r then f r else r) = key r
      split
      · exact hf r
      · rfl
    rw [hkeys]
    exact t.nodup

omit [DecidableEq κ] in
theorem mem_updateWhere_of_mem (p : ρ → Bool) (f : ρ → ρ) (hf : ∀ r, key (f r) = key r)
    (hr : r ∈ t.rows) : (if p r then f r else r) ∈ (t.updateWhere p f hf).rows :=
  mem_map.mpr ⟨r, hr, rfl⟩

omit [DecidableEq κ] in
theorem of_mem_updateWhere {p : ρ → Bool} {f : ρ → ρ} (hf : ∀ r, key (f r) = key r) {x : ρ}
    (h : x ∈ (t.updateWhere p f hf).rows) : ∃ r ∈ t.rows, x = if p r then f r else r := by
  obtain ⟨r, hr, rfl⟩ := mem_map.mp h
  exact ⟨r, hr, rfl⟩

theorem get?_updateWhere (t : Table key) (p : ρ → Bool) (f : ρ → ρ) (hf : ∀ r, key (f r) = key r) (k : κ) :
    (t.updateWhere p f hf).get? k = (t.get? k).map fun r => if p r then f r else r := by
  have hkey : ∀ r, key (if p r then f r else r) = key r := by
    intro r
    by_cases hp : p r = true
    · rw [if_pos hp, hf r]
    · rw [if_neg hp]
  cases hget : t.get? k with
  | none =>
    rw [Option.map_none, get?_eq_none]
    intro x hx hk
    obtain ⟨r, hr, rfl⟩ := of_mem_updateWhere hf hx
    rw [hkey r] at hk
    exact get?_eq_none.1 hget r hr hk
  | some r =>
    obtain ⟨hr, rfl⟩ := get?_eq_some_iff.1 hget
    rw [Option.map_some, get?_eq_some_iff]
    exact ⟨mem_updateWhere_of_mem p f hf hr, hkey r⟩

/-- `DELETE … WHERE p`. -/
def deleteWhere (t : Table key) (p : ρ → Bool) : Table key where
  rows := t.rows.filter fun r => !p r
  nodup := t.nodup.sublist (filter_sublist.map key)

omit [DecidableEq κ] in
theorem mem_deleteWhere {p : ρ → Bool} {x : ρ} : x ∈ (t.deleteWhere p).rows ↔ x ∈ t.rows ∧ p x = false := by
  unfold deleteWhere
  simp

theorem upsert_of_fresh : ∀ {xs : List ρ}, (∀ x ∈ xs, key x ≠ key r) → upsert key r xs = xs ++ [r] := by
  intro xs h
  induction xs with
  | nil => rfl
  | cons x xs ih =>
    rw [upsert, if_neg (h x mem_cons_self), ih fun y hy => h y (mem_cons_of_mem x hy), cons_append]

/-- A row under a new key goes to the end. -/
theorem rows_put_of_fresh (h : ∀ x ∈ t.rows, key x ≠ key r) : (t.put r).rows = t.rows ++ [r] :=
  upsert_of_fresh h

/-- To delete the row that was just created changes nothing. -/
theorem deleteWhere_put_of_fresh {p : ρ → Bool} (hr : p r = true)
    (h : ∀ x ∈ t.rows, key x ≠ key r ∧ p x = false) : (t.put r).deleteWhere p = t := by
  have hrows : ((t.put r).deleteWhere p).rows = t.rows := by
    show (t.put r).rows.filter (fun x => !p x) = t.rows
    rw [rows_put_of_fresh fun x hx => (h x hx).1, filter_append, filter_eq_self.2]
    · simp [hr]
    · intro x hx
      simp [(h x hx).2]
  cases hp : (t.put r).deleteWhere p
  cases t
  rw [hp] at hrows
  simp only at hrows
  subst hrows
  rfl

/-! ## Sums over the rows -/

theorem sum_upsert (f : ρ → ℤ) (r : ρ) : ∀ xs : List ρ, ((upsert key r xs).map f).sum =
      (xs.map f).sum - ((xs.find? (fun x => key x = key r)).elim 0 f) + f r := by
  intro xs
  induction xs with
  | nil => simp [upsert]
  | cons x xs ih =>
    by_cases hx : key x = key r
    · simp only [upsert, if_pos hx, map_cons, sum_cons, find?_cons, decide_eq_true hx, Option.elim_some]
      omega
    · simp only [upsert, if_neg hx, map_cons, sum_cons, find?_cons, decide_eq_false hx, ih]
      omega

/-- The sum of `f` over all rows. -/
def total (t : Table key) (f : ρ → ℤ) : ℤ := (t.rows.map f).sum

/-- A write moves a total by the new row minus the row it replaces. -/
theorem total_put (t : Table key) (f : ρ → ℤ) (r : ρ) :
    (t.put r).total f = t.total f - ((t.get? (key r)).elim 0 f) + f r :=
  sum_upsert f r t.rows

end Table

/-! ## Counters: a table of sums by key -/

/-- One sum per key. -/
abbrev Counter (κ : Type) : Type := Table (Prod.fst : κ × ℤ → κ)

namespace Counter

variable {κ : Type} [DecidableEq κ]

/-- The sum under a key. -/
def value (c : Counter κ) (k : κ) : ℤ := (c.get? k).elim 0 Prod.snd

/-- `c[k] += d`. -/
def bump (c : Counter κ) (k : κ) (d : ℤ) : Counter κ := c.put (k, c.value k + d)

theorem value_bump (c : Counter κ) (k k' : κ) (d : ℤ) :
    (c.bump k d).value k' = c.value k' + (if k = k' then d else 0) := by
  unfold bump
  rw [value, Table.get?_put]
  by_cases hk : k = k'
  · subst hk
    simp
  · simp [hk, value]

/-- A key without a row has sum zero. -/
theorem value_of_not_mem {c : Counter κ} {k : κ} (h : k ∉ c.rows.map Prod.fst) : c.value k = 0 := by
  have hnone : c.get? k = none := by
    rw [Table.get?_eq_none]
    intro r hr hk
    exact h (hk ▸ mem_map_of_mem hr)
  rw [value, hnone]
  rfl

end Counter

/-! ## A table in the state of a transaction -/

namespace Txn

variable {σ ε ρ κ : Type} [DecidableEq κ] {key : ρ → κ}

/-- A loop that rewrites the row of each key it visits: `read` and `write` are the table's place in
    the state, `g` the new row. -/
theorem forEach_rewrite (read : σ → Table key) (write : σ → Table key → σ) (g : κ → ρ → ρ)
    (hread : ∀ s t, read (write s t) = t) (hwrite : ∀ s t t', write (write s t) t' = write s t')
    (hsame : ∀ s, write s (read s) = s) (hkey : ∀ k r, key (g k r) = key r) {f : κ → Txn σ ε Unit}
    (hstep : ∀ k s, wp (f k) (fun _ s' => ∃ r, (read s).get? k = some r ∧ s' = write s ((read s).put (g k r))) s)
    (keys : List κ) (hnodup : keys.Nodup) (s : σ) :
    wp (forEach (fun _ k => f k) () keys) (fun _ s' =>
      (∀ k, (read s').get? k = ((read s).get? k).map (fun r => if k ∈ keys then g k r else r)) ∧
        s' = write s (read s')) s := by
  refine wp_forEach _ (fun _ done s' =>
    (∀ k, (read s').get? k = ((read s).get? k).map (fun r => if k ∈ done then g k r else r)) ∧
      s' = write s (read s')) keys () s ?_ ?_
  · refine ⟨?_, (hsame s).symm⟩
    intro k
    simp
  · rintro _ done k rest s1 hsplit ⟨hget, hframe⟩
    refine wp_mono (hstep k s1) ?_
    rintro _ s2 ⟨r, hr, rfl⟩
    have hfresh : k ∉ done := by
      rw [hsplit, nodup_append] at hnodup
      intro hmem
      exact hnodup.2.2 k hmem k mem_cons_self rfl
    have hrow : (read s).get? k = some r := by
      have h := hget k
      rw [hr] at h
      simpa [hfresh] using h.symm
    refine ⟨?_, ?_⟩
    · intro k'
      rw [hread, Table.get?_put, hkey, Table.key_of_get? hr]
      by_cases hk : k = k'
      · subst hk
        rw [if_pos rfl, hrow]
        simp
      · rw [if_neg hk, hget k']
        have hk' : ¬ k' = k := fun h => hk h.symm
        simp [hk']
    · rw [hread]
      calc write s1 ((read s1).put (g k r))
          = write (write s (read s1)) ((read s1).put (g k r)) := by rw [← hframe]
        _ = write s ((read s1).put (g k r)) := hwrite _ _ _

end Txn
