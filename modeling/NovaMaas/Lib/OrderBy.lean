/-
  `ORDER BY`: stable sorting of query results by an integer key.

  A query returns its rows in key order whatever order the table keeps them in.  Two laws make
  that manageable in proofs: a list already in key order is left alone (`orderBy_of_sorted`), and a
  row whose key is at least every other key goes to the end (`orderBy_concat`) — which is what
  appending to a log does.
-/
import Mathlib

open List

variable {α : Type}

/-- Sort by a key, ascending, keeping the order of rows with equal keys. -/
def orderBy (key : α → ℤ) (l : List α) : List α := l.insertionSort fun a b => key a ≤ key b

theorem orderBy_perm (key : α → ℤ) (l : List α) : (orderBy key l).Perm l :=
  perm_insertionSort _ l

@[simp] theorem mem_orderBy {key : α → ℤ} {l : List α} {a : α} : a ∈ orderBy key l ↔ a ∈ l :=
  (orderBy_perm key l).mem_iff

theorem orderBy_cons (key : α → ℤ) (a : α) (l : List α) :
    orderBy key (a :: l) = (orderBy key l).orderedInsert (fun a b => key a ≤ key b) a := rfl

theorem orderBy_pairwise (key : α → ℤ) (l : List α) : (orderBy key l).Pairwise fun a b => key a ≤ key b := by
  have : Std.Total (fun a b : α => key a ≤ key b) := ⟨fun a b => Int.le_total (key a) (key b)⟩
  have : IsTrans α (fun a b : α => key a ≤ key b) := ⟨fun _ _ _ h1 h2 => Int.le_trans h1 h2⟩
  exact pairwise_insertionSort _ l

/-- A list in key order stays as it is. -/
theorem orderBy_of_sorted {key : α → ℤ} {l : List α}
    (h : l.Pairwise fun a b => key a ≤ key b) : orderBy key l = l := by
  induction l with
  | nil => rfl
  | cons a l ih =>
    rw [pairwise_cons] at h
    rw [orderBy_cons, ih h.2]
    cases l with
    | nil => rfl
    | cons b l => exact orderedInsert_cons_of_le _ l (h.1 b mem_cons_self)

theorem orderedInsert_concat {key : α → ℤ} {a x : α} (h : key a ≤ key x) (l : List α) :
    (l ++ [x]).orderedInsert (fun a b => key a ≤ key b) a = l.orderedInsert (fun a b => key a ≤ key b) a ++ [x] := by
  induction l with
  | nil => simp [orderedInsert, h]
  | cons b l ih =>
    by_cases hb : key a ≤ key b
    · simp [orderedInsert, hb]
    · simp only [cons_append, orderedInsert, if_neg hb, ih]

/-- A row with the largest key goes to the end. -/
theorem orderBy_concat {key : α → ℤ} {l : List α} {x : α} (h : ∀ a ∈ l, key a ≤ key x) :
    orderBy key (l ++ [x]) = orderBy key l ++ [x] := by
  induction l with
  | nil => rfl
  | cons a l ih =>
    have hl : ∀ b ∈ l, key b ≤ key x := fun b hb => h b (mem_cons_of_mem a hb)
    rw [cons_append, orderBy_cons, ih hl, orderedInsert_concat (h a mem_cons_self), ← orderBy_cons]

/-- Sorting does not change a sum. -/
theorem sum_orderBy (key f : α → ℤ) (l : List α) : ((orderBy key l).map f).sum = (l.map f).sum :=
  ((orderBy_perm key l).map f).sum_eq

example : orderBy (fun x : ℤ × ℤ => x.1) [(3, 0), (1, 1), (3, 2), (2, 3)] =
    [(1, 1), (2, 3), (3, 0), (3, 2)] := by decide
