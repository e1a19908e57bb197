/-
  Cursor pagination.

  A client reads a list in key order page by page: it asks for the rows after its cursor, at most
  `limit` of them, works through the page, and moves the cursor to the last key it saw.  It stops at a
  short page, or at an empty one, depending on who wrote it.

  What every step keeps, working through the pages keeps (`foldPages_keeps`).

  Every page is fetched on its own, so the list may change between two fetches as long as what the
  client reads of it does not: `fetch` takes the number of the page.
-/
import NovaMaas.Lib.Except
import NovaMaas.Lib.OrderBy

namespace Paging

variable {ε α β σ : Type}

/-- The first `limit` rows after the cursor. -/
def page (key : α → ℤ) (rows : List α) (after : ℤ) (limit : ℕ) : List α :=
  (rows.filter fun a => after < key a).take limit

/-- Work through the pages.  The loop ends by itself, `fuel` only bounds the recursion. -/
def foldPages (fetch : ℕ → ℤ → Except ε (List β)) (key : β → ℤ) (stop : List β → Bool)
    (step : σ → β → Except ε σ) : ℕ → ℕ → ℤ → σ → Except ε σ
  | 0, _, _, st => .ok st
  | fuel + 1, n, cursor, st => do
    let rows ← fetch n cursor
    let st ← rows.foldlM step st
    match stop rows, rows.getLast? with
    | false, some b => foldPages fetch key stop step fuel (n + 1) (key b) st
    | _, _ => .ok st

/-- What every step keeps, the pages keep, whatever was fetched. -/
theorem foldPages_keeps {fetch : ℕ → ℤ → Except ε (List β)} {key : β → ℤ} {stop : List β → Bool}
    {step : σ → β → Except ε σ} {I : σ → Prop} (hstep : ∀ st b st', step st b = .ok st' → I st → I st') :
    ∀ {fuel n : ℕ} {c : ℤ} {st st' : σ}, foldPages fetch key stop step fuel n c st = .ok st' → I st → I st' := by
  intro fuel
  induction fuel with
  | zero =>
    intro n c st st' h hst
    cases h
    exact hst
  | succ fuel ih =>
    intro n c st st' h hst
    rw [foldPages] at h
    obtain ⟨rows, _, h⟩ := Except.bind_eq_ok.1 h
    obtain ⟨mid, hmid, h⟩ := Except.bind_eq_ok.1 h
    have hI : I mid := Except.foldlM_keeps hstep hmid hst
    split at h
    · exact ih h hI
    · cases h
      exact hI

end Paging
