/-
  Transaction bodies over an explicit state, and weakest preconditions for them.

  A body of type `Txn σ ε α` reads and writes a state `σ`, and returns a value or an error.  The
  state it leaves behind is part of the result EVEN ON AN ERROR.  `transaction` restores the state it
  started from when its body fails, so "a failed call changes nothing" is a theorem about where a
  program puts its `transaction`.

  1. **Programs** — `pure`/`>>=`, `throw`, `get`, `modify`, `rejectIf` (the early `return err`),
     `require` (unwrap an option or fail), `transaction`, and `forEach`, a loop with an accumulator.

  2. **Successful runs** — `wp m Q s`: every successful run of `m` from `s` ends in `Q`.  The rules
     are equivalences, so `simp` runs a straight-line body symbolically.  `wp_forEach` is the loop rule.

  3. **Failing runs** — `Atomic m`: a failing run of `m` leaves its state as it found it.

  4. **Relations** — `Keeps R m`: every successful run of `m` ends in a state `R`-related to the one it
     started from.  For a preorder `R` this follows the syntax of `m`: it is the rule for "these tables
     are not written".

  5. **Standing invariants** — `Holds I m`: whether it fails or not, a run of `m` from a state with `I` ends in one.

  6. **Histories** — `run exec s cs`: the state after the calls `cs`, in that order, failed calls
     included.  `run_invariant` is the induction over a history.
-/
import Mathlib.Data.List.Basic
import Mathlib.Order.Defs.Unbundled

open List

/-- A transaction body: from a state to a value or an error, and the state left behind. -/
def Txn (σ ε α : Type) : Type := σ → Except ε α × σ

namespace Txn

variable {σ ε α β γ : Type}

instance : Monad (Txn σ ε) where
  pure a := fun s => (.ok a, s)
  bind m f := fun s =>
    match m s with
    | (.ok a, s') => f a s'
    | (.error e, s') => (.error e, s')

/-- Fail with `e`, keeping what was written so far. -/
def throw (e : ε) : Txn σ ε α := fun s => (.error e, s)

/-- Read the state. -/
def get : Txn σ ε σ := fun s => (.ok s, s)

/-- Write the state. -/
def modify (f : σ → σ) : Txn σ ε Unit := fun s => (.ok (), f s)

/-- `if c { return e }`. -/
def rejectIf (c : Prop) [Decidable c] (e : ε) : Txn σ ε Unit :=
  if c then throw e else pure ()

/-- The value of an option, or the error `e`. -/
def require (o : Option α) (e : ε) : Txn σ ε α :=
  match o with
  | some a => pure a
  | none => throw e

/-- A pure computation that may fail. -/
def ofExcept (x : Except ε α) : Txn σ ε α :=
  match x with
  | .ok a => pure a
  | .error e => throw e

/-- Run the body; on an error, restore the state it started from. -/
def transaction (m : Txn σ ε α) : Txn σ ε α := fun s =>
  match m s with
  | (.ok a, s') => (.ok a, s')
  | (.error e, _) => (.error e, s)

/-- A loop over a list that threads an accumulator. -/
def forEach (f : β → α → Txn σ ε β) : β → List α → Txn σ ε β
  | b, [] => pure b
  | b, a :: as => f b a >>= fun b' => forEach f b' as

/-! ## Running a body -/

@[simp] theorem pure_run (a : α) (s : σ) : (pure a : Txn σ ε α) s = (.ok a, s) := rfl

@[simp] theorem throw_run (e : ε) (s : σ) : (throw e : Txn σ ε α) s = (.error e, s) := rfl

@[simp] theorem get_run (s : σ) : (get : Txn σ ε σ) s = (.ok s, s) := rfl

@[simp] theorem modify_run (f : σ → σ) (s : σ) : (modify f : Txn σ ε Unit) s = (.ok (), f s) := rfl

theorem bind_run (m : Txn σ ε α) (f : α → Txn σ ε β) (s : σ) :
    (m >>= f) s = match m s with
      | (.ok a, s') => f a s'
      | (.error e, s') => (.error e, s') := rfl

variable {m : Txn σ ε α}

theorem bind_ok {f : α → Txn σ ε β} {s s' : σ} {a : α} (h : m s = (.ok a, s')) : (m >>= f) s = f a s' := by
  rw [bind_run, h]

theorem bind_error {f : α → Txn σ ε β} {s s' : σ} {e : ε}
    (h : m s = (.error e, s')) : (m >>= f) s = (.error e, s') := by
  rw [bind_run, h]

theorem rejectIf_pos {c : Prop} [Decidable c] (h : c) (e : ε) (s : σ) :
    (rejectIf c e : Txn σ ε Unit) s = (.error e, s) := by
  rw [rejectIf, if_pos h, throw_run]

theorem rejectIf_neg {c : Prop} [Decidable c] (h : ¬ c) (e : ε) (s : σ) :
    (rejectIf c e : Txn σ ε Unit) s = (.ok (), s) := by
  rw [rejectIf, if_neg h, pure_run]

@[simp] theorem require_some (a : α) (e : ε) (s : σ) : (require (some a) e : Txn σ ε α) s = (.ok a, s) := rfl

@[simp] theorem require_none (e : ε) (s : σ) : (require none e : Txn σ ε α) s = (.error e, s) := rfl

theorem transaction_ok {s s' : σ} {a : α} (h : m s = (.ok a, s')) : transaction m s = (.ok a, s') := by
  rw [transaction, h]

theorem transaction_error {m : Txn σ ε α} {s s' : σ} {e : ε} (h : m s = (.error e, s')) :
    transaction m s = (.error e, s) := by
  rw [transaction, h]

/-! ## Weakest preconditions of successful runs -/

/-- Every successful run of `m` from `s` ends in a value and state satisfying `Q`. -/
def wp (m : Txn σ ε α) (Q : α → σ → Prop) (s : σ) : Prop :=
  ∀ a s', m s = (.ok a, s') → Q a s'

theorem wp_mono {Q R : α → σ → Prop} {s : σ} (h : wp m Q s) (hQR : ∀ a s', Q a s' → R a s') : wp m R s :=
  fun a s' hrun => hQR a s' (h a s' hrun)

theorem wp_and {Q R : α → σ → Prop} {s : σ} (hQ : wp m Q s) (hR : wp m R s) : wp m (fun a s' => Q a s' ∧ R a s') s :=
  fun a s' hrun => ⟨hQ a s' hrun, hR a s' hrun⟩

@[simp] theorem wp_pure (a : α) (Q : α → σ → Prop) (s : σ) : wp (pure a : Txn σ ε α) Q s ↔ Q a s := by
  constructor
  · intro h
    exact h a s rfl
  · intro h b s' hrun
    cases hrun
    exact h

@[simp] theorem wp_bind (m : Txn σ ε α) (f : α → Txn σ ε β) (Q : β → σ → Prop) (s : σ) :
    wp (m >>= f) Q s ↔ wp m (fun a s' => wp (f a) Q s') s := by
  constructor
  · intro h a s' hm b s'' hf
    exact h b s'' (by rw [bind_ok hm, hf])
  · intro h b s'' hrun
    rw [bind_run] at hrun
    rcases hm : m s with ⟨_ | a, s'⟩
    · rw [hm] at hrun
      cases hrun
    · rw [hm] at hrun
      exact h a s' hm b s'' hrun

@[simp] theorem wp_throw (e : ε) (Q : α → σ → Prop) (s : σ) : wp (throw e : Txn σ ε α) Q s ↔ True := by
  refine ⟨fun _ => trivial, ?_⟩
  intro _ a s' hrun
  cases hrun

@[simp] theorem wp_get (Q : σ → σ → Prop) (s : σ) : wp (get : Txn σ ε σ) Q s ↔ Q s s := by
  constructor
  · intro h
    exact h s s rfl
  · intro h a s' hrun
    cases hrun
    exact h

@[simp] theorem wp_modify (f : σ → σ) (Q : Unit → σ → Prop) (s : σ) :
    wp (modify f : Txn σ ε Unit) Q s ↔ Q () (f s) := by
  constructor
  · intro h
    exact h () (f s) rfl
  · intro h a s' hrun
    cases hrun
    exact h

@[simp] theorem wp_rejectIf (c : Prop) [Decidable c] (e : ε) (Q : Unit → σ → Prop) (s : σ) :
    wp (rejectIf c e : Txn σ ε Unit) Q s ↔ (¬ c → Q () s) := by
  unfold rejectIf
  split
  · rename_i hc
    simp [hc]
  · rename_i hc
    simp [hc]

@[simp] theorem wp_require (o : Option α) (e : ε) (Q : α → σ → Prop) (s : σ) :
    wp (require o e : Txn σ ε α) Q s ↔ ∀ a, o = some a → Q a s := by
  cases o with
  | none => simp [require]
  | some a => simp [require]

@[simp] theorem wp_ofExcept (x : Except ε α) (Q : α → σ → Prop) (s : σ) :
    wp (ofExcept x : Txn σ ε α) Q s ↔ ∀ a, x = .ok a → Q a s := by
  cases x with
  | error e => simp [ofExcept]
  | ok a => simp [ofExcept]

@[simp] theorem wp_ite (c : Prop) [Decidable c] (m n : Txn σ ε α) (Q : α → σ → Prop) (s : σ) :
    wp (if c then m else n) Q s ↔ (c → wp m Q s) ∧ (¬ c → wp n Q s) := by
  split
  · rename_i hc
    simp [hc]
  · rename_i hc
    simp [hc]

@[simp] theorem wp_transaction (m : Txn σ ε α) (Q : α → σ → Prop) (s : σ) : wp (transaction m) Q s ↔ wp m Q s := by
  constructor
  · intro h a s' hm
    exact h a s' (transaction_ok hm)
  · intro h a s' hrun
    rcases hm : m s with ⟨e | b, s''⟩
    · rw [transaction_error hm] at hrun
      cases hrun
    · rw [transaction_ok hm] at hrun
      exact h a s' (hm.trans hrun)

/-- The loop rule.  `I b done s` relates the accumulator and the state to the rows consumed; a step
    may use where in the list it stands. -/
theorem wp_forEach (f : β → α → Txn σ ε β) (I : β → List α → σ → Prop) (as : List α) (b : β) (s : σ) (h0 : I b [] s)
    (hstep : ∀ b done a rest s, as = done ++ a :: rest → I b done s →
      wp (f b a) (fun b' s' => I b' (done ++ [a]) s') s) :
    wp (forEach f b as) (fun b' s' => I b' as s') s := by
  have hloop : ∀ (todo done : List α) (b : β) (s : σ), as = done ++ todo → I b done s →
      wp (forEach f b todo) (fun b' s' => I b' as s') s := by
    intro todo
    induction todo with
    | nil =>
      intro done b s hsplit hI
      rw [forEach, wp_pure, hsplit, append_nil]
      exact hI
    | cons a todo ih =>
      intro done b s hsplit hI
      rw [forEach, wp_bind]
      refine wp_mono (hstep b done a todo s hsplit hI) ?_
      intro b' s' hI'
      exact ih (done ++ [a]) b' s' (by rw [hsplit, append_assoc, singleton_append]) hI'
  exact hloop as [] b s rfl h0

/-! ## What every successful run relates -/

/-- Every successful run of `m` leads to an `R`-related state. -/
def Keeps (R : σ → σ → Prop) (m : Txn σ ε α) : Prop := ∀ s, wp m (fun _ s' => R s s') s

section Keeps

variable {R : σ → σ → Prop}

theorem keeps_modify {f : σ → σ} (h : ∀ s, R s (f s)) : Keeps R (modify f : Txn σ ε Unit) := by
  intro s
  rw [wp_modify]
  exact h s

/-- A body that reads the state first: the rest may use what it read. -/
theorem keeps_get_bind {f : σ → Txn σ ε β} (hf : ∀ s, wp (f s) (fun _ s' => R s s') s) : Keeps R (get >>= f) := by
  intro s
  rw [wp_bind, wp_get]
  exact hf s

theorem keeps_ite {c : Prop} [Decidable c] {m n : Txn σ ε α} (hm : Keeps R m) (hn : Keeps R n) :
    Keeps R (if c then m else n) := by
  intro s
  rw [wp_ite]
  exact ⟨fun _ => hm s, fun _ => hn s⟩

theorem keeps_transaction {m : Txn σ ε α} (hm : Keeps R m) : Keeps R (transaction m) := by
  intro s
  rw [wp_transaction]
  exact hm s

variable [IsPreorder σ R]

theorem keeps_pure (a : α) : Keeps R (pure a : Txn σ ε α) := by
  intro s
  rw [wp_pure]
  exact refl_of R s

theorem keeps_get : Keeps R (get : Txn σ ε σ) := by
  intro s
  rw [wp_get]
  exact refl_of R s

theorem keeps_rejectIf (c : Prop) [Decidable c] (e : ε) : Keeps R (rejectIf c e : Txn σ ε Unit) := by
  intro s
  rw [wp_rejectIf]
  exact fun _ => refl_of R s

theorem keeps_require (o : Option α) (e : ε) : Keeps R (require o e : Txn σ ε α) := by
  intro s
  rw [wp_require]
  exact fun _ _ => refl_of R s

theorem keeps_ofExcept (x : Except ε α) : Keeps R (ofExcept x : Txn σ ε α) := by
  intro s
  rw [wp_ofExcept]
  exact fun _ _ => refl_of R s

variable {f : α → Txn σ ε β}

theorem keeps_bind {m : Txn σ ε α} (hm : Keeps R m) (hf : ∀ a, Keeps R (f a)) :
    Keeps R (m >>= f) := by
  intro s
  rw [wp_bind]
  refine wp_mono (hm s) ?_
  intro a s1 h1
  refine wp_mono (hf a s1) ?_
  intro b s2 h2
  exact trans_of R h1 h2

theorem keeps_rejectIf_bind {c : Prop} [Decidable c] {e : ε} {f : Unit → Txn σ ε β}
    (hf : Keeps R (f ())) : Keeps R (rejectIf c e >>= f) :=
  keeps_bind (keeps_rejectIf c e) fun _ => hf

theorem keeps_require_bind {o : Option α} {e : ε} (hf : ∀ a, Keeps R (f a)) :
    Keeps R (require o e >>= f) :=
  keeps_bind (keeps_require o e) hf

theorem keeps_ofExcept_bind {x : Except ε α} (hf : ∀ a, Keeps R (f a)) :
    Keeps R (ofExcept x >>= f) :=
  keeps_bind (keeps_ofExcept x) hf

theorem keeps_forEach {f : β → α → Txn σ ε β} (hf : ∀ b a, Keeps R (f b a)) (b : β) (as : List α) :
    Keeps R (forEach f b as) := by
  intro s
  refine wp_forEach f (fun _ _ s' => R s s') as b s (refl_of R s) ?_
  intro b done a rest s1 _ h1
  refine wp_mono (hf b a s1) ?_
  intro b' s2 h2
  exact trans_of R h1 h2

end Keeps

/-! ## Bodies that change nothing when they fail -/

/-- A failing run leaves the state as it found it. -/
def Atomic (m : Txn σ ε α) : Prop :=
  ∀ s e s', m s = (.error e, s') → s' = s

theorem atomic_transaction (m : Txn σ ε α) : Atomic (transaction m) := by
  intro s e s' hrun
  rcases hm : m s with ⟨e' | a, s''⟩
  · rw [transaction_error hm] at hrun
    cases hrun
    rfl
  · rw [transaction_ok hm] at hrun
    cases hrun

/-- Validation in front of an atomic body keeps it atomic. -/
theorem atomic_rejectIf_bind {c : Prop} [Decidable c] {e : ε} {m : Unit → Txn σ ε α}
    (hm : Atomic (m ())) : Atomic (rejectIf c e >>= m) := by
  intro s e' s' hrun
  by_cases hc : c
  · rw [bind_error (rejectIf_pos hc e s)] at hrun
    cases hrun
    rfl
  · rw [bind_ok (rejectIf_neg hc e s)] at hrun
    exact hm s e' s' hrun

/-- So does a lookup. -/
theorem atomic_get_bind {m : σ → Txn σ ε α} (hm : ∀ db, Atomic (m db)) : Atomic (get >>= m) := by
  intro s e s' hrun
  rw [bind_ok (get_run s)] at hrun
  exact hm s s e s' hrun

theorem atomic_require_bind {o : Option α} {e : ε} {m : α → Txn σ ε β}
    (hm : ∀ a, Atomic (m a)) : Atomic (require o e >>= m) := by
  intro s e' s' hrun
  cases o with
  | none =>
    rw [bind_error (require_none e s)] at hrun
    cases hrun
    rfl
  | some a =>
    rw [bind_ok (require_some a e s)] at hrun
    exact hm a s e' s' hrun

theorem atomic_ofExcept_bind {x : Except ε α} {m : α → Txn σ ε β}
    (hm : ∀ a, Atomic (m a)) : Atomic (ofExcept x >>= m) := by
  intro s e s' hrun
  cases x with
  | error =>
    cases hrun
    rfl
  | ok a => exact hm a s e s' hrun

theorem atomic_modify (f : σ → σ) : Atomic (modify f : Txn σ ε Unit) := by
  intro s e s' hrun
  cases hrun

theorem atomic_ite {c : Prop} [Decidable c] {m n : Txn σ ε α} (hm : Atomic m) (hn : Atomic n) :
    Atomic (if c then m else n) := by
  split
  · exact hm
  · exact hn

variable {m : Txn σ ε α}

/-- What cannot fail may follow an atomic body. -/
theorem atomic_bind_pure (hm : Atomic m) (b : β) : Atomic (m >>= fun _ => pure b) := by
  intro s e s' hrun
  rcases hms : m s with ⟨e' | a, s''⟩
  · rw [bind_error hms] at hrun
    cases hrun
    exact hm s e s' hms
  · rw [bind_ok hms] at hrun
    cases hrun

/-- The state after a run of an atomic body satisfies whatever held before and is kept by success. -/
theorem Atomic.preserves (hm : Atomic m) {I : σ → Prop}
    (hok : ∀ s, I s → wp m (fun _ s' => I s') s) : ∀ s, I s → I (m s).2 := by
  intro s hs
  rcases hrun : m s with ⟨e | a, s'⟩
  · rw [hm s e s' hrun]
    exact hs
  · exact hok s hs a s' hrun

/-- Run a body for its effect. -/
def drop (m : Txn σ ε α) : Txn σ ε Unit := m >>= fun _ => pure ()

@[simp] theorem wp_drop (m : Txn σ ε α) (Q : Unit → σ → Prop) (s : σ) :
    wp (drop m) Q s ↔ wp m (fun _ s' => Q () s') s := by
  simp only [drop, wp_bind, wp_pure]

theorem keeps_drop {R : σ → σ → Prop} (hm : Keeps R m) : Keeps R (drop m) := by
  intro s
  rw [wp_drop]
  exact hm s

/-- An atomic body relates its states on every run. -/
theorem Atomic.related {R : σ → σ → Prop} [IsPreorder σ R] (hm : Atomic m)
    (hk : Keeps R m) (s : σ) : R s (m s).2 := by
  rcases hrun : m s with ⟨e | a, s'⟩
  · rw [hm s e s' hrun]
    exact refl_of R s
  · exact hk s a s' hrun

theorem Atomic.drop (hm : Atomic m) : Atomic (drop m) := by
  intro s e s' hrun
  rcases hms : m s with ⟨e' | a, s''⟩
  · rw [Txn.drop, bind_error hms] at hrun
    cases hrun
    exact hm s e s' hms
  · rw [Txn.drop, bind_ok hms] at hrun
    cases hrun

/-! ## Standing invariants -/

/-- `I` stands throughout the body. -/
def Holds (I : σ → Prop) (m : Txn σ ε α) : Prop := ∀ s, I s → I (m s).2

section Holds

variable {I : σ → Prop}

theorem holds_pure (a : α) : Holds I (pure a : Txn σ ε α) := fun _ hs => hs

theorem holds_throw (e : ε) : Holds I (throw e : Txn σ ε α) := fun _ hs => hs

theorem holds_modify {f : σ → σ} (hf : ∀ s, I s → I (f s)) : Holds I (modify f : Txn σ ε Unit) := hf

theorem holds_bind {m : Txn σ ε α} {f : α → Txn σ ε β} (hm : Holds I m) (hf : ∀ a, Holds I (f a)) :
    Holds I (m >>= f) := by
  intro s hs
  rcases hrun : m s with ⟨e | a, s'⟩
  · rw [bind_error hrun]
    have := hm s hs
    rwa [hrun] at this
  · rw [bind_ok hrun]
    refine hf a s' ?_
    have := hm s hs
    rwa [hrun] at this

theorem holds_get_bind {f : σ → Txn σ ε β} (hf : ∀ s, I s → Holds I (f s)) : Holds I (get >>= f) :=
  fun s hs => hf s hs s hs

theorem holds_rejectIf_bind {c : Prop} [Decidable c] {e : ε} {f : Unit → Txn σ ε β}
    (hf : ¬ c → Holds I (f ())) : Holds I (rejectIf c e >>= f) := by
  intro s hs
  by_cases hc : c
  · rw [bind_error (rejectIf_pos hc e s)]
    exact hs
  · rw [bind_ok (rejectIf_neg hc e s)]
    exact hf hc s hs

theorem holds_require_bind {o : Option α} {e : ε} {f : α → Txn σ ε β} (hf : ∀ a, o = some a → Holds I (f a)) :
    Holds I (require o e >>= f) := by
  intro s hs
  cases o with
  | none =>
    rw [bind_error (require_none e s)]
    exact hs
  | some a =>
    rw [bind_ok (require_some a e s)]
    exact hf a rfl s hs

theorem holds_ite {c : Prop} [Decidable c] {m n : Txn σ ε α} (hm : c → Holds I m) (hn : ¬ c → Holds I n) :
    Holds I (if c then m else n) := by
  by_cases hc : c
  · rw [if_pos hc]
    exact hm hc
  · rw [if_neg hc]
    exact hn hc

theorem holds_transaction {m : Txn σ ε α} (hm : Holds I m) : Holds I (transaction m) := by
  intro s hs
  rcases hrun : m s with ⟨e | a, s'⟩
  · rw [transaction_error hrun]
    exact hs
  · rw [transaction_ok hrun]
    have := hm s hs
    rwa [hrun] at this

theorem holds_forEach {f : β → α → Txn σ ε β} (b : β) {as : List α} (hf : ∀ a ∈ as, ∀ b, Holds I (f b a)) :
    Holds I (forEach f b as) := by
  induction as generalizing b with
  | nil => exact holds_pure b
  | cons a as ih =>
    exact holds_bind (hf a mem_cons_self b) fun b' => ih b' fun a' ha' => hf a' (mem_cons_of_mem a ha')

theorem holds_drop {m : Txn σ ε α} (hm : Holds I m) : Holds I (drop m) := holds_bind hm fun _ => holds_pure ()

end Holds

/-! ## Histories of calls -/

/-- The state after the calls `cs`, each from the state the one before left behind. -/
def run {κ : Type} (exec : κ → Txn σ ε Unit) (s : σ) (cs : List κ) : σ :=
  cs.foldl (fun s c => (exec c s).2) s

@[simp] theorem run_nil {κ : Type} (exec : κ → Txn σ ε Unit) (s : σ) : run exec s [] = s := rfl

@[simp] theorem run_cons {κ : Type} (exec : κ → Txn σ ε Unit) (s : σ) (c : κ) (cs : List κ) :
    run exec s (c :: cs) = run exec (exec c s).2 cs := rfl

/-- What every call of a history keeps, the history keeps. -/
theorem run_invariant {κ : Type} {exec : κ → Txn σ ε Unit} {I : σ → Prop} {cs : List κ}
    (hstep : ∀ c ∈ cs, ∀ s, I s → I (exec c s).2) : ∀ s, I s → I (run exec s cs) := by
  induction cs with
  | nil =>
    intro s hs
    exact hs
  | cons c cs ih =>
    intro s hs
    rw [run_cons]
    exact ih (fun c' hc' => hstep c' (mem_cons_of_mem c hc')) _
      (hstep c mem_cons_self s hs)

end Txn
