/-
  Calls that run at the same time against one shared store.

  Each statement of a call is ATOMIC (one SQL statement, one SQL transaction, one script of the cache), and between two
  of them every other call may issue any number of its own.  What a call does next depends on what its last statement
  found, so a call in progress (`Prog`) is a statement and, for every world it may find, the rest of the call.

  `Sys.run` interleaves any number of calls in any order: an event starts a call, or lets one of the started calls issue
  its next statement.  A call that is never advanced again is a process that stalled or died.  Calls are numbered in the
  order they are started, and a call knows its own number.

  The rule is rely-guarantee (`Prog.Keeps`): a call is checked statement by statement, each in EVERY world the other
  calls may have left since the last one.  `Protocol` says what a statement may do to the world (`Inv` is kept, `Rel`
  relates before and after) and what a call may count on because no other call has its number (`Rely`); `Sys.run_keeps`
  then gives it for every run, and for every call that has ended what its last world knew.
-/
import Mathlib

open List

namespace Interleave

variable {C Op W α β : Type}

/-- A call in progress: it has ended, or it is about to issue `op`, and goes on from the world `op` found. -/
inductive Prog (Op W α : Type) where
  | done (a : α)
  | stmt (op : Op) (next : W → Prog Op W α)

namespace Prog

def bind : Prog Op W α → (α → Prog Op W β) → Prog Op W β
  | done a, f => f a
  | stmt op next, f => stmt op fun w => (next w).bind f

instance : Monad (Prog Op W) where
  pure := done
  bind := bind

/-- Issue `op` and return what it reports, which is a function of the world it found. -/
def issue (op : Op) (report : W → α) : Prog Op W α := stmt op fun w => done (report w)

/-! A call that can fail is `ExceptT` over `Prog`: its error ends it. -/

/-- Issue a statement that may report an error. -/
def attempt {ε : Type} (op : Op) (report : W → Except ε α) : ExceptT ε (Prog Op W) α :=
  ExceptT.mk (issue op report)

/-- Issue a statement that reports no error. -/
def query {ε : Type} (op : Op) (report : W → α) : ExceptT ε (Prog Op W) α :=
  attempt op fun w => .ok (report w)

/-- `if c { return err }`. -/
def failIf {ε : Type} (c : Prop) [Decidable c] (e : ε) : ExceptT ε (Prog Op W) Unit :=
  if c then throw e else pure ()

/-- Go on with the outcome of `x`, an error or not. -/
def outcome {ε δ : Type} (x : ExceptT δ (Prog Op W) α) : ExceptT ε (Prog Op W) (Except δ α) :=
  ExceptT.mk (x.run >>= fun r => .done (.ok r))

/-- A call that nobody interrupts: its answer, and the world it leaves. -/
def alone (exec : Op → W → W) : Prog Op W α → W → α × W
  | done a, w => (a, w)
  | stmt op next, w => (next w).alone exec (exec op w)

theorem alone_issue (exec : Op → W → W) (op : Op) (report : W → α) (w : W) :
    (issue op report).alone exec w = (report w, exec op w) := rfl

theorem alone_bind (exec : Op → W → W) (p : Prog Op W α) (f : α → Prog Op W β) (w : W) :
    (p >>= f).alone exec w = (f (p.alone exec w).1).alone exec (p.alone exec w).2 := by
  show (Prog.bind p f).alone exec w = _
  induction p generalizing w with
  | done => rfl
  | stmt op _ ih => exact ih w (exec op w)

end Prog

/-! ## Runs -/

/-- A call that was started: which one it is, the world it was started in, and what is left of it. -/
structure Running (C Op W α : Type) where
  call  : C
  since : W
  rest  : Prog Op W α

/-- The shared world and every call started so far, in the order they were started. -/
structure Sys (C Op W α : Type) where
  world : W
  calls : List (Running C Op W α)

inductive Event (C : Type) where
  | start (c : C)
  | advance (i : ℕ)

/-- A call is started, and issues nothing yet. -/
def Event.begin (c : C) : List (Event C) := [.start c]

/-- The call `i` issues its next `n` statements. -/
def Event.steps (i n : ℕ) : List (Event C) := replicate n (.advance i)

namespace Sys

variable (exec : Op → W → W) (body : ℕ → C → Prog Op W α)

def step (s : Sys C Op W α) : Event C → Sys C Op W α
  | .start c => { s with calls := s.calls ++ [⟨c, s.world, body s.calls.length c⟩] }
  | .advance i =>
    match s.calls[i]? with
    | some ⟨c, since, .stmt op next⟩ => ⟨exec op s.world, s.calls.set i ⟨c, since, next s.world⟩⟩
    | _ => s

def run (s : Sys C Op W α) (events : List (Event C)) : Sys C Op W α := events.foldl (step exec body) s

/-- The statement that the call `i` is about to issue. -/
def next? (s : Sys C Op W α) (i : ℕ) : Option Op :=
  match s.calls[i]? with
  | some ⟨_, _, .stmt op _⟩ => some op
  | _ => none

/-- What an event needs: a call may be started only where `may` allows it, a statement is issued only where
`ok` holds. -/
def Meets (may : C → W → Prop) (ok : Op → W → Prop) (s : Sys C Op W α) : Event C → Prop
  | .start c => may c s.world
  | .advance i => ∀ op ∈ s.next? i, ok op s.world

instance (may : C → W → Prop) (ok : Op → W → Prop) [∀ c w, Decidable (may c w)] [∀ op w, Decidable (ok op w)]
    (s : Sys C Op W α) (e : Event C) : Decidable (s.Meets may ok e) :=
  match e with
  | .start c => inferInstanceAs (Decidable (may c s.world))
  | .advance i => inferInstanceAs (Decidable (∀ op ∈ s.next? i, ok op s.world))

/-- Every event of the run meets its condition in the state it happens in. -/
def Admits (may : C → W → Prop) (ok : Op → W → Prop) : Sys C Op W α → List (Event C) → Prop
  | _, [] => True
  | s, e :: events => s.Meets may ok e ∧ Admits may ok (step exec body s e) events

instance decidableAdmits (may : C → W → Prop) (ok : Op → W → Prop) [∀ c w, Decidable (may c w)]
    [∀ op w, Decidable (ok op w)] : ∀ (s : Sys C Op W α) (events : List (Event C)),
      Decidable (Admits exec body may ok s events)
  | _, [] => isTrue trivial
  | s, e :: events =>
    have := decidableAdmits may ok (step exec body s e) events
    inferInstanceAs (Decidable (s.Meets may ok e ∧ Admits exec body may ok (step exec body s e) events))

/-- The call `i` has ended with `a`. -/
def Ended (s : Sys C Op W α) (i : ℕ) (c : C) (since : W) (a : α) : Prop :=
  s.calls[i]? = some ⟨c, since, .done a⟩

/-- What the call `i` was and what it has ended with, for a run that is to be evaluated. -/
def answer? (s : Sys C Op W α) (i : ℕ) : Option (C × α) :=
  match s.calls[i]? with
  | some ⟨c, _, .done a⟩ => some (c, a)
  | _ => none

theorem ended_of_answer? {s : Sys C Op W α} {i : ℕ} {c : C} {a : α} (h : s.answer? i = some (c, a)) :
    ∃ since, s.Ended i c since a := by
  unfold answer? at h
  unfold Ended
  cases hi : s.calls[i]? with
  | none =>
    rw [hi] at h
    cases h
  | some r =>
    obtain ⟨c', since, rest⟩ := r
    rw [hi] at h
    cases rest with
    | stmt => cases h
    | done =>
      obtain ⟨rfl, rfl⟩ := Prod.mk.inj (Option.some.inj h)
      exact ⟨since, rfl⟩

theorem next?_eq_some {s : Sys C Op W α} {i : ℕ} {op : Op} (h : s.next? i = some op) :
    ∃ c since next, s.calls[i]? = some ⟨c, since, .stmt op next⟩ := by
  unfold next? at h
  cases hi : s.calls[i]? with
  | none =>
    rw [hi] at h
    cases h
  | some r =>
    obtain ⟨c, since, rest⟩ := r
    rw [hi] at h
    cases rest with
    | done => cases h
    | stmt _ next =>
      obtain rfl := Option.some.inj h
      exact ⟨c, since, next, rfl⟩

variable (s : Sys C Op W α)

theorem run_cons (e : Event C) (events : List (Event C)) :
    run exec body s (e :: events) = run exec body (step exec body s e) events := rfl

theorem run_append (es fs : List (Event C)) :
    run exec body s (es ++ fs) = run exec body (run exec body s es) fs :=
  foldl_append

theorem admits_append (may : C → W → Prop) (ok : Op → W → Prop) (es fs : List (Event C)) :
    ∀ s : Sys C Op W α, Admits exec body may ok s (es ++ fs) ↔
      Admits exec body may ok s es ∧ Admits exec body may ok (run exec body s es) fs := by
  induction es with
  | nil =>
    intro s
    simp [Admits, run]
  | cons e es ih =>
    intro s
    show _ ∧ Admits exec body may ok (step exec body s e) (es ++ fs) ↔ _
    rw [ih, run_cons]
    exact and_assoc.symm

variable {exec body} in
/-- A run that grants more grants less. -/
theorem Admits.weaken {may may' : C → W → Prop} {ok ok' : Op → W → Prop} (hmay : ∀ c w, may c w → may' c w)
    (hok : ∀ op w, ok op w → ok' op w) : ∀ {events : List (Event C)} {s : Sys C Op W α},
      Admits exec body may ok s events → Admits exec body may' ok' s events := by
  intro events
  induction events with
  | nil => exact fun _ => trivial
  | cons e _ ih =>
    rintro s ⟨he, hrest⟩
    refine ⟨?_, ih hrest⟩
    cases e with
    | start c => exact hmay c _ he
    | advance => exact fun op hop => hok op _ (he op hop)

theorem admits_of_forall (events : List (Event C)) :
    Admits exec body (fun _ _ => True) (fun _ _ => True) s events := by
  induction events generalizing s with
  | nil => exact trivial
  | cons e _ ih =>
    refine ⟨?_, ih _⟩
    cases e with
    | start => exact trivial
    | advance => exact fun _ _ => trivial

end Sys

/-! ## Rely and guarantee -/

/-- What the calls of a system agree on.  `ok` is what a run grants to each statement, `Inv` holds between any
two statements, `Rel` relates the worlds before and after.  A call, with its number, may rely on more: every
statement of another call keeps to its `Rely`.  In turn its own statements keep to its `Guar`. -/
structure Protocol (C Op W : Type) where
  exec : Op → W → W
  ok : Op → W → Prop
  Inv : W → Prop
  Rel : W → W → Prop
  Rely : ℕ × C → W → W → Prop
  Guar : ℕ × C → W → W → Prop
  refl : ∀ w, Rel w w
  trans : ∀ {u v w}, Rel u v → Rel v w → Rel u w
  rely_refl : ∀ i w, Rely i w w
  rely_trans : ∀ {i u v w}, Rely i u v → Rely i v w → Rely i u w
  rely_rel : ∀ {i w v}, Rely i w v → Rel w v
  guar_rel : ∀ {i w v}, Guar i w v → Rel w v
  guar_rely : ∀ {i j w v}, j.1 ≠ i.1 → Guar i w v → Rely j w v

/-- A protocol that treats all calls alike. -/
def Protocol.plain (exec : Op → W → W) (ok : Op → W → Prop) (Inv : W → Prop) (Rel : W → W → Prop)
    (refl : ∀ w, Rel w w) (trans : ∀ {u v w}, Rel u v → Rel v w → Rel u w) : Protocol C Op W where
  exec := exec
  ok := ok
  Inv := Inv
  Rel := Rel
  Rely := fun _ => Rel
  Guar := fun _ => Rel
  refl := refl
  trans := trans
  rely_refl := fun _ => refl
  rely_trans := trans
  rely_rel := id
  guar_rel := id
  guar_rely := fun _ => id

variable {P : Protocol C Op W} {i : ℕ × C}

/-- `p.Keeps P i Q w`: the call `i` has `p` left to do, its last statement left `w`.  It keeps the protocol with
every statement it still issues, whatever the other calls do in between, and ends with `Q`. -/
def Prog.Keeps (P : Protocol C Op W) (i : ℕ × C) (Q : α → W → Prop) : Prog Op W α → W → Prop
  | .done a, w => ∀ v, P.Rely i w v → P.Inv v → Q a v
  | .stmt op next, w => ∀ v, P.Rely i w v → P.Inv v → P.ok op v →
      P.Inv (P.exec op v) ∧ P.Guar i v (P.exec op v) ∧ (next v).Keeps P i Q (P.exec op v)

namespace Prog

variable {p : Prog Op W α}

variable {Q : α → W → Prop}

/-- What the other calls do does not change what a call keeps. -/
theorem Keeps.mono {w v : W} (h : p.Keeps P i Q w) (hwv : P.Rely i w v) : p.Keeps P i Q v := by
  cases p with
  | done => exact fun u hvu hu => h u (P.rely_trans hwv hvu) hu
  | stmt => exact fun u hvu hu hop => h u (P.rely_trans hwv hvu) hu hop

/-- A call that ends with more ends with less. -/
theorem Keeps.weaken {Q' : α → W → Prop} (hQ : ∀ a v, P.Inv v → Q a v → Q' a v) {w : W}
    (h : p.Keeps P i Q w) : p.Keeps P i Q' w := by
  induction p generalizing w with
  | done a => exact fun v hwv hv => hQ a v hv (h v hwv hv)
  | stmt _ _ ih =>
    intro v hwv hv hop
    obtain ⟨hinv, hguar, hnext⟩ := h v hwv hv hop
    exact ⟨hinv, hguar, ih v hnext⟩

/-- What every world after `w` knows, a call that goes on from `w` knows when it ends. -/
theorem Keeps.and_rel {A : W → Prop} {w : W} (h : p.Keeps P i Q w)
    (hA : ∀ v, P.Rel w v → A v) : p.Keeps P i (fun a v => Q a v ∧ A v) w := by
  induction p generalizing w with
  | done => exact fun v hwv hv => ⟨h v hwv hv, hA v (P.rely_rel hwv)⟩
  | stmt _ _ ih =>
    intro v hwv hv hop
    obtain ⟨hinv, hguar, hnext⟩ := h v hwv hv hop
    have hrel := P.trans (P.rely_rel hwv) (P.guar_rel hguar)
    exact ⟨hinv, hguar, ih v hnext fun u hu => hA u (P.trans hrel hu)⟩

/-- The rule for sequencing. -/
theorem Keeps.bind {Q : β → W → Prop} {f : α → Prog Op W β} {w : W}
    (h : p.Keeps P i (fun a v => (f a).Keeps P i Q v) w) : (p >>= f).Keeps P i Q w := by
  show (Prog.bind p f).Keeps P i Q w
  induction p generalizing w with
  | done a =>
    show (f a).Keeps P i Q w
    cases hf : f a with
    | done =>
      intro v hwv hv
      have hfv : (f a).Keeps P i Q v := h v hwv hv
      rw [hf] at hfv
      exact hfv v (P.rely_refl i v) hv
    | stmt =>
      intro v hwv hv hop
      have hfv : (f a).Keeps P i Q v := h v hwv hv
      rw [hf] at hfv
      exact hfv v (P.rely_refl i v) hv hop
  | stmt _ _ ih =>
    intro v hwv hv hop
    obtain ⟨hinv, hguar, hnext⟩ := h v hwv hv hop
    exact ⟨hinv, hguar, ih v hnext⟩

theorem Keeps.map {Q : β → W → Prop} {f : α → β} {w : W}
    (h : p.Keeps P i (fun a v => Q (f a) v) w) : (f <$> p).Keeps P i Q w := by
  show (p >>= fun a => Prog.done (f a)).Keeps P i Q w
  refine Keeps.bind ?_
  induction p generalizing w with
  | done => exact fun v hwv hv u hvu hu => h u (P.rely_trans hwv hvu) hu
  | stmt _ _ ih =>
    intro v hwv hv hop
    obtain ⟨hinv, hguar, hnext⟩ := h v hwv hv hop
    exact ⟨hinv, hguar, ih v hnext⟩

/-- The rule for one statement. -/
theorem Keeps.issue {op : Op} {report : W → α} {w : W}
    (h : ∀ v, P.Rely i w v → P.Inv v → P.ok op v → P.Inv (P.exec op v) ∧ P.Guar i v (P.exec op v) ∧
      ∀ u, P.Rely i (P.exec op v) u → P.Inv u → Q (report v) u) : (issue op report).Keeps P i Q w :=
  h

theorem Keeps.issue_bind {Q : β → W → Prop} {op : Op} {report : W → α} {f : α → Prog Op W β} {w : W}
    (h : ∀ v, P.Rely i w v → P.Inv v → P.ok op v → P.Inv (P.exec op v) ∧ P.Guar i v (P.exec op v) ∧
      (f (report v)).Keeps P i Q (P.exec op v)) : (Prog.issue op report >>= f).Keeps P i Q w :=
  h

/-- If no statement ever breaks the protocol, no call does. -/
theorem keeps_of_forall (hexec : ∀ op v, P.Inv v → P.ok op v → P.Inv (P.exec op v) ∧ P.Guar i v (P.exec op v))
    (p : Prog Op W α) (w : W) : p.Keeps P i (fun _ _ => True) w := by
  induction p generalizing w with
  | done => exact fun _ _ _ => trivial
  | stmt op _ ih =>
    intro v _ hv hop
    obtain ⟨hinv, hguar⟩ := hexec op v hv hop
    exact ⟨hinv, hguar, ih v _⟩

/-- Every statement that `p` can ever issue satisfies `T`. -/
def All (T : Op → Prop) : Prog Op W α → Prop
  | .done _ => True
  | .stmt op next => T op ∧ ∀ w, (next w).All T

section All

variable {T : Op → Prop}

theorem All.bind {p : Prog Op W α} {f : α → Prog Op W β} (hp : p.All T) (hf : ∀ a, (f a).All T) :
    (p >>= f).All T := by
  show (Prog.bind p f).All T
  induction p with
  | done a => exact hf a
  | stmt _ _ ih => exact ⟨hp.1, fun w => ih w (hp.2 w)⟩

theorem All.map {p : Prog Op W α} {f : α → β} (hp : p.All T) : (f <$> p).All T :=
  All.bind hp fun _ => trivial

theorem All.issue {op : Op} {report : W → α} (h : T op) : (issue op report).All T := ⟨h, fun _ => trivial⟩

variable {ε : Type}

theorem All.run_bind {x : ExceptT ε (Prog Op W) α} {f : α → ExceptT ε (Prog Op W) β} (hx : x.run.All T)
    (hf : ∀ a, (f a).run.All T) : (x >>= f).run.All T := by
  refine All.bind hx ?_
  intro r
  cases r with
  | ok a => exact hf a
  | error => exact trivial

theorem All.run_pure {a : α} : (pure a : ExceptT ε (Prog Op W) α).run.All T := trivial

theorem All.run_throw {e : ε} : (throw e : ExceptT ε (Prog Op W) α).run.All T := trivial

theorem All.run_attempt {op : Op} {report : W → Except ε α} (h : T op) : (attempt op report).run.All T :=
  All.issue h

theorem All.run_query {op : Op} {report : W → α} (h : T op) : (query op report : ExceptT ε (Prog Op W) α).run.All T :=
  All.issue h

theorem All.run_failIf {c : Prop} [Decidable c] {e : ε} : (failIf c e : ExceptT ε (Prog Op W) Unit).run.All T := by
  unfold failIf
  split <;> exact trivial

theorem All.run_outcome {δ : Type} {x : ExceptT δ (Prog Op W) α} (hx : x.run.All T) :
    (outcome x : ExceptT ε (Prog Op W) (Except δ α)).run.All T :=
  All.bind hx fun _ => trivial

end All

/-- A call all of whose statements keep the protocol, and what it knows on top of that. -/
theorem All.keeps {T : Op → Prop} {A : W → Prop} (hrely : ∀ w v, P.Rely i w v → A w → A v)
    (hexec : ∀ op v, T op → P.Inv v → P.ok op v → A v →
      P.Inv (P.exec op v) ∧ P.Guar i v (P.exec op v) ∧ A (P.exec op v))
    {p : Prog Op W α} (hp : p.All T) {w : W} (hw : A w) : p.Keeps P i (fun _ u => A u) w := by
  induction p generalizing w with
  | done => exact fun v hwv _ => hrely w v hwv hw
  | stmt op _ ih =>
    intro v hwv hv hop
    obtain ⟨hinv, hguar, hA⟩ := hexec op v hp.1 hv hop (hrely w v hwv hw)
    exact ⟨hinv, hguar, ih v (hp.2 v) hA⟩

/-! The same rules for a call that can fail. -/

section Fallible

variable {ε : Type} {Q : Except ε β → W → Prop} {w : W}

variable {f : α → ExceptT ε (Prog Op W) β}

theorem Keeps.run_bind {x : ExceptT ε (Prog Op W) α}
    (h : x.run.Keeps P i (fun r v => match r with
      | .ok a => (f a).run.Keeps P i Q v
      | .error e => Prog.Keeps P i Q (.done (.error e)) v) w) : (x >>= f).run.Keeps P i Q w := by
  show (x.run >>= ExceptT.bindCont f).Keeps P i Q w
  refine Keeps.bind (h.weaken ?_)
  intro r v _ hr
  cases r with
  | ok => exact hr
  | error => exact hr

theorem Keeps.run_throw {e : ε} (h : ∀ v, P.Rely i w v → P.Inv v → Q (.error e) v) :
    (throw e : ExceptT ε (Prog Op W) β).run.Keeps P i Q w :=
  h

theorem Keeps.run_pure {b : β} (h : ∀ v, P.Rely i w v → P.Inv v → Q (.ok b) v) :
    (pure b : ExceptT ε (Prog Op W) β).run.Keeps P i Q w :=
  h

theorem Keeps.run_attempt {op : Op} {report : W → Except ε β}
    (h : ∀ v, P.Rely i w v → P.Inv v → P.ok op v → P.Inv (P.exec op v) ∧ P.Guar i v (P.exec op v) ∧
      ∀ u, P.Rely i (P.exec op v) u → P.Inv u → Q (report v) u) : (attempt op report).run.Keeps P i Q w :=
  h

theorem Keeps.run_attempt_bind {op : Op} {report : W → Except ε α}
    (h : ∀ v, P.Rely i w v → P.Inv v → P.ok op v → P.Inv (P.exec op v) ∧ P.Guar i v (P.exec op v) ∧
      (∀ a, report v = .ok a → (f a).run.Keeps P i Q (P.exec op v)) ∧
      ∀ e, report v = .error e → Prog.Keeps P i Q (.done (.error e)) (P.exec op v)) :
    (attempt op report >>= f).run.Keeps P i Q w := by
  intro v hwv hv hop
  obtain ⟨hinv, hguar, hok, herr⟩ := h v hwv hv hop
  refine ⟨hinv, hguar, ?_⟩
  show (ExceptT.bindCont f (report v)).Keeps P i Q (P.exec op v)
  cases hr : report v with
  | ok a => exact hok a hr
  | error e => exact herr e hr

theorem Keeps.run_query_bind {op : Op} {report : W → α}
    (h : ∀ v, P.Rely i w v → P.Inv v → P.ok op v → P.Inv (P.exec op v) ∧ P.Guar i v (P.exec op v) ∧
      (f (report v)).run.Keeps P i Q (P.exec op v)) : (query op report >>= f).run.Keeps P i Q w :=
  h

theorem Keeps.run_failIf {Q : Except ε Unit → W → Prop} {c : Prop} [Decidable c] {e : ε}
    (herr : c → ∀ v, P.Rely i w v → P.Inv v → Q (.error e) v) (h : ¬ c → ∀ v, P.Rely i w v → P.Inv v → Q (.ok ()) v) :
    (failIf c e : ExceptT ε (Prog Op W) Unit).run.Keeps P i Q w := by
  unfold failIf
  split
  · exact herr ‹_›
  · exact h ‹_›

theorem Keeps.run_failIf_bind {c : Prop} [Decidable c] {e : ε} {f : Unit → ExceptT ε (Prog Op W) β}
    (herr : c → ∀ v, P.Rely i w v → P.Inv v → Q (.error e) v) (h : ¬ c → (f ()).run.Keeps P i Q w) :
    (failIf c e >>= f).run.Keeps P i Q w := by
  by_cases hc : c
  · have hthrow : (failIf c e : ExceptT ε (Prog Op W) Unit) = throw e := if_pos hc
    rw [hthrow]
    exact herr hc
  · have hpure : (failIf c e : ExceptT ε (Prog Op W) Unit) = pure () := if_neg hc
    rw [hpure]
    exact h hc

theorem Keeps.run_outcome_bind {δ : Type} {x : ExceptT δ (Prog Op W) α} {f : Except δ α → ExceptT ε (Prog Op W) β}
    (h : x.run.Keeps P i (fun r v => (f r).run.Keeps P i Q v) w) : (outcome x >>= f).run.Keeps P i Q w := by
  refine Keeps.run_bind ?_
  show (x.run >>= fun r => Prog.done (Except.ok r)).Keeps P i _ w
  refine Keeps.bind (h.weaken ?_)
  intro r v _ hf u hvu _
  exact hf.mono hvu

end Fallible

theorem keeps_pure {Q : α → W → Prop} {a : α} {w : W} (h : ∀ v, P.Rely i w v → P.Inv v → Q a v) :
    (pure a : Prog Op W α).Keeps P i Q w :=
  h

end Prog

namespace Sys

variable {body : ℕ → C → Prog Op W α} {may : C → W → Prop} {Q : ℕ → C → W → α → W → Prop}

/-- Every call in progress keeps the protocol, from a world that does.  Whatever happened since the world `o` the
run began in, it was not the doing of a call that is still to be started. -/
structure Good (P : Protocol C Op W) (o : W) (Q : ℕ → C → W → α → W → Prop) (s : Sys C Op W α) : Prop where
  inv : P.Inv s.world
  keeps : ∀ (i : ℕ) (r : Running C Op W α), s.calls[i]? = some r → r.rest.Keeps P (i, r.call) (Q i r.call r.since) s.world
  fresh : ∀ i c, s.calls.length ≤ i → P.Rely (i, c) o s.world

theorem getElem?_append_singleton {l : List β} {b r : β} {i : ℕ} (h : (l ++ [b])[i]? = some r) :
    l[i]? = some r ∨ (i = l.length ∧ r = b) := by
  rcases lt_or_ge i l.length with hlt | hge
  · rw [getElem?_append_left hlt] at h
    exact Or.inl h
  · rw [getElem?_append_right hge] at h
    obtain ⟨hi, hr⟩ := List.getElem?_eq_some_iff.mp h
    have hi : i - l.length < 1 := hi
    have hmem := mem_of_getElem? h
    exact Or.inr ⟨by omega, mem_singleton.mp hmem⟩

theorem getElem?_set {l : List β} {b r : β} {i j : ℕ} (h : (l.set i b)[j]? = some r) :
    (j = i ∧ r = b) ∨ (j ≠ i ∧ l[j]? = some r) := by
  rcases eq_or_ne i j with rfl | hij
  · have hi : i < l.length := by
      obtain ⟨hi, -⟩ := List.getElem?_eq_some_iff.mp h
      rwa [length_set] at hi
    rw [getElem?_set_self hi] at h
    exact Or.inl ⟨rfl, (Option.some.inj h).symm⟩
  · rw [getElem?_set_ne hij] at h
    exact Or.inr ⟨hij.symm, h⟩

/-- What an event does: it starts a call, or nothing, or it issues the next statement of a call. -/
theorem step_cases (exec : Op → W → W) (body : ℕ → C → Prog Op W α) (s : Sys C Op W α) (e : Event C) :
    (∃ c, e = .start c ∧ step exec body s e = ⟨s.world, s.calls ++ [⟨c, s.world, body s.calls.length c⟩]⟩) ∨
    step exec body s e = s ∨
    ∃ i c since op next, e = .advance i ∧ s.calls[i]? = some ⟨c, since, .stmt op next⟩ ∧
      step exec body s e = ⟨exec op s.world, s.calls.set i ⟨c, since, next s.world⟩⟩ := by
  cases e with
  | start c => exact Or.inl ⟨c, rfl, rfl⟩
  | advance i =>
    right
    cases hi : s.calls[i]? with
    | none =>
      left
      simp [step, hi]
    | some r =>
      obtain ⟨c, since, rest⟩ := r
      cases rest with
      | done =>
        left
        simp [step, hi]
      | stmt op next =>
        right
        exact ⟨i, c, since, op, next, rfl, hi, by simp [step, hi]⟩

variable {s : Sys C Op W α}

section Runs

variable {o : W} (hbody : ∀ n c w, P.Inv w → P.Rely (n, c) o w → may c w → (body n c).Keeps P (n, c) (Q n c w) w)

include hbody in
theorem Good.step {e : Event C} (hs : Good P o Q s) (he : s.Meets may P.ok e) :
    Good P o Q (step P.exec body s e) ∧ P.Rel s.world (Sys.step P.exec body s e).world := by
  rcases step_cases P.exec body s e with ⟨c, rfl, hstep⟩ | hstep | ⟨i, c, since, op, next, rfl, hi, hstep⟩
  · rw [hstep]
    refine ⟨⟨hs.inv, ?_, ?_⟩, P.refl _⟩
    · intro i r hr
      rcases getElem?_append_singleton hr with hr | ⟨rfl, rfl⟩
      · exact hs.keeps i r hr
      · exact hbody s.calls.length c s.world hs.inv (hs.fresh _ c le_rfl) he
    · intro i c' hi
      rw [length_append] at hi
      exact hs.fresh i c' (by omega)
  · rw [hstep]
    exact ⟨hs, P.refl _⟩
  · have hown := hs.keeps i _ hi
    have hop : P.ok op s.world := he op (by simp [next?, hi])
    obtain ⟨hinv, hguar, hnext⟩ := hown s.world (P.rely_refl _ _) hs.inv hop
    rw [hstep]
    refine ⟨⟨hinv, ?_, ?_⟩, P.guar_rel hguar⟩
    · intro j r hr
      rcases getElem?_set hr with ⟨rfl, rfl⟩ | ⟨hne, hr⟩
      · exact hnext
      · exact (hs.keeps j r hr).mono (P.guar_rely hne hguar)
    · intro j c' hj
      rw [length_set] at hj
      have hlt : i < s.calls.length := (List.getElem?_eq_some_iff.mp hi).1
      have hne : j ≠ i := by omega
      exact P.rely_trans (hs.fresh j c' hj) (P.guar_rely hne hguar)

/-- What the next statement of a call does, where it is granted. -/
theorem Good.guar (hs : Good P o Q s) (body : ℕ → C → Prog Op W α) {i : ℕ} {r : Running C Op W α}
    (hi : s.calls[i]? = some r) (he : s.Meets may P.ok (.advance i)) :
    Sys.step P.exec body s (.advance i) = s ∨
      P.Guar (i, r.call) s.world (Sys.step P.exec body s (.advance i)).world := by
  rcases step_cases P.exec body s (.advance i) with ⟨c, h, -⟩ | hstep | ⟨j, c, since, op, next, h, hj, hstep⟩
  · cases h
  · exact Or.inl hstep
  · obtain rfl := Event.advance.inj h
    rw [hj] at hi
    obtain rfl := Option.some.inj hi
    have hop : P.ok op s.world := he op (by simp [next?, hj])
    obtain ⟨-, hguar, -⟩ := hs.keeps i _ hj s.world (P.rely_refl _ _) hs.inv hop
    rw [hstep]
    exact Or.inr hguar

include hbody in
/-- What good states keep, event by event, a run keeps. -/
theorem Good.run_inv {A : Sys C Op W α → Prop}
    (hA : ∀ s e, Good P o Q s → s.Meets may P.ok e → A s → A (Sys.step P.exec body s e)) (events : List (Event C)) :
    ∀ {s : Sys C Op W α}, Good P o Q s → Admits P.exec body may P.ok s events → A s →
      Good P o Q (run P.exec body s events) ∧ A (run P.exec body s events) := by
  induction events with
  | nil => exact fun hs _ h => ⟨hs, h⟩
  | cons e _ ih => exact fun {s} hs hadm h => ih (hs.step hbody hadm.1).1 hadm.2 (hA s e hs hadm.1 h)

include hbody in
/-- **The rule for runs.**  If every call that may be started keeps the protocol, then so does every run. -/
theorem run_keeps (events : List (Event C)) (hs : Good P o Q s) (hadm : Admits P.exec body may P.ok s events) :
    Good P o Q (run P.exec body s events) ∧ P.Rel s.world (run P.exec body s events).world :=
  @Good.run_inv _ _ _ _ _ _ _ _ _ hbody (fun v => P.Rel s.world v.world)
    (fun _ _ hv he h => P.trans h (hv.step hbody he).2) events _ hs hadm (P.refl _)

include hbody in
/-- The invariant of a protocol that a run keeps may be granted to the next protocol. -/
theorem Good.admits_inv (events : List (Event C)) :
    ∀ {s : Sys C Op W α}, Good P o Q s → Admits P.exec body may P.ok s events →
      Admits P.exec body may (fun _ w => P.Inv w) s events := by
  induction events with
  | nil => exact fun _ _ => trivial
  | cons e _ ih =>
    intro s hs hadm
    refine ⟨?_, ih (hs.step hbody hadm.1).1 hadm.2⟩
    cases e with
    | start => exact hadm.1
    | advance => exact fun _ _ => hs.inv

/-- What an ended call of a good state knows. -/
theorem Good.ended (hs : Good P o Q s) {i : ℕ} {c : C} {since : W} {a : α}
    (h : s.Ended i c since a) : Q i c since a s.world :=
  hs.keeps i _ h s.world (P.rely_refl _ _) hs.inv

/-- The calls that were not there in a state with `n` calls were started in a world `u` leads to. -/
def NewSince (P : Protocol C Op W) (n : ℕ) (u : W) (s : Sys C Op W α) : Prop :=
  n ≤ s.calls.length ∧ P.Rel u s.world ∧ ∀ i r, n ≤ i → s.calls[i]? = some r → P.Rel u r.since ∧ P.Inv r.since

include hbody in
theorem NewSince.step {n : ℕ} {u : W} {e : Event C} (h : NewSince P n u s) (hs : Good P o Q s)
    (he : s.Meets may P.ok e) :
    NewSince P n u (Sys.step P.exec body s e) := by
  obtain ⟨hlen, hrel, hnew⟩ := h
  have hafter := P.trans hrel (hs.step hbody he).2
  rcases step_cases P.exec body s e with ⟨c, rfl, hstep⟩ | hstep | ⟨i, c, since, op, next, rfl, hi, hstep⟩
  · rw [hstep] at hafter ⊢
    refine ⟨?_, hafter, ?_⟩
    · show n ≤ (s.calls ++ [_]).length
      rw [length_append]
      omega
    intro i r hi hr
    rcases getElem?_append_singleton hr with hr | ⟨rfl, rfl⟩
    · exact hnew i r hi hr
    · exact ⟨hrel, hs.inv⟩
  · rw [hstep]
    exact ⟨hlen, hrel, hnew⟩
  · rw [hstep] at hafter ⊢
    refine ⟨by rw [length_set]; exact hlen, hafter, ?_⟩
    intro j r hj hr
    rcases getElem?_set hr with ⟨rfl, rfl⟩ | ⟨-, hr⟩
    · exact hnew j ⟨c, since, .stmt op next⟩ hj hi
    · exact hnew j r hj hr

include hbody in
/-- A call that was started after a state of the run was started in a world that state leads to. -/
theorem run_newSince {n : ℕ} {u : W} (events : List (Event C)) (hs : Good P o Q s) (h : NewSince P n u s)
    (hadm : Admits P.exec body may P.ok s events) : NewSince P n u (run P.exec body s events) :=
  (Good.run_inv hbody (fun _ _ hs he h => h.step hbody hs he) events hs hadm h).2

theorem newSince_self : NewSince P s.calls.length s.world s := by
  refine ⟨le_refl _, P.refl _, ?_⟩
  intro i r hi hr
  rw [getElem?_eq_none hi] at hr
  cases hr

variable {K : ℕ × C → W → Prop} (hstart : ∀ i w, P.Rely i o w → K i w)
  (hrely : ∀ {i w v}, P.Rely i w v → K i w → K i v) (hguar : ∀ {i w v}, P.Guar i w v → K i w → K i v)

include hstart hrely hguar in
theorem Good.step_call {e : Event C} (hs : Good P o Q s) (he : s.Meets may P.ok e)
    (hK : ∀ i r, s.calls[i]? = some r → K (i, r.call) s.world) :
    ∀ i r, (Sys.step P.exec body s e).calls[i]? = some r → K (i, r.call) (Sys.step P.exec body s e).world := by
  rcases step_cases P.exec body s e with ⟨c, rfl, hstep⟩ | hstep | ⟨i, c, since, op, next, rfl, hi, hstep⟩
  · rw [hstep]
    intro i r hr
    rcases getElem?_append_singleton hr with hr | ⟨rfl, rfl⟩
    · exact hK i r hr
    · exact hstart _ _ (hs.fresh _ c le_rfl)
  · rw [hstep]
    exact hK
  · have hop : P.ok op s.world := he op (by simp [next?, hi])
    obtain ⟨-, hown, -⟩ := hs.keeps i _ hi s.world (P.rely_refl _ _) hs.inv hop
    rw [hstep]
    intro j r hr
    rcases getElem?_set hr with ⟨rfl, rfl⟩ | ⟨hne, hr⟩
    · exact hguar hown (hK j ⟨c, since, .stmt op next⟩ hi)
    · exact hrely (P.guar_rely hne hown) (hK j r hr)

include hbody hstart hrely hguar in
/-- What is true of a call when it is started, and is kept by its own statements and by what the other calls do, is true
of every call of a run. -/
theorem Good.run_call (events : List (Event C)) (hs : Good P o Q s) (hadm : Admits P.exec body may P.ok s events)
    (hK : ∀ i r, s.calls[i]? = some r → K (i, r.call) s.world) :
    ∀ i r, (run P.exec body s events).calls[i]? = some r → K (i, r.call) (run P.exec body s events).world :=
  (@Good.run_inv _ _ _ _ _ _ _ _ _ hbody (fun s => ∀ i r, s.calls[i]? = some r → K (i, r.call) s.world)
    (fun _ _ hs he hK => hs.step_call hstart hrely hguar he hK) events _ hs hadm hK).2

end Runs

/-- No call is started yet. -/
theorem good_init {w : W} (h : P.Inv w) : Good P w Q (⟨w, []⟩ : Sys C Op W α) :=
  ⟨h, (fun i r hr => by cases hr), fun i c _ => P.rely_refl (i, c) w⟩

end Sys

end Interleave
