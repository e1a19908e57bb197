/-
  Calls that own a part of the world.

  Many protocols come down to one rule: the world holds a part for each call, under its number, and nobody but the
  call itself changes that part.  Then a call can be checked as if it ran alone on its part.  `Protocol.owned` is that
  rule, and `Prog.Owns` the triple for it: a call whose part is `s` ends with an answer and a part that `T` allows, and
  keeps the invariant with every statement on the way, whatever the others do in between.

  What the statements do to the rest of the world is the business of the invariant.
-/
import NovaMaas.Lib.Interleave

namespace Interleave

variable {C Op W S α β : Type}

/-- A loop over a list. -/
def Prog.forEach (f : β → Prog Op W Unit) : List β → Prog Op W Unit
  | [] => pure ()
  | b :: l => f b >>= fun _ => Prog.forEach f l

/-- The calls keep `Inv`, and none changes what another one owns. -/
def Protocol.owned (exec : Op → W → W) (ok : Op → W → Prop) (Inv : W → Prop) (own : ℕ → W → S) : Protocol C Op W where
  exec := exec
  ok := ok
  Inv := Inv
  Rel := fun _ _ => True
  Rely := fun i w v => own i.1 v = own i.1 w
  Guar := fun i w v => ∀ m, m ≠ i.1 → own m v = own m w
  refl := fun _ => trivial
  trans := fun _ _ => trivial
  rely_refl := fun _ _ => rfl
  rely_trans := fun h h' => h'.trans h
  rely_rel := fun _ => trivial
  guar_rel := fun _ => trivial
  guar_rely := fun hne h => h _ hne

/-- `p.Owns exec ok Inv own i s T`: the call `i`, whose part is `s`, keeps the protocol, and ends with an answer and a
part that `T` allows. -/
def Prog.Owns (exec : Op → W → W) (ok : Op → W → Prop) (Inv : W → Prop) (own : ℕ → W → S) (i : ℕ × C) (s : S)
    (p : Prog Op W α) (T : α → S → Prop) : Prop :=
  ∀ w, own i.1 w = s → p.Keeps (Protocol.owned exec ok Inv own) i (fun a v => T a (own i.1 v)) w

namespace Prog

variable {exec : Op → W → W} {ok : Op → W → Prop} {Inv : W → Prop} {own : ℕ → W → S} {i : ℕ × C} {s : S}

theorem Owns.pure {T : α → S → Prop} {a : α} (h : T a s) : Owns exec ok Inv own i s (pure a) T := by
  intro w hw v hwv _
  have hv : own i.1 v = s := by
    rw [hwv, hw]
  rw [hv]
  exact h

theorem Owns.bind {p : Prog Op W α} {f : α → Prog Op W β} {R : α → S → Prop} {T : β → S → Prop}
    (hp : Owns exec ok Inv own i s p R) (hf : ∀ a s', R a s' → Owns exec ok Inv own i s' (f a) T) :
    Owns exec ok Inv own i s (p >>= f) T := by
  intro w hw
  refine Prog.Keeps.bind ((hp w hw).weaken ?_)
  intro a v _ hR
  exact hf a _ hR v rfl

theorem Owns.weaken {p : Prog Op W α} {R T : α → S → Prop} (hp : Owns exec ok Inv own i s p R)
    (h : ∀ a s', R a s' → T a s') : Owns exec ok Inv own i s p T :=
  fun w hw => (hp w hw).weaken fun a _ _ hR => h a _ hR

/-- The rule for one statement. -/
theorem Owns.issue {op : Op} {report : W → α} {T : α → S → Prop} (h : ∀ v, Inv v → own i.1 v = s → ok op v →
      Inv (exec op v) ∧ (∀ m, m ≠ i.1 → own m (exec op v) = own m v) ∧ T (report v) (own i.1 (exec op v))) :
    Owns exec ok Inv own i s (Prog.issue op report) T := by
  intro w hw
  refine Keeps.issue ?_
  intro v hwv hv hop
  have hown : own i.1 v = s := by
    rw [hwv, hw]
  obtain ⟨hinv, hother, hT⟩ := h v hv hown hop
  refine ⟨hinv, hother, ?_⟩
  intro u hu _
  have hu : own i.1 u = own i.1 (exec op v) := hu
  rw [hu]
  exact hT

/-- The rule for a loop: `I l s` is what a call knows of its part with `l` still to do. -/
theorem Owns.forEach {f : β → Prog Op W Unit} (I : List β → S → Prop)
    (hf : ∀ b l s, I (b :: l) s → Owns exec ok Inv own i s (f b) fun _ s' => I l s') :
    ∀ (l : List β) (s : S), I l s → Owns exec ok Inv own i s (Prog.forEach f l) fun _ s' => I [] s' := by
  intro l
  induction l with
  | nil => exact fun s hs => Owns.pure hs
  | cons b l ih => exact fun s hs => Owns.bind (hf b l s hs) fun _ s' hs' => ih s' hs'

end Prog

end Interleave
