/-
  Regular expressions as a backtracking matcher tries them.

  A pattern gives, for a text, ALL the ways in which it matches a beginning of it, in the order in which they are tried:
  what was captured, and the text behind the match.  A sequence of patterns tries, for every way of the first one, the
  ways of the second; a greedy repetition gives its longest match first.  A match is the first of the ways.

  That what stands behind a match is an end of the text is part of a pattern, so a match has a text of its own
  (`matchedText`), and the loop that looks for one match after the other (`execAll`) gets shorter texts.

  What a pattern matches is said declaratively by the `mem_…` lemmas, and that the first way is the longest one by
  `head_many`: a proof about a match reads the way it was made from the first, and that no other way was tried before
  it from the second.
-/
import Mathlib

open List

namespace NovaMaas

/-- A pattern: the ways to match a beginning of a text, in the order in which they are tried. -/
structure Pattern (α : Type) where
  run    : List Char → List (α × List Char)
  suffix : ∀ s m, m ∈ run s → m.2 <:+ s

namespace Pattern

variable {α β : Type}

/-! ## Patterns -/

/-- The empty pattern. -/
def give (a : α) : Pattern α where
  run s := [(a, s)]
  suffix s m hm := by
    rw [mem_singleton.1 hm]

/-- A pattern that never matches. -/
def never : Pattern α where
  run _ := []
  suffix s m hm := by cases hm

/-- One pattern behind the other. -/
def andThen (r : Pattern α) (k : α → Pattern β) : Pattern β where
  run s := (r.run s).flatMap fun m => (k m.1).run m.2
  suffix s m hm := by
    obtain ⟨m', hm', hm⟩ := mem_flatMap.1 hm
    exact ((k m'.1).suffix m'.2 m hm).trans (r.suffix s m' hm')

/-- A pattern with another capture. -/
def map (f : α → β) (r : Pattern α) : Pattern β := r.andThen fun a => give (f a)

/-- Characters that stand for themselves. -/
def lit (word : List Char) : Pattern Unit where
  run s := if word.isPrefixOf s then [((), s.drop word.length)] else []
  suffix s m hm := by
    split at hm
    · rw [mem_singleton.1 hm]
      exact drop_suffix _ s
    · cases hm

/-- The end of the text. -/
def atEnd : Pattern Unit where
  run s := if s = [] then [((), [])] else []
  suffix s m hm := by
    split at hm
    · rw [mem_singleton.1 hm]
      exact nil_suffix
    · cases hm

/-- The ways to repeat a class of characters, the longest one first. -/
def runs (p : Char → Bool) : List Char → List (List Char × List Char)
  | [] => [([], [])]
  | c :: s =>
    if p c then (runs p s).map (fun m => (c :: m.1, m.2)) ++ [([], c :: s)]
    else [([], c :: s)]

variable {p : Char → Bool}

theorem mem_runs {s : List Char} {m : List Char × List Char} :
    m ∈ runs p s ↔ s = m.1 ++ m.2 ∧ ∀ c ∈ m.1, p c = true := by
  induction s generalizing m with
  | nil =>
    unfold runs
    rw [mem_singleton]
    constructor
    · rintro rfl
      exact ⟨rfl, by simp⟩
    · rintro ⟨h, -⟩
      obtain ⟨h1, h2⟩ := append_eq_nil_iff.1 h.symm
      exact Prod.ext h1 h2
  | cons c _ ih =>
    obtain ⟨t, rest⟩ := m
    unfold runs
    by_cases hc : p c = true
    · rw [if_pos hc, mem_append, mem_map, mem_singleton]
      constructor
      · rintro (⟨⟨t', rest'⟩, hm, heq⟩ | heq)
        · obtain ⟨rfl, hall⟩ := ih.1 hm
          cases heq
          exact ⟨rfl, forall_mem_cons.2 ⟨hc, hall⟩⟩
        · cases heq
          exact ⟨rfl, by simp⟩
      · rintro ⟨heq, hall⟩
        cases t with
        | nil => exact Or.inr (by rw [heq]; rfl)
        | cons _ t =>
          obtain ⟨rfl, rfl⟩ := cons.inj heq
          exact Or.inl ⟨(t, rest), ih.2 ⟨rfl, fun e he => hall e (mem_cons_of_mem _ he)⟩, rfl⟩
    · rw [if_neg hc, mem_singleton]
      constructor
      · intro heq
        cases heq
        exact ⟨rfl, by simp⟩
      · rintro ⟨heq, hall⟩
        cases t with
        | nil => rw [heq]; rfl
        | cons =>
          obtain ⟨rfl, -⟩ := cons.inj heq
          exact absurd (hall c mem_cons_self) hc

/-- A class of characters, any number of times. -/
def many (p : Char → Bool) : Pattern (List Char) where
  run := runs p
  suffix s m hm := by
    obtain ⟨h, -⟩ := mem_runs.1 hm
    exact ⟨m.1, h.symm⟩

/-- A class of characters, once. -/
def one (p : Char → Bool) : Pattern Char where
  run
    | [] => []
    | c :: s => if p c then [(c, s)] else []
  suffix s m hm := by
    cases s with
    | nil => cases hm
    | cons c s =>
      simp only at hm
      split at hm
      · rw [mem_singleton.1 hm]
        exact suffix_cons c s
      · cases hm

/-- A place between a word and what is no word (`\b`), seen from the character before it. -/
def boundary (isWord : Char → Bool) (before : Option Char) : Pattern Unit where
  run s := if before.any isWord ≠ s.head?.any isWord then [((), s)] else []
  suffix s m hm := by
    split at hm
    · rw [mem_singleton.1 hm]
    · cases hm

/-- A class of characters, at least once. -/
def atLeastOne (p : Char → Bool) : Pattern (List Char) :=
  (one p).andThen fun c => (many p).map fun t => c :: t

/-- The first pattern, and then the second one. -/
def or (r r' : Pattern α) : Pattern α where
  run s := r.run s ++ r'.run s
  suffix s m hm := by
    rcases mem_append.1 hm with hm | hm
    · exact r.suffix s m hm
    · exact r'.suffix s m hm

/-- One of several patterns, the first ones first. -/
def oneOf : List (Pattern α) → Pattern α
  | [] => never
  | r :: rs => r.or (oneOf rs)

/-- A pattern, or nothing. -/
def optional (r : Pattern α) : Pattern (Option α) := (r.map some).or (give none)

/-- Patterns one behind the other. -/
def each : List (Pattern α) → Pattern (List α)
  | [] => give []
  | r :: rs => r.andThen fun a => (each rs).map fun as => a :: as

/-- A pattern repeated, as often as it can be and at most so many times. -/
def repeated (r : Pattern α) : ℕ → Pattern (List α)
  | 0 => give []
  | n + 1 => (r.andThen fun a => (repeated r n).map fun as => a :: as).or (give [])

/-- A pattern repeated as often as it can be; a repetition takes at least one character. -/
def star (r : Pattern α) : Pattern (List α) where
  run s := (repeated r s.length).run s
  suffix s m hm := (repeated r s.length).suffix s m hm

/-! ## Matches -/

/-- The text of a match. -/
def matchedText (s rest : List Char) : List Char := s.take (s.length - rest.length)

/-- A pattern that captures the text it matches. -/
def captured (r : Pattern α) : Pattern (List Char) where
  run s := (r.run s).map fun m => (matchedText s m.2, m.2)
  suffix s m hm := by
    obtain ⟨m', hm', rfl⟩ := mem_map.1 hm
    exact r.suffix s m' hm'

/-- The match at the beginning of a text. -/
def exec (r : Pattern α) (s : List Char) : Option (α × List Char) := (r.run s).head?

/-- The match with the whole text. -/
def execWhole (r : Pattern α) (s : List Char) : Option α :=
  ((r.andThen fun a => atEnd.map fun _ => a).exec s).map Prod.fst

/-- The matches from a place on, one behind the other; a pattern sees the character before the place. -/
def execAllFrom (r : Option Char → Pattern α) : ℕ → Option Char → List Char → List α
  | 0, _, _ => []
  | n + 1, before, s =>
    match (r before).exec s with
    | some (a, rest) => a :: execAllFrom r n ((matchedText s rest).getLast?.or before) rest
    | none =>
      match s with
      | [] => []
      | c :: s => execAllFrom r n (some c) s

/-- The matches in a text, one behind the other (`exec` with the flag `g`, until it gives nothing). -/
def execAll (r : Option Char → Pattern α) (s : List Char) : List α := execAllFrom r (s.length + 1) none s

/-! ## What a pattern matches -/

variable {s rest : List Char}

theorem mem_give {a b : α} : (b, rest) ∈ (give a).run s ↔ b = a ∧ rest = s := by
  show (b, rest) ∈ [(a, s)] ↔ _
  rw [mem_singleton, Prod.mk.injEq]

variable {r : Pattern α}

theorem mem_andThen {k : α → Pattern β} {b : β} :
    (b, rest) ∈ (r.andThen k).run s ↔ ∃ a mid, (a, mid) ∈ r.run s ∧ (b, rest) ∈ (k a).run mid := by
  show (b, rest) ∈ (r.run s).flatMap _ ↔ _
  rw [mem_flatMap]
  constructor
  · rintro ⟨⟨a, mid⟩, hm, hk⟩
    exact ⟨a, mid, hm, hk⟩
  · rintro ⟨a, mid, hm, hk⟩
    exact ⟨(a, mid), hm, hk⟩

theorem mem_map {f : α → β} {b : β} :
    (b, rest) ∈ (r.map f).run s ↔ ∃ a, (a, rest) ∈ r.run s ∧ b = f a := by
  unfold map
  rw [mem_andThen]
  constructor
  · rintro ⟨a, mid, hm, hk⟩
    obtain ⟨rfl, rfl⟩ := mem_give.1 hk
    exact ⟨a, hm, rfl⟩
  · rintro ⟨a, hm, rfl⟩
    exact ⟨a, rest, hm, mem_give.2 ⟨rfl, rfl⟩⟩

theorem mem_lit {word s rest : List Char} {u : Unit} : (u, rest) ∈ (lit word).run s ↔ s = word ++ rest := by
  show (u, rest) ∈ (if word.isPrefixOf s then [((), s.drop word.length)] else []) ↔ _
  by_cases h : word.isPrefixOf s
  · obtain ⟨t, rfl⟩ := isPrefixOf_iff_prefix.1 h
    rw [if_pos h, mem_singleton, drop_left, Prod.mk.injEq]
    constructor
    · rintro ⟨-, rfl⟩
      rfl
    · intro heq
      exact ⟨rfl, (append_cancel_left heq).symm⟩
  · rw [if_neg h]
    constructor
    · intro hm
      cases hm
    · rintro rfl
      exact absurd ( isPrefixOf_iff_prefix.2 (prefix_append word rest)) h

theorem mem_atEnd {u : Unit} : (u, rest) ∈ atEnd.run s ↔ s = [] ∧ rest = [] := by
  show (u, rest) ∈ (if s = [] then [((), [])] else []) ↔ _
  by_cases h : s = []
  · rw [if_pos h, mem_singleton, Prod.mk.injEq]
    exact ⟨fun hm => ⟨h, hm.2⟩, fun hm => ⟨rfl, hm.2⟩⟩
  · rw [if_neg h]
    constructor
    · intro hm
      cases hm
    · intro hm
      exact absurd hm.1 h

theorem mem_many {s t rest : List Char} : (t, rest) ∈ (many p).run s ↔ s = t ++ rest ∧ ∀ c ∈ t, p c = true := mem_runs

theorem mem_one {c : Char} : (c, rest) ∈ (one p).run s ↔ s = c :: rest ∧ p c = true := by
  cases s with
  | nil =>
    constructor
    · intro hm
      cases hm
    · intro hm
      exact absurd hm.1 (cons_ne_nil c rest).symm
  | cons d s =>
    show (c, rest) ∈ (if p d then [(d, s)] else []) ↔ _
    by_cases hd : p d = true
    · rw [if_pos hd, mem_singleton, Prod.mk.injEq]
      constructor
      · rintro ⟨rfl, rfl⟩
        exact ⟨rfl, hd⟩
      · rintro ⟨heq, -⟩
        obtain ⟨rfl, rfl⟩ := cons.inj heq
        exact ⟨rfl, rfl⟩
    · rw [if_neg hd]
      constructor
      · intro hm
        cases hm
      · rintro ⟨heq, hc⟩
        obtain ⟨rfl, -⟩ := cons.inj heq
        exact absurd hc hd

theorem mem_boundary {isWord : Char → Bool} {before : Option Char} {u : Unit} :
    (u, rest) ∈ (boundary isWord before).run s ↔ rest = s ∧ before.any isWord ≠ s.head?.any isWord := by
  show (u, rest) ∈ (if before.any isWord ≠ s.head?.any isWord then [((), s)] else []) ↔ _
  by_cases h : before.any isWord ≠ s.head?.any isWord
  · rw [if_pos h, mem_singleton, Prod.mk.injEq]
    exact ⟨fun hm => ⟨hm.2, h⟩, fun hm => ⟨rfl, hm.1⟩⟩
  · rw [if_neg h]
    constructor
    · intro hm
      cases hm
    · intro hm
      exact absurd hm.2 h

theorem mem_atLeastOne {s t rest : List Char} :
    (t, rest) ∈ (atLeastOne p).run s ↔ s = t ++ rest ∧ t ≠ [] ∧ ∀ c ∈ t, p c = true := by
  unfold atLeastOne
  rw [mem_andThen]
  constructor
  · rintro ⟨c, mid, hc, ht⟩
    obtain ⟨rfl, hpc⟩ := mem_one.1 hc
    obtain ⟨t', ht', rfl⟩ := mem_map.1 ht
    obtain ⟨rfl, hall⟩ := mem_many.1 ht'
    exact ⟨rfl, cons_ne_nil _ _, forall_mem_cons.2 ⟨hpc, hall⟩⟩
  · rintro ⟨rfl, hne, hall⟩
    cases t with
    | nil => exact absurd rfl hne
    | cons c t =>
      obtain ⟨hpc, hall⟩ := forall_mem_cons.1 hall
      exact ⟨c, t ++ rest, mem_one.2 ⟨rfl, hpc⟩, mem_map.2 ⟨t, mem_many.2 ⟨rfl, hall⟩, rfl⟩⟩

theorem mem_or {r' : Pattern α} {s : List Char} {m : α × List Char} :
    m ∈ (r.or r').run s ↔ m ∈ r.run s ∨ m ∈ r'.run s := mem_append

theorem mem_oneOf {rs : List (Pattern α)} {s : List Char} {m : α × List Char} :
    m ∈ (oneOf rs).run s ↔ ∃ r ∈ rs, m ∈ r.run s := by
  induction rs with
  | nil =>
    constructor
    · intro hm
      cases hm
    · rintro ⟨r, hr, -⟩
      cases hr
  | cons _ _ ih => rw [oneOf, mem_or, ih, exists_mem_cons_iff]

/-- One of some words, by what it stands for. -/
theorem mem_words {key : β → List Char} {xs : List β} {x : β} :
    (x, rest) ∈ (oneOf (xs.map fun x => (lit (key x)).map fun _ => x)).run s ↔ x ∈ xs ∧ s = key x ++ rest := by
  rw [mem_oneOf]
  constructor
  · rintro ⟨r, hr, hm⟩
    obtain ⟨y, hy, rfl⟩ := List.mem_map.1 hr
    obtain ⟨_, hlit, rfl⟩ := mem_map.1 hm
    exact ⟨hy, mem_lit.1 hlit⟩
  · rintro ⟨hx, heq⟩
    exact ⟨_, List.mem_map.2 ⟨x, hx, rfl⟩, mem_map.2 ⟨(), mem_lit.2 heq, rfl⟩⟩

theorem mem_optional {o : Option α} :
    (o, rest) ∈ (optional r).run s ↔ (∃ a, (a, rest) ∈ r.run s ∧ o = some a) ∨ (o = none ∧ rest = s) := by
  unfold optional
  rw [mem_or, mem_map, mem_give]

theorem mem_captured {s t rest : List Char} :
    (t, rest) ∈ (captured r).run s ↔ ∃ a, (a, rest) ∈ r.run s ∧ t ++ rest = s := by
  show (t, rest) ∈ (r.run s).map _ ↔ _
  rw [List.mem_map]
  constructor
  · rintro ⟨⟨a, rest'⟩, hm, heq⟩
    obtain ⟨rfl, rfl⟩ := Prod.mk.inj heq
    refine ⟨a, hm, ?_⟩
    obtain ⟨u, rfl⟩ := r.suffix s _ hm
    rw [matchedText, length_append, Nat.add_sub_cancel, take_left]
  · rintro ⟨a, hm, rfl⟩
    refine ⟨(a, rest), hm, ?_⟩
    rw [matchedText, length_append, Nat.add_sub_cancel, take_left]

/-- A pattern that takes no character of a kind. -/
def Avoids (r : Pattern α) (x : Char) : Prop := ∀ s a rest, (a, rest) ∈ r.run s → ∃ u, s = u ++ rest ∧ x ∉ u

section

variable {x : Char}

theorem avoids_give (a : α) : (give a).Avoids x := by
  intro s b rest h
  obtain ⟨-, rfl⟩ := mem_give.1 h
  exact ⟨[], rfl, not_mem_nil⟩

variable {r : Pattern α}

theorem Avoids.andThen {k : α → Pattern β} (hr : r.Avoids x) (hk : ∀ a, (k a).Avoids x) : (r.andThen k).Avoids x := by
  intro s b rest h
  obtain ⟨a, mid, ha, hb⟩ := mem_andThen.1 h
  obtain ⟨u, rfl, hu⟩ := hr s a mid ha
  obtain ⟨v, rfl, hv⟩ := hk a mid b rest hb
  exact ⟨u ++ v, (append_assoc u v rest).symm, not_mem_append hu hv⟩

theorem Avoids.map (f : α → β) (hr : r.Avoids x) : (r.map f).Avoids x :=
  hr.andThen fun a => avoids_give (f a)

theorem avoids_lit {word : List Char} (h : x ∉ word) : (lit word).Avoids x :=
  fun _ _ _ hm => ⟨word, mem_lit.1 hm, h⟩

theorem avoids_many {p : Char → Bool} (h : p x = false) : (many p).Avoids x := by
  intro s t rest hm
  obtain ⟨rfl, hall⟩ := mem_many.1 hm
  refine ⟨t, rfl, fun hx => ?_⟩
  rw [hall x hx] at h
  cases h

theorem avoids_atLeastOne {p : Char → Bool} (h : p x = false) : (atLeastOne p).Avoids x := by
  intro s t rest hm
  obtain ⟨rfl, -, hall⟩ := mem_atLeastOne.1 hm
  refine ⟨t, rfl, fun hx => ?_⟩
  rw [hall x hx] at h
  cases h

theorem Avoids.or {r r' : Pattern α} (hr : r.Avoids x) (hr' : r'.Avoids x) : (r.or r').Avoids x := by
  intro s a rest hm
  rcases mem_or.1 hm with hm | hm
  · exact hr s a rest hm
  · exact hr' s a rest hm

theorem avoids_oneOf {rs : List (Pattern α)} (h : ∀ r ∈ rs, r.Avoids x) : (oneOf rs).Avoids x := by
  intro s a rest hm
  obtain ⟨r, hr, hm⟩ := mem_oneOf.1 hm
  exact h r hr s a rest hm

theorem Avoids.optional (hr : r.Avoids x) : r.optional.Avoids x := (hr.map some).or (avoids_give none)

theorem Avoids.repeated (hr : r.Avoids x) (n : ℕ) : (r.repeated n).Avoids x := by
  induction n with
  | zero => exact avoids_give []
  | succ _ ih => exact (hr.andThen fun a => ih.map _).or (avoids_give [])

theorem Avoids.star (hr : r.Avoids x) : r.star.Avoids x :=
  fun s a rest hm => hr.repeated s.length s a rest hm

theorem Avoids.captured (hr : r.Avoids x) : r.captured.Avoids x := by
  intro s t rest hm
  obtain ⟨a, ha, -⟩ := mem_captured.1 hm
  exact hr s a rest ha

end

/-! ## Which match is the first one -/

variable {r : Pattern α}

theorem exec_mem {s rest : List Char} {a : α} (h : r.exec s = some (a, rest)) : (a, rest) ∈ r.run s :=
  mem_of_mem_head? h

variable {s : List Char}

theorem exec_none_iff : r.exec s = none ↔ r.run s = [] := head?_eq_none_iff

theorem exec_none_of (h : ∀ a rest, (a, rest) ∉ r.run s) : r.exec s = none :=
  exec_none_iff.2 (eq_nil_iff_forall_not_mem.2 fun m => h m.1 m.2)

theorem exec_map (f : α → β) (r : Pattern α) (s : List Char) :
    (r.map f).exec s = (r.exec s).map fun m => (f m.1, m.2) := by
  show ((r.run s).flatMap fun m => [(f m.1, m.2)]).head? = ((r.run s).head?).map _
  cases r.run s with
  | nil => rfl
  | cons => rfl

variable {k : α → Pattern β}

variable {mid : List Char}

/-- The first way of a sequence goes through the first match of its first part that the second part goes on from. -/
theorem exec_andThen_first {s : List Char} {a : α}
    {ms ms' : List (α × List Char)} (hrun : r.run s = ms ++ (a, mid) :: ms')
    (hbefore : ∀ m ∈ ms, (k m.1).exec m.2 = none) (hk : (k a).exec mid ≠ none) :
    (r.andThen k).exec s = (k a).exec mid := by
  show ((r.run s).flatMap fun m => (k m.1).run m.2).head? = _
  rw [hrun, flatMap_append, flatMap_cons]
  have hnil : (ms.flatMap fun m => (k m.1).run m.2) = [] := by
    rw [flatMap_eq_nil_iff]
    intro m hm
    exact exec_none_iff.1 (hbefore m hm)
  rw [hnil, nil_append, head?_append]
  show ((k a).exec mid).or _ = _
  cases h : (k a).exec mid with
  | none => exact absurd h hk
  | some => rfl

/-- A sequence whose second part goes on from the first match of its first part. -/
theorem exec_andThen {s : List Char} {a : α} {m : β × List Char}
    (hr : r.exec s = some (a, mid)) (hk : (k a).exec mid = some m) : (r.andThen k).exec s = some m := by
  obtain ⟨ms, hrun⟩ := head?_eq_some_iff.1 hr
  have hfirst : r.run s = [] ++ (a, mid) :: ms := hrun
  rw [exec_andThen_first hfirst (by simp) (by rw [hk]; exact Option.some_ne_none m), hk]

/-- A sequence whose second part goes on from one match of the first part only. -/
theorem exec_andThen_only {s : List Char} {a : α} {m : β × List Char}
    (hr : (a, mid) ∈ r.run s) (honly : ∀ b mid', (b, mid') ∈ r.run s → (k b).exec mid' ≠ none → b = a ∧ mid' = mid)
    (hk : (k a).exec mid = some m) : (r.andThen k).exec s = some m := by
  obtain ⟨ms, ms', hrun, hnot⟩ := eq_append_cons_of_mem hr
  rw [exec_andThen_first hrun (fun m hm => ?_) (by rw [hk]; exact Option.some_ne_none m), hk]
  by_contra hne
  have hmem : (m.1, m.2) ∈ r.run s := by
    rw [hrun]
    exact mem_append_left _ hm
  obtain ⟨h1, h2⟩ := honly m.1 m.2 hmem hne
  have heq : m = (a, mid) := Prod.ext h1 h2
  rw [heq] at hm
  exact hnot hm

/-- Two sequences with the same first part: if their second parts go on from the same matches, then they go through the
same match of the first part. -/
theorem exec_andThen_same {γ : Type} {k' : α → Pattern γ} {s rest : List Char} {b : β}
    (hsame : ∀ a mid, (a, mid) ∈ r.run s → ((k a).exec mid = none ↔ (k' a).exec mid = none))
    (h : (r.andThen k).exec s = some (b, rest)) :
    ∃ a mid, (a, mid) ∈ r.run s ∧ (k a).exec mid = some (b, rest) ∧ (r.andThen k').exec s = (k' a).exec mid := by
  have hall : ∀ l : List (α × List Char), (∀ m ∈ l, ((k m.1).exec m.2 = none ↔ (k' m.1).exec m.2 = none)) →
      (l.flatMap fun m => (k m.1).run m.2).head? = some (b, rest) →
      ∃ m ∈ l, (k m.1).exec m.2 = some (b, rest) ∧
        (l.flatMap fun m => (k' m.1).run m.2).head? = (k' m.1).exec m.2 := by
    intro l
    induction l with
    | nil =>
      intro _ hhead
      cases hhead
    | cons m _ ih =>
      intro hl hhead
      rw [flatMap_cons, head?_append] at hhead
      rw [flatMap_cons, head?_append]
      obtain ⟨hm, hl⟩ := forall_mem_cons.1 hl
      cases hk : (k m.1).exec m.2 with
      | some x =>
        have hx : ((k m.1).run m.2).head? = some x := hk
        rw [hx, Option.some_or] at hhead
        cases hk' : (k' m.1).exec m.2 with
        | none => rw [hm.2 hk'] at hk; cases hk
        | some y =>
          have hy : ((k' m.1).run m.2).head? = some y := hk'
          exact ⟨m, mem_cons_self, hk.trans hhead, by rw [hy, Option.some_or, hk']⟩
      | none =>
        have hx : ((k m.1).run m.2).head? = none := hk
        have hy : ((k' m.1).run m.2).head? = none := hm.1 hk
        rw [hx, Option.none_or] at hhead
        obtain ⟨m', hm', hfirst, hsecond⟩ := ih hl hhead
        exact ⟨m', mem_cons_of_mem _ hm', hfirst, by rw [hy, Option.none_or]; exact hsecond⟩
  obtain ⟨m, hm, hk, hk'⟩ := hall (r.run s) (fun m hm => hsame m.1 m.2 hm) h
  exact ⟨m.1, m.2, hm, hk, hk'⟩

/-! ## A match with the whole text -/

theorem execWhole_some {a : α} (h : r.execWhole s = some a) : (a, []) ∈ r.run s := by
  obtain ⟨⟨b, rest⟩, hb, rfl⟩ := Option.map_eq_some_iff.1 h
  obtain ⟨a, mid, ha, hend⟩ := mem_andThen.1 (exec_mem hb)
  obtain ⟨u, hu, rfl⟩ := mem_map.1 hend
  obtain ⟨rfl, -⟩ := mem_atEnd.1 hu
  exact ha

theorem execWhole_ne_none {a : α} (h : (a, []) ∈ r.run s) : r.execWhole s ≠ none := by
  have hend : (a, []) ∈ (r.andThen fun a => atEnd.map fun _ => a).run s :=
    mem_andThen.2 ⟨a, [], h, mem_map.2 ⟨(), mem_atEnd.2 ⟨rfl, rfl⟩, rfl⟩⟩
  intro hnone
  have hexec : (r.andThen fun a => atEnd.map fun _ => a).exec s = none := Option.map_eq_none_iff.1 hnone
  rw [exec_none_iff.1 hexec] at hend
  cases hend

theorem exec_lit (word rest : List Char) : (lit word).exec (word ++ rest) = some ((), rest) := by
  show (if word.isPrefixOf (word ++ rest) then [((), (word ++ rest).drop word.length)] else []).head? = _
  rw [if_pos ( isPrefixOf_iff_prefix.2 (prefix_append word rest)), drop_left]
  rfl

/-- A repetition matches as much as it can. -/
theorem exec_many {p : Char → Bool} {t rest : List Char} (ht : ∀ c ∈ t, p c = true)
    (hrest : rest.head?.any p = false) : (many p).exec (t ++ rest) = some (t, rest) := by
  show (runs p (t ++ rest)).head? = _
  induction t with
  | nil =>
    cases rest with
    | nil => rfl
    | cons c =>
      have hc : p c = false := hrest
      rw [nil_append, runs, hc]
      rfl
  | cons _ _ ih =>
    obtain ⟨hc, ht⟩ := forall_mem_cons.1 ht
    rw [cons_append, runs, if_pos hc, head?_append, head?_map, ih ht]
    rfl

theorem exec_atLeastOne {p : Char → Bool} {t rest : List Char} (hne : t ≠ []) (ht : ∀ c ∈ t, p c = true)
    (hrest : rest.head?.any p = false) : (atLeastOne p).exec (t ++ rest) = some (t, rest) := by
  cases t with
  | nil => exact absurd rfl hne
  | cons c t =>
    obtain ⟨hc, ht⟩ := forall_mem_cons.1 ht
    have hone : (one p).exec (c :: (t ++ rest)) = some (c, t ++ rest) := by
      show (if p c then [(c, t ++ rest)] else []).head? = _
      rw [if_pos hc]
      rfl
    have hmore : ((many p).map fun t => c :: t).exec (t ++ rest) = some (c :: t, rest) := by
      rw [exec_map, exec_many ht hrest]
      rfl
    exact exec_andThen hone hmore

variable {before : Option Char}

theorem exec_boundary {isWord : Char → Bool}
    (h : before.any isWord ≠ s.head?.any isWord) : (boundary isWord before).exec s = some ((), s) := by
  show (if before.any isWord ≠ s.head?.any isWord then [((), s)] else []).head? = _
  rw [if_pos h]
  rfl

/-! ## One match after the other -/

theorem execAllFrom_match {r : Option Char → Pattern α} {n : ℕ} {s rest : List Char} {a : α}
    (h : (r before).exec s = some (a, rest)) :
    execAllFrom r (n + 1) before s = a :: execAllFrom r n ((matchedText s rest).getLast?.or before) rest := by
  rw [execAllFrom.eq_def]
  simp only [h]

theorem execAllFrom_nil {r : Option Char → Pattern α} {n : ℕ}
    (h : (r before).exec [] = none) : execAllFrom r n before [] = [] := by
  cases n with
  | zero => rfl
  | succ => simp only [execAllFrom, h]

theorem execAllFrom_skip {r : Option Char → Pattern α} {n : ℕ} {c : Char}
    (h : (r before).exec (c :: s) = none) : execAllFrom r (n + 1) before (c :: s) = execAllFrom r n (some c) s := by
  rw [execAllFrom, h]

/-- The pieces of a text between the matches of a pattern (`split`), from a place on that a piece has come to. -/
def splitFrom (r : Pattern Unit) : ℕ → List Char → List Char → List (List Char)
  | 0, piece, s => [piece ++ s]
  | _ + 1, piece, [] => [piece]
  | n + 1, piece, c :: s =>
    match r.exec (c :: s) with
    | some (_, rest) => piece :: splitFrom r n [] rest
    | none => splitFrom r n (piece ++ [c]) s

def split (r : Pattern Unit) (s : List Char) : List (List Char) := splitFrom r (s.length + 1) [] s

end Pattern

end NovaMaas
