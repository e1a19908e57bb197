/-
  Places in a JSON document: reading, writing and deleting at a path.

  A path is a list of parts.  What a part means depends on the container it meets: in an object it is a key, in an array
  a decimal index.  Containers are seen through their slots, so that a law about paths is one induction with one case
  for all containers.

  Writing makes what is missing on the way: an array for an index (with nulls before it), an object for a key, and one
  of the two in place of a value that is no container; the part `-1` appends to an array.  Deleting removes a key, or
  takes an element out of its array, so that the later ones move up.  This is what `gjson` and `sjson` do at paths
  without wildcards, queries and modifiers.
-/
import NovaMaas.Lib.Json

open List

namespace NovaMaas.Json

/-! ## Slots -/

inductive Slot where
  | key (k : String)
  | item (n : ℕ)
  deriving DecidableEq

/-- A part that is a number. -/
def index? (part : String) : Option ℕ :=
  if part.toList ≠ [] ∧ part.toList.all Char.isDigit = true then some (Nat.ofDigitChars 10 part.toList 0) else none

/-- The first field of a key gets a value; a new one stands last. -/
def putField (k : String) (v : Json) : JsonObject → JsonObject
  | [] => [(k, v)]
  | (k', v') :: fields => if k = k' then (k', v) :: fields else (k', v') :: putField k v fields

def dropField (k : String) : JsonObject → JsonObject
  | [] => []
  | (k', v') :: fields => if k = k' then fields else (k', v') :: dropField k fields

/-- What a part means in a container. -/
def slot : Json → String → Option Slot
  | obj _, part => some (.key part)
  | arr _, part => (index? part).map .item
  | _, _ => none

def childAt : Json → Slot → Option Json
  | obj fields, .key k => fields.lookup k
  | arr items, .item n => items[n]?
  | _, _ => none

/-- The container with a child in a slot; an array is filled up with nulls. -/
def putChild : Json → Slot → Json → Json
  | obj fields, .key k, c => obj (putField k c fields)
  | arr items, .item n, c =>
    if n < items.length then arr (items.set n c)
    else arr (items ++ replicate (n - items.length) null ++ [c])
  | d, _, _ => d

def dropChild : Json → Slot → Json
  | obj fields, .key k => obj (dropField k fields)
  | arr items, .item n => arr (items.eraseIdx n)
  | d, _ => d

/-- The slot is one of the container, and no nulls are needed to write there. -/
def fits : Json → Slot → Bool
  | obj _, .key _ => true
  | arr items, .item n => n ≤ items.length
  | _, _ => false

/-! ## Paths -/

def at? : Json → List String → Option Json
  | d, [] => some d
  | d, p :: ps => ((slot d p).bind (childAt d)).bind fun c => at? c ps

/-- What is made for a path into nothing. -/
def build : List String → Json → Json
  | [], v => v
  | p :: ps, v =>
    match index? p with
    | some n => arr (replicate n null ++ [build ps v])
    | none => if p = "-1" then arr [build ps v] else obj [(p, build ps v)]

/-- Writing where a part means nothing: an array has no place for a key, and what is no container gives way to one. -/
def setLoose (d : Json) (p : String) (v : Json) : Option Json :=
  match d with
  | arr items => if p = "-1" then some (arr (items ++ [v])) else none
  | _ =>
    match index? p with
    | some n => some (arr (replicate n null ++ [v]))
    | none => some (obj [(p, v)])

/-- The document with a value at a path. -/
def set? : Json → List String → Json → Option Json
  | _, [], v => some v
  | d, p :: ps, v =>
    match slot d p with
    | none => setLoose d p (build ps v)
    | some s =>
      match childAt d s with
      | some c => (set? c ps v).map (putChild d s)
      | none => some (putChild d s (build ps v))

/-- The part `-1` stands for the last element, to delete it. -/
def deleteSlot (d : Json) (p : String) : Option Slot :=
  match slot d p, d with
  | some s, _ => some s
  | none, arr items => if p = "-1" ∧ items ≠ [] then some (.item (items.length - 1)) else none
  | none, _ => none

/-- The document without what is at a path, if anything is. -/
def delete : Json → List String → Json
  | d, [] => d
  | d, p :: ps =>
    match deleteSlot d p with
    | none => d
    | some s =>
      match ps with
      | [] => dropChild d s
      | _ :: _ =>
        match childAt d s with
        | none => d
        | some c => putChild d s (delete c ps)

/-! ## Slots of written containers -/

variable {d c : Json} {s s' : Slot} {p : String} {ps qs : List String}

theorem lookup_head (k : String) (v : Json) (fields : JsonObject) : ((k, v) :: fields).lookup k = some v := by
  simp

theorem lookup_tail {k k' : String} (hne : k' ≠ k) (v : Json) (fields : JsonObject) :
    ((k, v) :: fields).lookup k' = fields.lookup k' := by
  simp [lookup_cons, beq_eq_false_iff_ne.2 hne]

theorem lookup_putField_self (k : String) (v : Json) (fields : JsonObject) :
    (putField k v fields).lookup k = some v := by
  induction fields with
  | nil => exact lookup_head k v []
  | cons field _ ih =>
    obtain ⟨k', v'⟩ := field
    by_cases hk : k = k'
    · subst hk
      rw [putField, if_pos rfl, lookup_head]
    · rw [putField, if_neg hk, lookup_tail hk, ih]

theorem lookup_putField_ne {k k' : String} (hne : k' ≠ k) (v : Json) (fields : JsonObject) :
    (putField k v fields).lookup k' = fields.lookup k' := by
  induction fields with
  | nil => exact lookup_tail hne v []
  | cons field _ ih =>
    obtain ⟨k'', v''⟩ := field
    by_cases hk : k = k''
    · subst hk
      rw [putField, if_pos rfl, lookup_tail hne, lookup_tail hne]
    · rw [putField, if_neg hk]
      by_cases hk' : k' = k''
      · subst hk'
        rw [lookup_head, lookup_head]
      · rw [lookup_tail hk', lookup_tail hk', ih]

theorem putChild_within {items : List Json} {n : ℕ} (hlt : n < items.length) (c : Json) :
    putChild (arr items) (.item n) c = arr (items.set n c) := if_pos hlt

theorem putChild_end (items : List Json) (c : Json) :
    putChild (arr items) (.item items.length) c = arr (items ++ [c]) := by
  simp [putChild]

/-- An object with a child written is an object, an array an array. -/
theorem putChild_cases (d : Json) (s : Slot) (c : Json) : putChild d s c = d ∨
    (∃ fields fields', d = obj fields ∧ putChild d s c = obj fields') ∨
      ∃ items items', d = arr items ∧ putChild d s c = arr items' := by
  cases d with
  | arr items =>
    cases s with
    | key => exact Or.inl rfl
    | item n =>
      refine Or.inr (Or.inr ⟨items, ?_⟩)
      by_cases hlt : n < items.length
      · exact ⟨_, rfl, if_pos hlt⟩
      · exact ⟨_, rfl, if_neg hlt⟩
  | obj fields =>
    cases s with
    | key => exact Or.inr (Or.inl ⟨fields, _, rfl, rfl⟩)
    | item => exact Or.inl rfl
  | null | bool | num | str => exact Or.inl rfl

@[simp] theorem slot_putChild (d : Json) (s : Slot) (c : Json) (p : String) : slot (putChild d s c) p = slot d p := by
  obtain h | ⟨_, _, rfl, h⟩ | ⟨_, _, rfl, h⟩ := putChild_cases d s c <;> rw [h] <;> rfl

/-- The containers that a value can be written into, with the slot. -/
theorem fits_cases (hfits : fits d s = true) :
    (∃ fields k, d = obj fields ∧ s = .key k) ∨ (∃ items n, d = arr items ∧ s = .item n ∧ n ≤ items.length) := by
  cases d with
  | arr items =>
    cases s with
    | key => cases hfits
    | item n => exact Or.inr ⟨items, n, rfl, rfl, of_decide_eq_true hfits⟩
  | obj fields =>
    cases s with
    | key k => exact Or.inl ⟨fields, k, rfl, rfl⟩
    | item => cases hfits
  | null | bool | num | str => cases hfits

theorem childAt_putChild_self (hfits : fits d s = true) (c : Json) : childAt (putChild d s c) s = some c := by
  rcases fits_cases hfits with ⟨fields, k, rfl, rfl⟩ | ⟨items, n, rfl, rfl, hle⟩
  · exact lookup_putField_self k c fields
  · rcases Nat.lt_or_eq_of_le hle with hlt | rfl
    · rw [putChild_within hlt]
      simp [childAt, hlt]
    · rw [putChild_end]
      simp [childAt]

theorem childAt_putChild_ne (hfits : fits d s = true) (hne : s' ≠ s) (c : Json) :
    childAt (putChild d s c) s' = childAt d s' := by
  rcases fits_cases hfits with ⟨fields, k, rfl, rfl⟩ | ⟨items, n, rfl, rfl, hle⟩
  · cases s' with
    | key => exact lookup_putField_ne (fun heq => hne (congrArg Slot.key heq)) c fields
    | item => rfl
  · cases s' with
    | key =>
      rcases Nat.lt_or_eq_of_le hle with hlt | rfl
      · rw [putChild_within hlt]
        rfl
      · rw [putChild_end]
        rfl
    | item m =>
      have hm : m ≠ n := fun heq => hne (congrArg Slot.item heq)
      rcases Nat.lt_or_eq_of_le hle with hlt | rfl
      · rw [putChild_within hlt]
        exact getElem?_set_ne (Ne.symm hm)
      · rw [putChild_end]
        show (items ++ [c])[m]? = items[m]?
        rcases Nat.lt_or_gt_of_ne hm with hlt | hgt
        · rw [getElem?_append_left hlt]
        · rw [getElem?_eq_none (by simp; omega), getElem?_eq_none (by omega)]

theorem fits_of_child (h : childAt d s = some c) : fits d s = true := by
  cases d with
  | arr =>
    cases s with
    | key => cases h
    | item =>
      obtain ⟨hlt, -⟩ := List.getElem?_eq_some_iff.1 h
      exact decide_eq_true (Nat.le_of_lt hlt)
  | obj =>
    cases s with
    | key => rfl
    | item => cases h
  | null | bool | num | str => cases h

variable {k : String}

theorem putField_self {fields : JsonObject} (h : fields.lookup k = some c) : putField k c fields = fields := by
  induction fields with
  | nil => cases h
  | cons field _ ih =>
    obtain ⟨k', v'⟩ := field
    by_cases hk : k = k'
    · subst hk
      rw [lookup_head] at h
      cases h
      rw [putField, if_pos rfl]
    · rw [lookup_tail hk] at h
      rw [putField, if_neg hk, ih h]

/-- A child written over itself. -/
theorem putChild_self (h : childAt d s = some c) : putChild d s c = d := by
  rcases fits_cases (fits_of_child h) with ⟨fields, k, rfl, rfl⟩ | ⟨items, n, rfl, rfl, -⟩
  · exact congrArg obj (putField_self h)
  · obtain ⟨hlt, heq⟩ := List.getElem?_eq_some_iff.1 h
    rw [putChild_within hlt, ← heq, set_getElem_self]

/-! ## Laws of paths -/

@[simp] theorem at?_nil (d : Json) : at? d [] = some d := rfl

theorem at?_cons (hslot : slot d p = some s) : at? d (p :: ps) = (childAt d s).bind fun c => at? c ps := by
  rw [at?, hslot]
  rfl

theorem at?_cons_child (hslot : slot d p = some s) (hchild : childAt d s = some c) : at? d (p :: ps) = at? c ps := by
  rw [at?_cons hslot, hchild]
  rfl

/-! ## Writing -/

theorem set?_child (hslot : slot d p = some s) (hchild : childAt d s = some c) (v : Json) :
    set? d (p :: ps) v = (set? c ps v).map (putChild d s) := by
  rw [set?, hslot]
  show (match childAt d s with
    | some c => (set? c ps v).map (putChild d s)
    | none => some (putChild d s (build ps v))) = _
  rw [hchild]

theorem set?_absent (hslot : slot d p = some s) (hchild : childAt d s = none) (v : Json) :
    set? d (p :: ps) v = some (putChild d s (build ps v)) := by
  rw [set?, hslot]
  show (match childAt d s with
    | some c => (set? c ps v).map (putChild d s)
    | none => some (putChild d s (build ps v))) = _
  rw [hchild]

/-! ## Deleting -/

theorem deleteSlot_of_slot (hs : slot d p = some s) : deleteSlot d p = some s := by
  unfold deleteSlot
  rw [hs]

theorem delete_one (hs : slot d p = some s) : delete d [p] = dropChild d s := by
  rw [delete, deleteSlot_of_slot hs]

theorem delete_child {q : String} (hs : slot d p = some s) (hchild : childAt d s = some c) :
    delete d (p :: q :: qs) = putChild d s (delete c (q :: qs)) := by
  rw [delete, deleteSlot_of_slot hs]
  show (match childAt d s with
    | none => d
    | some c => putChild d s (delete c (q :: qs))) = _
  rw [hchild]

theorem dropField_absent {fields : JsonObject} (h : fields.lookup k = none) : dropField k fields = fields := by
  induction fields with
  | nil => rfl
  | cons field _ ih =>
    obtain ⟨k', v'⟩ := field
    by_cases hk : k = k'
    · subst hk
      rw [lookup_head] at h
      cases h
    · rw [lookup_tail hk] at h
      rw [dropField, if_neg hk, ih h]

/-- Nothing is taken out of an empty slot. -/
theorem dropChild_absent (h : childAt d s = none) : dropChild d s = d := by
  cases d with
  | arr =>
    cases s with
    | key => rfl
    | item => exact congrArg arr (eraseIdx_of_length_le (List.getElem?_eq_none_iff.1 h))
  | obj =>
    cases s with
    | item => rfl
    | key => exact congrArg obj (dropField_absent h)
  | null | bool | num | str => cases s <;> rfl

end NovaMaas.Json
