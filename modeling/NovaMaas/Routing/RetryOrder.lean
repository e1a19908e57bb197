/-
  Retries across the groups of a token (service/channel_select.go, service/group.go, and the loop of controller/relay.go).

  A token whose group is "auto" is served by a list of groups.  The position in it is kept in a retry counter, in a flag
  that keeps the counter where it is once, and in the index of the group, which the request carries from the attempt of
  the distributor to those of the loop.

  The documentation of the selection says that a group's priorities are exhausted before the next group is turned to.  The
  code counts attempts instead: a group that has channels is given one more attempt than there are retries
  (`relay_eq`), the last of its priorities standing for all beyond.  So the order is the documented one, if and only if
  every group that another one follows has exactly that many priorities, and the last one at least as many
  (`visitsInOrder_iff`).

  Every attempt draws with a random function of its own.  Of an attempt's outcome only the kind of its error counts here.
-/
import NovaMaas.Routing.SelectionAgree

open List

namespace NovaMaas.Routing

/-! ## The groups of a request -/

/-- The loop of `FilterUserTokenAutoGroups`, and without a limit that of `GetUserAutoGroup`. -/
def filterAutoGroups (isUserSelectableGroup : String → Bool) (maxCount : Option ℕ) :
    List String → List String → List String
  | filtered, [] => filtered
  | filtered, group :: groups =>
    if !isUserSelectableGroup group || decide (group ∈ filtered) then
      filterAutoGroups isUserSelectableGroup maxCount filtered groups
    else if some (filtered ++ [group]).length = maxCount then filtered ++ [group]
    else filterAutoGroups isUserSelectableGroup maxCount (filtered ++ [group]) groups

/-- `GetRequestAutoGroups`: the groups of the token, or else those of the settings. -/
def getRequestAutoGroups (isUserSelectableGroup : String → Bool) (maxCount : ℕ) (settingGroups : List String)
    (tokenGroups : Option (List String)) : List String :=
  match tokenGroups with
  | none => filterAutoGroups isUserSelectableGroup none [] settingGroups
  | some groups => filterAutoGroups isUserSelectableGroup (some maxCount) [] groups

variable (isUserSelectableGroup : String → Bool)

theorem filterAutoGroups_nodup (maxCount : Option ℕ)
    {filtered : List String} (h : filtered.Nodup) (groups : List String) :
    (filterAutoGroups isUserSelectableGroup maxCount filtered groups).Nodup := by
  induction groups generalizing filtered with
  | nil => exact h
  | cons group _ ih =>
    unfold filterAutoGroups
    split
    · exact ih h
    · next hnew =>
      have hmem : group ∉ filtered := by
        intro hmem
        apply hnew
        rw [decide_eq_true hmem, Bool.or_true]
      have hnodup : (filtered ++ [group]).Nodup :=
        nodup_append.2 ⟨h, nodup_singleton _, fun a ha b hb hab => by
          rw [mem_singleton.1 hb] at hab
          exact hmem (hab ▸ ha)⟩
      split
      · exact hnodup
      · exact ih hnodup

theorem getRequestAutoGroups_nodup (maxCount : ℕ)
    (settingGroups : List String) (tokenGroups : Option (List String)) :
    (getRequestAutoGroups isUserSelectableGroup maxCount settingGroups tokenGroups).Nodup := by
  cases tokenGroups with
  | none | some => exact filterAutoGroups_nodup _ _ nodup_nil _

/-! ## The selection -/

/-- `RetryParam`, of what changes. -/
structure RetryParam where
  retry        : ℕ := 0
  resetNextTry : Bool := false
  deriving DecidableEq

def RetryParam.setRetry (p : RetryParam) (retry : ℕ) : RetryParam := { p with retry := retry }

def RetryParam.resetRetryNextTry (p : RetryParam) : RetryParam := { p with resetNextTry := true }

def RetryParam.increaseRetry (p : RetryParam) : RetryParam :=
  if p.resetNextTry then { p with resetNextTry := false } else { p with retry := p.retry + 1 }

/-- The parameter, and `ContextKeyAutoGroupIndex` of the request. -/
structure RetryState where
  param          : RetryParam := {}
  autoGroupIndex : Option ℕ := none

/-- `channel, _ =`: an error counts as no channel. -/
def dropError (selected : Except String (Option Channel)) : Option Channel :=
  match selected with
  | .ok channel => channel
  | .error _ => none

section
variable (select : String → ℕ → Except String (Option Channel)) (crossGroupRetry : Bool) (retryTimes : ℤ)

/-- The loop of `CacheGetRandomSatisfiedChannel` over the groups. -/
def autoGroupLoop (startGroupIndex : ℕ) : ℕ → List String → RetryState → RetryState × Option (Channel × String)
  | _, [], st => (st, none)
  | i, autoGroup :: rest, st =>
    let priorityRetry := if startGroupIndex < i then 0 else st.param.retry
    match dropError (select autoGroup priorityRetry) with
    | none =>
      autoGroupLoop startGroupIndex (i + 1) rest { param := st.param.setRetry 0, autoGroupIndex := some (i + 1) }
    | some channel =>
      if crossGroupRetry && decide (retryTimes ≤ priorityRetry) then
        -- this request still uses the group, the next retry uses the next one
        ({ param := (st.param.setRetry 0).resetRetryNextTry, autoGroupIndex := some (i + 1) },
          some (channel, autoGroup))
      else ({ st with autoGroupIndex := some i }, some (channel, autoGroup))

/-- `CacheGetRandomSatisfiedChannel`. -/
def cacheGetRandomSatisfiedChannel (tokenGroup : String) (autoGroups : List String) (st : RetryState) :
    RetryState × Except String (Option Channel × String) :=
  if tokenGroup = "auto" then
    if autoGroups = [] then (st, .error "auto groups is not enabled")
    else
      let startGroupIndex := st.autoGroupIndex.getD 0
      match autoGroupLoop select crossGroupRetry retryTimes startGroupIndex startGroupIndex
          (autoGroups.drop startGroupIndex) st with
      | (st, none) => (st, .ok (none, tokenGroup))
      | (st, some (channel, group)) => (st, .ok (some channel, group))
  else
    match select tokenGroup st.param.retry with
    | .error err => (st, .error err)
    | .ok channel => (st, .ok (channel, tokenGroup))

end

/-! ## The loop of the relay -/

/-- What becomes of an attempt: nothing more is to be tried, or the error is one of upstream or of the channel. -/
inductive AttemptResult where
  | final
  | upstreamError
  | channelError

/-- `shouldRetry`. -/
def shouldRetry (result : AttemptResult) (retryTimes : ℤ) : Bool :=
  match result with
  | .final => false
  | .channelError => true
  | .upstreamError => 0 < retryTimes

section
variable (select : (ℕ → ℕ) → String → ℕ → Except String (Option Channel)) (crossGroupRetry : Bool) (retryTimes : ℤ)
  (tokenGroup : String) (autoGroups : List String)

/-- `getChannel` of the relay: the channel of the distributor, as long as it has not been used, or another one. -/
def relayChannel (intn : ℕ → ℕ) (distributed : Option (Channel × String)) (st : RetryState) :
    RetryState × Option (Channel × String) :=
  match distributed with
  | some chosen => (st, some chosen)
  | none =>
    match cacheGetRandomSatisfiedChannel (select intn) crossGroupRetry retryTimes tokenGroup autoGroups st with
    | (st, .ok (some channel, group)) => (st, some (channel, group))
    | (st, _) => (st, none)

/-- The attempts of the relay's loop, as many as there is fuel for: the groups and the priorities. -/
def relayLoop (intn : ℕ → ℕ → ℕ) (result : ℕ → AttemptResult) :
    ℕ → ℕ → Option (Channel × String) → RetryState → List (String × ℤ)
  | 0, _, _, _ => []
  | fuel + 1, attempt, distributed, st =>
    if retryTimes < st.param.retry then []
    else
      match relayChannel select crossGroupRetry retryTimes tokenGroup autoGroups (intn attempt) distributed st with
      | (_, none) => []
      | (st, some (channel, group)) =>
        (group, channel.getPriority) :: if shouldRetry (result attempt) (retryTimes - st.param.retry) then
            relayLoop intn result fuel (attempt + 1) none { st with param := st.param.increaseRetry }
          else []

/-- A request: the distributor selects with a parameter of its own, the relay starts with a new one. -/
def relay (intn : ℕ → ℕ → ℕ) (result : ℕ → AttemptResult) (fuel : ℕ) : List (String × ℤ) :=
  match relayChannel select crossGroupRetry retryTimes tokenGroup autoGroups (intn 0) none {} with
  | (_, none) => []
  | (st, some chosen) =>
    relayLoop select crossGroupRetry retryTimes tokenGroup autoGroups intn result fuel 1 (some chosen)
      { autoGroupIndex := st.autoGroupIndex }

end

/-- `GetRandomSatisfiedChannel`. -/
def getRandomSatisfiedChannel (matchString : String → String → Bool) (memoryCacheEnabled : Bool) (db : DB)
    (cache : Cache) (model requestPath : String) (intn : ℕ → ℕ) (group : String) (retry : ℕ) :
    Except String (Option Channel) :=
  if memoryCacheEnabled then cache.getRandomSatisfiedChannel matchString intn group model retry requestPath
  else db.getChannel matchString intn group model retry requestPath

/-! ## What the selections of a group give -/

/-- The priorities of a group's attempts, as many as are left: `counted` are the priorities from here on, the last one
standing for all beyond, and `served` those of channels that serve the path. -/
def tries (served : List ℤ) : ℕ → List ℤ → List ℤ
  | 0, _ => []
  | _ + 1, [] => []
  | left + 1, [p] => if p ∈ served then p :: tries served left [p] else []
  | left + 1, p :: q :: counted => if p ∈ served then p :: tries served left (q :: counted) else []

/-- Exactly the served priorities are tried: they are the first ones, and there are as many as attempts, or fewer and
after them one that is not served. -/
def Exhausts (attempts : ℕ) (counted served : List ℤ) : Prop :=
  served <+: counted ∧ served.length ≤ attempts ∧
    (served.length < attempts → served.length < counted.length ∨ counted = [])

/-- Of the served priorities the first ones are tried: some priority is not served, or there are enough of them. -/
def Begins (attempts : ℕ) (counted served : List ℤ) : Prop :=
  served ≠ counted ∨ attempts ≤ counted.length ∨ counted = []

/-- The highest priority is served. -/
def Tried (counted served : List ℤ) : Prop := ∃ p ∈ counted.head?, p ∈ served

instance (attempts : ℕ) (counted served : List ℤ) : Decidable (Exhausts attempts counted served) :=
  inferInstanceAs (Decidable (_ ∧ _ ∧ (_ → _)))

instance (attempts : ℕ) (counted served : List ℤ) : Decidable (Begins attempts counted served) :=
  inferInstanceAs (Decidable (_ ∨ _ ∨ _))

instance (counted served : List ℤ) : Decidable (Tried counted served) :=
  inferInstanceAs (Decidable (∃ p, p ∈ counted.head? ∧ p ∈ served))

variable {served counted : List ℤ}

theorem tries_congr {served' : List ℤ} (h : ∀ p ∈ counted, p ∈ served ↔ p ∈ served')
    (left : ℕ) : tries served left counted = tries served' left counted := by
  induction left generalizing counted with
  | zero => rfl
  | succ _ ih =>
    match counted with
    | [] => rfl
    | [p] =>
      unfold tries
      simp only [h p mem_cons_self, ih h]
    | p :: q :: counted =>
      unfold tries
      simp only [h p mem_cons_self, ih fun p hp => h p (mem_cons_of_mem _ hp)]

theorem tries_eq_nil_iff (attempts : ℕ) :
    tries served (attempts + 1) counted = [] ↔ ¬ Tried counted served := by
  unfold Tried
  match counted with
  | [] => simp [tries]
  | [p] =>
    by_cases hp : p ∈ served
    · simp [tries, hp]
    · simp [tries, hp]
  | p :: q :: counted =>
    by_cases hp : p ∈ served
    · simp [tries, hp]
    · simp [tries, hp]

theorem tries_single {p : ℤ} (hp : p ∈ served) (left : ℕ) :
    tries served left [p] = replicate left p := by
  induction left with
  | zero => rfl
  | succ _ ih =>
    unfold tries
    rw [if_pos hp, ih]
    rfl

/-- Descending priorities that are served, of which the highest is among the counted ones. -/
theorem served_cons {p : ℤ} (hcounted : (p :: counted).Pairwise (· > ·))
    (hserved : served.Pairwise (· > ·)) (hsub : ∀ q ∈ served, q ∈ p :: counted) (hp : p ∈ served) :
    ∃ rest, served = p :: rest ∧ rest.Pairwise (· > ·) ∧ (∀ q ∈ rest, q ∈ counted) ∧
      ∀ q ∈ counted, q ∈ served ↔ q ∈ rest := by
  cases served with
  | nil => cases hp
  | cons first rest =>
    have hfirst : first = p := by
      rcases mem_cons.1 hp with heq | hmem
      · exact heq.symm
      · have hgt := (pairwise_cons.1 hserved).1 p hmem
        rcases mem_cons.1 (hsub first mem_cons_self) with heq | hin
        · exact heq
        · have hlt := (pairwise_cons.1 hcounted).1 first hin
          omega
    rw [hfirst] at hserved hsub ⊢
    refine ⟨rest, rfl, (pairwise_cons.1 hserved).2, ?_, ?_⟩
    · intro q hq
      have hgt := (pairwise_cons.1 hserved).1 q hq
      rcases mem_cons.1 (hsub q (mem_cons_of_mem _ hq)) with heq | hin
      · omega
      · exact hin
    · intro q hq
      have hgt := (pairwise_cons.1 hcounted).1 q hq
      rw [mem_cons, or_iff_right (by omega)]

theorem not_served {p : ℤ} (hp : p ∉ served) : served <+: p :: counted ↔ served = [] := by
  constructor
  · intro h
    cases served with
    | nil => rfl
    | cons =>
      rw [cons_prefix_cons] at h
      exact absurd (h.1 ▸ mem_cons_self) hp
  · intro h
    rw [h]
    exact nil_prefix

section

variable {counted served : List ℤ}

/-- By induction on the counted priorities: the highest is served, and then it is the highest of the served ones too, or
the group is left. -/
theorem tries_rec {P : ℕ → List ℤ → List ℤ → Prop} (nil : ∀ n, P n [] [])
    (zero : ∀ p counted rest, P 0 (p :: counted) (p :: rest)) (single : ∀ n p, P (n + 1) [p] [p])
    (cons : ∀ n p q counted rest, tries (p :: rest) (n + 1) (p :: q :: counted) = p :: tries rest n (q :: counted) →
      P n (q :: counted) rest → P (n + 1) (p :: q :: counted) (p :: rest))
    (left : ∀ n p counted served, p ∉ served → tries served n (p :: counted) = [] → P n (p :: counted) served)
    (hcounted : counted.Pairwise (· > ·)) (hserved : served.Pairwise (· > ·)) (hsub : ∀ q ∈ served, q ∈ counted)
    (attempts : ℕ) : P attempts counted served := by
  induction counted generalizing served attempts with
  | nil =>
    obtain rfl : served = [] := eq_nil_iff_forall_not_mem.2 fun q hq => by cases hsub q hq
    exact nil attempts
  | cons p counted ih =>
    by_cases hp : p ∈ served
    · obtain ⟨rest, rfl, hrest, hsubrest, hsame⟩ := served_cons hcounted hserved hsub hp
      cases attempts with
      | zero => exact zero p counted rest
      | succ attempts =>
        cases counted with
        | nil =>
          obtain rfl : rest = [] := eq_nil_iff_forall_not_mem.2 fun q hq => by cases hsubrest q hq
          exact single attempts p
        | cons q counted =>
          refine cons attempts p q counted rest ?_ (ih (pairwise_cons.1 hcounted).2 hrest hsubrest attempts)
          rw [← tries_congr hsame]
          exact if_pos hp
    · refine left attempts p counted served hp ?_
      cases attempts with
      | zero => rfl
      | succ attempts =>
        refine (tries_eq_nil_iff attempts).2 ?_
        rintro ⟨q, hq, hmem⟩
        obtain rfl := Option.some.inj hq
        exact hp hmem

theorem tries_nil (attempts : ℕ) : tries served attempts [] = [] := by
  cases attempts <;> rfl

/-- When the attempts of a group are its served priorities. -/
theorem tries_eq_iff (hcounted : counted.Pairwise (· > ·)) (hserved : served.Pairwise (· > ·))
    (hsub : ∀ q ∈ served, q ∈ counted) (attempts : ℕ) :
    tries served attempts counted = served ↔ Exhausts attempts counted served := by
  refine @tries_rec counted served (fun n counted served => tries served n counted = served ↔ Exhausts n counted served)
    ?_ ?_ ?_ ?_ ?_ hcounted hserved hsub attempts
  · intro n
    rw [tries_nil]
    exact iff_of_true rfl ⟨ nil_prefix, Nat.zero_le _, fun _ => Or.inr rfl⟩
  · intro p counted rest
    unfold Exhausts
    rw [length_cons]
    exact iff_of_false (by simp [tries]) (by omega)
  · intro n p
    rw [tries_single mem_cons_self]
    have hone : replicate (n + 1) p = [p] ↔ n = 0 := by
      cases n with
      | zero => simp
      | succ => simp [replicate_succ]
    rw [hone]
    simp [Exhausts]
  · intro n p q counted rest hstep ih
    rw [hstep, cons.injEq, ih]
    unfold Exhausts
    simp only [cons_prefix_cons, length_cons, true_and, Nat.add_le_add_iff_right, Nat.add_lt_add_iff_right,
      reduceCtorEq, or_false]
  · intro n p counted served hp hnone
    rw [hnone]
    unfold Exhausts
    rw [not_served hp]
    constructor
    · rintro rfl
      exact ⟨rfl, Nat.zero_le _, fun _ => Or.inl (by simp)⟩
    · exact fun h => h.1.symm

/-- When the attempts of a group are the first of its served priorities. -/
theorem tries_prefix_iff (hcounted : counted.Pairwise (· > ·)) (hserved : served.Pairwise (· > ·))
    (hsub : ∀ q ∈ served, q ∈ counted) (attempts : ℕ) :
    tries served attempts counted <+: served ↔ Begins attempts counted served := by
  refine @tries_rec counted served (fun n counted served => tries served n counted <+: served ↔ Begins n counted served)
    ?_ ?_ ?_ ?_ ?_ hcounted hserved hsub attempts
  · intro n
    rw [tries_nil]
    exact iff_of_true nil_prefix (Or.inr (Or.inr rfl))
  · exact fun p counted rest => iff_of_true nil_prefix (Or.inr (Or.inl (Nat.zero_le _)))
  · intro n p
    rw [tries_single mem_cons_self]
    cases n with
    | zero => simp [Begins]
    | succ => simp [Begins, replicate_succ]
  · intro n p q counted rest hstep ih
    rw [hstep, cons_prefix_cons, ih]
    simp [Begins]
  · intro n p counted served hp hnone
    rw [hnone]
    refine iff_of_true nil_prefix (Or.inl ?_)
    rintro rfl
    exact hp mem_cons_self

end

/-! ## The order over the groups -/

/-- The attempts or the priorities of a group, with its name. -/
def tagged (group : String) (priorities : List ℤ) : List (String × ℤ) := priorities.map fun p => (group, p)

/-- Of two lists that begin with one group and go on with others. -/
theorem tagged_starts_iff {group : String} {A B : List ℤ} {X Y : List (String × ℤ)} (hX : ∀ x ∈ X, x.1 ≠ group)
    (hY : ∀ y ∈ Y, y.1 ≠ group) :
    tagged group A ++ X <+: tagged group B ++ Y ↔ (A = B ∧ X <+: Y) ∨ (A <+: B ∧ X = []) := by
  unfold tagged
  induction A generalizing B with
  | nil =>
    cases B with
    | nil =>
      simp only [map_nil, nil_append, true_and, prefix_rfl]
      constructor
      · exact Or.inl
      · rintro (h | rfl)
        · exact h
        · exact nil_prefix
    | cons =>
      cases X with
      | nil => simp
      | cons x =>
        have hne := hX x mem_cons_self
        simp only [map_nil, nil_append, map_cons, cons_append, cons_prefix_cons]
        constructor
        · rintro ⟨rfl, _⟩
          exact absurd rfl hne
        · rintro (⟨h, _⟩ | ⟨_, h⟩)
          · cases h
          · cases h
  | cons _ _ ih =>
    cases B with
    | nil =>
      cases Y with
      | nil => simp
      | cons y =>
        have hne := hY y mem_cons_self
        simp only [map_nil, nil_append, map_cons, cons_append, cons_prefix_cons]
        constructor
        · rintro ⟨rfl, _⟩
          exact absurd rfl hne
        · rintro (⟨h, _⟩ | ⟨h, _⟩)
          · cases h
          · exact absurd (prefix_nil.1 h) (cons_ne_nil _ _)
    | cons =>
      simp only [map_cons, cons_append, cons_prefix_cons, Prod.mk.injEq, true_and, ih,
        cons.injEq, and_or_left, and_assoc]

section
variable (counted served : String → List ℤ) (attempts : ℕ)

/-- What is tried of the groups. -/
def triedOf (groups : List String) : List (String × ℤ) :=
  groups.flatMap fun group => tagged group (tries (served group) attempts (counted group))

/-- The order of the documentation. -/
def visit (groups : List String) : List (String × ℤ) := groups.flatMap fun group => tagged group (served group)

/-- Every group before the last one that is tried is exhausted exactly, and the last one begins with its priorities. -/
def KeepsOrder : List String → Prop
  | [] => True
  | group :: groups =>
    (Exhausts attempts (counted group) (served group) ∧ KeepsOrder groups) ∨
      (Begins attempts (counted group) (served group) ∧ ∀ other ∈ groups, ¬ Tried (counted other) (served other))

/-- The first group that has served priorities is tried, unless none is. -/
def KeepsFirst : List String → Prop
  | [] => True
  | group :: groups =>
    Tried (counted group) (served group) ∨ (served group = [] ∧ KeepsFirst groups) ∨
      ∀ other ∈ groups, ¬ Tried (counted other) (served other)

instance decidableKeepsOrder : (groups : List String) → Decidable (KeepsOrder counted served attempts groups)
  | [] => inferInstanceAs (Decidable True)
  | _ :: groups =>
    have := decidableKeepsOrder groups
    inferInstanceAs (Decidable (_ ∧ _ ∨ _ ∧ _))

variable (hcounted : ∀ group, (counted group).Pairwise (· > ·)) (hserved : ∀ group, (served group).Pairwise (· > ·))
  (hsub : ∀ group, ∀ p ∈ served group, p ∈ counted group)

variable {groups : List String}

theorem fst_mem_of_triedOf {x : String × ℤ} (hx : x ∈ triedOf counted served attempts groups) : x.1 ∈ groups := by
  obtain ⟨group, hgroup, hmem⟩ := mem_flatMap.1 hx
  obtain ⟨p, _, rfl⟩ := mem_map.1 hmem
  exact hgroup

theorem fst_mem_of_visit {x : String × ℤ} (hx : x ∈ visit served groups) : x.1 ∈ groups := by
  obtain ⟨group, hgroup, hmem⟩ := mem_flatMap.1 hx
  obtain ⟨p, _, rfl⟩ := mem_map.1 hmem
  exact hgroup

theorem triedOf_eq_nil_iff (groups : List String) : triedOf counted served (attempts + 1) groups = [] ↔
      ∀ group ∈ groups, ¬ Tried (counted group) (served group) := by
  unfold triedOf tagged
  rw [flatMap_eq_nil_iff]
  refine forall₂_congr fun group _ => ?_
  rw [map_eq_nil_iff, tries_eq_nil_iff]

include hcounted hserved hsub

/-- The attempts keep the order, if and only if the groups have the right numbers of priorities. -/
theorem triedOf_prefix_iff (hnodup : groups.Nodup) :
    triedOf counted served (attempts + 1) groups <+: visit served groups ↔
      KeepsOrder counted served (attempts + 1) groups := by
  induction groups with
  | nil => exact iff_of_true prefix_rfl trivial
  | cons group groups ih =>
    obtain ⟨hnotin, hrest⟩ := nodup_cons.1 hnodup
    have hX : ∀ x ∈ triedOf counted served (attempts + 1) groups, x.1 ≠ group := fun x hx heq =>
      hnotin (heq ▸ fst_mem_of_triedOf counted served _ hx)
    have hY : ∀ y ∈ visit served groups, y.1 ≠ group := fun y hy heq => hnotin (heq ▸ fst_mem_of_visit served hy)
    have hcons : triedOf counted served (attempts + 1) (group :: groups) =
        tagged group (tries (served group) (attempts + 1) (counted group)) ++
          triedOf counted served (attempts + 1) groups := rfl
    have hvisit : visit served (group :: groups) = tagged group (served group) ++ visit served groups := rfl
    rw [hcons, hvisit, tagged_starts_iff hX hY, tries_eq_iff (hcounted group) (hserved group) (hsub group),
      tries_prefix_iff (hcounted group) (hserved group) (hsub group), ih hrest, triedOf_eq_nil_iff]
    exact Iff.rfl

theorem triedOf_first_iff (hnodup : groups.Nodup) :
    (triedOf counted served 1 groups).take 1 <+: visit served groups ↔ KeepsFirst counted served groups := by
  induction groups with
  | nil => exact iff_of_true prefix_rfl trivial
  | cons group groups ih =>
    obtain ⟨hnotin, hrest⟩ := nodup_cons.1 hnodup
    have hcons : triedOf counted served 1 (group :: groups) =
        tagged group (tries (served group) 1 (counted group)) ++ triedOf counted served 1 groups := rfl
    have hvisit : visit served (group :: groups) = tagged group (served group) ++ visit served groups := rfl
    unfold KeepsFirst
    by_cases htried : Tried (counted group) (served group)
    · refine iff_of_true ?_ (Or.inl htried)
      obtain ⟨p, hhead, hp⟩ := htried
      have hcountedGroup : ∃ rest, counted group = p :: rest := by
        cases hlist : counted group with
        | nil =>
          rw [hlist] at hhead
          cases hhead
        | cons _ rest =>
          rw [hlist] at hhead
          exact ⟨rest, by rw [Option.some.inj hhead]⟩
      obtain ⟨rest, hlist⟩ := hcountedGroup
      have hmax := hcounted group
      have hmem := hsub group
      rw [hlist] at hmax hmem
      obtain ⟨behind, hbehind, _⟩ := served_cons hmax (hserved group) hmem hp
      have hone : tries (served group) 1 (counted group) = [p] := by
        rw [hlist]
        cases rest with
        | nil | cons => exact if_pos hp
      rw [hcons, hvisit, hone, hbehind]
      exact ⟨tagged group behind ++ visit served groups, rfl⟩
    · rw [or_iff_right htried]
      have hnone : tries (served group) 1 (counted group) = [] := (tries_eq_nil_iff 0).2 htried
      have hX : ∀ x ∈ (triedOf counted served 1 groups).take 1, x.1 ≠ group := fun x hx heq =>
        hnotin (heq ▸ fst_mem_of_triedOf counted served _ (mem_of_mem_take hx))
      have hY : ∀ y ∈ visit served groups, y.1 ≠ group := fun y hy heq => hnotin (heq ▸ fst_mem_of_visit served hy)
      have hstarts := @tagged_starts_iff group [] (served group) _ _ hX hY
      rw [hcons, hvisit, hnone]
      have hempty : tagged group [] ++ triedOf counted served 1 groups = triedOf counted served 1 groups := rfl
      have hempty' : tagged group [] ++ (triedOf counted served 1 groups).take 1 =
        (triedOf counted served 1 groups).take 1 := rfl
      rw [hempty]
      rw [hempty'] at hstarts
      rw [hstarts, ih hrest, eq_comm]
      refine or_congr Iff.rfl ?_
      rw [and_iff_right nil_prefix, ← triedOf_eq_nil_iff counted served 0]
      constructor
      · intro hnil
        cases hlist : triedOf counted served 1 groups with
        | nil => rfl
        | cons =>
          rw [hlist] at hnil
          cases hnil
      · intro hnil
        rw [hnil]
        rfl

end

/-! ## The attempts of a run -/

/-- The priorities from a retry on; the last one stands for all beyond. -/
def remaining (counted : List ℤ) (retry : ℕ) : List ℤ :=
  counted.drop (if counted.length ≤ retry then counted.length - 1 else retry)

theorem remaining_zero (counted : List ℤ) : remaining counted 0 = counted := by
  unfold remaining
  split
  · next hlen =>
    rw [length_eq_zero_iff.1 (Nat.le_zero.1 hlen)]
    rfl
  · rfl

theorem remaining_succ {counted : List ℤ} {retry : ℕ} {p : ℤ} {rest : List ℤ}
    (h : remaining counted retry = p :: rest) :
    remaining counted (retry + 1) = if rest = [] then [p] else rest := by
  unfold remaining at h ⊢
  have hlen := congrArg length h
  rw [length_drop, length_cons] at hlen
  by_cases hbeyond : counted.length ≤ retry
  · rw [if_pos hbeyond] at h hlen
    have hrest : rest = [] := length_eq_zero_iff.1 (by omega)
    rw [if_pos (by omega), if_pos hrest, h, hrest]
  · rw [if_neg hbeyond] at h hlen
    by_cases hlast : counted.length ≤ retry + 1
    · have hrest : rest = [] := length_eq_zero_iff.1 (by omega)
      have hretry : counted.length - 1 = retry := by omega
      rw [if_pos hlast, if_pos hrest, hretry, h, hrest]
    · have hrest : rest ≠ [] := by
        rintro rfl
        simp only [length_nil] at hlen
        omega
      rw [if_neg hlast, if_neg hrest, ← tail_drop, h]
      rfl

/-- The priority of a retry, if it is served. -/
def pick (counted served : List ℤ) (retry : ℕ) : Option ℤ :=
  (remaining counted retry).head?.filter fun p => p ∈ served

theorem tries_of_pick {counted served : List ℤ} {retry : ℕ} (left : ℕ) :
    tries served (left + 1) (remaining counted retry) =
      ((pick counted served retry).map fun p => p :: tries served left (remaining counted (retry + 1))).getD [] := by
  unfold pick
  cases h : remaining counted retry with
  | nil => rfl
  | cons p rest =>
    rw [remaining_succ h]
    cases rest with
    | nil | cons =>
      by_cases hp : p ∈ served
      · simp [tries, hp, Option.filter]
      · simp [tries, hp, Option.filter]

section
variable (select : (ℕ → ℕ) → String → ℕ → Except String (Option Channel)) (counted served : String → List ℤ)
  (hselect : ∀ intn : ℕ → ℕ, (∀ n, 0 < n → intn n < n) → ∀ group retry,
    (dropError (select intn group retry)).map Channel.getPriority = pick (counted group) (served group) retry)
  (R : ℕ) (autoGroups : List String)

/-- What is still to be tried of the groups that are left, at a retry of the first one. -/
def upcomingOf (retry : ℕ) : List String → List (String × ℤ)
  | [] => []
  | group :: groups =>
    tagged group (tries (served group) (R + 1 - retry) (remaining (counted group) retry)) ++
      triedOf counted served (R + 1) groups

/-- What is still to be tried in a state. -/
def upcoming (st : RetryState) : List (String × ℤ) :=
  upcomingOf counted served R st.param.retry (autoGroups.drop (st.autoGroupIndex.getD 0))

/-- The state of the next attempt. -/
def RetryState.advance (st : RetryState) : RetryState := { st with param := st.param.increaseRetry }

theorem upcomingOf_zero (groups : List String) :
    upcomingOf counted served R 0 groups = triedOf counted served (R + 1) groups := by
  cases groups with
  | nil => rfl
  | cons group =>
    show tagged group (tries (served group) (R + 1) (remaining (counted group) 0)) ++ _ = _
    rw [remaining_zero]
    rfl

/-- The states between two attempts. -/
structure Between (st : RetryState) : Prop where
  reset : st.param.resetNextTry = false
  retry : st.param.retry ≤ R

/-- What a selection found: the first of what was to be tried, and the rest is for the next attempt. -/
structure Found (st st' : RetryState) (channel : Channel) (group : String) : Prop where
  first  : upcoming counted served R autoGroups st =
    (group, channel.getPriority) :: upcoming counted served R autoGroups st'.advance
  next   : Between R st'.advance
  again  : 0 < R → st'.param.retry < R
  -- the distributor's parameter is as new, unless there are no retries
  same   : 0 < R → st.param.retry = 0 → st'.param = {}

include hselect

variable {st : RetryState}

/-- The loop over the groups, from the group it has come to. -/
theorem autoGroupLoop_spec {intn : ℕ → ℕ} (hintn : ∀ n, 0 < n → intn n < n) {start i : ℕ} {rest : List String}
    (hrest : rest = autoGroups.drop i) (hindex : st.autoGroupIndex.getD 0 = i)
    (hzero : start < i → st.param.retry = 0) (hst : Between R st) :
    (∃ st', autoGroupLoop (select intn) true R start i rest st = (st', none) ∧
        upcoming counted served R autoGroups st = []) ∨
      ∃ st' channel group, autoGroupLoop (select intn) true R start i rest st = (st', some (channel, group)) ∧
        Found counted served R autoGroups st st' channel group := by
  induction rest generalizing i st with
  | nil =>
    left
    refine ⟨st, rfl, ?_⟩
    unfold upcoming
    rw [hindex, ← hrest]
    rfl
  | cons group rest ih =>
    have hnext : rest = autoGroups.drop (i + 1) := by
      rw [← tail_drop, ← hrest]
      rfl
    have hpriority : (if start < i then 0 else st.param.retry) = st.param.retry := by
      split
      · next hlt => exact (hzero hlt).symm
      · rfl
    have hupcoming : upcoming counted served R autoGroups st =
        tagged group (tries (served group) (R + 1 - st.param.retry)
          (remaining (counted group) st.param.retry)) ++ triedOf counted served (R + 1) rest := by
      unfold upcoming
      rw [hindex, ← hrest]
      rfl
    have hleft : R + 1 - st.param.retry = R - st.param.retry + 1 := by
      have hretry := hst.retry
      omega
    rw [hleft, tries_of_pick, ← hselect intn hintn] at hupcoming
    unfold autoGroupLoop
    simp only [hpriority]
    cases hchannel : dropError (select intn group st.param.retry) with
    | none =>
      rw [hchannel] at hupcoming
      dsimp only
      have hmoved : Between R { param := st.param.setRetry 0, autoGroupIndex := some (i + 1) } :=
        ⟨hst.reset, Nat.zero_le _⟩
      have hsame : upcoming counted served R autoGroups st = upcoming counted served R autoGroups
          { param := st.param.setRetry 0, autoGroupIndex := some (i + 1) } := by
        rw [hupcoming]
        unfold upcoming
        show _ = upcomingOf counted served R 0 (autoGroups.drop (i + 1))
        rw [upcomingOf_zero, ← hnext]
        rfl
      rcases ih hnext rfl (fun _ => rfl) hmoved with ⟨st', hloop, hnone⟩ | ⟨st', channel, found, hloop, hfound⟩
      · exact Or.inl ⟨st', hloop, hsame.trans hnone⟩
      · refine Or.inr ⟨st', channel, found, hloop, ?_, hfound.next, hfound.again, ?_⟩
        · exact hsame.trans hfound.first
        · exact fun hR _ => hfound.same hR rfl
    | some channel =>
      rw [hchannel] at hupcoming
      right
      dsimp only
      by_cases hlast : R ≤ st.param.retry
      · -- the last attempt of the group
        have hretry : st.param.retry = R := Nat.le_antisymm hst.retry hlast
        refine ⟨_, channel, group, if_pos ?_, ?_, ?_, ?_, ?_⟩
        · rw [Bool.true_and, decide_eq_true_eq]
          exact Int.ofNat_le.2 hlast
        · rw [hupcoming, hretry, Nat.sub_self]
          show _ = _ :: upcomingOf counted served R 0 (autoGroups.drop (i + 1))
          rw [upcomingOf_zero, ← hnext]
          rfl
        · exact ⟨rfl, Nat.zero_le _⟩
        · exact fun hR => hR
        · intro hR hfresh
          omega
      · have hadvance : ({ st with autoGroupIndex := some i } : RetryState).advance =
            { param := { retry := st.param.retry + 1 }, autoGroupIndex := some i } := by
          unfold RetryState.advance RetryParam.increaseRetry
          simp [hst.reset]
        refine ⟨_, channel, group, if_neg ?_, ?_, ?_, ?_, ?_⟩
        · rw [Bool.true_and, decide_eq_true_eq]
          exact fun hle => hlast (Int.ofNat_le.1 hle)
        · rw [hupcoming, hadvance]
          show _ = _ :: upcomingOf counted served R (st.param.retry + 1) (autoGroups.drop i)
          rw [← hrest]
          have hleft' : R - st.param.retry = R + 1 - (st.param.retry + 1) := by omega
          rw [hleft']
          rfl
        · rw [hadvance]
          exact ⟨rfl, by dsimp only; omega⟩
        · intro _
          dsimp only
          omega
        · intro _ hfresh
          have hreset := hst.reset
          show st.param = {}
          cases hparam : st.param with
          | mk =>
            rw [hparam] at hreset hfresh
            dsimp only at hreset hfresh
            rw [hreset, hfresh]

theorem relayChannel_spec {intn : ℕ → ℕ} (hintn : ∀ n, 0 < n → intn n < n) (hst : Between R st) :
    (∃ st', relayChannel select true R "auto" autoGroups intn none st = (st', none) ∧
        upcoming counted served R autoGroups st = []) ∨
      ∃ st' channel group, relayChannel select true R "auto" autoGroups intn none st = (st', some (channel, group)) ∧
          Found counted served R autoGroups st st' channel group := by
  unfold relayChannel cacheGetRandomSatisfiedChannel
  simp only [if_true]
  by_cases hgroups : autoGroups = []
  · left
    simp only [if_pos hgroups]
    refine ⟨st, rfl, ?_⟩
    unfold upcoming
    rw [hgroups, drop_nil]
    rfl
  · simp only [if_neg hgroups]
    rcases autoGroupLoop_spec select counted served hselect R autoGroups hintn rfl rfl
      (fun hlt => absurd hlt (Nat.lt_irrefl (st.autoGroupIndex.getD 0))) hst with
    ⟨st', hloop, hnone⟩ | ⟨st', channel, group, hloop, hfound⟩
    · left
      simp only [hloop]
      exact ⟨st', rfl, hnone⟩
    · right
      simp only [hloop]
      exact ⟨st', channel, group, rfl, hfound⟩

omit hselect in
/-- A request that stops makes the first of the attempts it would make if every channel failed. -/
theorem relayLoop_prefix (crossGroupRetry : Bool) (retryTimes : ℤ) (tokenGroup : String) (intn : ℕ → ℕ → ℕ)
    (result : ℕ → AttemptResult) (fuel attempt : ℕ) (distributed : Option (Channel × String)) (st : RetryState) :
    relayLoop select crossGroupRetry retryTimes tokenGroup autoGroups intn result fuel attempt distributed st <+:
      relayLoop select crossGroupRetry retryTimes tokenGroup autoGroups intn (fun _ => .channelError) fuel attempt
        distributed st := by
  induction fuel generalizing attempt distributed st with
  | zero => exact nil_prefix
  | succ _ ih =>
    unfold relayLoop
    split
    · exact nil_prefix
    · split
      · exact nil_prefix
      · next st' channel group _ =>
        rw [cons_prefix_cons]
        refine ⟨rfl, ?_⟩
        have hall : shouldRetry .channelError (retryTimes - st'.param.retry) = true := rfl
        rw [if_pos hall]
        split
        · exact ih _ _ _
        · exact nil_prefix

/-- The loop tries what is still to be tried. -/
theorem relayLoop_eq {intn : ℕ → ℕ → ℕ} (hintn : ∀ k n, 0 < n → intn k n < n) (fuel attempt : ℕ)
    (hst : Between R st) :
    relayLoop select true R "auto" autoGroups intn (fun _ => .channelError) fuel attempt none st =
      (upcoming counted served R autoGroups st).take fuel := by
  induction fuel generalizing attempt st with
  | zero => exact take_zero.symm
  | succ _ ih =>
    have hretry : ¬ ((R : ℤ) < (st.param.retry : ℤ)) := by
      have hretry := hst.retry
      omega
    unfold relayLoop
    rw [if_neg hretry]
    rcases relayChannel_spec select counted served hselect R autoGroups (hintn attempt) hst with
      ⟨st', hchannel, hnone⟩ | ⟨st', channel, group, hchannel, hfound⟩
    · simp only [hchannel]
      rw [hnone]
      rfl
    · simp only [hchannel]
      rw [hfound.first, take_succ_cons, ← ih (attempt + 1) hfound.next]
      rfl

/-- What a request tries if every channel fails: of each group one more than there are retries, and without retries the
first only. -/
theorem relay_eq {intn : ℕ → ℕ → ℕ} (hintn : ∀ k n, 0 < n → intn k n < n) (fuel : ℕ) :
    relay select true R "auto" autoGroups intn (fun _ => .channelError) fuel =
      ((triedOf counted served (R + 1) autoGroups).take (if R = 0 then 1 else fuel)).take fuel := by
  have hstart : Between R {} := ⟨rfl, Nat.zero_le _⟩
  have hupcoming : upcoming counted served R autoGroups {} = triedOf counted served (R + 1) autoGroups :=
    upcomingOf_zero counted served R autoGroups
  unfold relay
  rw [← hupcoming]
  rcases relayChannel_spec select counted served hselect R autoGroups (hintn 0) hstart with
    ⟨st', hchannel, hnone⟩ | ⟨st', channel, group, hchannel, hfound⟩
  · simp only [hchannel]
    rw [hnone, take_nil, take_nil]
  · simp only [hchannel]
    cases fuel with
    | zero => exact take_zero.symm
    | succ fuel =>
      have hnot : ¬ ((R : ℤ) < ((({} : RetryParam).retry : ℕ) : ℤ)) := by
        show ¬ ((R : ℤ) < ((0 : ℕ) : ℤ))
        omega
      unfold relayLoop
      simp only [relayChannel]
      rw [if_neg hnot, hfound.first]
      have hall : ∀ left, shouldRetry .channelError left = true := fun _ => rfl
      rw [if_pos (hall _)]
      by_cases hR : R = 0
      · -- the counter is at 1, beyond the retries
        rw [if_pos hR, hR]
        cases fuel with
        | zero => rfl
        | succ => rfl
      · rw [if_neg hR, take_take, Nat.min_self, take_succ_cons]
        have hfresh := hfound.same (by omega) rfl
        have hsame : ({ param := RetryParam.increaseRetry {}, autoGroupIndex := st'.autoGroupIndex } : RetryState) =
            st'.advance := by
          unfold RetryState.advance
          rw [hfresh]
        rw [hsame, relayLoop_eq select counted served hselect R autoGroups hintn fuel _ hfound.next]

end

/-! ## The claim -/

section
variable (matchString : String → String → Bool) (memoryCacheEnabled : Bool) (db : DB) (model requestPath : String)

/-- The priorities of channels, the highest first. -/
def priorities (channels : List Channel) : List ℤ := sortedUniquePriorities (channels.map Channel.getPriority)

/-- The priorities of the channels of a group that can serve the request. -/
def servedPriorities (group : String) : List ℤ :=
  priorities (if memoryCacheEnabled then db.cachedCandidates matchString group model requestPath
    else db.servingOnPath matchString group model requestPath model)

/-- The priorities the retries are counted over: with the cache those, without it those of all channels of the model. -/
def countedPriorities (group : String) : List ℤ :=
  priorities (if memoryCacheEnabled then db.cachedCandidates matchString group model requestPath
    else db.channels.filter fun c => c.serves group model)

theorem mem_priorities {channels : List Channel} {p : ℤ} :
    p ∈ priorities channels ↔ ∃ c ∈ channels, c.getPriority = p := by
  unfold priorities
  rw [mem_sortedUniquePriorities, mem_map]

theorem served_counted (group : String) {p : ℤ}
    (hp : p ∈ servedPriorities matchString memoryCacheEnabled db model requestPath group) :
    p ∈ countedPriorities matchString memoryCacheEnabled db model requestPath group := by
  unfold servedPriorities at hp
  unfold countedPriorities
  cases memoryCacheEnabled with
  | true => exact hp
  | false =>
    obtain ⟨c, hc, hpriority⟩ := mem_priorities.1 hp
    obtain ⟨hc, hserves, _⟩ := (mem_servingOnPath matchString).1 hc
    exact mem_priorities.2 ⟨c, mem_filter.2 ⟨hc, hserves⟩, hpriority⟩

/-- The first of the remaining priorities is that of the retry. -/
theorem head_remaining {channels : List Channel} {c : Channel} (hc : c ∈ channels) (retry : ℕ) :
    (remaining (priorities channels) retry).head? =
      some (targetPriority (channels.map Channel.getPriority) retry) := by
  have hne : priorities channels ≠ [] := ne_nil_of_mem (mem_priorities.2 ⟨c, hc, rfl⟩)
  have hpos := length_pos_iff.2 hne
  have hlt : (if (priorities channels).length ≤ retry then (priorities channels).length - 1 else retry) <
      (priorities channels).length := by
    split
    · omega
    · omega
  have htarget : targetPriority (channels.map Channel.getPriority) retry = (priorities channels).getD
      (if (priorities channels).length ≤ retry then (priorities channels).length - 1 else retry) 0 := rfl
  unfold remaining
  rw [head?_drop, htarget, getD_eq_getElem?_getD, getElem?_eq_getElem hlt]
  rfl

variable {db} (h : Consistent db) {cache : Cache} (hcache : initChannelCache db = some cache)
include h hcache

/-- A selection finds the priority of its retry, if that is served. -/
theorem select_priority (intn : ℕ → ℕ) (hintn : ∀ n, 0 < n → intn n < n) (group : String) (retry : ℕ) :
    (dropError (getRandomSatisfiedChannel matchString memoryCacheEnabled db cache model requestPath intn group
      retry)).map Channel.getPriority =
      pick (countedPriorities matchString memoryCacheEnabled db model requestPath group)
        (servedPriorities matchString memoryCacheEnabled db model requestPath group) retry := by
  unfold getRandomSatisfiedChannel pick countedPriorities servedPriorities
  cases memoryCacheEnabled with
  | true =>
    simp only [if_true]
    by_cases hnil : db.cachedCandidates matchString group model requestPath = []
    · have hnone : cache.getRandomSatisfiedChannel matchString intn group model retry requestPath = .ok none := by
        obtain ⟨channels, hmem, hcases⟩ := cached_cases matchString h hcache group model retry requestPath
        have hchannels : channels = [] := eq_nil_iff_forall_not_mem.2 fun c hc => by
          have hc := (hmem c).1 hc
          rw [hnil] at hc
          cases hc
        rcases hcases with ⟨_, hselect⟩ | ⟨b, hone, _⟩ | ⟨hne, _⟩
        · exact hselect intn
        · rw [hchannels] at hone
          cases hone
        · exact absurd hchannels hne
      rw [hnone, hnil]
      rfl
    · obtain ⟨c, hsome⟩ := cached_finds matchString h hcache group model retry requestPath hintn hnil
      have hcan := (canReturn_cached matchString h hcache group model retry requestPath c).1 ⟨intn, hintn, hsome⟩
      obtain ⟨hc, hpriority⟩ := mem_tier.1 hcan.1
      rw [hsome, head_remaining hc, ← hpriority]
      show some c.getPriority = _
      have hserved : c.getPriority ∈ priorities (db.cachedCandidates matchString group model requestPath) :=
        mem_priorities.2 ⟨c, hc, rfl⟩
      simp [Option.filter, hserved]
  | false =>
    simp only [Bool.false_eq_true, if_false]
    by_cases hserving : ∃ c ∈ tier (db.channels.filter fun c => c.serves group model) retry,
        c.onPath matchString requestPath model = true
    · obtain ⟨b, hb, honPath⟩ := hserving
      obtain ⟨c, hsome⟩ := db_finds matchString h group model retry requestPath hintn hb honPath
      obtain ⟨htier, honPath⟩ := (canReturn_db matchString h group model retry requestPath c).1 ⟨intn, hintn, hsome⟩
      obtain ⟨hc, hpriority⟩ := mem_tier.1 htier
      rw [hsome, head_remaining hc, ← hpriority]
      show some c.getPriority = _
      obtain ⟨hdb, hserves⟩ := mem_filter.1 hc
      have hserved : c.getPriority ∈ priorities (db.servingOnPath matchString group model requestPath model) :=
        mem_priorities.2 ⟨c, (mem_servingOnPath matchString).2 ⟨hdb, hserves, honPath⟩, rfl⟩
      simp [Option.filter, hserved]
    · have hnone : dropError (db.getChannel matchString intn group model retry requestPath) = none := by
        cases hselect : db.getChannel matchString intn group model retry requestPath with
        | error => rfl
        | ok found =>
          cases found with
          | none => rfl
          | some c =>
            have hcan := (canReturn_db matchString h group model retry requestPath c).1 ⟨intn, hintn, hselect⟩
            exact absurd ⟨c, hcan⟩ hserving
      rw [hnone]
      cases hchannels : db.channels.filter fun c => c.serves group model with
      | nil => rfl
      | cons a =>
        have ha : a ∈ db.channels.filter fun c => c.serves group model := hchannels ▸ mem_cons_self
        rw [← hchannels, head_remaining ha]
        have hnot : targetPriority ((db.channels.filter fun c => c.serves group model).map Channel.getPriority) retry ∉
            priorities (db.servingOnPath matchString group model requestPath model) := by
          intro hmem
          obtain ⟨c, hc, hpriority⟩ := mem_priorities.1 hmem
          obtain ⟨hdb, hserves, honPath⟩ := (mem_servingOnPath matchString).1 hc
          exact hserving ⟨c, mem_tier.2 ⟨mem_filter.2 ⟨hdb, hserves⟩, hpriority⟩, honPath⟩
        simp [Option.filter, hnot]

omit h hcache in
/-- Whatever is drawn and however the attempts end, they are the first ones of the order of the documentation. -/
def VisitsInOrder (matchString : String → String → Bool) (memoryCacheEnabled : Bool) (db : DB) (cache : Cache)
    (model requestPath : String) (retryTimes : ℤ) (autoGroups : List String) : Prop :=
  ∀ intn : ℕ → ℕ → ℕ, (∀ k n, 0 < n → intn k n < n) → ∀ result fuel,
    relay (getRandomSatisfiedChannel matchString memoryCacheEnabled db cache model requestPath) true retryTimes "auto"
      autoGroups intn result fuel <+:
        visit (servedPriorities matchString memoryCacheEnabled db model requestPath) autoGroups

omit h hcache in
/-- When the order is that of the documentation: without retries, if the first group with channels for the request is
tried; with retries, if their number is right for the groups. -/
def RetriesFit (matchString : String → String → Bool) (memoryCacheEnabled : Bool) (db : DB) (model requestPath : String)
    (retryTimes : ℤ) (autoGroups : List String) : Prop :=
  (retryTimes = 0 → KeepsFirst (countedPriorities matchString memoryCacheEnabled db model requestPath)
    (servedPriorities matchString memoryCacheEnabled db model requestPath) autoGroups) ∧
  (0 < retryTimes → KeepsOrder (countedPriorities matchString memoryCacheEnabled db model requestPath)
    (servedPriorities matchString memoryCacheEnabled db model requestPath) (retryTimes.toNat + 1) autoGroups)

/-- The groups and their priorities are visited in order, if and only if the number of the retries fits them. -/
theorem visitsInOrder_iff (retryTimes : ℤ) (isUserSelectableGroup : String → Bool) (maxCount : ℕ)
    (settingGroups : List String) (tokenGroups : Option (List String)) :
    VisitsInOrder matchString memoryCacheEnabled db cache model requestPath retryTimes
        (getRequestAutoGroups isUserSelectableGroup maxCount settingGroups tokenGroups) ↔
      RetriesFit matchString memoryCacheEnabled db model requestPath retryTimes
        (getRequestAutoGroups isUserSelectableGroup maxCount settingGroups tokenGroups) := by
  have hnodup := getRequestAutoGroups_nodup isUserSelectableGroup maxCount settingGroups tokenGroups
  generalize getRequestAutoGroups isUserSelectableGroup maxCount settingGroups tokenGroups = autoGroups at hnodup ⊢
  have hcounted : ∀ group,
      (countedPriorities matchString memoryCacheEnabled db model requestPath group).Pairwise (· > ·) :=
    fun _ => sortedUniquePriorities_pairwise _
  have hserved : ∀ group,
      (servedPriorities matchString memoryCacheEnabled db model requestPath group).Pairwise (· > ·) :=
    fun _ => sortedUniquePriorities_pairwise _
  have hsub : ∀ group, ∀ p ∈ servedPriorities matchString memoryCacheEnabled db model requestPath group,
      p ∈ countedPriorities matchString memoryCacheEnabled db model requestPath group :=
    fun group _ hp => served_counted matchString memoryCacheEnabled db model requestPath group hp
  have hselect := select_priority matchString memoryCacheEnabled model requestPath h hcache
  have hzero : ∀ k n : ℕ, 0 < n → (fun _ _ => 0 : ℕ → ℕ → ℕ) k n < n := fun _ _ hn => hn
  unfold RetriesFit
  rcases Int.lt_or_le retryTimes 0 with hneg | hnonneg
  · refine iff_of_true ?_ ⟨fun _ => by omega, fun _ => by omega⟩
    intro intn _ result fuel
    have hnone : relay (getRandomSatisfiedChannel matchString memoryCacheEnabled db cache model requestPath) true
        retryTimes "auto" autoGroups intn result fuel = [] := by
      unfold relay
      split
      · rfl
      · cases fuel with
        | zero => rfl
        | succ => exact if_pos hneg
    rw [hnone]
    exact nil_prefix
  · obtain ⟨R, rfl⟩ := Int.eq_ofNat_of_zero_le hnonneg
    have hrelay := fun (intn : ℕ → ℕ → ℕ) (hintn : ∀ k n, 0 < n → intn k n < n) (fuel : ℕ) =>
      relay_eq _ _ _ hselect R autoGroups hintn fuel
    have hstarts : VisitsInOrder matchString memoryCacheEnabled db cache model requestPath R autoGroups ↔
        ∀ fuel, ((triedOf (countedPriorities matchString memoryCacheEnabled db model requestPath)
          (servedPriorities matchString memoryCacheEnabled db model requestPath) (R + 1) autoGroups).take
            (if R = 0 then 1 else fuel)).take fuel <+:
          visit (servedPriorities matchString memoryCacheEnabled db model requestPath) autoGroups := by
      constructor
      · intro hvisits fuel
        rw [← hrelay _ hzero fuel]
        exact hvisits _ hzero _ _
      · intro hall intn hintn result fuel
        refine List.IsPrefix.trans ?_ (hall fuel)
        rw [← hrelay intn hintn fuel]
        unfold relay
        split
        · exact nil_prefix
        · exact relayLoop_prefix _ _ _ _ _ _ _ _ _ _ _
    rw [hstarts]
    have hlong : ∀ (l l' : List (String × ℤ)), (∀ fuel, l.take fuel <+: l') ↔ l <+: l' := by
      intro l l'
      constructor
      · intro hall
        have hwhole := hall l.length
        rwa [take_length] at hwhole
      · exact fun hl fuel => ( take_prefix fuel l).trans hl
    by_cases hR : R = 0
    · simp only [if_pos hR]
      rw [hlong, hR]
      constructor
      · intro hfirst
        exact ⟨fun _ => (triedOf_first_iff _ _ hcounted hserved hsub hnodup).1 hfirst, fun hpos => absurd hpos (by omega)⟩
      · intro hfit
        exact (triedOf_first_iff _ _ hcounted hserved hsub hnodup).2 (hfit.1 rfl)
    · simp only [if_neg hR, take_take, Nat.min_self]
      rw [hlong, triedOf_prefix_iff _ _ R hcounted hserved hsub hnodup]
      constructor
      · exact fun horder => ⟨fun hR' => absurd hR' (by omega), fun _ => horder⟩
      · exact fun hfit => hfit.2 (by omega)

end

/-- The example of the documentation: two groups, each with two priorities. -/
def twoGroups : DB :=
  tablesOf
    [{ id := 1, group := "A", models := "gpt-4o", priority := some 1 }, { id := 2, group := "A", models := "gpt-4o" },
     { id := 3, group := "B", models := "gpt-4o", priority := some 1 },
     { id := 4, group := "B", models := "gpt-4o" }]

/-- With one retry the order is the documented one. -/
theorem visitsInOrder_iff_oneRetry :
    VisitsInOrder (fun _ _ => false) true twoGroups (loadedCache twoGroups) "gpt-4o" "/v1/chat/completions" 1
      (getRequestAutoGroups (fun _ => true) 5 ["A", "B"] none) := by
  have h : Consistent twoGroups := consistent_tablesOf (by decide)
  have hcache : initChannelCache twoGroups = some (loadedCache twoGroups) := if_pos (by decide +kernel)
  refine (visitsInOrder_iff (fun _ _ => false) true "gpt-4o" "/v1/chat/completions" h hcache 1 (fun _ => true) 5
    ["A", "B"] none).2 ⟨fun hzero => absurd hzero (by decide), fun _ => ?_⟩
  decide +kernel

/-- With the three retries of the documentation it is not: the third attempt stays in the first group. -/
theorem third_retry_stays :
    ¬ VisitsInOrder (fun _ _ => false) true twoGroups (loadedCache twoGroups) "gpt-4o" "/v1/chat/completions" 3
      (getRequestAutoGroups (fun _ => true) 5 ["A", "B"] none) := by
  intro hvisits
  have hstarts := hvisits (fun _ _ => 0) (fun _ _ hn => hn) (fun _ => .upstreamError) 3
  have htried : relay (getRandomSatisfiedChannel (fun _ _ => false) true twoGroups (loadedCache twoGroups) "gpt-4o"
      "/v1/chat/completions") true 3 "auto" (getRequestAutoGroups (fun _ => true) 5 ["A", "B"] none) (fun _ _ => 0)
      (fun _ => .upstreamError) 3 = [("A", 1), ("A", 0), ("A", 0)] := by
    decide +kernel
  have hvisit : visit (servedPriorities (fun _ _ => false) true twoGroups "gpt-4o" "/v1/chat/completions")
      (getRequestAutoGroups (fun _ => true) 5 ["A", "B"] none) = [("A", 1), ("A", 0), ("B", 1), ("B", 0)] := by
    decide +kernel
  rw [htried, hvisit] at hstarts
  revert hstarts
  decide

end NovaMaas.Routing
