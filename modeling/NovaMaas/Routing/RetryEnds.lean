/-
  The retry loop of the relay ends (service/channel_select.go, and the loop of controller/relay.go).

  The selection sets the loop's own counter back to 0 in two places, and keeps it from being increased once.  What goes
  down all the same is the number of attempts that are left (`attemptsLeft`): each group from the current one on has one
  more than there are retries, less the counter.  A selection that stays in the group is paid for by the increase of
  the counter, one that leaves the group by the group (`attemptsLeft_next`).

  The first attempt is made with the channel of the distributor, which a request may name itself; so there is one even
  where the list of groups is empty.

  Every iteration meets channels of its own: nothing is assumed about what was there before.
-/
import NovaMaas.Routing.RetryOrder

open List

namespace NovaMaas.Routing

/-! ## The loop -/

/-- What an iteration meets. -/
structure Meeting where
  /-- `GetRandomSatisfiedChannel`, as the channels are now. -/
  select : String → ℕ → Except String (Option Channel)
  /-- The channel could be set up, and there are a body and a price for it. -/
  ready : Bool
  /-- The handler got as far as to set `info.ChannelMeta`. -/
  initialized : Bool
  result : AttemptResult

/-- What an iteration leaves: whether it made an attempt, and the index of the group that is stored. -/
structure Iteration where
  attempted      : Bool
  autoGroupIndex : Option ℕ
  deriving DecidableEq

section
variable (crossGroupRetry : Bool) (retryTimes : ℤ) (tokenGroup : String) (autoGroups : List String)

/-- `getChannel`: the channel of the context until `info.ChannelMeta` is set. -/
def getChannelOf (m : Meeting) (channelMeta : Bool) (st : RetryState) : RetryState × Bool :=
  if !channelMeta then (st, true)
  else
    match cacheGetRandomSatisfiedChannel m.select crossGroupRetry retryTimes tokenGroup autoGroups st with
    | (st, .ok (some _, _)) => (st, true)
    | (st, _) => (st, false)

/-- The iterations of the loop, or nothing if it takes more of them than there is fuel. -/
def iterations (meet : ℕ → Meeting) : ℕ → ℕ → Bool → RetryState → Option (List Iteration)
  | 0, _, _, _ => none
  | fuel + 1, turn, channelMeta, st =>
    if retryTimes < st.param.retry then some []
    else
      match getChannelOf crossGroupRetry retryTimes tokenGroup autoGroups (meet turn) channelMeta st with
      | (st, false) => some [⟨false, st.autoGroupIndex⟩]
      | (st, true) =>
        if !(meet turn).ready then some [⟨false, st.autoGroupIndex⟩]
        else if shouldRetry (meet turn).result (retryTimes - st.param.retry) then
          (iterations meet fuel (turn + 1) (channelMeta || (meet turn).initialized)
            { st with param := st.param.increaseRetry }).map (⟨true, st.autoGroupIndex⟩ :: ·)
        else some [⟨true, st.autoGroupIndex⟩]

end

/-- The upstream attempts among the iterations. -/
def attempts (trace : List Iteration) : ℕ := trace.countP Iteration.attempted

/-- The stored index never decreases. -/
def IndexGrows (index : ℕ) (trace : List Iteration) : Prop :=
  (index :: trace.map fun it => it.autoGroupIndex.getD 0).Pairwise (· ≤ ·)

/-! ## What a selection does -/

variable {crossGroupRetry : Bool} {retryTimes : ℤ} {tokenGroup : String} {autoGroups : List String}

/-- From the group `start` on and with the counter `retry`, a selection stays in a group, or uses one for the last
time; the counter begins anew in a group that is entered. -/
inductive Selected (groups : ℕ) (retryTimes : ℤ) (start retry : ℕ) : RetryState → Prop
  | stay (j counter : ℕ) (hstart : start ≤ j) (hgroups : j < groups) (hcounter : counter = if start < j then 0 else retry) :
    Selected groups retryTimes start retry ⟨⟨counter, false⟩, some j⟩
  | leave (j counter : ℕ) (hstart : start ≤ j) (hgroups : j < groups)
    (hcounter : counter = if start < j then 0 else retry) (hlast : retryTimes ≤ counter) :
    Selected groups retryTimes start retry ⟨⟨0, true⟩, some (j + 1)⟩

/-- The loop over the groups, from any group on. -/
theorem autoGroupLoop_selects (select : String → ℕ → Except String (Option Channel)) (start : ℕ) :
    ∀ (rest : List String) (i : ℕ) (st : RetryState), start ≤ i → (start < i → st.param.retry = 0) →
      st.param.resetNextTry = false → ∀ retry, (i = start → st.param.retry = retry) →
      ∀ st' chosen, autoGroupLoop select crossGroupRetry retryTimes start i rest st = (st', some chosen) →
        Selected (i + rest.length) retryTimes start retry st' := by
  intro rest
  induction rest with
  | nil =>
    intro i st _ _ _ retry _ st' chosen h
    cases h
  | cons autoGroup rest ih =>
    intro i st hi hzero hflag retry hretry st' chosen h
    have hcounter : st.param.retry = if start < i then 0 else retry := by
      split_ifs with hlt
      · exact hzero hlt
      · exact hretry (by omega)
    have hpriority : (if start < i then 0 else st.param.retry) = st.param.retry := by
      split_ifs with hlt
      · exact (hzero hlt).symm
      · rfl
    unfold autoGroupLoop at h
    simp only [hpriority] at h
    rw [length_cons]
    cases hselected : dropError (select autoGroup st.param.retry) with
    | none =>
      rw [hselected] at h
      -- the next group, with the counter at 0
      have hnext := ih (i + 1) { param := st.param.setRetry 0, autoGroupIndex := some (i + 1) } (by omega)
        (fun _ => rfl) hflag retry (fun heq => absurd heq (by omega)) st' chosen h
      rw [show i + (rest.length + 1) = i + 1 + rest.length by omega]
      exact hnext
    | some =>
      rw [hselected] at h
      simp only at h
      split_ifs at h with hleave
      · rw [Bool.and_eq_true, decide_eq_true_eq] at hleave
        cases h
        exact Selected.leave i st.param.retry hi (by omega) hcounter hleave.2
      · cases h
        have hparam : st.param = ⟨st.param.retry, false⟩ := by
          rw [← hflag]
        rw [hparam]
        exact Selected.stay i st.param.retry hi (by omega) hcounter

/-- Whatever the loop over the groups finds, the index it stores is not below the one it began with. -/
theorem autoGroupLoop_index (select : String → ℕ → Except String (Option Channel)) (start : ℕ) :
    ∀ (rest : List String) (i : ℕ) (st : RetryState), start ≤ i → start ≤ st.autoGroupIndex.getD 0 →
      start ≤ (autoGroupLoop select crossGroupRetry retryTimes start i rest st).1.autoGroupIndex.getD 0 := by
  intro rest
  induction rest with
  | nil => exact fun _ _ _ h => h
  | cons autoGroup _ ih =>
    intro i st hi hst
    unfold autoGroupLoop
    simp only
    cases dropError (select autoGroup (if start < i then 0 else st.param.retry)) with
    | none =>
      exact ih (i + 1) { param := st.param.setRetry 0, autoGroupIndex := some (i + 1) } (by omega)
        (show start ≤ i + 1 by omega)
    | some =>
      simp only
      generalize (crossGroupRetry && decide (retryTimes ≤ _)) = leaves
      cases leaves with
      | true => exact show start ≤ i + 1 by omega
      | false => exact hi

/-! ## What is left -/

/-- An upper bound of the attempts to come: those of the groups from the current one on, and as long as the channel of
the context stands, or the token has one group only, those of the counter. -/
def attemptsLeft (tokenGroup : String) (groups times : ℕ) (channelMeta : Bool) (st : RetryState) : ℕ :=
  max (if channelMeta && tokenGroup == "auto" then 0 else times + 1 - st.param.retry)
    (if tokenGroup = "auto" then (groups - st.autoGroupIndex.getD 0) * (times + 1) - st.param.retry else 0)

/-- A group that is left is worth one more attempt than there are retries. -/
theorem group_worth {groups times start j : ℕ} (hstart : start ≤ j) (hgroups : j < groups) :
    (groups - (j + 1)) * (times + 1) + (times + 1) ≤ (groups - start) * (times + 1) ∧
      (groups - j) * (times + 1) ≤ (groups - start) * (times + 1) ∧
      (start < j → (groups - j) * (times + 1) + (times + 1) ≤ (groups - start) * (times + 1)) := by
  have hone : (groups - (j + 1)) * (times + 1) + (times + 1) = (groups - (j + 1) + 1) * (times + 1) :=
    (Nat.succ_mul _ _).symm
  have hentered : (groups - j) * (times + 1) + (times + 1) = (groups - j + 1) * (times + 1) := (Nat.succ_mul _ _).symm
  rw [hone, hentered]
  exact ⟨Nat.mul_le_mul_right _ (by omega), Nat.mul_le_mul_right _ (by omega),
    fun hlt => Nat.mul_le_mul_right _ (by omega)⟩

/-- A selection and the increase after it take one attempt at least. -/
theorem Selected.next {groups times start retry : ℕ} {st : RetryState} (h : Selected groups times start retry st)
    (hretry : retry ≤ times) :
    (groups - st.autoGroupIndex.getD 0) * (times + 1) - st.param.increaseRetry.retry + 1 ≤
        (groups - start) * (times + 1) - retry ∧
      st.param.increaseRetry.resetNextTry = false := by
  cases h with
  | stay j counter hstart hgroups hcounter =>
    obtain ⟨hleave, hstay, henter⟩ := @group_worth groups times start j hstart hgroups
    refine ⟨?_, rfl⟩
    show (groups - j) * (times + 1) - (counter + 1) + 1 ≤ (groups - start) * (times + 1) - retry
    have hworth : times + 1 ≤ (groups - j) * (times + 1) := Nat.le_mul_of_pos_left _ (by omega)
    split_ifs at hcounter with hlt
    · have henter := henter hlt
      omega
    · have hj : j = start := by omega
      subst hj
      omega
  | leave j _ hstart hgroups hcounter =>
    obtain ⟨hleave, _, _⟩ := @group_worth groups times start j hstart hgroups
    refine ⟨?_, rfl⟩
    show (groups - (j + 1)) * (times + 1) - 0 + 1 ≤ (groups - start) * (times + 1) - retry
    split_ifs at hcounter with hlt
    · -- a group entered for its only attempt
      have henter := (@group_worth groups times start j hstart hgroups).2.2 hlt
      omega
    · omega

variable {st st' : RetryState}

/-- A channel got for a token of the groups is selected from the current group on. -/
theorem cacheGet_selected {m : Meeting} (hflag : st.param.resetNextTry = false)
    (hauto : tokenGroup = "auto")
    (h : (match cacheGetRandomSatisfiedChannel m.select crossGroupRetry retryTimes tokenGroup autoGroups st with
      | (st, .ok (some _, _)) => (st, true)
      | (st, _) => (st, false)) = (st', true)) :
    Selected autoGroups.length retryTimes (st.autoGroupIndex.getD 0) st.param.retry st' := by
  unfold cacheGetRandomSatisfiedChannel at h
  rw [if_pos hauto] at h
  by_cases hempty : autoGroups = []
  · rw [if_pos hempty] at h
    cases h
  · rw [if_neg hempty] at h
    simp only at h
    cases hloop : autoGroupLoop m.select crossGroupRetry retryTimes (st.autoGroupIndex.getD 0)
        (st.autoGroupIndex.getD 0) (autoGroups.drop (st.autoGroupIndex.getD 0)) st with
    | mk found chosen =>
      rw [hloop] at h
      cases chosen with
      | none => cases h
      | some =>
        cases h
        have hselects := autoGroupLoop_selects m.select (st.autoGroupIndex.getD 0) _ _ st (Nat.le_refl _)
          (fun hlt => absurd hlt (Nat.lt_irrefl _)) hflag st.param.retry (fun _ => rfl) _ _ hloop
        rw [length_drop] at hselects
        cases hselects with
        | stay j counter hstart _ hcounter => exact Selected.stay j counter hstart (by omega) hcounter
        | leave j counter hstart _ hcounter hlast =>
          exact Selected.leave j counter hstart (by omega) hcounter hlast

/-- For another token the selection changes nothing. -/
theorem cacheGet_same {m : Meeting} {found : Bool} (hauto : tokenGroup ≠ "auto")
    (h : (match cacheGetRandomSatisfiedChannel m.select crossGroupRetry retryTimes tokenGroup autoGroups st with
      | (st, .ok (some _, _)) => (st, true)
      | (st, _) => (st, false)) = (st', found)) : st' = st := by
  unfold cacheGetRandomSatisfiedChannel at h
  rw [if_neg hauto] at h
  cases hselect : m.select tokenGroup st.param.retry with
  | error =>
    rw [hselect] at h
    cases h
    rfl
  | ok channel =>
    rw [hselect] at h
    cases channel with
    | none | some =>
      cases h
      rfl

/-- An iteration that makes an attempt takes one of what is left. -/
theorem attemptsLeft_next {m : Meeting} {channelMeta : Bool} {times : ℕ}
    (hflag : st.param.resetNextTry = false) (hretry : st.param.retry ≤ times)
    (h : getChannelOf crossGroupRetry times tokenGroup autoGroups m channelMeta st = (st', true)) :
    attemptsLeft tokenGroup autoGroups.length times (channelMeta || m.initialized)
        { st' with param := st'.param.increaseRetry } + 1 ≤
        attemptsLeft tokenGroup autoGroups.length times channelMeta st ∧
      st'.param.increaseRetry.resetNextTry = false := by
  have hincrease : st.param.increaseRetry = ⟨st.param.retry + 1, false⟩ := by
    unfold RetryParam.increaseRetry
    rw [hflag]
    rfl
  unfold getChannelOf at h
  cases channelMeta with
  | false =>
    cases h
    rw [hincrease]
    refine ⟨?_, rfl⟩
    unfold attemptsLeft
    split_ifs <;> simp_all <;> omega
  | true =>
    simp only [Bool.not_true, Bool.false_eq_true, if_false] at h
    by_cases hauto : tokenGroup = "auto"
    · have hselected := cacheGet_selected hflag hauto h
      obtain ⟨hless, hreset⟩ := hselected.next hretry
      refine ⟨?_, hreset⟩
      unfold attemptsLeft
      rw [hauto]
      simp only [Bool.true_or, Bool.true_and, beq_self_eq_true, if_true]
      omega
    · have hsame := cacheGet_same hauto h
      subst hsame
      rw [hincrease]
      refine ⟨?_, rfl⟩
      unfold attemptsLeft
      simp only [Bool.true_or, Bool.true_and, beq_eq_false_iff_ne.2 hauto, Bool.false_eq_true, if_false, if_neg hauto]
      omega

/-! ## Whole loops -/

/-- No iteration takes the stored index back. -/
theorem getChannelOf_index {m : Meeting} {channelMeta : Bool} {found : Bool}
    (h : getChannelOf crossGroupRetry retryTimes tokenGroup autoGroups m channelMeta st = (st', found)) :
    st.autoGroupIndex.getD 0 ≤ st'.autoGroupIndex.getD 0 := by
  unfold getChannelOf at h
  cases channelMeta with
  | false =>
    cases h
    exact Nat.le_refl _
  | true =>
    simp only [Bool.not_true, Bool.false_eq_true, if_false] at h
    by_cases hauto : tokenGroup = "auto"
    · unfold cacheGetRandomSatisfiedChannel at h
      rw [if_pos hauto] at h
      by_cases hempty : autoGroups = []
      · rw [if_pos hempty] at h
        cases h
        exact Nat.le_refl _
      · rw [if_neg hempty] at h
        simp only at h
        have hindex := @autoGroupLoop_index crossGroupRetry retryTimes m.select (st.autoGroupIndex.getD 0)
          (autoGroups.drop (st.autoGroupIndex.getD 0)) (st.autoGroupIndex.getD 0) st (Nat.le_refl _) (Nat.le_refl _)
        cases hloop : autoGroupLoop m.select crossGroupRetry retryTimes (st.autoGroupIndex.getD 0)
            (st.autoGroupIndex.getD 0) (autoGroups.drop (st.autoGroupIndex.getD 0)) st with
        | mk left chosen =>
          rw [hloop] at h hindex
          cases chosen with
          | none | some =>
            cases h
            exact hindex
    · rw [cacheGet_same hauto h]

theorem IndexGrows.single {index : ℕ} {it : Iteration} (h : index ≤ it.autoGroupIndex.getD 0) : IndexGrows index [it] :=
  pairwise_pair.2 h

theorem IndexGrows.cons {index : ℕ} {it : Iteration} {trace : List Iteration} (h : index ≤ it.autoGroupIndex.getD 0)
    (hrest : IndexGrows (it.autoGroupIndex.getD 0) trace) : IndexGrows index (it :: trace) := by
  refine pairwise_cons.2 ⟨fun later hlater => ?_, hrest⟩
  rw [map_cons, mem_cons] at hlater
  rcases hlater with rfl | hlater
  · exact h
  · exact Nat.le_trans h ((pairwise_cons.1 hrest).1 later hlater)

/-- With more fuel than attempts are left, the loop ends by itself. -/
theorem iterations_end (meet : ℕ → Meeting) :
    ∀ fuel turn channelMeta (st : RetryState), st.param.resetNextTry = false →
      attemptsLeft tokenGroup autoGroups.length retryTimes.toNat channelMeta st < fuel →
      ∃ trace, iterations crossGroupRetry retryTimes tokenGroup autoGroups meet fuel turn channelMeta st = some trace ∧
        attempts trace ≤ attemptsLeft tokenGroup autoGroups.length retryTimes.toNat channelMeta st ∧
        IndexGrows (st.autoGroupIndex.getD 0) trace := by
  intro fuel
  induction fuel with
  | zero => exact fun _ _ _ _ h => absurd h (Nat.not_lt_zero _)
  | succ _ ih =>
    intro turn channelMeta st hflag hfuel
    unfold iterations
    by_cases hover : retryTimes < st.param.retry
    · rw [if_pos hover]
      exact ⟨[], rfl, Nat.zero_le _, pairwise_singleton _ _⟩
    · rw [if_neg hover]
      have htimes : (retryTimes.toNat : ℤ) = retryTimes := Int.toNat_of_nonneg (by omega)
      cases hchannel : getChannelOf crossGroupRetry retryTimes tokenGroup autoGroups (meet turn) channelMeta st with
      | mk st' found =>
        have hindex := getChannelOf_index hchannel
        cases found with
        | false => exact ⟨_, rfl, Nat.zero_le _, IndexGrows.single hindex⟩
        | true =>
          rw [← htimes] at hchannel
          obtain ⟨hless, hreset⟩ := attemptsLeft_next hflag (by omega) hchannel
          simp only
          cases (meet turn).ready with
          | false => exact ⟨_, rfl, Nat.zero_le _, IndexGrows.single hindex⟩
          | true =>
            simp only [Bool.not_true, Bool.false_eq_true, if_false]
            by_cases hretry : shouldRetry (meet turn).result (retryTimes - st'.param.retry) = true
            · rw [if_pos hretry]
              obtain ⟨trace, htrace, hattempts, hgrows⟩ := ih (turn + 1) (channelMeta || (meet turn).initialized)
                { st' with param := st'.param.increaseRetry } hreset (by omega)
              rw [htrace]
              refine ⟨_, rfl, ?_, IndexGrows.cons hindex hgrows⟩
              show attempts (⟨true, st'.autoGroupIndex⟩ :: trace) ≤ _
              have hcount : attempts (⟨true, st'.autoGroupIndex⟩ :: trace) = attempts trace + 1 := by
                unfold attempts
                rw [countP_cons_of_pos rfl]
              omega
            · rw [if_neg hretry]
              refine ⟨_, rfl, ?_, IndexGrows.single hindex⟩
              have hcount : attempts [⟨true, st'.autoGroupIndex⟩] = 1 := rfl
              omega

/-- What is left at the beginning: of one group at least, each with one attempt more than there are retries. -/
theorem attemptsLeft_start (tokenGroup : String) (groups times : ℕ) (index : Option ℕ) :
    attemptsLeft tokenGroup groups times false { autoGroupIndex := index } ≤ max 1 groups * (times + 1) := by
  have hone : 1 * (times + 1) ≤ max 1 groups * (times + 1) := Nat.mul_le_mul_right _ (Nat.le_max_left _ _)
  have hall : (groups - index.getD 0) * (times + 1) ≤ max 1 groups * (times + 1) :=
    Nat.mul_le_mul_right _ (by omega)
  unfold attemptsLeft
  simp only [Bool.false_and, Bool.false_eq_true, if_false]
  split_ifs <;> omega

/-- From whatever the distributor stored, and whatever the iterations meet, the loop ends, the attempts are at most one
more than there are retries for each group, and the stored index never decreases. -/
theorem relayLoop_ends (crossGroupRetry : Bool) (retryTimes : ℤ) (tokenGroup : String) (autoGroups : List String)
    (meet : ℕ → Meeting) (index : Option ℕ) (spare : ℕ) :
    ∃ trace, iterations crossGroupRetry retryTimes tokenGroup autoGroups meet
        (max 1 autoGroups.length * (retryTimes + 1).toNat + 1 + spare) 0 false { autoGroupIndex := index } = some trace ∧
      attempts trace ≤ max 1 autoGroups.length * (retryTimes + 1).toNat ∧ IndexGrows (index.getD 0) trace := by
  by_cases hretryTimes : retryTimes < 0
  · refine ⟨[], ?_, Nat.zero_le _, pairwise_singleton _ _⟩
    rw [show max 1 autoGroups.length * (retryTimes + 1).toNat + 1 + spare =
      max 1 autoGroups.length * (retryTimes + 1).toNat + spare + 1 by omega]
    unfold iterations
    exact if_pos hretryTimes
  · have htimes : (retryTimes + 1).toNat = retryTimes.toNat + 1 := by omega
    have hstart := attemptsLeft_start tokenGroup autoGroups.length retryTimes.toNat index
    rw [htimes]
    obtain ⟨trace, htrace, hattempts, hgrows⟩ := @iterations_end crossGroupRetry retryTimes tokenGroup autoGroups meet
      (max 1 autoGroups.length * (retryTimes.toNat + 1) + 1 + spare) 0 false { autoGroupIndex := index } rfl (by omega)
    exact ⟨trace, htrace, Nat.le_trans hattempts hstart, hgrows⟩

/-- Without any group, and with the channel named by the request, an attempt is made and ends the loop. -/
theorem named_channel_attempted :
    iterations false 3 "auto" [] (fun _ => ⟨fun _ _ => .ok none, true, true, .final⟩) 2 0 false {} =
        some [⟨true, none⟩] ∧
      ¬ attempts [⟨true, none⟩] ≤ ([] : List String).length * (3 + 1) := by
  decide +kernel

end NovaMaas.Routing
