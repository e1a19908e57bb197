/-
  The token bucket of the limit on all requests (common/limiter/lua/rate_limit.lua, middleware/model-rate-limit.go).

  The script refills the bucket by the time since the last execution, up to the capacity, and takes the tokens asked for
  out of it if they are there.  What was granted between two moments was in the bucket at the first of them, or came in
  since (`granted_from`): so it is at most the capacity and what the rate gives in between (`granted_between`).

  The limiter asks for as many tokens as its window has seconds, at a rate of as many as there may be requests.  A full
  bucket is worth one limit, and so is a window of refilling: two limits in a window (`total_limit`).

  The clock of the server counts microseconds, the script takes whole seconds of it: where a second begins between two
  moments, all of its tokens come in (`granted_as_second_turns`).  Tokens are whole numbers.
-/
import Mathlib

open List

namespace NovaMaas.RateLimit

/-! ## The script -/

/-- What is stored under the key. -/
structure Bucket where
  tokens   : ℤ
  lastTime : ℤ

/-- The tokens there are now: those that were left and those that came in, or a full bucket at first. -/
def refilled (rate capacity : ℤ) (bucket : Option Bucket) (nowInSeconds : ℤ) : ℤ :=
  match bucket with
  | none => capacity
  | some b => min capacity (b.tokens + (nowInSeconds - b.lastTime) * rate)

/-- The script: whether the tokens are granted, and what it stores. -/
def rateLimitScript (requested rate capacity : ℤ) (bucket : Option Bucket) (nowInSeconds : ℤ) : Bool × Bucket :=
  let tokens := refilled rate capacity bucket nowInSeconds
  if requested ≤ tokens then (true, ⟨tokens - requested, nowInSeconds⟩) else (false, ⟨tokens, nowInSeconds⟩)

/-- One execution, at a second of the server's clock. -/
structure Execution where
  nowInSeconds : ℤ
  allowed      : Bool
  stored       : Bucket

def scriptRun (requested rate capacity : ℤ) : Option Bucket → List ℤ → List Execution
  | _, [] => []
  | bucket, now :: times =>
    ⟨now, (rateLimitScript requested rate capacity bucket now).1,
        (rateLimitScript requested rate capacity bucket now).2⟩ ::
      scriptRun requested rate capacity (some (rateLimitScript requested rate capacity bucket now).2) times

/-- The tokens granted by the executions from one second up to another. -/
def grantedBetween (requested t₁ t₂ : ℤ) (run : List Execution) : ℤ :=
  (run.map fun e => if e.allowed && decide (t₁ ≤ e.nowInSeconds) && decide (e.nowInSeconds ≤ t₂) then requested else 0).sum

/-! ## What one execution does -/

variable {requested rate capacity now t₁ t₂ : ℤ} {bucket : Option Bucket} {times : List ℤ}

/-- The stored tokens are between nothing and the capacity, and from the past. -/
def Bucket.Sound (capacity clock : ℤ) (b : Bucket) : Prop :=
  0 ≤ b.tokens ∧ b.tokens ≤ capacity ∧ b.lastTime ≤ clock

theorem refilled_bounds (hrate : 0 ≤ rate) (hcapacity : 0 ≤ capacity) (hbucket : ∀ b ∈ bucket, b.Sound capacity now) :
    0 ≤ refilled rate capacity bucket now ∧ refilled rate capacity bucket now ≤ capacity := by
  unfold refilled
  cases bucket with
  | none => exact ⟨hcapacity, Int.le_refl _⟩
  | some b =>
    obtain ⟨hnonneg, _, htime⟩ := hbucket b rfl
    have hadded : 0 ≤ (now - b.lastTime) * rate := Int.mul_nonneg (by omega) hrate
    exact ⟨Int.le_min.2 ⟨hcapacity, by omega⟩, Int.min_le_left _ _⟩

/-- The tokens granted are taken out. -/
theorem script_tokens (requested rate capacity : ℤ) (bucket : Option Bucket) (now : ℤ) :
    (rateLimitScript requested rate capacity bucket now).2.tokens +
        (if (rateLimitScript requested rate capacity bucket now).1 then requested else 0) =
      refilled rate capacity bucket now := by
  unfold rateLimitScript
  by_cases h : requested ≤ refilled rate capacity bucket now
  · simp only [if_pos h, if_true]
    omega
  · simp only [if_neg h, Bool.false_eq_true, if_false]
    omega

theorem script_sound (hrequested : 0 ≤ requested) (hrate : 0 ≤ rate) (hcapacity : 0 ≤ capacity)
    (hbucket : ∀ b ∈ bucket, b.Sound capacity now) :
    (rateLimitScript requested rate capacity bucket now).2.Sound capacity now := by
  have hbounds := refilled_bounds hrate hcapacity hbucket
  unfold rateLimitScript Bucket.Sound
  simp only
  split_ifs with h
  · exact ⟨by show 0 ≤ _ - requested; omega, by show _ - requested ≤ capacity; omega, Int.le_refl _⟩
  · exact ⟨hbounds.1, hbounds.2, Int.le_refl _⟩

theorem script_lastTime (requested rate capacity : ℤ) (bucket : Option Bucket) (now : ℤ) :
    (rateLimitScript requested rate capacity bucket now).2.lastTime = now := by
  unfold rateLimitScript
  simp only
  split_ifs
  · rfl
  · rfl

/-! ## What is granted in a run -/

/-- Nothing is granted up to a moment by executions after it. -/
theorem granted_after {run : List Execution} (h : ∀ e ∈ run, t₂ < e.nowInSeconds) :
    grantedBetween requested t₁ t₂ run = 0 := by
  unfold grantedBetween
  refine sum_eq_zero fun x hx => ?_
  obtain ⟨e, he, rfl⟩ := mem_map.1 hx
  have hlate := h e he
  rw [if_neg]
  simp only [Bool.and_eq_true, decide_eq_true_eq, not_and]
  omega

theorem scriptRun_times (requested rate capacity : ℤ) (bucket : Option Bucket) (times : List ℤ) :
    (scriptRun requested rate capacity bucket times).map Execution.nowInSeconds = times := by
  induction times generalizing bucket with
  | nil => rfl
  | cons _ _ ih =>
    unfold scriptRun
    rw [map_cons, ih]

/-- Every execution stores a sound bucket. -/
theorem scriptRun_sound (hrequested : 0 ≤ requested) (hrate : 0 ≤ rate) (hcapacity : 0 ≤ capacity) :
    ∀ (times : List ℤ) (bucket : Option Bucket), times.Pairwise (· ≤ ·) →
      (∀ now ∈ times, ∀ b ∈ bucket, b.Sound capacity now) →
      ∀ e ∈ scriptRun requested rate capacity bucket times, e.stored.Sound capacity e.nowInSeconds := by
  intro times
  induction times with
  | nil => exact fun _ _ _ e he => absurd he not_mem_nil
  | cons now _ ih =>
    intro bucket hsorted hbucket e he
    have hstored := @script_sound requested rate capacity now bucket hrequested hrate hcapacity (hbucket now mem_cons_self)
    unfold scriptRun at he
    rcases mem_cons.1 he with rfl | he
    · exact hstored
    · refine ih _ (pairwise_cons.1 hsorted).2 (fun later hlater b hb => ?_) e he
      rw [← Option.some.inj hb]
      have hle := (pairwise_cons.1 hsorted).1 later hlater
      exact ⟨hstored.1, hstored.2.1, Int.le_trans hstored.2.2 hle⟩

/-- From a stored bucket on: what is granted up to a moment was in it, or came in since. -/
theorem granted_from (hrate : 0 ≤ rate) (t₁ : ℤ) :
    ∀ (times : List ℤ) (b : Bucket), times.Pairwise (· ≤ ·) → 0 ≤ requested → 0 ≤ capacity → b.lastTime ≤ t₂ →
      (∀ now ∈ times, b.Sound capacity now) → 0 ≤ b.tokens →
      grantedBetween requested t₁ t₂ (scriptRun requested rate capacity (some b) times) ≤
        b.tokens + (t₂ - b.lastTime) * rate := by
  intro times
  induction times with
  | nil =>
    intro b _ _ _ htime _ htokens
    have hadded : 0 ≤ (t₂ - b.lastTime) * rate := Int.mul_nonneg (by omega) hrate
    show (0 : ℤ) ≤ _
    omega
  | cons now times ih =>
    intro b hsorted hrequested hcapacity htime hsound htokens
    obtain ⟨hnow, hsorted'⟩ := pairwise_cons.1 hsorted
    have hbucket : ∀ b' ∈ some b, b'.Sound capacity now := fun b' hb' =>
      Option.some.inj hb' ▸ hsound now mem_cons_self
    have hstored := script_sound hrequested hrate hcapacity hbucket
    have htaken := script_tokens requested rate capacity (some b) now
    have hlast := script_lastTime requested rate capacity (some b) now
    have hrefilled : refilled rate capacity (some b) now ≤ b.tokens + (now - b.lastTime) * rate := Int.min_le_right _ _
    by_cases hlate : t₂ < now
    · rw [granted_after]
      · have hadded : 0 ≤ (t₂ - b.lastTime) * rate := Int.mul_nonneg (by omega) hrate
        omega
      · intro e he
        have htimes : e.nowInSeconds ∈ now :: times := by
          rw [← scriptRun_times requested rate capacity (some b) (now :: times)]
          exact mem_map_of_mem he
        rcases mem_cons.1 htimes with heq | hmem
        · omega
        · have hle := hnow _ hmem
          omega
    · unfold scriptRun grantedBetween
      rw [map_cons, sum_cons]
      have hrest := ih (rateLimitScript requested rate capacity (some b) now).2 hsorted' hrequested hcapacity
        (by omega) (fun later hlater => ⟨hstored.1, hstored.2.1, by have := hnow later hlater; omega⟩) hstored.1
      unfold grantedBetween at hrest
      -- what is granted here is at most what is taken out
      have hgrant : (if (rateLimitScript requested rate capacity (some b) now).1 && decide (t₁ ≤ now) &&
          decide (now ≤ t₂) then requested else 0) ≤
          if (rateLimitScript requested rate capacity (some b) now).1 then requested else 0 := by
        cases (rateLimitScript requested rate capacity (some b) now).1 with
        | false => exact Int.le_refl _
        | true =>
          rw [Bool.true_and, if_pos rfl]
          split_ifs
          · exact Int.le_refl _
          · exact hrequested
      have hsplit : (t₂ - b.lastTime) * rate = (now - b.lastTime) * rate + (t₂ - now) * rate := by ring
      rw [hlast] at hrest
      show (if (rateLimitScript requested rate capacity (some b) now).1 && decide (t₁ ≤ now) &&
          decide (now ≤ t₂) then requested else 0) + _ ≤ _
      omega

/-- Between two moments at most the capacity is granted, and what the rate gives in between. -/
theorem granted_between (hrequested : 0 ≤ requested) (hrate : 0 ≤ rate) (hcapacity : 0 ≤ capacity) (ht : t₁ ≤ t₂) :
    ∀ (times : List ℤ) (bucket : Option Bucket), times.Pairwise (· ≤ ·) →
      (∀ now ∈ times, ∀ b ∈ bucket, b.Sound capacity now) →
      grantedBetween requested t₁ t₂ (scriptRun requested rate capacity bucket times) ≤
        capacity + rate * (t₂ - t₁) := by
  have hgap : 0 ≤ rate * (t₂ - t₁) := Int.mul_nonneg hrate (by omega)
  intro times
  induction times with
  | nil =>
    intro _ _ _
    show (0 : ℤ) ≤ _
    omega
  | cons now times ih =>
    intro bucket hsorted hbucket
    obtain ⟨hnow, hsorted'⟩ := pairwise_cons.1 hsorted
    have hstored := script_sound hrequested hrate hcapacity (hbucket now mem_cons_self)
    have hlater : ∀ later ∈ times, ∀ b ∈ some (rateLimitScript requested rate capacity bucket now).2,
        b.Sound capacity later := by
      intro later hmem b hb
      rw [← Option.some.inj hb]
      exact ⟨hstored.1, hstored.2.1, Int.le_trans hstored.2.2 (hnow later hmem)⟩
    unfold scriptRun grantedBetween
    rw [map_cons, sum_cons]
    by_cases hwithin : t₁ ≤ now ∧ now ≤ t₂
    · -- the first one that counts finds a full bucket at most
      have hbounds := refilled_bounds hrate hcapacity (hbucket now mem_cons_self)
      have htaken := script_tokens requested rate capacity bucket now
      have hlast := script_lastTime requested rate capacity bucket now
      have hrest := @granted_from requested rate capacity t₂ hrate t₁ times
        (rateLimitScript requested rate capacity bucket now).2 hsorted'
        hrequested hcapacity (by omega) (fun later hmem => hlater later hmem _ rfl) hstored.1
      unfold grantedBetween at hrest
      rw [hlast] at hrest
      have hsince : (t₂ - now) * rate ≤ rate * (t₂ - t₁) := by
        rw [Int.mul_comm]
        exact Int.mul_le_mul_of_nonneg_left (by omega) hrate
      rw [decide_eq_true hwithin.1, decide_eq_true hwithin.2, Bool.and_true, Bool.and_true]
      show (if (rateLimitScript requested rate capacity bucket now).1 then requested else 0) + _ ≤ _
      omega
    · have hnone : (if (rateLimitScript requested rate capacity bucket now).1 && decide (t₁ ≤ now) &&
          decide (now ≤ t₂) then requested else 0) = 0 := by
        refine if_neg fun h => hwithin ?_
        simp only [Bool.and_eq_true, decide_eq_true_eq] at h
        exact ⟨h.1.2, h.2⟩
      have hrest := ih _ hsorted' hlater
      unfold grantedBetween at hrest
      show (if (rateLimitScript requested rate capacity bucket now).1 && decide (t₁ ≤ now) &&
          decide (now ≤ t₂) then requested else 0) + _ ≤ _
      omega

/-! ## The limit on all requests -/

def maxInt64 : ℤ := 2 ^ 63 - 1

/-- `rateLimitCapacity`. -/
def rateLimitCapacity (count durationSeconds : ℤ) : ℤ :=
  if count ≤ 0 ∨ durationSeconds ≤ 0 then 0
  else if maxInt64.tdiv durationSeconds < count then maxInt64
  else count * durationSeconds

theorem capacity_le {count durationSeconds : ℤ} (hcount : 0 < count) (hduration : 0 < durationSeconds) :
    0 ≤ rateLimitCapacity count durationSeconds ∧ rateLimitCapacity count durationSeconds ≤ count * durationSeconds := by
  have hproduct : 0 < count * durationSeconds := Int.mul_pos hcount hduration
  unfold rateLimitCapacity
  rw [if_neg (by omega)]
  split_ifs with hlarge
  · refine ⟨by decide, ?_⟩
    rw [Int.tdiv_eq_ediv_of_nonneg (by decide)] at hlarge
    have hover := (Int.ediv_lt_iff_lt_mul hduration).1 hlarge
    omega
  · exact ⟨by omega, Int.le_refl _⟩

/-- The second of a moment of the server's clock, which counts microseconds. -/
def serverSeconds (micros : ℤ) : ℤ := micros / 1000000

/-- The executions of `Allow` for a user, at moments of the server's clock: as many tokens as the window has seconds, at
a rate of as many as there may be requests. -/
def totalLimitRun (totalMaxCount duration : ℤ) (bucket : Option Bucket) (moments : List ℤ) : List Execution :=
  scriptRun duration totalMaxCount (rateLimitCapacity totalMaxCount duration) bucket (moments.map serverSeconds)

/-- The requests admitted from one moment up to another. -/
def admittedBetween (w₁ w₂ : ℤ) : List ℤ → List Execution → ℤ
  | micros :: moments, e :: run =>
    (if e.allowed && decide (w₁ ≤ micros) && decide (micros ≤ w₂) then 1 else 0) + admittedBetween w₁ w₂ moments run
  | _, _ => 0

theorem serverSeconds_le {x y : ℤ} (h : x ≤ y) : serverSeconds x ≤ serverSeconds y := Int.ediv_le_ediv (by decide) h

/-- Every admitted request was granted the tokens of a window. -/
theorem admitted_granted {duration w₁ w₂ : ℤ} (hduration : 0 < duration) (rate capacity : ℤ) :
    ∀ (moments : List ℤ) (bucket : Option Bucket),
      admittedBetween w₁ w₂ moments (scriptRun duration rate capacity bucket (moments.map serverSeconds)) * duration ≤
        grantedBetween duration (serverSeconds w₁) (serverSeconds w₂)
          (scriptRun duration rate capacity bucket (moments.map serverSeconds)) := by
  intro moments
  induction moments with
  | nil =>
    intro bucket
    show (0 : ℤ) * duration ≤ 0
    omega
  | cons micros _ ih =>
    intro bucket
    rw [map_cons]
    unfold scriptRun grantedBetween admittedBetween
    rw [map_cons, sum_cons, Int.add_mul]
    have hrest := ih (some (rateLimitScript duration rate capacity bucket (serverSeconds micros)).2)
    unfold grantedBetween at hrest
    refine Int.add_le_add ?_ hrest
    show (if (rateLimitScript duration rate capacity bucket (serverSeconds micros)).1 && decide (w₁ ≤ micros) &&
        decide (micros ≤ w₂) then (1 : ℤ) else 0) * duration ≤
      if (rateLimitScript duration rate capacity bucket (serverSeconds micros)).1 &&
        decide (serverSeconds w₁ ≤ serverSeconds micros) && decide (serverSeconds micros ≤ serverSeconds w₂)
      then duration else 0
    by_cases hcounted : ((rateLimitScript duration rate capacity bucket (serverSeconds micros)).1 &&
        decide (w₁ ≤ micros) && decide (micros ≤ w₂)) = true
    · rw [if_pos hcounted, Int.one_mul]
      simp only [Bool.and_eq_true, decide_eq_true_eq] at hcounted
      obtain ⟨⟨hallowed, hfrom⟩, hto⟩ := hcounted
      rw [hallowed, decide_eq_true (serverSeconds_le hfrom), decide_eq_true (serverSeconds_le hto)]
      exact Int.le_refl _
    · rw [if_neg hcounted, Int.zero_mul]
      split_ifs
      · omega
      · exact Int.le_refl _

theorem moments_sorted {moments : List ℤ} (h : moments.Pairwise (· ≤ ·)) :
    (moments.map serverSeconds).Pairwise (· ≤ ·) :=
  List.Pairwise.map _ (fun _ _ => serverSeconds_le) h

/-- The stored tokens are between nothing and the capacity; between two moments of the server's clock at most the
capacity is granted, and the rate for every second that it has begun in between; and the limiter admits at most two limits
in a window of its duration. -/
theorem total_limit : (∀ (requested rate capacity : ℤ) (moments : List ℤ), 0 < requested → 0 < rate → 0 < capacity →
      moments.Pairwise (· ≤ ·) →
        (∀ e ∈ scriptRun requested rate capacity none (moments.map serverSeconds),
          0 ≤ e.stored.tokens ∧ e.stored.tokens ≤ capacity) ∧
        ∀ t₁ t₂, t₁ ≤ t₂ →
          admittedBetween t₁ t₂ moments (scriptRun requested rate capacity none (moments.map serverSeconds)) * requested ≤
            capacity + rate * (serverSeconds t₂ - serverSeconds t₁)) ∧
    ∀ (totalMaxCount duration w : ℤ) (moments : List ℤ), 0 < totalMaxCount → 0 < duration → moments.Pairwise (· ≤ ·) →
      admittedBetween w (w + 1000000 * duration) moments (totalLimitRun totalMaxCount duration none moments) ≤
        2 * totalMaxCount := by
  have within {requested rate capacity t₁ t₂ : ℤ} {moments : List ℤ} (hrequested : 0 < requested) (hrate : 0 ≤ rate)
      (hcapacity : 0 ≤ capacity) (hsorted : moments.Pairwise (· ≤ ·)) (ht : t₁ ≤ t₂) :
      admittedBetween t₁ t₂ moments (scriptRun requested rate capacity none (moments.map serverSeconds)) * requested ≤
        capacity + rate * (serverSeconds t₂ - serverSeconds t₁) :=
    Int.le_trans (admitted_granted hrequested rate capacity moments none)
      (granted_between (by omega) hrate hcapacity (serverSeconds_le ht) _ none (moments_sorted hsorted)
        (fun _ _ b hb => nomatch hb))
  constructor
  · intro requested rate capacity moments hrequested hrate hcapacity hsorted
    refine ⟨fun e he => ?_, fun t₁ t₂ ht => within hrequested (by omega) (by omega) hsorted ht⟩
    have hsound := scriptRun_sound (by omega) (by omega) (by omega) (moments.map serverSeconds) none
      (moments_sorted hsorted) (fun _ _ b hb => nomatch hb) e he
    exact ⟨hsound.1, hsound.2.1⟩
  · intro totalMaxCount duration w moments hcount hduration hsorted
    obtain ⟨hcapacity, hle⟩ := capacity_le hcount hduration
    have hadmitted := within hduration (show 0 ≤ totalMaxCount by omega) hcapacity hsorted
      (show w ≤ w + 1000000 * duration by omega)
    have hseconds : serverSeconds (w + 1000000 * duration) - serverSeconds w = duration := by
      unfold serverSeconds
      omega
    rw [hseconds] at hadmitted
    have htwo : admittedBetween w (w + 1000000 * duration) moments
        (totalLimitRun totalMaxCount duration none moments) * duration ≤ 2 * totalMaxCount * duration := by
      have hdouble : 2 * totalMaxCount * duration = totalMaxCount * duration + totalMaxCount * duration := by ring
      unfold totalLimitRun
      omega
    exact Int.le_of_mul_le_mul_right htwo hduration

/-- A limit of two in a minute: of three requests at once two are admitted, and after the minute two more. -/
theorem total_limit_five :
    (admittedBetween 0 60000000 [0, 1, 2, 60000000, 60000000]
        (scriptRun 60 2 120 none ([0, 1, 2, 60000000, 60000000].map serverSeconds)) = 4 ∧ (4 : ℤ) * 60 ≤ 120 + 2 * 60) ∧
      admittedBetween 0 60000000 [0, 1, 2, 60000000, 60000000]
        (totalLimitRun 2 60 none [0, 1, 2, 60000000, 60000000]) ≤ 4 := by
  have hfour : admittedBetween 0 60000000 [0, 1, 2, 60000000, 60000000]
      (scriptRun 60 2 120 none ([0, 1, 2, 60000000, 60000000].map serverSeconds)) = 4 := by decide +kernel
  have hgranted := (total_limit.1 60 2 120 [0, 1, 2, 60000000, 60000000] (by decide) (by decide) (by decide)
    (by decide)).2 0 60000000 (by decide)
  rw [hfour] at hgranted
  exact ⟨⟨hfour, hgranted⟩, total_limit.2 2 60 0 [0, 1, 2, 60000000, 60000000] (by decide) (by decide) (by decide)⟩

/-- Twenty requests for a token at ten a second, ten of them a microsecond before the server's clock begins a second. -/
def secondTurns : List ℤ := replicate 10 999999 ++ replicate 10 1000000

/-- All twenty are granted, where ten tokens and those of a microsecond were wanted. -/
theorem granted_as_second_turns :
    1000000 * 10 + 10 * (1000000 - 999999) <
      1000000 * (admittedBetween 999999 1000000 secondTurns
        (scriptRun 1 10 10 none (secondTurns.map serverSeconds)) * 1) ∧
    ¬ ∀ (requested rate capacity t₁ t₂ : ℤ) (moments : List ℤ), 0 < requested → 0 < rate → 0 < capacity →
      moments.Pairwise (· ≤ ·) → t₁ ≤ t₂ →
        1000000 * (admittedBetween t₁ t₂ moments
          (scriptRun requested rate capacity none (moments.map serverSeconds)) * requested) ≤
            1000000 * capacity + rate * (t₂ - t₁) := by
  have hover : 1000000 * 10 + 10 * (1000000 - 999999) <
      1000000 * (admittedBetween 999999 1000000 secondTurns
        (scriptRun 1 10 10 none (secondTurns.map serverSeconds)) * 1) := by decide +kernel
  refine ⟨hover, fun h => ?_⟩
  have hwanted := h 1 10 10 999999 1000000 secondTurns (by decide) (by decide) (by decide) (by decide) (by decide)
  omega

end NovaMaas.RateLimit
