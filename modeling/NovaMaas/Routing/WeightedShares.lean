/-
  The shares of the weighted choice (the end of GetRandomSatisfiedChannel, model/channel_cache.go).

  The range of the random number is computed from the sum of the weights, the steps of the loop from the weights one by
  one, both smoothed in one of three ways.  The range is the sum of the steps in each of them (`totalWeight_eq`): so no
  number falls through, and each channel is returned for as many numbers as its step is long (`selection_exact`).
-/
import NovaMaas.Routing.Selection

namespace NovaMaas.Routing

open Weighted

/-- The sum that the range is computed from, the factor of it and of the weights, and what is added to each weight. -/
structure Smoothing where
  sumWeight           : ℕ
  smoothingFactor     : ℕ
  smoothingAdjustment : ℕ

def smoothing (targetChannels : List Channel) : Smoothing :=
  let sumWeight := total Channel.getWeight targetChannels
  if sumWeight = 0 then ⟨targetChannels.length * 100, 1, 100⟩
  else if sumWeight / targetChannels.length < 10 then ⟨sumWeight, 100, 0⟩
  else ⟨sumWeight, 1, 0⟩

def Smoothing.totalWeight (s : Smoothing) : ℕ := s.sumWeight * s.smoothingFactor

def Smoothing.step (s : Smoothing) (channel : Channel) : ℕ :=
  channel.getWeight * s.smoothingFactor + s.smoothingAdjustment

/-- The loop over the channels, with a random number below the total weight; at its end no channel is found. -/
def selectionLoop (s : Smoothing) : List Channel → ℤ → Option Channel
  | [], _ => none
  | channel :: rest, randomWeight =>
    if randomWeight - s.step channel < 0 then some channel else selectionLoop s rest (randomWeight - s.step channel)

/-- The loop draws by the steps. -/
theorem selectionLoop_eq_draw (s : Smoothing) (channels : List Channel) (randomWeight : ℤ) :
    selectionLoop s channels randomWeight = draw s.step channels randomWeight := by
  induction channels generalizing randomWeight with
  | nil => rfl
  | cons _ _ ih =>
    unfold selectionLoop draw
    rw [ih]

/-- All steps together, whatever the smoothing. -/
theorem total_step (s : Smoothing) (channels : List Channel) : total s.step channels =
      total Channel.getWeight channels * s.smoothingFactor + channels.length * s.smoothingAdjustment := by
  induction channels with
  | nil =>
    show 0 = 0 * _ + 0 * _
    rw [Nat.zero_mul, Nat.zero_mul, Nat.add_zero]
  | cons channel _ ih =>
    rw [total_cons, total_cons, ih, List.length_cons, Nat.add_mul, Nat.add_mul, Nat.one_mul]
    show channel.getWeight * s.smoothingFactor + s.smoothingAdjustment + _ = _
    omega

/-- The range is the sum of the steps. -/
theorem totalWeight_eq (targetChannels : List Channel) :
    (smoothing targetChannels).totalWeight = total (smoothing targetChannels).step targetChannels := by
  rw [total_step]
  unfold smoothing Smoothing.totalWeight
  by_cases hzero : total Channel.getWeight targetChannels = 0
  · simp only [if_pos hzero]
    rw [hzero, Nat.zero_mul, Nat.zero_add, Nat.mul_one]
  · simp only [if_neg hzero]
    split_ifs
    · simp only [Nat.mul_zero, Nat.add_zero]
    · simp only [Nat.mul_zero, Nat.add_zero]

/-- The step is the weight that the model of the selection draws with. -/
theorem step_eq_smoothedWeight (targetChannels : List Channel) (channel : Channel) :
    (smoothing targetChannels).step channel = smoothedWeight targetChannels channel := by
  unfold smoothing smoothedWeight Smoothing.step
  by_cases hzero : total Channel.getWeight targetChannels = 0
  · simp only [if_pos hzero, Nat.mul_one]
  · simp only [if_neg hzero]
    split_ifs
    · rfl
    · rw [Nat.mul_one, Nat.add_zero]

/-- So the selection of the model is this loop, with a number below this range. -/
theorem drawChannel_eq (intn : ℕ → ℕ) (targetChannels : List Channel) :
    drawChannel intn targetChannels =
      match selectionLoop (smoothing targetChannels) targetChannels (intn (smoothing targetChannels).totalWeight) with
      | some channel => .ok (some channel)
      | none => .error "channel not found" := by
  have hstep : (smoothing targetChannels).step = smoothedWeight targetChannels :=
    funext (step_eq_smoothedWeight targetChannels)
  rw [selectionLoop_eq_draw, totalWeight_eq, hstep]
  rfl

theorem totalWeight_pos {targetChannels : List Channel} (hne : targetChannels ≠ []) :
    0 < (smoothing targetChannels).totalWeight := by
  have hlength : 0 < targetChannels.length := List.length_pos_iff.2 hne
  unfold smoothing Smoothing.totalWeight
  by_cases hzero : total Channel.getWeight targetChannels = 0
  · simp only [if_pos hzero]
    omega
  · simp only [if_neg hzero]
    split_ifs
    · show 0 < total Channel.getWeight targetChannels * 100
      omega
    · show 0 < total Channel.getWeight targetChannels * 1
      omega

/-- The range is positive, every number in it returns a channel, and each channel is returned for as many of them as its
smoothed weight is (for each time it stands in the list, if it stands there more than once). -/
theorem selection_exact (targetChannels : List Channel) (hne : targetChannels ≠ []) :
    0 < (smoothing targetChannels).totalWeight ∧ (∀ randomWeight < (smoothing targetChannels).totalWeight,
        ∃ channel ∈ targetChannels,
          selectionLoop (smoothing targetChannels) targetChannels (randomWeight : ℕ) = some channel) ∧
      ∀ channel, Nat.count (fun randomWeight : ℕ =>
          selectionLoop (smoothing targetChannels) targetChannels randomWeight = some channel)
          (smoothing targetChannels).totalWeight =
        targetChannels.count channel * (channel.getWeight * (smoothing targetChannels).smoothingFactor +
            (smoothing targetChannels).smoothingAdjustment) := by
  refine ⟨totalWeight_pos hne, fun randomWeight hlt => ?_, fun channel => ?_⟩
  · rw [totalWeight_eq] at hlt
    rw [selectionLoop_eq_draw]
    obtain ⟨channel, hchannel⟩ := Option.ne_none_iff_exists'.1 (draw_ne_none hne (Int.ofNat_lt.2 hlt))
    exact ⟨channel, mem_of_draw hchannel, hchannel⟩
  · rw [totalWeight_eq]
    simp only [selectionLoop_eq_draw]
    exact count_draw targetChannels channel

def weighty : Channel := ⟨1, 1, 1, "", "", none, some 3, none⟩

def weightless : Channel := ⟨2, 1, 1, "", "", none, none, none⟩

/-- Two channels, one without a weight: every number returns the other one. -/
theorem selection_exact_two : (smoothing [weighty, weightless]).totalWeight = 300 ∧
    ∀ n < 300, selectionLoop (smoothing [weighty, weightless]) [weighty, weightless] (n : ℕ) = some weighty := by
  obtain ⟨-, -, hcounts⟩ := selection_exact [weighty, weightless] (List.cons_ne_nil _ _)
  have hall : Nat.count (fun n : ℕ => selectionLoop (smoothing [weighty, weightless]) [weighty, weightless] n =
      some weighty) 300 = 300 := hcounts weighty
  exact ⟨by decide, Nat.count_iff_forall.1 hall⟩

end NovaMaas.Routing
