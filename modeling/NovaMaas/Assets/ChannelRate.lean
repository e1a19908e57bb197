/-
  The request slots of a channel.

  Three times are kept for a channel: the next slot that may be handed out (`next`), and the earliest times of the next
  call and of the next review (`sentNext`, `reviewNext`).  A slot may be taken early, late or never, and given back; only
  the other two decide when a call goes out, and only a call that goes out moves them.  So what was handed out does not
  matter: of two calls the later one has found `sentNext` where the earlier one, or one between them, has put it.
-/
import Mathlib.Logic.Function.Basic
import Mathlib.Data.Int.Notation
import Mathlib.Data.List.Basic
import Mathlib.Data.Nat.Basic
import Mathlib.Order.Basic

open List

namespace NovaMaas.Assets

/-! ## The slots -/

/-- A minute, in nanoseconds. -/
def minute : ℕ := 60000000000

/-- The time from one call to the next, rounded up. -/
def channelRateInterval (qpm : ℤ) : ℕ :=
  let qpm := if qpm ≤ 0 then 60 else qpm.toNat
  (minute + qpm - 1) / qpm

/-- The slot that the scheduler has taken for a job.  `review` says that the job's workload is a review. -/
structure ChannelRateReservation where
  channelID : ℕ
  qpm       : ℤ
  allowedAt : ℕ
  review    : Bool
  used      : Bool
deriving DecidableEq

/-- Who is between two of its locked sections. -/
inductive RateCaller
  /-- `dispatch` in `reserveChannelRate`: the clock is read, the lock not taken. -/
  | dispatching (channelID : ℕ) (review : Bool) (now : ℕ)
  /-- `waitForChannelRate` there. -/
  | reserving (channelID now : ℕ)
  /-- `waitForChannelRate` in its loop. -/
  | waiting (channelID allowedAt : ℕ) (review : Bool)
  /-- `releaseUnusedChannelReservation`: the reservation was seen to be unused. -/
  | releasing (reservation : ℕ)
  | gone
deriving DecidableEq

/-- A call that `waitForChannelRate` has let through.  `review` says that it was made through the reservation of a
review. -/
structure SentCall where
  channelID : ℕ
  time      : ℕ
  review    : Bool
deriving DecidableEq

/-- The clock, `channelRateState`, the reservations and everyone under way, and what has been let through, the last call
first. -/
structure RateWorld where
  time         : ℕ
  next         : ℕ → ℕ
  sentNext     : ℕ → ℕ
  reviewNext   : ℕ → ℕ
  reservations : List ChannelRateReservation
  callers      : List RateCaller
  sent         : List SentCall

def RateWorld.blank (time : ℕ) : RateWorld := ⟨time, fun _ => 0, fun _ => 0, fun _ => 0, [], [], []⟩

namespace RateWorld

variable (rate : ℕ → ℤ) (w : RateWorld)

/-- The locked section of `reserveChannelRate`, with the clock as it was read before. -/
def reserveChannelRate (channelID now : ℕ) : ℕ × RateWorld :=
  let allowedAt := max (w.next channelID) now
  (allowedAt, { w with
    next := Function.update w.next channelID (allowedAt + channelRateInterval (rate channelID)) })

/-- When a call that waits may go out, for all that is known now. -/
def earliest (channelID allowedAt : ℕ) (review : Bool) : ℕ :=
  let allowedAt := max allowedAt (w.sentNext channelID)
  if review then max allowedAt (w.reviewNext channelID) else allowedAt

/-- The locked section of the loop. -/
def attempt (i channelID allowedAt : ℕ) (review : Bool) : RateWorld :=
  let interval := channelRateInterval (rate channelID)
  let allowedAt := w.earliest channelID allowedAt review
  if allowedAt ≤ w.time then
    { w with
      sentNext := Function.update w.sentNext channelID (w.time + interval)
      reviewNext := if review then Function.update w.reviewNext channelID (w.time + 10 * interval) else w.reviewNext
      callers := w.callers.set i .gone
      sent := ⟨channelID, w.time, review⟩ :: w.sent }
  else { w with callers := w.callers.set i (.waiting channelID allowedAt review) }

/-- The locked section of `releaseUnusedChannelReservation`. -/
def releaseReservation (r : ChannelRateReservation) : RateWorld :=
  if w.next r.channelID = r.allowedAt + channelRateInterval r.qpm then
    { w with next := Function.update w.next r.channelID r.allowedAt }
  else w

end RateWorld

/-- What happens next. -/
inductive RateMove
  | tick (n : ℕ)
  /-- The scheduler takes a slot for a job. -/
  | dispatch (channelID : ℕ) (review : Bool)
  /-- `waitForChannelRate` is called, with a reservation in its context or without one. -/
  | call (channelID : ℕ) (reservation : Option ℕ)
  /-- Someone takes the lock. -/
  | lock (i : ℕ)
  /-- The context of a call that waits is cancelled. -/
  | cancel (i : ℕ)
  /-- A job is over: its reservation is looked at. -/
  | finish (reservation : ℕ)
deriving DecidableEq

/-- What one who has the lock does with it. -/
def RateWorld.locked (rate : ℕ → ℤ) (w : RateWorld) (i : ℕ) : RateCaller → RateWorld
  | .dispatching channelID review now =>
    let (allowedAt, w) := w.reserveChannelRate rate channelID now
    { w with
      reservations := w.reservations ++ [⟨channelID, rate channelID, allowedAt, review, false⟩]
      callers := w.callers.set i .gone }
  | .reserving channelID now =>
    let (allowedAt, w) := w.reserveChannelRate rate channelID now
    { w with callers := w.callers.set i (.waiting channelID allowedAt false) }
  | .waiting channelID allowedAt review => w.attempt rate i channelID allowedAt review
  | .releasing reservation =>
    let w := { w with callers := w.callers.set i .gone }
    (w.reservations[reservation]?).elim w w.releaseReservation
  | .gone => w

/-- The reservation in the context, if the call may use it. -/
def RateWorld.usable (w : RateWorld) (channelID : ℕ) (reservation : Option ℕ) :
    Option (ℕ × ChannelRateReservation) := do
  let k ← reservation
  let r ← w.reservations[k]?
  if r.channelID = channelID ∧ r.used = false then some (k, r) else none

/-- `rate` is the rate of each channel, which stays as it is. -/
def RateWorld.step (rate : ℕ → ℤ) (w : RateWorld) : RateMove → RateWorld
  | .tick n => { w with time := w.time + n }
  | .dispatch channelID review => { w with callers := w.callers ++ [.dispatching channelID review w.time] }
  | .call channelID reservation =>
    match w.usable channelID reservation with
    | some (k, r) => { w with
        reservations := w.reservations.set k { r with used := true }
        callers := w.callers ++ [.waiting channelID r.allowedAt r.review] }
    | none => { w with callers := w.callers ++ [.reserving channelID w.time] }
  | .lock i => (w.callers[i]?).elim w (w.locked rate i)
  | .cancel i =>
    match w.callers[i]? with
    | some (.waiting _ _ _) => { w with callers := w.callers.set i .gone }
    | _ => w
  | .finish reservation =>
    match w.reservations[reservation]? with
    | some r => if r.used then w else { w with callers := w.callers ++ [.releasing reservation] }
    | none => w

def RateWorld.run (rate : ℕ → ℤ) (w : RateWorld) (moves : List RateMove) : RateWorld :=
  moves.foldl (RateWorld.step rate) w

/-- The calls of the channel, the last one first. -/
def RateWorld.sentOn (w : RateWorld) (channelID : ℕ) : List SentCall :=
  w.sent.filter fun s => s.channelID = channelID

/-! ## What a move does to the times of the calls -/

/-- A move that lets nothing through. -/
structure Quiet (w v : RateWorld) : Prop where
  sent       : v.sent = w.sent
  sentNext   : v.sentNext = w.sentNext
  reviewNext : v.reviewNext = w.reviewNext

/-- A move that lets a call through, not before its time. -/
structure LetThrough (rate : ℕ → ℤ) (w v : RateWorld) (channelID : ℕ) (review : Bool) : Prop where
  sent       : v.sent = ⟨channelID, w.time, review⟩ :: w.sent
  sentNext   : v.sentNext = Function.update w.sentNext channelID (w.time + channelRateInterval (rate channelID))
  reviewNext : v.reviewNext = if review then
    Function.update w.reviewNext channelID (w.time + 10 * channelRateInterval (rate channelID)) else w.reviewNext
  due        : w.sentNext channelID ≤ w.time
  reviewDue  : review = true → w.reviewNext channelID ≤ w.time

variable {rate : ℕ → ℤ} {w v : RateWorld} {c : ℕ}

theorem Quiet.refl (w : RateWorld) : Quiet w w := ⟨rfl, rfl, rfl⟩

theorem earliest_spec (w : RateWorld) (channelID allowedAt : ℕ) (review : Bool) :
    w.sentNext channelID ≤ w.earliest channelID allowedAt review ∧
      (review = true → w.reviewNext channelID ≤ w.earliest channelID allowedAt review) := by
  unfold RateWorld.earliest
  simp only
  split
  · exact ⟨(le_max_right _ _).trans (le_max_left _ _), fun _ => le_max_right _ _⟩
  · rename_i hreview
    exact ⟨le_max_right _ _, fun h => absurd h hreview⟩

theorem attempt_cases (rate : ℕ → ℤ) (w : RateWorld) (i channelID allowedAt : ℕ) (review : Bool) :
    Quiet w (w.attempt rate i channelID allowedAt review) ∨
      LetThrough rate w (w.attempt rate i channelID allowedAt review) channelID review := by
  obtain ⟨hsent, hreview⟩ := earliest_spec w channelID allowedAt review
  unfold RateWorld.attempt
  simp only
  by_cases hdue : w.earliest channelID allowedAt review ≤ w.time
  · rw [if_pos hdue]
    exact Or.inr ⟨rfl, rfl, rfl, hsent.trans hdue, fun h => (hreview h).trans hdue⟩
  · rw [if_neg hdue]
    exact Or.inl ⟨rfl, rfl, rfl⟩

theorem locked_cases (rate : ℕ → ℤ) (w : RateWorld) (i : ℕ) (caller : RateCaller) :
    Quiet w (w.locked rate i caller) ∨
      ∃ channelID review, LetThrough rate w (w.locked rate i caller) channelID review := by
  cases caller with
  | dispatching channelID review now | reserving channelID now => exact Or.inl ⟨rfl, rfl, rfl⟩
  | waiting channelID allowedAt review =>
    rcases attempt_cases rate w i channelID allowedAt review with h | h
    · exact Or.inl h
    · exact Or.inr ⟨channelID, review, h⟩
  | releasing reservation =>
    left
    unfold RateWorld.locked
    simp only
    cases w.reservations[reservation]? with
    | none => exact ⟨rfl, rfl, rfl⟩
    | some r =>
      show Quiet w (RateWorld.releaseReservation _ r)
      unfold RateWorld.releaseReservation
      split
      · exact ⟨rfl, rfl, rfl⟩
      · exact ⟨rfl, rfl, rfl⟩
  | gone => exact Or.inl (Quiet.refl w)

/-- All that a move can do. -/
theorem step_cases (rate : ℕ → ℤ) (w : RateWorld) (move : RateMove) :
    Quiet w (w.step rate move) ∨ ∃ channelID review, LetThrough rate w (w.step rate move) channelID review := by
  cases move with
  | tick n | dispatch channelID review => exact Or.inl ⟨rfl, rfl, rfl⟩
  | lock i =>
    show Quiet w ((w.callers[i]?).elim w (w.locked rate i)) ∨
      ∃ channelID review, LetThrough rate w ((w.callers[i]?).elim w (w.locked rate i)) channelID review
    cases w.callers[i]? with
    | none => exact Or.inl (Quiet.refl w)
    | some caller => exact locked_cases rate w i caller
  | call channelID reservation | cancel i =>
    left
    simp only [RateWorld.step]
    split
    · exact ⟨rfl, rfl, rfl⟩
    · exact ⟨rfl, rfl, rfl⟩
  | finish reservation =>
    left
    simp only [RateWorld.step]
    split
    · split
      · exact Quiet.refl w
      · exact ⟨rfl, rfl, rfl⟩
    · exact Quiet.refl w

/-! ## Every run -/

/-- The later call of two keeps its distance. -/
def Apart (gap : ℕ) (later earlier : SentCall) : Prop := earlier.time + gap ≤ later.time

instance (gap : ℕ) (later earlier : SentCall) : Decidable (Apart gap later earlier) :=
  inferInstanceAs (Decidable (_ ≤ _))

/-- The calls of the channel are apart, and the next one will be. -/
structure Spaced (rate : ℕ → ℤ) (c : ℕ) (w : RateWorld) : Prop where
  calls      : (w.sentOn c).Pairwise (Apart (channelRateInterval (rate c)))
  reviews    : ((w.sentOn c).filter (·.review)).Pairwise (Apart (10 * channelRateInterval (rate c)))
  next       : ∀ s ∈ w.sentOn c, s.time + channelRateInterval (rate c) ≤ w.sentNext c
  nextReview : ∀ s ∈ w.sentOn c, s.review = true → s.time + 10 * channelRateInterval (rate c) ≤ w.reviewNext c

theorem spaced_blank (rate : ℕ → ℤ) (c time : ℕ) : Spaced rate c (RateWorld.blank time) :=
  ⟨List.Pairwise.nil, List.Pairwise.nil, nofun, nofun⟩

theorem Quiet.spaced (h : Quiet w v) (hw : Spaced rate c w) : Spaced rate c v := by
  have hsame : v.sentOn c = w.sentOn c := by
    unfold RateWorld.sentOn
    rw [h.sent]
  refine ⟨?_, ?_, ?_, ?_⟩
  · rw [hsame]
    exact hw.calls
  · rw [hsame]
    exact hw.reviews
  · rw [hsame, h.sentNext]
    exact hw.next
  · rw [hsame, h.reviewNext]
    exact hw.nextReview

theorem LetThrough.sentOn {channelID : ℕ} {review : Bool} (h : LetThrough rate w v channelID review) (c : ℕ) :
    v.sentOn c = if channelID = c then ⟨channelID, w.time, review⟩ :: w.sentOn c else w.sentOn c := by
  unfold RateWorld.sentOn
  rw [h.sent]
  simp only [filter_cons, decide_eq_true_eq]

theorem LetThrough.spaced {channelID : ℕ} {review : Bool} (h : LetThrough rate w v channelID review)
    (hw : Spaced rate c w) : Spaced rate c v := by
  have hsent := h.sentOn c
  by_cases hc : channelID = c
  · subst hc
    rw [if_pos rfl] at hsent
    have hdue := h.due
    have hnext : v.sentNext channelID = w.time + channelRateInterval (rate channelID) := by
      rw [h.sentNext, Function.update_self]
    have hold : ∀ s ∈ w.sentOn channelID, s.time + channelRateInterval (rate channelID) ≤ w.time :=
      fun s hs => (hw.next s hs).trans hdue
    refine ⟨?_, ?_, ?_, ?_⟩
    · rw [hsent]
      exact pairwise_cons.mpr ⟨hold, hw.calls⟩
    · rw [hsent]
      cases review with
      | false => exact hw.reviews
      | true =>
        refine pairwise_cons.mpr ⟨?_, hw.reviews⟩
        intro s hs
        obtain ⟨hs, hreview⟩ := mem_filter.mp hs
        exact (hw.nextReview s hs hreview).trans (h.reviewDue rfl)
    · rw [hsent, hnext]
      intro s hs
      rcases mem_cons.mp hs with rfl | hs
      · exact le_rfl
      · exact (hold s hs).trans (Nat.le_add_right _ _)
    · rw [hsent, h.reviewNext]
      intro s hs hreview
      rcases mem_cons.mp hs with rfl | hs
      · rw [if_pos hreview, Function.update_self]
      · have hlate := hw.nextReview s hs hreview
        split
        · rename_i hthis
          rw [Function.update_self]
          exact (hlate.trans (h.reviewDue hthis)).trans (Nat.le_add_right _ _)
        · exact hlate
  · rw [if_neg hc] at hsent
    have hnext : v.sentNext c = w.sentNext c := by
      rw [h.sentNext, Function.update_of_ne (Ne.symm hc)]
    have hreviewNext : v.reviewNext c = w.reviewNext c := by
      rw [h.reviewNext]
      split
      · exact Function.update_of_ne (Ne.symm hc) _ _
      · rfl
    refine ⟨?_, ?_, ?_, ?_⟩
    · rw [hsent]
      exact hw.calls
    · rw [hsent]
      exact hw.reviews
    · rw [hsent, hnext]
      exact hw.next
    · rw [hsent, hreviewNext]
      exact hw.nextReview

theorem spaced_step (hw : Spaced rate c w) (move : RateMove) : Spaced rate c (w.step rate move) := by
  rcases step_cases rate w move with h | ⟨channelID, review, h⟩
  · exact h.spaced hw
  · exact h.spaced hw

theorem spaced_run (hw : Spaced rate c w) (moves : List RateMove) : Spaced rate c (w.run rate moves) := by
  induction moves generalizing w with
  | nil => exact hw
  | cons move moves ih => exact ih (spaced_step hw move)

/-- What was let through stays so: a run puts its calls before those there were. -/
theorem sentOn_run (rate : ℕ → ℤ) (w : RateWorld) (c : ℕ) (moves : List RateMove) :
    ∃ new, (w.run rate moves).sentOn c = new ++ w.sentOn c := by
  induction moves generalizing w with
  | nil => exact ⟨[], rfl⟩
  | cons move moves ih =>
    obtain ⟨new, hnew⟩ := ih (w.step rate move)
    have hrun : (w.run rate (move :: moves)).sentOn c = new ++ (w.step rate move).sentOn c := hnew
    rcases step_cases rate w move with h | ⟨channelID, review, h⟩
    · refine ⟨new, ?_⟩
      rw [hrun]
      unfold RateWorld.sentOn
      rw [h.sent]
    · rw [hrun, h.sentOn c]
      split
      · exact ⟨new ++ [⟨channelID, w.time, review⟩], by simp⟩
      · exact ⟨new, rfl⟩

/-- **Calls are an interval apart and reviews ten, and giving a slot back changes nothing about it.** -/
theorem channel_spacing (rate : ℕ → ℤ) (time c : ℕ) (moves : List RateMove) :
    (((RateWorld.blank time).run rate moves).sentOn c).Pairwise (Apart (channelRateInterval (rate c))) ∧
    ((((RateWorld.blank time).run rate moves).sentOn c).filter (·.review)).Pairwise
      (Apart (10 * channelRateInterval (rate c))) ∧
    ∀ i reservation, ((RateWorld.blank time).run rate moves).callers[i]? = some (.releasing reservation) →
      ∀ later, ∃ new, (((RateWorld.blank time).run rate moves).run rate (.lock i :: later)).sentOn c =
          new ++ ((RateWorld.blank time).run rate moves).sentOn c ∧
        ∀ s ∈ new, ∀ s' ∈ ((RateWorld.blank time).run rate moves).sentOn c, Apart (channelRateInterval (rate c)) s s' ∧
          (s.review = true → s'.review = true → Apart (10 * channelRateInterval (rate c)) s s') := by
  have hw := spaced_run (spaced_blank rate c time) moves
  refine ⟨hw.calls, hw.reviews, ?_⟩
  intro i reservation _ later
  obtain ⟨new, hnew⟩ := sentOn_run rate ((RateWorld.blank time).run rate moves) c (.lock i :: later)
  have hlater := spaced_run hw (.lock i :: later)
  have hcalls := hlater.calls
  have hreviews := hlater.reviews
  rw [hnew] at hcalls hreviews
  rw [filter_append] at hreviews
  refine ⟨new, hnew, fun s hs s' hs' => ⟨(pairwise_append.mp hcalls).2.2 s hs s' hs', fun hr hr' => ?_⟩⟩
  exact (pairwise_append.mp hreviews).2.2 s (mem_filter.mpr ⟨hs, hr⟩) s' (mem_filter.mpr ⟨hs', hr'⟩)

/-- A slot given back while another job holds the one after it: nothing moves. -/
example : ((RateWorld.blank 5).run (fun _ => 60)
      [.dispatch 1 true, .lock 0, .dispatch 1 false, .lock 1, .finish 0, .lock 2, .call 1 (some 1), .tick 1000000000,
        .lock 3]).sentOn 1 = [⟨1, 1000000005, false⟩] := by
  decide +kernel

end NovaMaas.Assets
