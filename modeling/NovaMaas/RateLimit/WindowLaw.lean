/-
  The window law of the in-memory limiter (common/rate-limit.go).

  A request is to be accepted if fewer than its limit were accepted under its key within its duration before it.  The
  limiter keeps a queue for each key, looks at its length and at its first entry.  That is the same as long as limit and
  duration ask for no more than the queue kept: limits that do not fall below those of earlier accepted requests, and
  durations that do not rise above theirs (`Steady`, `limiter_law`).  With a lower limit than before the first entry of
  the queue is older than the last ones that count, and too much is accepted (`lowered_limit`).

  Times are in seconds, as the limiter has them.
-/
import NovaMaas.RateLimit.ModelRequests

open List

namespace NovaMaas.RateLimit

open Window

/-- A call of `Request`, at a time. -/
structure LimiterRequest where
  key           : String
  maxRequestNum : ℕ
  duration      : ℤ
  now           : ℤ

/-- A call of `Request`, or a turn of the cleaner. -/
inductive LimiterMove
  | request (r : LimiterRequest)
  | sweep (now : ℤ)

def limiterRun (expiration : ℤ) : LimiterStore → List LimiterMove → List Bool
  | _, [] => []
  | store, .request r :: moves =>
    (limiterRequest store r.key r.maxRequestNum r.duration r.now).1 ::
      limiterRun expiration (limiterRequest store r.key r.maxRequestNum r.duration r.now).2 moves
  | store, .sweep now :: moves => limiterRun expiration (clearExpiredItems store expiration now) moves

/-! ## The law -/

/-- The accepted requests of a key. -/
def acceptedOf (accepted : List LimiterRequest) (key : String) : List LimiterRequest :=
  accepted.filter fun a => a.key = key

/-- Fewer than the limit were accepted under the key within the duration before. -/
def lawful (accepted : List LimiterRequest) (r : LimiterRequest) : Bool :=
  (acceptedOf accepted r.key).countP (fun a => r.now - a.now < r.duration) < r.maxRequestNum

def afterLawful (accepted : List LimiterRequest) (r : LimiterRequest) : List LimiterRequest :=
  if lawful accepted r then accepted ++ [r] else accepted

def lawRun : List LimiterRequest → List LimiterMove → List Bool
  | _, [] => []
  | accepted, .request r :: moves => lawful accepted r :: lawRun (afterLawful accepted r) moves
  | accepted, .sweep _ :: moves => lawRun accepted moves

/-- The clock does not run back, limits are at least 1 and durations not above the expiration. -/
def Timed (expiration : ℤ) : ℤ → List LimiterMove → Prop
  | _, [] => True
  | clock, .request r :: moves =>
    clock ≤ r.now ∧ 1 ≤ r.maxRequestNum ∧ r.duration ≤ expiration ∧ Timed expiration r.now moves
  | clock, .sweep now :: moves => clock ≤ now ∧ Timed expiration now moves

/-- No limit below that of an earlier accepted request of the key, and no duration above. -/
def Steady : List LimiterRequest → List LimiterMove → Prop
  | _, [] => True
  | accepted, .request r :: moves =>
    (∀ a ∈ acceptedOf accepted r.key, a.maxRequestNum ≤ r.maxRequestNum ∧ r.duration ≤ a.duration) ∧
      Steady (afterLawful accepted r) moves
  | accepted, .sweep _ :: moves => Steady accepted moves

/-! ## The queues -/

variable {expiration clock : ℤ} {accepted : List LimiterRequest} {r : LimiterRequest} {store : LimiterStore}

/-- The limit of the last accepted request. -/
def heldLimit (accepted : List LimiterRequest) : ℕ := (accepted.getLast?.map LimiterRequest.maxRequestNum).getD 0

/-- Out of the window of the last accepted request, and so of all later ones. -/
def Outside (accepted : List LimiterRequest) (clock : ℤ) (a : LimiterRequest) : Prop :=
  ∀ last ∈ accepted.getLast?, last.duration ≤ clock - a.now

/-- Every queue is the end of what was accepted under its key, in order of time, and no duration is above the
expiration. -/
structure Held (expiration clock : ℤ) (accepted : List LimiterRequest) (store : LimiterStore) : Prop where
  queue  : ∀ key, ∃ kept, Kept (Outside (acceptedOf accepted key) clock) (heldLimit (acceptedOf accepted key))
    (acceptedOf accepted key) kept ∧ Queued LimiterRequest.now store key kept
  sorted : accepted.Pairwise fun a b => a.now ≤ b.now
  past   : ∀ a ∈ accepted, a.now ≤ clock
  expire : ∀ a ∈ accepted, a.duration ≤ expiration

theorem acceptedOf_append (accepted : List LimiterRequest) (r : LimiterRequest) (key : String) :
    acceptedOf (accepted ++ [r]) key = if r.key = key then acceptedOf accepted key ++ [r] else acceptedOf accepted key := by
  unfold acceptedOf
  rw [filter_append]
  split_ifs with hkey
  · simp [hkey]
  · simp [hkey]

theorem Held.later {clock' : ℤ} (h : Held expiration clock accepted store) (hle : clock ≤ clock') :
    Held expiration clock' accepted store := by
  refine ⟨fun key => ?_, h.sorted, fun a ha => Int.le_trans (h.past a ha) hle, h.expire⟩
  obtain ⟨kept, hkept, hqueued⟩ := h.queue key
  refine ⟨kept, hkept.mono fun a _ houtside last hlast => ?_, hqueued⟩
  have hduration := houtside last hlast
  omega

/-- The queues are in order of time too. -/
theorem Held.kept_sorted (h : Held expiration clock accepted store) {key : String} {dead : LimiterRequest → Prop}
    {bound : ℕ} {kept : List LimiterRequest} (hkept : Kept dead bound (acceptedOf accepted key) kept) :
    kept.Pairwise fun a b => a.now ≤ b.now := by
  have hall : (acceptedOf accepted key).Pairwise fun a b => a.now ≤ b.now := List.Pairwise.filter _ h.sorted
  obtain ⟨before, hsuffix, -⟩ := hkept.suffix
  rw [hsuffix] at hall
  exact (pairwise_append.1 hall).2.1

theorem Held.sweep {now : ℤ} (h : Held expiration clock accepted store) (hnow : clock ≤ now) :
    Held expiration now accepted (clearExpiredItems store expiration now) := by
  have hlater := h.later hnow
  refine ⟨fun key => ?_, hlater.sorted, hlater.past, hlater.expire⟩
  obtain ⟨kept, hkept, hqueued⟩ := hlater.queue key
  refine clearExpiredItems_queued hkept hqueued (fun a _ hexpired last hlast => ?_) (hlater.kept_sorted hkept)
  have hduration := h.expire last (mem_of_mem_filter (mem_of_getLast? hlast))
  omega

/-- One request: it is accepted if that is lawful, and the queues go along. -/
theorem Held.request (h : Held expiration clock accepted store) (hnow : clock ≤ r.now) (hlimit : 1 ≤ r.maxRequestNum)
    (hexpiration : r.duration ≤ expiration)
    (hsteady : ∀ a ∈ acceptedOf accepted r.key, a.maxRequestNum ≤ r.maxRequestNum ∧ r.duration ≤ a.duration) :
    (limiterRequest store r.key r.maxRequestNum r.duration r.now).1 = lawful accepted r ∧
      Held expiration r.now (afterLawful accepted r)
        (limiterRequest store r.key r.maxRequestNum r.duration r.now).2 := by
  have hlater := h.later hnow
  obtain ⟨kept, hkept, hqueued⟩ := hlater.queue r.key
  have hbound : heldLimit (acceptedOf accepted r.key) ≤ r.maxRequestNum := by
    unfold heldLimit
    cases hlast : (acceptedOf accepted r.key).getLast? with
    | none => exact Nat.zero_le _
    | some last => exact (hsteady last (mem_of_getLast? hlast)).1
  -- what is out of the last window is out of this one
  have hdead : ∀ a ∈ acceptedOf accepted r.key, Outside (acceptedOf accepted r.key) r.now a → r.duration ≤ r.now - a.now := by
    intro a ha houtside
    cases hlast : (acceptedOf accepted r.key).getLast? with
    | none =>
      rw [getLast?_eq_none_iff.1 hlast] at ha
      cases ha
    | some last =>
      have hduration := (hsteady last (mem_of_getLast? hlast)).2
      have hout := houtside last hlast
      omega
  have hadmits := @limiterRequest_admits _ LimiterRequest.now _ _ r.maxRequestNum _ _ store r.key r.duration r.now
    hkept hqueued hbound hlimit hdead fun a rest hcons => by
      have hsorted := hlater.kept_sorted hkept
      rw [hcons] at hsorted
      exact (pairwise_cons.1 hsorted).1
  have hanswer : (limiterRequest store r.key r.maxRequestNum r.duration r.now).1 = lawful accepted r := by
    unfold lawful
    rw [Bool.eq_iff_iff, hadmits, decide_eq_true_eq]
  refine ⟨hanswer, ?_⟩
  unfold afterLawful
  by_cases hlawful : lawful accepted r = true
  · rw [if_pos hlawful]
    rw [hlawful] at hanswer
    refine ⟨fun key => ?_, ?_, ?_, ?_⟩
    · rw [acceptedOf_append]
      split_ifs with hkey
      · subst hkey
        have hout : ∀ a ∈ acceptedOf accepted r.key, r.duration ≤ r.now - a.now →
            Outside (acceptedOf accepted r.key ++ [r]) r.now a := by
          intro a _ hold last hlast
          rw [getLast?_append, getLast?_singleton, Option.some_or] at hlast
          rw [← Option.some.inj hlast]
          exact hold
        obtain ⟨kept', hkept', hqueued'⟩ := limiterRequest_keeps hkept hqueued hbound hdead hout rfl hlimit hanswer
        refine ⟨kept', ?_, hqueued'⟩
        unfold heldLimit
        rw [getLast?_append, getLast?_singleton, Option.some_or]
        exact hkept'
      · obtain ⟨other, hother, hqueuedOther⟩ := hlater.queue key
        refine ⟨other, hother, ?_⟩
        unfold Queued
        rw [limiterRequest_other (Ne.symm hkey)]
        exact hqueuedOther
    · rw [pairwise_append]
      refine ⟨h.sorted, pairwise_singleton _ _, fun a ha b hb => ?_⟩
      rw [mem_singleton.1 hb]
      exact hlater.past a ha
    · intro a ha
      rcases mem_append.1 ha with ha | ha
      · exact hlater.past a ha
      · rw [mem_singleton.1 ha]
    · intro a ha
      rcases mem_append.1 ha with ha | ha
      · exact h.expire a ha
      · rw [mem_singleton.1 ha]
        exact hexpiration
  · rw [if_neg hlawful]
    rw [Bool.not_eq_true] at hlawful
    rw [hlawful] at hanswer
    rw [limiterRequest_rejects hanswer]
    exact hlater

/-! ## Runs -/

theorem Held.run : ∀ moves clock accepted store, Held expiration clock accepted store → Timed expiration clock moves →
      Steady accepted moves → limiterRun expiration store moves = lawRun accepted moves := by
  intro moves
  induction moves with
  | nil => exact fun _ _ _ _ _ _ => rfl
  | cons move moves ih =>
    intro clock accepted store h htimed hsteady
    cases move with
    | request r =>
      obtain ⟨hnow, hlimit, hexpiration, htimed⟩ := htimed
      obtain ⟨hfits, hsteady⟩ := hsteady
      obtain ⟨hanswer, hheld⟩ := h.request hnow hlimit hexpiration hfits
      unfold limiterRun lawRun
      rw [hanswer, ih _ _ _ hheld htimed hsteady]
    | sweep now =>
      obtain ⟨hnow, htimed⟩ := htimed
      exact ih now accepted _ (h.sweep hnow) htimed hsteady

/-- From an empty store, in every run whose limits do not fall and whose durations do not rise, the limiter accepts
what the law says. -/
theorem limiter_law (expiration clock : ℤ) (moves : List LimiterMove) (htimed : Timed expiration clock moves)
    (hsteady : Steady [] moves) : limiterRun expiration (fun _ => none) moves = lawRun [] moves := by
  refine Held.run moves clock [] _ ⟨fun key => ⟨[], Kept.nil _ _, Or.inr ⟨rfl, rfl⟩⟩, List.Pairwise.nil, ?_, ?_⟩
    htimed hsteady
  · exact fun a ha => absurd ha not_mem_nil
  · exact fun a ha => absurd ha not_mem_nil

/-- A limit that rises from 1 to 2, with the cleaner in between. -/
theorem limiter_law_rising : limiterRun 60 (fun _ => none)
        [.request ⟨"u", 1, 60, 0⟩, .request ⟨"u", 1, 60, 30⟩, .sweep 40, .request ⟨"u", 2, 50, 45⟩,
          .request ⟨"u", 2, 50, 46⟩] = [true, false, true, false] := by
  have hlaw : lawRun [] [.request ⟨"u", 1, 60, 0⟩, .request ⟨"u", 1, 60, 30⟩, .sweep 40, .request ⟨"u", 2, 50, 45⟩,
      .request ⟨"u", 2, 50, 46⟩] = [true, false, true, false] := by decide +kernel
  rw [← hlaw]
  refine limiter_law 60 0 _ ?_ ?_
  · simp only [Timed]
    decide
  · simp only [Steady]
    decide +kernel

/-- Three requests of a key with limit 3, then one with limit 1: the first is out of the window and the queue is let go
on by it, but two were accepted within the window. -/
theorem lowered_limit : limiterRun 60 (fun _ => none)
        [.request ⟨"u", 3, 60, 0⟩, .request ⟨"u", 3, 60, 50⟩, .request ⟨"u", 3, 60, 51⟩, .request ⟨"u", 1, 60, 60⟩] =
      [true, true, true, true] ∧
    lawRun []
        [.request ⟨"u", 3, 60, 0⟩, .request ⟨"u", 3, 60, 50⟩, .request ⟨"u", 3, 60, 51⟩, .request ⟨"u", 1, 60, 60⟩] =
      [true, true, true, false] := by
  decide +kernel

end NovaMaas.RateLimit
