/-
  The limit on successful model requests of a user (middleware/model-rate-limit.go, common/rate-limit.go).

  Without Redis, `memoryRateLimitHandler` asks a queue under the key with `_check` for admission, before the request,
  and enters successful requests into another queue, which nothing reads.  With Redis, `redisRateLimitHandler` looks at
  the list of successful requests, which is written when they have ended.

  `wanted` is what is wanted of both: a request is admitted if fewer than the limit succeeded within the window before
  it.  Both queues are the end of the history of admitted requests (`Window.Kept`), and under `Fits` their oldest entries
  tell what counting would (`admissions_agree`).  The queue of the memory handler holds every admitted request, with the
  second it began in: so a request that fails, one that limit `0` lets through, and one whose end is nearer than its
  beginning make a difference.

  Times are in milliseconds, the history of one user is sequential, the limit on all requests is off.
-/
import Mathlib
import NovaMaas.Lib.Window

open List

namespace NovaMaas.RateLimit

open Window

/-! ## The in-memory limiter -/

/-- Queues of Unix seconds, the oldest first. -/
abbrev LimiterStore := String → Option (List ℤ)

def LimiterStore.put (store : LimiterStore) (key : String) (queue : Option (List ℤ)) : LimiterStore :=
  fun k => if k = key then queue else store k

/-- `time.Time.Unix`. -/
def unix (time : ℤ) : ℤ := time / 1000

/-- `InMemoryRateLimiter.Request`. -/
def limiterRequest (store : LimiterStore) (key : String) (maxRequestNum : ℕ) (duration now : ℤ) : Bool × LimiterStore :=
  match store key with
  | none => (true, store.put key (some [now]))
  | some queue =>
    if queue.length < maxRequestNum then (true, store.put key (some (queue ++ [now])))
    else
      match queue with
      | [] => (false, store) -- no queue is empty
      | first :: rest => if now - first ≥ duration then (true, store.put key (some (rest ++ [now]))) else (false, store)

/-- One turn of `clearExpiredItems`. -/
def clearExpiredItems (store : LimiterStore) (expiration now : ℤ) : LimiterStore := fun key =>
  (store key).filter fun queue => queue.getLast?.any fun last => !decide (now - last > expiration)

/-- A request under another key leaves the queue alone. -/
theorem limiterRequest_other {store : LimiterStore} {key key' : String} {maxRequestNum : ℕ} {duration now : ℤ}
    (hne : key' ≠ key) : (limiterRequest store key maxRequestNum duration now).2 key' = store key' := by
  unfold limiterRequest
  split
  · exact if_neg hne
  · split_ifs
    · exact if_neg hne
    · split
      · rfl
      · split_ifs
        · exact if_neg hne
        · rfl

section
variable {α : Type} {time : α → ℤ} {dead : α → Prop} {bound maxRequestNum : ℕ} {all kept : List α}
  {store : LimiterStore} {key : String} {duration now : ℤ}

/-- The queue of the limiter is the end of a history of times; a queue that is not there is an empty one. -/
def Queued (time : α → ℤ) (store : LimiterStore) (key : String) (kept : List α) : Prop :=
  store key = some (kept.map time) ∨ (kept = [] ∧ store key = none)

/-- On the end of a history, the limiter admits by what counts of the whole of it. -/
theorem limiterRequest_admits (hkept : Kept dead bound all kept) (hqueued : Queued time store key kept)
    (hbound : bound ≤ maxRequestNum) (hpos : 0 < maxRequestNum) (hdead : ∀ a ∈ all, dead a → duration ≤ now - time a)
    (hsorted : ∀ a rest, kept = a :: rest → ∀ b ∈ rest, time a ≤ time b) :
    (limiterRequest store key maxRequestNum duration now).1 = true ↔
      all.countP (fun a => now - time a < duration) < maxRequestNum := by
  have hcount : all.countP (fun a => !decide (duration ≤ now - time a)) =
      all.countP fun a => now - time a < duration := by
    refine countP_congr fun a _ => ?_
    simp only [Bool.not_eq_true', decide_eq_false_iff_not, not_le, decide_eq_true_eq]
  rw [← hcount, ← hkept.admits_iff hbound (fun a ha hd => decide_eq_true (hdead a ha hd)) ?_]
  · unfold limiterRequest
    rcases hqueued with hsome | ⟨rfl, hnone⟩
    · rw [hsome]
      cases kept with
      | nil =>
        show (if 0 < maxRequestNum then _ else _ : Bool × LimiterStore).1 = true ↔ _
        rw [if_pos hpos]
        exact iff_of_true rfl (Or.inl hpos)
      | cons a rest =>
        show (if ((a :: rest).map time).length < maxRequestNum then _ else if now - time a ≥ duration then _ else _ :
          Bool × LimiterStore).1 = true ↔ _
        rw [length_map, head?_cons, Option.any_some, decide_eq_true_eq]
        split_ifs with hroom hold
        · exact iff_of_true rfl (Or.inl hroom)
        · exact iff_of_true rfl (Or.inr hold)
        · exact iff_of_false (by decide) (not_or.2 ⟨hroom, hold⟩)
    · rw [hnone]
      exact iff_of_true rfl (Or.inl hpos)
  · intro a rest hcons hyoung b hb
    have hle := hsorted a rest hcons b hb
    rw [decide_eq_false_iff_not] at hyoung ⊢
    omega

/-- What it admits it keeps, in the place of an event that is old by now if the queue is full. -/
theorem limiterRequest_keeps {dead' : α → Prop} {x : α} (hkept : Kept dead bound all kept)
    (hqueued : Queued time store key kept) (hbound : bound ≤ maxRequestNum)
    (hdead : ∀ a ∈ all, dead a → duration ≤ now - time a) (hdead' : ∀ a ∈ all, duration ≤ now - time a → dead' a)
    (hx : time x = now) (hpos : 0 < maxRequestNum)
    (hadmitted : (limiterRequest store key maxRequestNum duration now).1 = true) :
    ∃ kept', Kept dead' maxRequestNum (all ++ [x]) kept' ∧
      Queued time (limiterRequest store key maxRequestNum duration now).2 key kept' := by
  have hkept' : Kept dead' bound all kept := hkept.mono fun a ha hd => hdead' a ha (hdead a ha hd)
  have happend : ∀ queue : List α, (queue ++ [x]).map time = queue.map time ++ [now] := by
    intro queue
    rw [map_append, map_singleton, hx]
  unfold limiterRequest at hadmitted ⊢
  rcases hqueued with hsome | ⟨rfl, hnone⟩
  · rw [hsome] at hadmitted ⊢
    by_cases hroom : kept.length < maxRequestNum
    · refine ⟨kept ++ [x], hkept'.push hroom, Or.inl ?_⟩
      show (if _ then _ else _ : Bool × LimiterStore).2 key = _
      rw [if_pos (by rw [length_map]; exact hroom), happend]
      exact if_pos rfl
    · have hfull : ¬ (kept.map time).length < maxRequestNum := by
        rw [length_map]
        exact hroom
      cases kept with
      | nil => exact absurd hpos hroom
      | cons a rest =>
        simp only [map_cons] at hadmitted hfull ⊢
        simp only [if_neg hfull] at hadmitted ⊢
        by_cases hold : now - time a ≥ duration
        · rw [if_pos hold]
          refine ⟨rest ++ [x], hkept'.shift hbound (hdead' a (hkept.mem mem_cons_self) hold), Or.inl ?_⟩
          rw [happend]
          exact if_pos rfl
        · rw [if_neg hold] at hadmitted
          cases hadmitted
  · rw [hnone]
    exact ⟨[] ++ [x], hkept'.push hpos, Or.inl (by rw [happend]; exact if_pos rfl)⟩

/-- What it rejects changes nothing. -/
theorem limiterRequest_rejects (hrejected : (limiterRequest store key maxRequestNum duration now).1 = false) :
    (limiterRequest store key maxRequestNum duration now).2 = store := by
  unfold limiterRequest at hrejected ⊢
  split at hrejected
  · cases hrejected
  · split_ifs at hrejected ⊢
    split at hrejected
    · rfl
    · split_ifs at hrejected ⊢
      rfl

/-- The cleaner takes a queue away when its last event, and so every one, is out of every window. -/
theorem clearExpiredItems_queued {expiration : ℤ} (hkept : Kept dead bound all kept) (hqueued : Queued time store key kept)
    (hdead : ∀ a ∈ all, expiration < now - time a → dead a)
    (hsorted : kept.Pairwise fun a b => time a ≤ time b) :
    ∃ kept', Kept dead bound all kept' ∧ Queued time (clearExpiredItems store expiration now) key kept' := by
  unfold Queued clearExpiredItems
  rcases hqueued with hsome | ⟨rfl, hnone⟩
  · rw [hsome]
    cases hlast : kept.getLast? with
    | none =>
      refine ⟨[], ?_, Or.inr ⟨rfl, by simp [getLast?_map, hlast]⟩⟩
      rw [getLast?_eq_none_iff.1 hlast] at hkept
      exact hkept
    | some last =>
      by_cases hexpired : now - time last > expiration
      · refine ⟨[], hkept.forget fun a ha => hdead a (hkept.mem ha) ?_,
          Or.inr ⟨rfl, by simp [getLast?_map, hlast, hexpired]⟩⟩
        -- the last event is the youngest
        obtain ⟨front, rfl⟩ := getLast?_eq_some_iff.1 hlast
        rcases mem_append.1 ha with ha | ha
        · have hle := (pairwise_append.1 hsorted).2.2 a ha last (mem_singleton.2 rfl)
          omega
        · rw [mem_singleton.1 ha]
          exact hexpired
      · exact ⟨kept, hkept, Or.inl (by simp [getLast?_map, hlast, hexpired])⟩
  · exact ⟨[], hkept, Or.inr ⟨rfl, by rw [hnone]; rfl⟩⟩

end

/-! ## The list in Redis -/

/-- A list, the newest first, with the time it expires at. -/
structure RedisList where
  items    : List ℤ
  expireAt : ℤ

abbrev Redis := String → Option RedisList

def Redis.put (rdb : Redis) (key : String) (list : RedisList) : Redis := fun k => if k = key then some list else rdb k

/-- What is there of a list. -/
def Redis.live (rdb : Redis) (key : String) (now : ℤ) : List ℤ :=
  match rdb key with
  | none => []
  | some list => if list.expireAt ≤ now then [] else list.items

/-- The expiry of both keys is the window of the handlers, in milliseconds. -/
def window (duration : ℤ) : ℤ := 1000 * duration

/-- `checkRedisRateLimit`. -/
def checkRedisRateLimit (rdb : Redis) (key : String) (maxCount : ℕ) (duration now : ℤ) : Bool × Redis :=
  if maxCount = 0 then (true, rdb)
  else if (rdb.live key now).length < maxCount then (true, rdb)
  else
    match (rdb.live key now).getLast? with
    | none => (false, rdb)
    | some oldTime =>
      if (now - oldTime).tdiv 1000 < duration then (false, rdb.put key ⟨rdb.live key now, now + window duration⟩)
      else (true, rdb)

/-- `recordRedisRequest`. -/
def recordRedisRequest (rdb : Redis) (key : String) (maxCount : ℕ) (duration now : ℤ) : Redis :=
  if maxCount = 0 then rdb else rdb.put key ⟨(now :: rdb.live key now).take maxCount, now + window duration⟩

/-! ## The handlers -/

/-- A request: when it begins and ends, whether its status is below 400, and the limit of its token's group. -/
structure ModelRequest where
  start   : ℤ
  finish  : ℤ
  success : Bool
  limit   : ℕ

def successKey (userID : String) : String := "MRRLS" ++ userID

def checkKey (userID : String) : String := successKey userID ++ "_check"

def redisSuccessKey (userID : String) : String := "rateLimit:MRRLS:" ++ userID

/-- `memoryRateLimitHandler`. -/
def memoryHandler (userID : String) (duration : ℤ) (store : LimiterStore) (r : ModelRequest) : Bool × LimiterStore :=
  let checked := limiterRequest store (checkKey userID) r.limit duration (unix r.start)
  if !checked.1 then (false, store)
  else if r.success then (true, (limiterRequest checked.2 (successKey userID) r.limit duration (unix r.finish)).2)
  else (true, checked.2)

/-- `redisRateLimitHandler`. -/
def redisHandler (userID : String) (duration : ℤ) (rdb : Redis) (r : ModelRequest) : Bool × Redis :=
  let checked := checkRedisRateLimit rdb (redisSuccessKey userID) r.limit duration r.start
  if !checked.1 then (false, checked.2)
  else if r.success then (true, recordRedisRequest checked.2 (redisSuccessKey userID) r.limit duration r.finish)
  else (true, checked.2)

/-! ## Histories -/

/-- What happens: a request of the user, or a turn of the cleaner. -/
inductive Move
  | request (r : ModelRequest)
  | sweep (now : ℤ)

def memoryRun (userID : String) (duration expiration : ℤ) : LimiterStore → List Move → List Bool
  | _, [] => []
  | store, .request r :: moves =>
    (memoryHandler userID duration store r).1 ::
      memoryRun userID duration expiration (memoryHandler userID duration store r).2 moves
  | store, .sweep now :: moves =>
    memoryRun userID duration expiration (clearExpiredItems store expiration (unix now)) moves

def redisRun (userID : String) (duration : ℤ) : Redis → List Move → List Bool
  | _, [] => []
  | rdb, .request r :: moves =>
    (redisHandler userID duration rdb r).1 :: redisRun userID duration (redisHandler userID duration rdb r).2 moves
  | rdb, .sweep _ :: moves => redisRun userID duration rdb moves

/-- Fewer than the limit succeeded within the window before the request; `0` is no limit. -/
def wanted (duration : ℤ) (succeeded : List ModelRequest) (r : ModelRequest) : Bool :=
  r.limit = 0 || succeeded.countP (fun a => r.start - a.finish < window duration) < r.limit

def afterRequest (duration : ℤ) (succeeded : List ModelRequest) (r : ModelRequest) : List ModelRequest :=
  if wanted duration succeeded r && r.success then succeeded ++ [r] else succeeded

def wantedRun (duration : ℤ) : List ModelRequest → List Move → List Bool
  | _, [] => []
  | succeeded, .request r :: moves =>
    wanted duration succeeded r :: wantedRun duration (afterRequest duration succeeded r) moves
  | succeeded, .sweep _ :: moves => wantedRun duration succeeded moves

/-- One move after the other. -/
def Sequential : ℤ → List Move → Prop
  | _, [] => True
  | clock, .request r :: moves => clock ≤ r.start ∧ r.start ≤ r.finish ∧ Sequential r.finish moves
  | clock, .sweep now :: moves => clock ≤ now ∧ Sequential now moves

/-- A request that both handlers see as it is: it has a limit, none below that of an earlier one that was admitted; it
succeeds if it is admitted; and it is as far from the second in which an earlier one began as from its end, as far as
the window goes. -/
def fitsRequest (duration : ℤ) (succeeded : List ModelRequest) (r : ModelRequest) : Bool :=
  0 < r.limit && (!wanted duration succeeded r || r.success) &&
    succeeded.all fun a =>
      a.limit ≤ r.limit && decide (unix r.start - unix a.start < duration) == decide (r.start - a.finish < window duration)

def Fits (duration : ℤ) : List ModelRequest → List Move → Prop
  | _, [] => True
  | succeeded, .request r :: moves =>
    fitsRequest duration succeeded r = true ∧ Fits duration (afterRequest duration succeeded r) moves
  | succeeded, .sweep _ :: moves => Fits duration succeeded moves

/-! ## Both queues -/

variable {userID : String} {duration expiration clock : ℤ} {succeeded : List ModelRequest} {r : ModelRequest}
  {store : LimiterStore} {rdb : Redis}

/-- The limit of the last admitted request. -/
def lastLimit (succeeded : List ModelRequest) : ℕ := (succeeded.getLast?.map ModelRequest.limit).getD 0

@[simp] theorem lastLimit_append (succeeded : List ModelRequest) (r : ModelRequest) :
    lastLimit (succeeded ++ [r]) = r.limit := by
  unfold lastLimit
  rw [getLast?_append]
  rfl

/-- The admitted requests stand in their order, all of them in the past. -/
structure Ordered (clock : ℤ) (succeeded : List ModelRequest) : Prop where
  sorted : succeeded.Pairwise fun a b => a.finish ≤ b.start
  lasts  : ∀ a ∈ succeeded, a.start ≤ a.finish
  past   : ∀ a ∈ succeeded, a.finish ≤ clock

theorem Ordered.later (h : Ordered clock succeeded) {clock' : ℤ} (hle : clock ≤ clock') : Ordered clock' succeeded :=
  ⟨h.sorted, h.lasts, fun a ha => Int.le_trans (h.past a ha) hle⟩

theorem Ordered.push (h : Ordered clock succeeded) (hstart : clock ≤ r.start) (hfinish : r.start ≤ r.finish) :
    Ordered r.finish (succeeded ++ [r]) := by
  refine ⟨?_, ?_, ?_⟩
  · rw [pairwise_append]
    refine ⟨h.sorted, pairwise_singleton _ _, fun a ha b hb => ?_⟩
    rw [mem_singleton.1 hb]
    have hpast := h.past a ha
    omega
  · intro a ha
    rcases mem_append.1 ha with ha | ha
    · exact h.lasts a ha
    · rw [mem_singleton.1 ha]
      exact hfinish
  · intro a ha
    rcases mem_append.1 ha with ha | ha
    · have hpast := h.past a ha
      omega
    · rw [mem_singleton.1 ha]

/-- Of the end of an ordered history the first began before the others and ended before them. -/
theorem Ordered.first (h : Ordered clock succeeded) {dead : ModelRequest → Prop} {bound : ℕ} {a : ModelRequest}
    {rest : List ModelRequest} (hkept : Kept dead bound succeeded (a :: rest)) :
    ∀ b ∈ rest, a.start ≤ b.start ∧ a.finish ≤ b.finish := by
  intro b hb
  obtain ⟨before, rfl, -⟩ := hkept.suffix
  have hpair := (pairwise_cons.1 (pairwise_append.1 h.sorted).2.1).1 b hb
  have ha := h.lasts a (mem_append_right _ mem_cons_self)
  have hb' := h.lasts b (mem_append_right _ (mem_cons_of_mem a hb))
  omega

/-- What `fitsRequest` says of the earlier requests. -/
theorem fits_limit (hfits : fitsRequest duration succeeded r = true) : lastLimit succeeded ≤ r.limit := by
  unfold fitsRequest at hfits
  simp only [Bool.and_eq_true, all_eq_true] at hfits
  unfold lastLimit
  cases hlast : succeeded.getLast? with
  | none => exact Nat.zero_le _
  | some a => exact of_decide_eq_true (hfits.2 a (mem_of_getLast? hlast)).1

theorem fits_edge (hfits : fitsRequest duration succeeded r = true) {a : ModelRequest} (ha : a ∈ succeeded) :
    unix r.start - unix a.start < duration ↔ r.start - a.finish < window duration := by
  unfold fitsRequest at hfits
  simp only [Bool.and_eq_true, all_eq_true] at hfits
  exact decide_eq_decide.1 (beq_iff_eq.1 (hfits.2 a ha).2)

theorem fits_success (hfits : fitsRequest duration succeeded r = true) (hwanted : wanted duration succeeded r = true) :
    r.success = true := by
  unfold fitsRequest at hfits
  simp only [Bool.and_eq_true, hwanted, Bool.not_true, Bool.false_or] at hfits
  exact hfits.1.2

theorem fits_positive (hfits : fitsRequest duration succeeded r = true) : 0 < r.limit := by
  unfold fitsRequest at hfits
  simp only [Bool.and_eq_true, decide_eq_true_eq] at hfits
  exact hfits.1.1

theorem fits_wanted (hfits : fitsRequest duration succeeded r = true) : wanted duration succeeded r = true ↔
      succeeded.countP (fun a => r.start - a.finish < window duration) < r.limit := by
  have hpos : r.limit ≠ 0 := Nat.pos_iff_ne_zero.1 (fits_positive hfits)
  unfold wanted
  simp [hpos]

/-! ## The memory handler -/

/-- At a time no later request will count it, by the seconds. -/
def oldInMemory (duration clock : ℤ) (a : ModelRequest) : Prop := duration ≤ unix clock - unix a.start

/-- The queue that is asked for admission holds the end of the history. -/
def MemoryOk (userID : String) (duration clock : ℤ) (succeeded : List ModelRequest) (store : LimiterStore) : Prop :=
  ∃ kept, Kept (oldInMemory duration clock) (lastLimit succeeded) succeeded kept ∧
    Queued (fun a : ModelRequest => unix a.start) store (checkKey userID) kept

theorem unix_le {x y : ℤ} (h : x ≤ y) : unix x ≤ unix y := Int.ediv_le_ediv (by decide) h

theorem checkKey_ne (userID : String) : checkKey userID ≠ successKey userID := by
  intro h
  have hlength := congrArg (fun s => s.toList.length) h
  unfold checkKey at hlength
  simp only [String.toList_append, length_append] at hlength
  have : "_check".toList.length = 6 := rfl
  omega

theorem memory_later {clock' : ℤ} (hle : clock ≤ clock') (h : MemoryOk userID duration clock succeeded store) :
    MemoryOk userID duration clock' succeeded store := by
  obtain ⟨kept, hkept, hqueued⟩ := h
  refine ⟨kept, hkept.mono fun a _ hdead => ?_, hqueued⟩
  have hunix := unix_le hle
  unfold oldInMemory at hdead ⊢
  omega

variable {kept : List ModelRequest}

/-- The end of an ordered history, by the seconds its requests began in. -/
theorem Ordered.seconds (h : Ordered clock succeeded) {dead : ModelRequest → Prop} {bound : ℕ}
    (hkept : Kept dead bound succeeded kept) :
    kept.Pairwise fun a b => unix a.start ≤ unix b.start := by
  obtain ⟨before, rfl, -⟩ := hkept.suffix
  refine (pairwise_append.1 h.sorted).2.1.imp_of_mem fun ha _ hle => ?_
  have hlasts := h.lasts _ (mem_append_right _ ha)
  exact unix_le (by omega)

/-- The cleaner takes away queues whose last entry is out of every window. -/
theorem memory_sweep {now : ℤ} (hexpiration : duration ≤ expiration) (hordered : Ordered clock succeeded)
    (hnow : clock ≤ now) (h : MemoryOk userID duration clock succeeded store) :
    MemoryOk userID duration now succeeded (clearExpiredItems store expiration (unix now)) := by
  obtain ⟨kept, hkept, hqueued⟩ := memory_later hnow h
  refine clearExpiredItems_queued hkept hqueued (fun a _ hexpired => ?_) (hordered.seconds hkept)
  unfold oldInMemory
  omega

/-- The memory handler admits a request that fits exactly if it is wanted, and its queue goes along. -/
theorem memory_step (hordered : Ordered clock succeeded) (hstart : clock ≤ r.start) (hfinish : r.start ≤ r.finish)
    (hfits : fitsRequest duration succeeded r = true) (h : MemoryOk userID duration clock succeeded store) :
    (memoryHandler userID duration store r).1 = wanted duration succeeded r ∧
      MemoryOk userID duration r.finish (afterRequest duration succeeded r) (memoryHandler userID duration store r).2 := by
  obtain ⟨kept, hkept, hqueued⟩ := memory_later hstart h
  have hlimit := fits_limit hfits
  have hpos := fits_positive hfits
  have hadmits : (limiterRequest store (checkKey userID) r.limit duration (unix r.start)).1 = true ↔
      wanted duration succeeded r = true := by
    rw [limiterRequest_admits hkept hqueued hlimit hpos (fun a _ hdead => hdead) ?_, fits_wanted hfits]
    · -- the seconds are on the same side of the window as the ends
      have hcount : succeeded.countP (fun a => unix r.start - unix a.start < duration) =
          succeeded.countP fun a => r.start - a.finish < window duration := by
        refine countP_congr fun a ha => ?_
        rw [decide_eq_true_eq, decide_eq_true_eq]
        exact fits_edge hfits ha
      rw [hcount]
    · intro a rest hcons
      have hsorted := hordered.seconds hkept
      rw [hcons] at hsorted
      exact (pairwise_cons.1 hsorted).1
  unfold memoryHandler afterRequest
  by_cases hwanted : wanted duration succeeded r = true
  · have hadmitted := hadmits.2 hwanted
    have hsuccess := fits_success hfits hwanted
    obtain ⟨kept', hkept', hqueued'⟩ := @limiterRequest_keeps _ _ _ _ _ _ _ _ _ _ _
      (oldInMemory duration r.start) r hkept hqueued hlimit (fun a _ hdead => hdead) (fun a _ hold => hold) rfl hpos hadmitted
    simp only [hadmitted, hwanted, hsuccess, Bool.not_true, Bool.and_self, Bool.false_eq_true, if_false, if_true]
    refine ⟨trivial, memory_later hfinish ⟨kept', ?_, ?_⟩⟩
    · rw [lastLimit_append]
      exact hkept'
    · unfold Queued
      rw [limiterRequest_other (checkKey_ne userID)]
      exact hqueued'
  · have hrejected := (Bool.not_eq_true _).mp (fun hadmitted => hwanted (hadmits.1 hadmitted))
    rw [Bool.not_eq_true] at hwanted
    simp only [hrejected, hwanted, Bool.not_false, Bool.false_and, Bool.false_eq_true, if_false, if_true]
    exact ⟨trivial, memory_later (Int.le_trans hstart hfinish) h⟩

/-! ## The Redis handler -/

/-- At a time no later request will count it, by its end. -/
def oldInRedis (duration clock : ℤ) (a : ModelRequest) : Prop := window duration ≤ clock - a.finish

/-- The list holds the end of the history, and does not expire before what is in it. -/
def RedisOk (userID : String) (duration clock : ℤ) (succeeded : List ModelRequest) (rdb : Redis) : Prop :=
  ∃ kept, Kept (oldInRedis duration clock) (lastLimit succeeded) succeeded kept ∧
    ((∃ expireAt, rdb (redisSuccessKey userID) = some ⟨(kept.map ModelRequest.finish).reverse, expireAt⟩ ∧
        ∀ a ∈ kept, a.finish + window duration ≤ expireAt) ∨
      (kept = [] ∧ rdb (redisSuccessKey userID) = none))

theorem redis_later {clock' : ℤ} (hle : clock ≤ clock') (h : RedisOk userID duration clock succeeded rdb) :
    RedisOk userID duration clock' succeeded rdb := by
  obtain ⟨kept, hkept, hlist⟩ := h
  refine ⟨kept, hkept.mono fun a _ hdead => ?_, hlist⟩
  unfold oldInRedis at hdead ⊢
  omega

/-- What is there of the list: an expired one held nothing that counts. -/
theorem redis_live (h : RedisOk userID duration clock succeeded rdb) :
    ∃ kept, Kept (oldInRedis duration clock) (lastLimit succeeded) succeeded kept ∧
      rdb.live (redisSuccessKey userID) clock = (kept.map ModelRequest.finish).reverse := by
  obtain ⟨kept, hkept, hlist⟩ := h
  rcases hlist with ⟨expireAt, hsome, hexpire⟩ | ⟨rfl, hnone⟩
  · by_cases hexpired : expireAt ≤ clock
    · refine ⟨[], hkept.forget fun a ha => ?_, ?_⟩
      · have hlasts := hexpire a ha
        unfold oldInRedis
        omega
      · unfold Redis.live
        rw [hsome]
        exact if_pos hexpired
    · refine ⟨kept, hkept, ?_⟩
      unfold Redis.live
      rw [hsome]
      exact if_neg hexpired
  · refine ⟨[], hkept, ?_⟩
    unfold Redis.live
    rw [hnone]
    rfl

/-- The look at the oldest entry is counting, at every time. -/
theorem redis_counts (hordered : Ordered clock succeeded) {now : ℤ} {limit : ℕ}
    (hlimit : lastLimit succeeded ≤ limit)
    (hkept : Kept (oldInRedis duration now) (lastLimit succeeded) succeeded kept) :
    (kept.length < limit ∨ kept.head?.any (fun a => decide (window duration ≤ now - a.finish)) = true) ↔
      succeeded.countP (fun a => now - a.finish < window duration) < limit := by
  rw [hkept.admits_iff hlimit (fun a _ hdead => decide_eq_true (show window duration ≤ now - a.finish from hdead)) ?_]
  · have hcount : succeeded.countP (fun a => !decide (window duration ≤ now - a.finish)) =
        succeeded.countP fun a => now - a.finish < window duration := by
      refine countP_congr fun a _ => ?_
      simp only [Bool.not_eq_true', decide_eq_false_iff_not, not_le, decide_eq_true_eq]
    rw [hcount]
  · intro a rest hcons hyoung b hb
    rw [hcons] at hkept
    have hends := (hordered.first hkept b hb).2
    rw [decide_eq_false_iff_not] at hyoung ⊢
    omega

theorem seconds_lt {elapsed : ℤ} (h : 0 ≤ elapsed) : elapsed.tdiv 1000 < duration ↔ elapsed < window duration := by
  rw [Int.tdiv_eq_ediv_of_nonneg h]
  unfold window
  omega

/-- The check: admitted if wanted, with nothing written; else the list gets a new expiry. -/
theorem check_eq (hordered : Ordered clock succeeded) (hstart : clock ≤ r.start)
    (hfits : fitsRequest duration succeeded r = true)
    (hkept : Kept (oldInRedis duration r.start) (lastLimit succeeded) succeeded kept)
    (hlive : rdb.live (redisSuccessKey userID) r.start = (kept.map ModelRequest.finish).reverse) :
    checkRedisRateLimit rdb (redisSuccessKey userID) r.limit duration r.start =
      if wanted duration succeeded r then (true, rdb)
      else (false, rdb.put (redisSuccessKey userID) ⟨(kept.map ModelRequest.finish).reverse, r.start + window duration⟩) := by
  have hpos := fits_positive hfits
  have hcounts := redis_counts hordered (fits_limit hfits) hkept
  rw [← fits_wanted hfits] at hcounts
  unfold checkRedisRateLimit
  rw [if_neg (by omega), hlive, length_reverse, length_map, getLast?_reverse, head?_map]
  by_cases hroom : kept.length < r.limit
  · rw [if_pos hroom, if_pos (hcounts.1 (Or.inl hroom))]
  · rw [if_neg hroom]
    cases hcons : kept with
    | nil =>
      rw [hcons] at hroom
      exact absurd hpos hroom
    | cons a rest =>
      subst hcons
      have hpast := hordered.past a (hkept.mem mem_cons_self)
      have hseconds : (r.start - a.finish).tdiv 1000 < duration ↔ r.start - a.finish < window duration :=
        seconds_lt (by omega)
      show (if (r.start - a.finish).tdiv 1000 < duration then _ else _) = _
      by_cases hyoung : r.start - a.finish < window duration
      · have hrejected : ¬ wanted duration succeeded r = true := by
          rw [← hcounts, not_or]
          exact ⟨hroom, by simpa using hyoung⟩
        rw [if_pos (hseconds.2 hyoung), if_neg hrejected]
      · have hold : window duration ≤ r.start - a.finish := by omega
        rw [if_neg (fun h => hyoung (hseconds.1 h)), if_pos (hcounts.1 (Or.inr (decide_eq_true hold)))]

/-- Recording a wanted request: the list takes it in, for an entry that does not count any more. -/
theorem record_ok (hordered : Ordered clock succeeded) (hfinish : r.start ≤ r.finish)
    (hpast : clock ≤ r.start) (hfits : fitsRequest duration succeeded r = true)
    (hwanted : wanted duration succeeded r = true) (h : RedisOk userID duration r.finish succeeded rdb) :
    RedisOk userID duration r.finish (succeeded ++ [r])
      (recordRedisRequest rdb (redisSuccessKey userID) r.limit duration r.finish) := by
  obtain ⟨kept, hkept, hlive⟩ := redis_live h
  have hpos := fits_positive hfits
  have hlimit := fits_limit hfits
  -- fewer count at its end than at its beginning
  have hroom : kept.length < r.limit ∨ kept.head?.any (fun a => decide (window duration ≤ r.finish - a.finish)) = true := by
    rw [redis_counts hordered hlimit hkept]
    refine Nat.lt_of_le_of_lt (countP_mono_left fun a _ hyoung => ?_) ((fits_wanted hfits).1 hwanted)
    have hyoung := of_decide_eq_true hyoung
    exact decide_eq_true (show r.start - a.finish < window duration by omega)
  have hrecord : ∀ kept', (r.finish :: (kept.map ModelRequest.finish).reverse).take r.limit =
        (kept'.map ModelRequest.finish).reverse →
      Kept (oldInRedis duration r.finish) r.limit (succeeded ++ [r]) kept' →
      RedisOk userID duration r.finish (succeeded ++ [r])
        (recordRedisRequest rdb (redisSuccessKey userID) r.limit duration r.finish) := by
    intro kept' htake hkept'
    refine ⟨kept', by rw [lastLimit_append]; exact hkept', Or.inl ⟨r.finish + window duration, ?_, fun a ha => ?_⟩⟩
    · unfold recordRedisRequest
      rw [if_neg (by omega), hlive, htake]
      exact if_pos rfl
    · have hends := (hordered.push hpast hfinish).past a (hkept'.mem ha)
      omega
  have hshort := hkept.short
  by_cases hlength : kept.length < r.limit
  · refine hrecord (kept ++ [r]) ?_ (hkept.push hlength)
    rw [take_of_length_le (by simp; omega), map_append, reverse_append]
    rfl
  · cases hcons : kept with
    | nil =>
      rw [hcons] at hlength
      exact absurd hpos hlength
    | cons a rest =>
      subst hcons
      rw [length_cons] at hlength hshort
      have hold : window duration ≤ r.finish - a.finish := by
        rcases hroom with hroom | hroom
        · rw [length_cons] at hroom
          omega
        · exact of_decide_eq_true hroom
      refine hrecord (rest ++ [r]) ?_ (hkept.shift hlimit hold)
      have hfull : r.limit = rest.length + 1 := by omega
      rw [hfull, take_succ_cons, map_cons, reverse_cons, take_left' (by simp), map_append, reverse_append]
      rfl

/-- The Redis handler admits a request that fits exactly if it is wanted, and its list goes along. -/
theorem redis_step (hordered : Ordered clock succeeded) (hstart : clock ≤ r.start) (hfinish : r.start ≤ r.finish)
    (hfits : fitsRequest duration succeeded r = true) (h : RedisOk userID duration clock succeeded rdb) :
    (redisHandler userID duration rdb r).1 = wanted duration succeeded r ∧
      RedisOk userID duration r.finish (afterRequest duration succeeded r) (redisHandler userID duration rdb r).2 := by
  have hatStart := redis_later hstart h
  obtain ⟨kept, hkept, hlive⟩ := redis_live hatStart
  have hcheck := check_eq hordered hstart hfits hkept hlive
  unfold redisHandler afterRequest
  by_cases hwanted : wanted duration succeeded r = true
  · have hsuccess := fits_success hfits hwanted
    rw [if_pos hwanted] at hcheck
    simp only [hcheck, hwanted, hsuccess, Bool.not_true, Bool.and_self, Bool.false_eq_true, if_false, if_true]
    exact ⟨trivial, record_ok hordered hfinish hstart hfits hwanted (redis_later hfinish hatStart)⟩
  · rw [if_neg hwanted] at hcheck
    rw [Bool.not_eq_true] at hwanted
    simp only [hcheck, hwanted, Bool.not_false, Bool.false_and, Bool.false_eq_true, if_false, if_true]
    refine ⟨trivial, redis_later hfinish ⟨kept, hkept, Or.inl ⟨_, if_pos rfl, fun a ha => ?_⟩⟩⟩
    have hpast := hordered.past a (hkept.mem ha)
    omega

/-! ## Whole histories -/

/-- One invariant of both handlers, from which a run goes on. -/
theorem runs_agree (hexpiration : duration ≤ expiration) :
    ∀ moves clock succeeded store rdb, Sequential clock moves → Fits duration succeeded moves →
      Ordered clock succeeded → MemoryOk userID duration clock succeeded store →
      RedisOk userID duration clock succeeded rdb →
      memoryRun userID duration expiration store moves = wantedRun duration succeeded moves ∧
        redisRun userID duration rdb moves = wantedRun duration succeeded moves := by
  intro moves
  induction moves with
  | nil => exact fun _ _ _ _ _ _ _ _ _ => ⟨rfl, rfl⟩
  | cons move moves ih =>
    intro clock succeeded store rdb hsequential hfits hordered hmemory hredis
    cases move with
    | request r =>
      obtain ⟨hstart, hfinish, hsequential⟩ := hsequential
      obtain ⟨hfits, hrest⟩ := hfits
      obtain ⟨hmemoryAdmits, hmemory⟩ := memory_step hordered hstart hfinish hfits hmemory
      obtain ⟨hredisAdmits, hredis⟩ := redis_step hordered hstart hfinish hfits hredis
      have hordered : Ordered r.finish (afterRequest duration succeeded r) := by
        unfold afterRequest
        split_ifs
        · exact hordered.push hstart hfinish
        · exact hordered.later (Int.le_trans hstart hfinish)
      obtain ⟨hmemoryRest, hredisRest⟩ := ih _ _ _ _ hsequential hrest hordered hmemory hredis
      unfold memoryRun redisRun wantedRun
      rw [hmemoryAdmits, hredisAdmits, hmemoryRest, hredisRest]
      exact ⟨rfl, rfl⟩
    | sweep now =>
      obtain ⟨hnow, hsequential⟩ := hsequential
      exact ih now succeeded _ rdb hsequential hfits (hordered.later hnow)
        (memory_sweep hexpiration hordered hnow hmemory) (redis_later hnow hredis)

/-- From empty stores, in every history whose requests fit, both handlers admit the same requests: those that are
wanted. -/
theorem admissions_agree (userID : String) (duration expiration clock : ℤ) (moves : List Move)
    (hexpiration : duration ≤ expiration) (hsequential : Sequential clock moves) (hfits : Fits duration [] moves) :
    memoryRun userID duration expiration (fun _ => none) moves = wantedRun duration [] moves ∧
      redisRun userID duration (fun _ => none) moves = wantedRun duration [] moves := by
  refine runs_agree hexpiration moves clock [] _ _ hsequential hfits ⟨List.Pairwise.nil, ?_, ?_⟩ ?_ ?_
  · exact fun a ha => absurd ha not_mem_nil
  · exact fun a ha => absurd ha not_mem_nil
  · exact ⟨[], Kept.nil _ _, Or.inr ⟨rfl, rfl⟩⟩
  · exact ⟨[], Kept.nil _ _, Or.inr ⟨rfl, rfl⟩⟩

/-- With a window of a minute and limit 1: one request, one too early, one after the window and the cleaner. -/
theorem admissions_agree_three : memoryRun "7" 60 60 (fun _ => none)
        [.request ⟨1000, 1000, true, 1⟩, .request ⟨31000, 32000, true, 1⟩, .sweep 62000, .request ⟨62000, 63000, true, 1⟩] =
      [true, false, true] ∧
    redisRun "7" 60 (fun _ => none)
        [.request ⟨1000, 1000, true, 1⟩, .request ⟨31000, 32000, true, 1⟩, .sweep 62000, .request ⟨62000, 63000, true, 1⟩] =
      [true, false, true] := by
  have hwanted : wantedRun 60 []
      [.request ⟨1000, 1000, true, 1⟩, .request ⟨31000, 32000, true, 1⟩, .sweep 62000, .request ⟨62000, 63000, true, 1⟩] =
      [true, false, true] := by decide +kernel
  rw [← hwanted]
  refine admissions_agree "7" 60 60 0 _ (by decide) ?_ ?_
  · simp only [Sequential]
    decide
  · simp only [Fits]
    decide +kernel

/-- Two requests that fail, with limit 1, in a minute: both are wanted and the Redis handler admits both, the memory
handler the first only. -/
theorem failed_requests_limited :
    wantedRun 60 [] [.request ⟨1000, 1000, false, 1⟩, .request ⟨2000, 2000, false, 1⟩] = [true, true] ∧
      redisRun "7" 60 (fun _ => none) [.request ⟨1000, 1000, false, 1⟩, .request ⟨2000, 2000, false, 1⟩] = [true, true] ∧
      memoryRun "7" 60 60 (fun _ => none) [.request ⟨1000, 1000, false, 1⟩, .request ⟨2000, 2000, false, 1⟩] =
        [true, false] := by
  decide +kernel

/-- Limit 0 is none, except in the memory handler after its first request. -/
example : memoryRun "7" 60 60 (fun _ => none) [.request ⟨1000, 1000, true, 0⟩, .request ⟨2000, 2000, true, 0⟩] =
    [true, false] := by
  decide +kernel

end NovaMaas.RateLimit
