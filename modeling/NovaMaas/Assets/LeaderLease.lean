/-
  At most one node leads the synchronization of assets.

  A live context is covered (`NodeSafe`): the row of the lock is its node's own, the lease is not over, and something
  cancels the context before it is, a callback that runs, a timer that is due before, or the loop that is about to set one.
  No other node can take the row meanwhile.  The step in which a loop takes its answer, and the time that passes until it
  has set its timer, are safe if the lease is not over by then (`Prompt`), and not of a loop that stalls (`late_leader`).
-/
import NovaMaas.Assets.SyncLeader

open List Option

namespace NovaMaas.Assets

/-! ## Seconds -/

theorem dbSeconds_mono {s t : ℕ} (h : s ≤ t) : dbSeconds s ≤ dbSeconds t := Nat.div_le_div_right h

theorem dbSeconds_add (s n : ℕ) : dbSeconds (s + n * second) = dbSeconds s + n :=
  Nat.add_mul_div_right s n (by decide)

/-! ## What covers a context -/

/-- The context will be cancelled in time. -/
inductive Covered (time lockedUntil : ℕ) (n : Node) (c : ℕ) : Prop where
  | callback (h : c ∈ n.callbacks)
  | timer (timer : ExpiryTimer) (h : n.expiry = some timer) (harmed : timer.fired = false) (hctx : timer.ctx = c)
      (hdue : dbSeconds (max time timer.fireAt) < lockedUntil)
  | setting (started u : ℕ) (h : n.phase = .setting started u)

structure NodeSafe (time : ℕ) (lock : Option SystemTaskLock) (owner : String) (n : Node) : Prop where
  own      : ∀ c ∈ n.live, n.leaderCtx = some c ∧ n.cancelLeader = some c
  covered  : ∀ c ∈ n.live, ∃ row, lock = some row ∧ row.lockedBy = owner ∧ dbSeconds time < row.lockedUntil ∧
    Covered time row.lockedUntil n c
  asking   : ∀ started, n.phase = .asking started → started ≤ time
  answered : ∀ started u, n.phase = .answered started (.held u) → dbSeconds (started + 27 * second) < u ∧
    (dbSeconds time < u → lock = some ⟨owner, u⟩)
  setting  : ∀ started u, n.phase = .setting started u → dbSeconds (started + 27 * second) < u ∧ dbSeconds time < u ∧
    lock = some ⟨owner, u⟩

/-- The lock is never held for longer than a lease. -/
def ShortLease (time : ℕ) (lock : Option SystemTaskLock) : Prop :=
  ∀ row, lock = some row → row.lockedUntil ≤ dbSeconds time + assetSyncLeaderSeconds

/-- The invariant of a run. -/
structure SafeWorld (w : SyncWorld) : Prop where
  nodes : ∀ owner ∈ w.runners, NodeSafe w.time w.lock owner (w.nodes owner)
  short : ShortLease w.time w.lock

/-- Two nodes with a live context would both have the lock. -/
theorem SafeWorld.exclusive {w : SyncWorld} (h : SafeWorld w) : Exclusive w := by
  intro a ha b hb hlivea hliveb
  obtain ⟨c, hc⟩ := exists_mem_of_ne_nil _ hlivea
  obtain ⟨d, hd⟩ := exists_mem_of_ne_nil _ hliveb
  obtain ⟨row, hrow, hbya, -⟩ := (h.nodes a ha).covered c hc
  obtain ⟨row', hrow', hbyb, -⟩ := (h.nodes b hb).covered d hd
  rw [hrow] at hrow'
  obtain rfl := some.inj hrow'
  exact hbya.symm.trans hbyb

/-! ## The other nodes -/

/-- A lease that is not over is not taken. -/
theorem tryHold_other {owner m : String} {now u : ℕ} (hne : owner ≠ m) (hu : now < u) :
    (tryHoldAssetSyncLeadership m now (some ⟨owner, u⟩)).1 = some ⟨owner, u⟩ := by
  unfold tryHoldAssetSyncLeadership
  by_cases hnow : now = 0
  · rw [if_pos hnow]
  · simp [hnow, hne, hu]

variable {owner : String}

/-- The own lease is renewed. -/
theorem tryHold_own {now : ℕ} (u : ℕ) (hnow : now ≠ 0) :
    (tryHoldAssetSyncLeadership owner now (some ⟨owner, u⟩)).1 = some ⟨owner, now + assetSyncLeaderSeconds⟩ := by
  unfold tryHoldAssetSyncLeadership
  simp [hnow]

variable {lock : Option SystemTaskLock} {n : Node} {time : ℕ}

theorem NodeSafe.other {owner m : String} (h : NodeSafe time lock owner n) (hne : owner ≠ m) :
    NodeSafe time (tryHoldAssetSyncLeadership m (dbSeconds time) lock).1 owner n where
  own := h.own
  covered := by
    intro c hc
    obtain ⟨⟨by_, u⟩, rfl, rfl, hu, hcovered⟩ := h.covered c hc
    rw [tryHold_other hne hu]
    exact ⟨⟨by_, u⟩, rfl, rfl, hu, hcovered⟩
  asking := h.asking
  answered := by
    intro started u hphase
    obtain ⟨htimer, hlock⟩ := h.answered started u hphase
    refine ⟨htimer, fun hu => ?_⟩
    rw [hlock hu, tryHold_other hne hu]
  setting := by
    intro started u hphase
    obtain ⟨htimer, hu, hlock⟩ := h.setting started u hphase
    refine ⟨htimer, hu, ?_⟩
    rw [hlock, tryHold_other hne hu]

/-! ## Time -/

theorem Covered.lockedUntil_le {time u u' : ℕ} {c : ℕ} (h : Covered time u n c) (hle : u ≤ u') :
    Covered time u' n c := by
  cases h with
  | callback h => exact .callback h
  | timer timer h harmed hctx hdue => exact .timer timer h harmed hctx (Nat.lt_of_lt_of_le hdue hle)
  | setting started u h => exact .setting started u h

/-- Time goes on as far as the timers, and a loop that is about to set one, allow. -/
theorem NodeSafe.advance {time elapsed : ℕ} (h : NodeSafe time lock owner n) (hallows : n.allows time elapsed = true)
    (hprompt : ∀ started u, n.phase = .setting started u → dbSeconds (time + elapsed) < u) :
    NodeSafe (time + elapsed) lock owner n := by
  unfold Node.allows at hallows
  rw [Bool.and_eq_true, Bool.or_eq_true, decide_eq_true_eq, decide_eq_true_eq] at hallows
  obtain ⟨hcallbacks, htimers⟩ := hallows
  refine ⟨h.own, ?_, ?_, ?_, ?_⟩
  · intro c hc
    obtain ⟨row, hrow, hby, hu, hcovered⟩ := h.covered c hc
    refine ⟨row, hrow, hby, ?_⟩
    cases hcovered with
    | callback hmem =>
      -- a callback that runs does not wait
      have hzero : elapsed = 0 := by
        rcases hcallbacks with hnil | hzero
        · rw [hnil] at hmem
          cases hmem
        · exact hzero
      rw [hzero, Nat.add_zero]
      exact ⟨hu, .callback hmem⟩
    | timer timer hexpiry harmed hctx hdue =>
      rw [hexpiry, all_some, harmed, Bool.false_or, decide_eq_true_eq] at htimers
      have hmax : max (time + elapsed) timer.fireAt ≤ max time timer.fireAt := by omega
      refine ⟨Nat.lt_of_le_of_lt (dbSeconds_mono htimers) hdue, .timer timer hexpiry harmed hctx ?_⟩
      exact Nat.lt_of_le_of_lt (dbSeconds_mono hmax) hdue
    | setting started u hphase =>
      obtain ⟨-, -, hlock⟩ := h.setting started u hphase
      rw [hrow] at hlock
      obtain rfl := some.inj hlock
      exact ⟨hprompt started u hphase, .setting started u hphase⟩
  · intro started hphase
    exact Nat.le_trans (h.asking started hphase) (Nat.le_add_right _ _)
  · intro started u hphase
    obtain ⟨htimer, hlock⟩ := h.answered started u hphase
    exact ⟨htimer, fun hu => hlock (Nat.lt_of_le_of_lt (dbSeconds_mono (Nat.le_add_right time elapsed)) hu)⟩
  · intro started u hphase
    obtain ⟨htimer, -, hlock⟩ := h.setting started u hphase
    exact ⟨htimer, hprompt started u hphase, hlock⟩

/-! ## The moves of a node -/

/-- A cancelled loop has no live context. -/
theorem NodeSafe.cancel_live (h : NodeSafe time lock owner n) : (n.cancel n.cancelLeader).live = [] := by
  unfold Node.cancel
  rw [filter_eq_nil_iff]
  intro c hc
  rw [(h.own c hc).2]
  simp

/-- A node without a live context that does not hold an answer. -/
theorem nodeSafe_of_idle (hlive : n.live = []) (hasking : ∀ started, n.phase = .asking started → started ≤ time)
    (hanswered : ∀ started u, n.phase ≠ .answered started (.held u))
    (hsetting : ∀ started u, n.phase ≠ .setting started u) : NodeSafe time lock owner n where
  own := fun c hc => by
    rw [hlive] at hc
    cases hc
  covered := fun c hc => by
    rw [hlive] at hc
    cases hc
  asking := hasking
  answered := fun started u hphase => absurd hphase (hanswered started u)
  setting := fun started u hphase => absurd hphase (hsetting started u)

/-- The contexts and what covers them are as they were; a loop that is not about to set a timer moves on. -/
theorem NodeSafe.of_phase {phase : LoopPhase} (h : NodeSafe time lock owner n)
    (hbefore : ∀ started u, n.phase ≠ .setting started u)
    (hasking : ∀ started, phase = .asking started → started ≤ time)
    (hanswered : ∀ started u, phase = .answered started (.held u) → dbSeconds (started + 27 * second) < u ∧
      (dbSeconds time < u → lock = some ⟨owner, u⟩))
    (hsetting : ∀ started u, phase ≠ .setting started u) : NodeSafe time lock owner { n with phase := phase } where
  own := h.own
  covered := by
    intro c hc
    obtain ⟨row, hrow, hby, hu, hcovered⟩ := h.covered c hc
    refine ⟨row, hrow, hby, hu, ?_⟩
    cases hcovered with
    | callback hmem => exact .callback hmem
    | timer timer hexpiry harmed hctx hdue => exact .timer timer hexpiry harmed hctx hdue
    | setting started u hphase => exact absurd hphase (hbefore started u)
  asking := hasking
  answered := hanswered
  setting := fun started u hphase => absurd hphase (hsetting started u)

/-- The own transaction keeps the lock, for longer than before. -/
theorem NodeSafe.own_lock (h : NodeSafe time lock owner n) (hshort : ShortLease time lock)
    (hbefore : ∀ started u, n.phase ≠ .setting started u) (hno : ∀ started u, n.phase ≠ .answered started (.held u)) :
    NodeSafe time (tryHoldAssetSyncLeadership owner (dbSeconds time) lock).1 owner n where
  own := h.own
  covered := by
    intro c hc
    obtain ⟨⟨by_, u⟩, rfl, rfl, hu, hcovered⟩ := h.covered c hc
    have hle : u ≤ dbSeconds time + assetSyncLeaderSeconds := hshort _ rfl
    by_cases hnow : dbSeconds time = 0
    · unfold tryHoldAssetSyncLeadership
      rw [if_pos hnow]
      exact ⟨⟨by_, u⟩, rfl, rfl, hu, hcovered⟩
    · rw [tryHold_own u hnow]
      refine ⟨_, rfl, rfl, ?_, hcovered.lockedUntil_le hle⟩
      exact Nat.lt_add_of_pos_right (by decide)
  asking := h.asking
  answered := fun started u hphase => absurd hphase (hno started u)
  setting := fun started u hphase => absurd hphase (hbefore started u)

/-- A timer that is stopped leaves the context as it is; with one that has fired the context is given up. -/
theorem stopExpiry_own (h : NodeSafe time lock owner n) :
    ∀ c ∈ n.stopExpiry.live, n.stopExpiry.leaderCtx = some c ∧ n.stopExpiry.cancelLeader = some c := by
  unfold Node.stopExpiry
  cases n.expiry with
  | none => exact h.own
  | some timer =>
    dsimp only
    by_cases hfired : timer.fired = true
    · rw [if_pos hfired]
      intro c hc
      have hnil := h.cancel_live
      change c ∈ (n.cancel n.cancelLeader).live at hc
      rw [hnil] at hc
      cases hc
    · rw [if_neg hfired]
      exact h.own

theorem ensureCtx_own (h : ∀ c ∈ n.live, n.leaderCtx = some c ∧ n.cancelLeader = some c) :
    ∀ c ∈ n.ensureCtx.live, n.ensureCtx.leaderCtx = some c ∧ n.ensureCtx.cancelLeader = some c := by
  unfold Node.ensureCtx
  by_cases husable : n.leaderCtx.any (fun ctx => n.live.contains ctx) = true
  · rw [if_pos husable]
    exact h
  · rw [if_neg husable]
    intro c hc
    rcases mem_append.1 hc with hc | hc
    · -- a live context could be used
      refine absurd ?_ husable
      rw [(h c hc).1]
      simpa using hc
    · obtain rfl := mem_singleton.1 hc
      exact ⟨rfl, rfl⟩

/-- The answer of a lease that is not over is taken. -/
theorem NodeSafe.take_held {time started u : ℕ} (h : NodeSafe time lock owner n)
    (hphase : n.phase = .answered started (.held u)) (hu : dbSeconds time < u) :
    NodeSafe time lock owner (n.take started (.held u)) := by
  obtain ⟨htimer, hlock⟩ := h.answered started u hphase
  refine ⟨ensureCtx_own (stopExpiry_own h), ?_, ?_, ?_, ?_⟩
  · intro c _
    exact ⟨⟨owner, u⟩, hlock hu, rfl, hu, .setting started u rfl⟩
  · exact fun started' heq => by cases heq
  · exact fun started' u' heq => by cases heq
  · intro started' u' heq
    cases heq
    exact ⟨htimer, hu, hlock hu⟩

/-- The timer is due before the end of the lease. -/
theorem NodeSafe.setExpiry {time started u : ℕ} (h : NodeSafe time lock owner n)
    (hphase : n.phase = .setting started u) :
    NodeSafe time lock owner (n.setExpiry started) := by
  obtain ⟨htimer, hu, hlock⟩ := h.setting started u hphase
  have hdue : dbSeconds (max time (started + 27 * second)) < u := by
    rcases Nat.le_total time (started + 27 * second) with hle | hle
    · rw [Nat.max_eq_right hle]
      exact htimer
    · rw [Nat.max_eq_left hle]
      exact hu
  refine ⟨h.own, ?_, ?_, ?_, ?_⟩
  · intro c hc
    refine ⟨⟨owner, u⟩, hlock, rfl, hu, .timer ⟨c, started + 27 * second, false⟩ ?_ rfl rfl hdue⟩
    show n.cancelLeader.map _ = _
    rw [(h.own c hc).2]
    rfl
  · exact fun started' heq => by cases heq
  · exact fun started' u' heq => by cases heq
  · exact fun started' u' heq => by cases heq

/-- A timer that fires leaves its context to its callback. -/
theorem NodeSafe.fire {timer : ExpiryTimer} (h : NodeSafe time lock owner n) (hexpiry : n.expiry = some timer) :
    NodeSafe time lock owner
      { n with expiry := some { timer with fired := true }, callbacks := n.callbacks ++ [timer.ctx] } := by
  refine ⟨h.own, ?_, h.asking, h.answered, h.setting⟩
  intro c hc
  obtain ⟨row, hrow, hby, hu, hcovered⟩ := h.covered c hc
  refine ⟨row, hrow, hby, hu, ?_⟩
  cases hcovered with
  | callback hmem => exact .callback (mem_append_left _ hmem)
  | timer _ hexpiry' _ hctx =>
    rw [hexpiry] at hexpiry'
    obtain rfl := some.inj hexpiry'
    exact .callback (mem_append_right _ (by rw [hctx]; exact mem_cons_self))
  | setting started u hphase => exact .setting started u hphase

/-- A callback cancels its own context and no other. -/
theorem NodeSafe.callback {time ctx : ℕ} {rest : List ℕ} (h : NodeSafe time lock owner n)
    (hcallbacks : n.callbacks = ctx :: rest) :
    NodeSafe time lock owner { n.cancel (some ctx) with callbacks := rest } := by
  have hmem : ∀ c ∈ (n.cancel (some ctx)).live, c ∈ n.live ∧ c ≠ ctx := by
    intro c hc
    obtain ⟨hc, hne⟩ := mem_filter.1 hc
    refine ⟨hc, ?_⟩
    rintro rfl
    simp at hne
  refine ⟨fun c hc => h.own c (hmem c hc).1, ?_, h.asking, h.answered, h.setting⟩
  intro c hc
  obtain ⟨hlive, hne⟩ := hmem c hc
  obtain ⟨row, hrow, hby, hu, hcovered⟩ := h.covered c hlive
  refine ⟨row, hrow, hby, hu, ?_⟩
  cases hcovered with
  | callback hmem =>
    rw [hcallbacks, mem_cons] at hmem
    exact .callback (hmem.resolve_left hne)
  | timer timer hexpiry harmed hctx hdue => exact .timer timer hexpiry harmed hctx hdue
  | setting started u hphase => exact .setting started u hphase

/-- The timer of a lease that is asked for now is due before its end. -/
theorem lease_outlasts {started time : ℕ} (h : started ≤ time) :
    dbSeconds (started + 27 * second) < dbSeconds time + assetSyncLeaderSeconds := by
  rw [dbSeconds_add]
  have hmono := dbSeconds_mono h
  show _ < _ + 30
  omega

/-- What an answer that holds the lock says. -/
theorem tryHold_held {now u : ℕ} (h : (tryHoldAssetSyncLeadership owner now lock).2 = .held u) :
    u = now + assetSyncLeaderSeconds ∧ (tryHoldAssetSyncLeadership owner now lock).1 = some ⟨owner, u⟩ := by
  unfold tryHoldAssetSyncLeadership at h ⊢
  by_cases hnow : now = 0
  · rw [if_pos hnow] at h
    cases h
  · rw [if_neg hnow] at h ⊢
    dsimp only at h ⊢
    split at h
    · cases h
    · next hfree =>
      cases h
      rw [if_neg hfree]
      exact ⟨rfl, rfl⟩

theorem ShortLease.tryHold (owner : String) (h : ShortLease time lock) :
    ShortLease time (tryHoldAssetSyncLeadership owner (dbSeconds time) lock).1 := by
  unfold tryHoldAssetSyncLeadership
  by_cases hnow : dbSeconds time = 0
  · rw [if_pos hnow]
    exact h
  · rw [if_neg hnow]
    intro row hrow
    dsimp only at hrow
    split at hrow
    · cases hrow
      cases lock with
      | none => exact Nat.zero_le _
      | some row => exact h row rfl
    · cases hrow
      exact Nat.le_refl _

/-- The transaction of the node itself. -/
theorem NodeSafe.commit {time started : ℕ} {answer : LeaderAnswer} (h : NodeSafe time lock owner n)
    (hshort : ShortLease time lock) (hphase : n.phase = .asking started)
    (hanswer : answer = (tryHoldAssetSyncLeadership owner (dbSeconds time) lock).2 ∨ answer = .failed) :
    NodeSafe time (tryHoldAssetSyncLeadership owner (dbSeconds time) lock).1 owner
      { n with phase := .answered started answer } := by
  have hlock := h.own_lock hshort (by simp [hphase]) (by simp [hphase])
  refine hlock.of_phase (by simp [hphase]) (fun started' heq => by cases heq) ?_ (fun started' u heq => by cases heq)
  intro started' u heq
  cases heq
  rcases hanswer with hheld | hfailed
  · obtain ⟨rfl, hrow⟩ := tryHold_held hheld.symm
    exact ⟨lease_outlasts (h.asking started hphase), fun _ => hrow⟩
  · cases hfailed

/-! ## A loop that does not stall -/

/-- A timer that is about to be set is set in time. -/
def LoopPhase.setBefore (time : ℕ) : LoopPhase → Bool
  | .setting _ lockedUntil => dbSeconds time < lockedUntil
  | _ => true

/-- An answer is taken in time. -/
def LoopPhase.takenBefore (time : ℕ) : LoopPhase → Bool
  | .answered _ (.held lockedUntil) => dbSeconds time < lockedUntil
  | _ => true

/-- No lease ends between its answer and its timer. -/
def Prompt (w : SyncWorld) : LeaderMove → Bool
  | .advance elapsed => w.runners.all fun owner => (w.nodes owner).phase.setBefore (w.time + elapsed)
  | .take owner => (w.nodes owner).phase.takenBefore w.time
  | _ => true

/-- No move of a run is late. -/
def AllPrompt (w : SyncWorld) : List LeaderMove → Bool
  | [] => true
  | move :: moves => Prompt w move && (w.step move).all fun w' => AllPrompt w' moves

/-- A node that takes a step stays safe, and nothing but its transaction changes the lock. -/
theorem NodeSafe.step {w : SyncWorld} {move : LeaderMove} {r : Node × Option SystemTaskLock}
    (h : NodeSafe w.time w.lock owner n) (hshort : ShortLease w.time w.lock) (howner : move.owner = some owner)
    (hprompt : ∀ owner, move = .take owner → n.phase.takenBefore w.time = true) (hstep : n.step w move = some r) :
    NodeSafe w.time r.2 owner r.1 ∧
      (r.2 = w.lock ∨ r.2 = (tryHoldAssetSyncLeadership owner (dbSeconds w.time) w.lock).1) := by
  cases move with
  | advance => cases howner
  | ask =>
    obtain ⟨⟨hphase, -⟩, hstep⟩ := ite_none_right_eq_some.1 hstep
    cases hstep
    refine ⟨h.of_phase (by simp [hphase]) ?_ (by simp) (by simp), .inl rfl⟩
    intro started heq
    cases heq
    exact Nat.le_refl _
  | commit m arrives =>
    obtain rfl : m = owner := some.inj howner
    dsimp only [Node.step] at hstep
    split at hstep <;> cases hstep
    rename_i hphase
    refine ⟨h.commit hshort hphase ?_, .inr rfl⟩
    cases arrives with
    | true => exact .inl rfl
    | false => exact .inr rfl
  | rollback =>
    dsimp only [Node.step] at hstep
    split at hstep <;> cases hstep
    rename_i hphase
    exact ⟨h.of_phase (by simp [hphase]) (by simp) (by simp) (by simp), .inl rfl⟩
  | take m =>
    have htaken := hprompt m rfl
    dsimp only [Node.step] at hstep
    split at hstep <;> cases hstep
    rename_i answer hphase
    rw [hphase] at htaken
    refine ⟨?_, .inl rfl⟩
    cases answer with
    | held => exact h.take_held hphase (of_decide_eq_true htaken)
    | notHeld | failed =>
      exact nodeSafe_of_idle h.cancel_live (fun s heq => by cases heq) (fun s u heq => by cases heq)
        (fun s u heq => by cases heq)
  | setExpiry =>
    dsimp only [Node.step] at hstep
    split at hstep <;> cases hstep
    rename_i hphase
    exact ⟨h.setExpiry hphase, .inl rfl⟩
  | fire =>
    dsimp only [Node.step] at hstep
    split at hstep
    · obtain ⟨-, hstep⟩ := ite_none_right_eq_some.1 hstep
      cases hstep
      rename_i hexpiry
      exact ⟨h.fire hexpiry, .inl rfl⟩
    · cases hstep
  | callback =>
    dsimp only [Node.step] at hstep
    split at hstep <;> cases hstep
    rename_i hcallbacks
    exact ⟨h.callback hcallbacks, .inl rfl⟩
  | stop =>
    obtain ⟨-, hstep⟩ := ite_none_right_eq_some.1 hstep
    cases hstep
    refine ⟨nodeSafe_of_idle h.cancel_live (fun s heq => by cases heq) (fun s u heq => by cases heq)
      (fun s u heq => by cases heq), .inl rfl⟩

/-- One step that is not late. -/
theorem SafeWorld.step {w w' : SyncWorld} {move : LeaderMove} (h : SafeWorld w) (hprompt : Prompt w move = true)
    (hstep : w.step move = some w') : SafeWorld w' := by
  cases howner : move.owner with
  | none =>
    cases move with
    | advance elapsed =>
      obtain ⟨hallows, hstep⟩ := ite_none_right_eq_some.1 hstep
      cases hstep
      constructor
      · intro owner howner
        refine (h.nodes owner howner).advance (all_eq_true.1 hallows owner howner) ?_
        intro started u hphase
        have hset := all_eq_true.1 hprompt owner howner
        rw [hphase] at hset
        exact of_decide_eq_true hset
      · intro row hrow
        have hle : dbSeconds w.time ≤ dbSeconds (w.time + elapsed) := dbSeconds_mono (Nat.le_add_right _ _)
        exact Nat.le_trans (h.short row hrow) (Nat.add_le_add_right hle _)
    | ask | commit | rollback | take | setExpiry | fire | callback | stop => cases howner
  | some owner =>
    have hstep' : (if owner ∈ w.runners then
        ((w.nodes owner).step w move).map fun r => { w.setNode owner r.1 with lock := r.2 } else none) = some w' := by
      cases move with
      | advance => cases howner
      | ask | commit | rollback | take | setExpiry | fire | callback | stop =>
        cases howner
        exact hstep
    obtain ⟨hmem, hstep'⟩ := ite_none_right_eq_some.1 hstep'
    obtain ⟨r, hr, rfl⟩ := map_eq_some_iff.1 hstep'
    have htake : ∀ m, move = .take m → (w.nodes owner).phase.takenBefore w.time = true := by
      rintro m rfl
      cases howner
      exact hprompt
    obtain ⟨hself, hlock⟩ := (h.nodes owner hmem).step h.short howner htake hr
    constructor
    · intro m hm
      show NodeSafe w.time r.2 m (Function.update w.nodes owner r.1 m)
      by_cases hne : m = owner
      · subst hne
        rw [Function.update_self]
        exact hself
      · rw [Function.update_of_ne hne]
        rcases hlock with hlock | hlock
        · rw [hlock]
          exact h.nodes m hm
        · rw [hlock]
          exact (h.nodes m hm).other hne
    · show ShortLease w.time r.2
      rcases hlock with hlock | hlock
      · rw [hlock]
        exact h.short
      · rw [hlock]
        exact h.short.tryHold owner

theorem SafeWorld.start (runners : List String) (time : ℕ) : SafeWorld (SyncWorld.start runners time) where
  nodes := fun owner _ => nodeSafe_of_idle rfl (fun s heq => by cases heq) (fun s u heq => by cases heq)
    (fun s u heq => by cases heq)
  short := fun row hrow => by cases hrow

/-- Every state of a run in which no move is late. -/
theorem SafeWorld.run {w w' : SyncWorld} {moves : List LeaderMove} (h : SafeWorld w) (hprompt : AllPrompt w moves = true)
    (hrun : w.run moves = some w') : SafeWorld w' := by
  induction moves generalizing w with
  | nil =>
    cases hrun
    exact h
  | cons move moves ih =>
    obtain ⟨w₁, hstep, hrun⟩ := bind_eq_some_iff.1 hrun
    have hprompt' : (Prompt w move && (w.step move).all fun w' => AllPrompt w' moves) = true := hprompt
    rw [hstep, all_some, Bool.and_eq_true] at hprompt'
    exact ih (h.step hprompt'.1 hstep) hprompt'.2 hrun

/-- At no moment do two nodes have a live context, if no lease ends between its answer and its timer. -/
theorem exclusive_of_prompt (runners : List String) (time : ℕ) (moves : List LeaderMove) (w' : SyncWorld)
    (hprompt : AllPrompt (SyncWorld.start runners time) moves = true)
    (hrun : (SyncWorld.start runners time).run moves = some w') : Exclusive w' :=
  ((SafeWorld.start runners time).run hprompt hrun).exclusive

/-- `a` leads and is renewed while its old timer fires, and `b` asks meanwhile. -/
def renewedLeader : List LeaderMove :=
  [.ask "a", .commit "a" true, .take "a", .setExpiry "a", .ask "b", .commit "b" true, .take "b", .advance (27 * second),
    .ask "a", .fire "a", .commit "a" true, .take "a", .callback "a", .setExpiry "a", .ask "b", .commit "b" true, .take "b"]

theorem exclusive_renewed : ∃ w', (SyncWorld.start ["a", "b"] second).run renewedLeader = some w' ∧ Exclusive w' := by
  have hsome : ((SyncWorld.start ["a", "b"] second).run renewedLeader).isSome = true := by decide +kernel
  obtain ⟨w', hrun⟩ := isSome_iff_exists.1 hsome
  exact ⟨w', hrun, exclusive_of_prompt ["a", "b"] second renewedLeader w' (by decide +kernel) hrun⟩

/-- The lease of `a` is over before its loop gets a context; `b` leads then. -/
def stalledLeader : List LeaderMove :=
  [.ask "a", .commit "a" true, .advance (30 * second), .ask "b", .commit "b" true, .take "b", .setExpiry "b", .take "a"]

theorem late_leader : ¬ ∀ (runners : List String) (time : ℕ) (moves : List LeaderMove) (w' : SyncWorld),
    (SyncWorld.start runners time).run moves = some w' → Exclusive w' := by
  intro h
  have htwo : ((SyncWorld.start ["a", "b"] second).run stalledLeader).any (fun w =>
      w.runners = ["a", "b"] ∧ (w.nodes "a").live = [0] ∧ (w.nodes "b").live = [0]) = true := by decide +kernel
  obtain ⟨w', hrun, hlive⟩ := (any_eq_true _ _).1 htwo
  obtain ⟨hrunners, hlivea, hliveb⟩ := of_decide_eq_true hlive
  have heq := h ["a", "b"] second stalledLeader w' hrun "a" (by simp [hrunners]) "b" (by simp [hrunners])
    (by simp [hlivea]) (by simp [hliveb])
  exact absurd heq (by decide)

end NovaMaas.Assets
