/-
  A revoked session is never reported as active again, as long as its tombstone gets into the cache.

  A revocation ends with a sealed session (`Sealed`, SessionSpec), or one that has expired.  A read of it finds either a
  deny state or no hash, and then the row, which is marked revoked (`getUserSessionCached_shut`).

  Two things can go wrong, and `TombstoneLands` excludes them.  The tombstone can be refused: `RevokeUserSession` and the
  replay branch of the rotation publish it with the version the row had when they FIRST read it.  If the deny state has
  expired before the transaction, an advance to a new user version may have stored an active snapshot with a higher
  version in between.  The script keeps it, the refusal is only logged, and the revocation returns success
  (`revoked_but_active`).  And a revocation that finds the row marked returns at once, though the tombstone of the call
  that marked it is still to come (`pending_but_active`).
-/
import NovaMaas.Auth.SessionSpec

open List Option

namespace NovaMaas.Auth

open Interleave Prog.Keeps SessionWorld

/-- If the session is marked revoked, it is sealed. -/
def SealedIfMarked (w : SessionWorld) (sid : String) : Prop := (w.history.closedAt sid).isSome → Sealed w sid

/-- The sessions that a bulk revocation of this user is to revoke. -/
def SessionWorld.InScope (w : SessionWorld) (userID : ℕ) (excluded sid : String) : Prop :=
  (∃ r, w.sessions.get? sid = some r ∧ r.userID = userID) ∧ (excluded = "" ∨ sid ≠ excluded)

/-- A tombstone made from the row as it was first read meets no higher version in the cache.  And where a revocation
leaves a row alone that another call has marked revoked, the session is sealed: the tombstone is not pending any more. -/
def TombstoneLands : SessionOp → SessionWorld → Prop
  | .publish .readTombstone entry _, w => w.liveVersion entry.sid ≤ entry.version
  | .find sid _, w => SealedIfMarked w sid
  | .revokeOne sid _ _ _, w => SealedIfMarked w sid
  | .findMany userID now excluded, w => revokeCandidates userID now excluded w = [] →
      ∀ s ∈ w.sessions.rows, s.userID = userID → excluded = "" ∨ s.sid ≠ excluded → SealedIfMarked w s.sid
  | _, _ => True

instance (w : SessionWorld) (sid : String) : Decidable (SealedIfMarked w sid) := inferInstanceAs (Decidable (_ → _))

instance : ∀ (op : SessionOp) (w : SessionWorld), Decidable (TombstoneLands op w)
  | .publish .readTombstone entry _, w => inferInstanceAs (Decidable (w.liveVersion entry.sid ≤ entry.version))
  | .find sid _, w => inferInstanceAs (Decidable (SealedIfMarked w sid))
  | .revokeOne sid _ _ _, w => inferInstanceAs (Decidable (SealedIfMarked w sid))
  | .findMany userID now excluded, w => inferInstanceAs (Decidable (revokeCandidates userID now excluded w = [] →
      ∀ s ∈ w.sessions.rows, s.userID = userID → excluded = "" ∨ s.sid ≠ excluded → SealedIfMarked w s.sid))
  | .publish .snapshot _ _, _ | .publish .fence _ _, _ | .publish .lockedTombstone _ _, _ => isTrue trivial
  | .read, _ | .wait _, _ | .insert _, _ | .load _ _ _, _ | .exchange _ _ _ _ _ _ _, _ | .revokeReused _ _ _, _
  | .revokeByHash _ _ _ _, _ | .revokeMany _ _ _, _ | .advance _ _ _ _ _ _, _ => isTrue trivial

/-- With `lands`, only runs are looked at whose tombstones land; without, all runs. -/
def sessionProtocol (lands : Prop) : Protocol SessionCall SessionOp SessionWorld :=
  .plain SessionOp.exec (fun op w => lands → TombstoneLands op w) SessionInv SessionLater SessionLater.refl
    SessionLater.trans

variable {α β : Type} {w v : SessionWorld} {lands : Prop} {κ : ℕ × SessionCall} {call : ℕ}

variable {report : SessionWorld → α} {f : α → SessionM β}

theorem keeps_granted {Q : Except SessionError β → SessionWorld → Prop} {op : SessionOp} (hfit : ∀ v, op.Fits v)
    (h : ∀ v, SessionLater w v → SessionInv v → (lands → TombstoneLands op v) →
      (f (report v)).run.Keeps (sessionProtocol lands) κ Q (op.exec v)) :
    (Prog.query op report >>= f).run.Keeps (sessionProtocol lands) κ Q w := by
  refine run_query_bind fun v hv hinv hok => ?_
  obtain ⟨hinv', hlater⟩ := SessionOp.later hinv (hfit v)
  exact ⟨hinv', hlater, h v hv hinv hok⟩

theorem keeps_statement {Q : Except SessionError β → SessionWorld → Prop} {op : SessionOp} (hfit : ∀ v, op.Fits v)
    (h : ∀ v, SessionLater w v → SessionInv v → (f (report v)).run.Keeps (sessionProtocol lands) κ Q (op.exec v)) :
    (Prog.query op report >>= f).run.Keeps (sessionProtocol lands) κ Q w :=
  keeps_granted hfit fun v hv hinv _ => h v hv hinv

/-- A read sees the world and leaves it alone. -/
theorem keeps_read {Q : Except SessionError β → SessionWorld → Prop}
    (h : ∀ v, SessionLater w v → SessionInv v → (f (report v)).run.Keeps (sessionProtocol lands) κ Q v) :
    (Prog.query .read report >>= f).run.Keeps (sessionProtocol lands) κ Q w :=
  keeps_statement (fun _ => trivial) h

theorem keeps_failIf {c : Prop} [Decidable c] {e : SessionError} {f : Unit → SessionM β}
    {Q : Except SessionError β → SessionWorld → Prop} (herr : ∀ v, Q (.error e) v)
    (h : ¬ c → (f ()).run.Keeps (sessionProtocol lands) κ Q w) :
    (Prog.failIf c e >>= f).run.Keeps (sessionProtocol lands) κ Q w :=
  run_failIf_bind (fun _ v _ _ => herr v) h

/-! ## What a call knows of the row it read -/

/-- The entry was made from the row of its session. -/
def Snapshot (e : SessionInfo) (w : SessionWorld) : Prop :=
  ∃ r, w.sessions.get? e.sid = some r ∧ r.expiresAt = e.expiresAt ∧ e.version ≤ r.version

theorem Snapshot.mono {e : SessionInfo} (h : Snapshot e w) (hwv : SessionLater w v) : Snapshot e v := by
  obtain ⟨r, hr, hexp, hver⟩ := h
  obtain ⟨r', hr', hle⟩ := hwv.rows _ r hr
  exact ⟨r', hr', hle.expiresAt.trans hexp, hver.trans hle.version⟩

variable {sid : String}

theorem snapshot_of_row {r : UserSession} (hr : w.sessions.get? sid = some r) : Snapshot r.toSessionInfo w := by
  have hsid := sid_of_get? hr
  rw [← hsid] at hr
  exact ⟨r, hr, rfl, le_rfl⟩

/-- The deadline was taken before the session was marked revoked, whenever that will be. -/
def InTime (sid : String) (deadline : ℕ) (w : SessionWorld) : Prop :=
  ∀ v, SessionLater w v → ∀ t, v.history.closedAt sid = some t → deadline ≤ t + 1000 * v.cacheSeconds

theorem InTime.mono {d : ℕ} (h : InTime sid d w) (hwv : SessionLater w v) : InTime sid d v :=
  fun u hvu => h u (hwv.trans hvu)

/-- A session that is open now is marked revoked later. -/
theorem inTime_of_open {d : ℕ} (hopen : w.history.closedAt sid = none)
    (hd : d ≤ w.userSessionCacheDeadline) : InTime sid d w := by
  intro v hwv t ht
  have hlate := hwv.closedNew sid t hopen ht
  have hd : d ≤ w.now + 1000 * w.cacheSeconds := hd
  rw [hwv.seconds]
  omega

/-! ## Publishing -/

/-- Whatever this is, it is not the verdict that a refresh token was replayed. -/
def NoReuse (r : Except SessionError α) : Prop := r ≠ .error .refreshReuse

variable {entry : SessionInfo}

variable {kind : Publish}

theorem writeUserSessionCache_active {deadline : ℕ} (hactive : entry.status = .active)
    (hsnap : Snapshot entry w) (htime : InTime entry.sid deadline w) :
    (writeUserSessionCache kind entry (some deadline)).run.Keeps (sessionProtocol lands) κ
      (fun r _ => NoReuse r) w := by
  unfold writeUserSessionCache
  refine keeps_read fun a ha _ => ?_
  rw [if_pos hactive]
  refine keeps_failIf (fun _ h => by cases h) fun _ => ?_
  refine keeps_failIf (fun _ h => by cases h) fun _ => ?_
  refine run_attempt_bind fun b hb hbinv _ => ?_
  have hfit : EntryFits b entry (.deadline (min deadline (1000 * entry.expiresAt))) := by
    obtain ⟨r, hr, hexp, hver⟩ := hsnap.mono (ha.trans hb)
    refine ⟨⟨r, hr, hexp, hver⟩, ?_, fun ms h => by cases h⟩
    intro ms h
    obtain rfl := Expiry.deadline.inj h
    refine ⟨hactive, ?_⟩
    intro t r' ht hr'
    rw [hr] at hr'
    obtain rfl := some.inj hr'
    have hin := htime b (ha.trans hb) t ht
    unfold lastFill
    rw [hexp]
    omega
  refine ⟨publish_inv hbinv hfit, publish_later hbinv hfit, ?_, ?_⟩
  swap
  · intro e he _ _ _ h
    obtain rfl := Except.error.inj h
    split at he <;> cases he
  intro _ _
  refine keeps_read fun _ _ _ => ?_
  refine keeps_failIf (fun _ h => by cases h) fun _ => ?_
  exact run_failIf (fun _ _ _ _ h => by cases h) fun _ _ _ _ h => by cases h

/-- A deny state.  It is published or refused, and `Q` has to follow from the publish. -/
theorem writeUserSessionCache_deny {Q : SessionWorld → Prop} (hdeny : entry.status ≠ .active)
    (hsnap : Snapshot entry w)
    (hQ : ∀ v ms, SessionLater w v → SessionInv v → EntryFits v entry (.after ms) →
      (lands → TombstoneLands (.publish kind entry (.after ms)) v) →
      ∀ u, SessionLater (v.publish entry (.after ms)) u → Q u) :
    (writeUserSessionCache kind entry none).run.Keeps (sessionProtocol lands) κ
      (fun r u => (r = .ok () ∨ r = .error .inactive) ∧ Q u) w := by
  unfold writeUserSessionCache
  refine keeps_read fun a ha _ => ?_
  rw [if_neg hdeny]
  refine keeps_read fun b hb _ => ?_
  refine run_attempt fun c hc hcinv hlands => ?_
  have hwc : SessionLater w c := (ha.trans hb).trans hc
  have hfit : EntryFits c entry (.after (b.denyTTL entry.expiresAt a.now)) := by
    obtain ⟨r, hr, hexp, hver⟩ := hsnap.mono hwc
    refine ⟨⟨r, hr, hexp, hver⟩, (fun ms h => by cases h), ?_⟩
    intro ms h
    obtain rfl := Expiry.after.inj h
    refine ⟨hdeny, ?_⟩
    intro r' hr'
    rw [hr] at hr'
    obtain rfl := some.inj hr'
    rw [hexp]
    exact denyTTL_long (hb.now.trans hc.now) hc.seconds
  refine ⟨publish_inv hcinv hfit, publish_later hcinv hfit, fun u hu _ => ⟨?_, hQ c _ hwc hcinv hfit hlands u hu⟩⟩
  split
  · exact Or.inr rfl
  · exact Or.inl rfl

theorem writeUserSessionCache_fence (hdeny : entry.status ≠ .active) (hsnap : Snapshot entry w) :
    (writeUserSessionCache kind entry none).run.Keeps (sessionProtocol lands) κ
      (fun r _ => r = .ok () ∨ r = .error .inactive) w := by
  have hpublish : (writeUserSessionCache kind entry none).run.Keeps (sessionProtocol lands) κ
      (fun r _ => (r = .ok () ∨ r = .error .inactive) ∧ True) w :=
    writeUserSessionCache_deny hdeny hsnap fun _ _ _ _ _ _ _ _ => trivial
  exact hpublish.weaken fun _ _ _ h => h.1

/-- A deny state with the version of the hash, or a higher one, is not refused. -/
theorem not_refuses (hdeny : entry.status ≠ .active)
    (hversion : v.liveVersion entry.sid ≤ entry.version) : ¬ v.refuses entry := by
  unfold refuses
  unfold liveVersion at hversion
  cases h : v.live entry.sid with
  | none => simp
  | some hash =>
    rw [h] at hversion
    have hle : hash.entry.version ≤ entry.version := hversion
    simp [hdeny, hle]

/-- The tombstone of a session that was marked revoked seals it, if the cache takes it. -/
theorem writeUserSessionCache_tombstone {t : ℕ} (hdeny : entry.status ≠ .active)
    (hsnap : Snapshot entry w) (hclosed : w.history.closedAt entry.sid = some t)
    (hlands : ∀ v ms, SessionLater w v → SessionInv v → (lands → TombstoneLands (.publish kind entry (.after ms)) v) →
      v.liveVersion entry.sid ≤ entry.version) :
    (writeUserSessionCache kind entry none).run.Keeps (sessionProtocol lands) κ (fun _ u => Sealed u entry.sid) w := by
  refine (writeUserSessionCache_deny hdeny hsnap ?_).weaken fun _ _ _ h => h.2
  intro v ms hv hvinv hfit hok u hu
  have hversion := hlands v ms hv hvinv hok
  exact hu.sealed _ (sealed_of_deny hvinv hfit (not_refuses hdeny hversion) (hv.closed _ t hclosed))

theorem confirm_keeps (s : SessionInfo) :
    (confirmUserSessionActiveSnapshot s).run.Keeps (sessionProtocol lands) κ (fun r _ => NoReuse r) w := by
  unfold confirmUserSessionActiveSnapshot
  refine keeps_failIf (fun _ h => by cases h) fun _ => ?_
  refine keeps_read fun _ _ _ => ?_
  refine run_attempt fun v _ hv _ => ⟨hv, SessionLater.refl v, fun _ _ _ h => ?_⟩
  split at h <;> cases h

variable {s : UserSession}

theorem publishSnapshot_keeps {deadline : ℕ} (hactive : s.status = .active) (hsnap : Snapshot s.toSessionInfo w)
    (htime : InTime s.sid deadline w) :
    (publishSnapshot s deadline).run.Keeps (sessionProtocol lands) κ (fun r _ => NoReuse r) w := by
  unfold publishSnapshot
  refine run_outcome_bind ((writeUserSessionCache_active hactive hsnap htime).weaken ?_)
  intro r v _ _
  cases r with
  | ok => exact run_pure fun _ _ _ h => by cases h
  | error e =>
    cases e with
    | observationStale => exact confirm_keeps _
    | inactive => exact run_throw fun _ _ _ h => by cases h
    | _ => exact run_pure fun _ _ _ h => by cases h

/-! ## Creating, reading, advancing -/

theorem deadline_mono (h : SessionLater w v) : w.userSessionCacheDeadline ≤ v.userSessionCacheDeadline := by
  unfold userSessionCacheDeadline
  rw [h.seconds]
  exact Nat.add_le_add_right h.now _

/-- The row of a new session. -/
theorem inserted (hw : SessionInv w) (hnone : w.sessions.get? s.sid = none) :
    (w.insert s).sessions.get? s.sid = some s ∧ (w.insert s).history.closedAt s.sid = none := by
  have hinsert : w.insert s = w.putRow s := by
    unfold SessionWorld.insert
    rw [hnone]
  rw [hinsert]
  refine ⟨Table.get?_put_self _ _, ?_⟩
  show w.history.closedAt s.sid = none
  cases hc : w.history.closedAt s.sid with
  | none => rfl
  | some t =>
    obtain ⟨-, r, hr, -⟩ := hw.closed _ t hc
    rw [hnone] at hr
    cases hr

theorem createUserSession_keeps (session : UserSession) :
    (createUserSession session).run.Keeps (sessionProtocol lands) κ (fun _ _ => True) w := by
  unfold createUserSession
  refine keeps_read fun a _ _ => ?_
  refine keeps_failIf (fun _ => trivial) fun _ => ?_
  refine keeps_failIf (fun _ => trivial) fun hstatus => ?_
  obtain ⟨hactive, hopen⟩ : session.status = .active ∧ session.revokedAt = 0 := by
    simpa only [not_or, not_not] using hstatus
  refine keeps_read fun b _ _ => ?_
  refine run_attempt_bind fun c hc hcinv _ => ?_
  obtain ⟨hinv, hlater⟩ := insert_later (s := session.withDefaults a.unix) hcinv ⟨hactive, hopen⟩
  refine ⟨hinv, hlater, ?_, fun _ _ _ _ _ => trivial⟩
  intro _ hok
  have hnone : c.sessions.get? session.sid = none := by
    by_contra hsome
    rw [if_pos (isSome_iff_ne_none.mpr hsome)] at hok
    cases hok
  have hfresh : c.sessions.get? (session.withDefaults a.unix).sid = none := hnone
  obtain ⟨hrow, hopen⟩ := inserted hcinv hfresh
  have htime : InTime session.sid b.userSessionCacheDeadline (c.insert (session.withDefaults a.unix)) :=
    inTime_of_open hopen ((deadline_mono hc).trans (deadline_mono hlater))
  have hpublish : (publishSnapshot (session.withDefaults a.unix) b.userSessionCacheDeadline).run.Keeps
      (sessionProtocol lands) κ (fun r _ => NoReuse r) (c.insert (session.withDefaults a.unix)) :=
    publishSnapshot_keeps hactive (snapshot_of_row hrow) htime
  exact hpublish.weaken fun _ _ _ _ => trivial

variable {Q : Except SessionError SessionInfo → SessionWorld → Prop}

section Cached

variable (sid : String) (hQ : ∀ v e, Q (.error e) v)
  (hcache : ∀ v, SessionLater w v → SessionInv v → ∀ h, v.live sid = some h → ∀ u, SessionLater v u →
    h.entry.Usable u.unix → ∀ x, SessionLater u x → Q (.ok h.entry) x)
  (hrow : ∀ v s, SessionLater w v → SessionInv v → v.sessions.get? sid = some s → ∀ u, SessionLater v u →
    s.Usable u.unix → ∀ x, SessionLater u x → Q (.ok s.toSessionInfo) x)

include hQ

include hcache in
theorem getUserSessionCache_keeps :
    (getUserSessionCache sid).run.Keeps (sessionProtocol lands) κ Q w := by
  unfold getUserSessionCache
  refine keeps_read fun a ha hainv => ?_
  cases hlive : a.live sid with
  | none => exact run_throw fun v _ _ => hQ v _
  | some h =>
    refine keeps_failIf (fun v => hQ v _) fun _ => ?_
    refine run_attempt fun b hb hbinv _ => ⟨hbinv, SessionLater.refl b, fun u hu _ => ?_⟩
    by_cases husable : h.entry.Usable b.unix
    · rw [if_pos husable]
      exact hcache a ha hainv h hlive b hb husable u hu
    · rw [if_neg husable]
      exact hQ u _

include hrow

/-- What the row tells when the cache does not: `Q` must hold of any usable row. -/
theorem hydrateSession_keeps :
    (hydrateSession sid).run.Keeps (sessionProtocol lands) κ Q w := by
  unfold hydrateSession
  refine keeps_read fun a ha _ => ?_
  refine keeps_read fun b hb hbinv => ?_
  cases hs : b.sessions.get? sid with
  | none => exact run_throw fun v _ _ => hQ v _
  | some s =>
    refine keeps_read fun c hc hcinv => ?_
    have hsnap : Snapshot s.toSessionInfo b := snapshot_of_row hs
    split
    · rename_i husable
      have hsid := sid_of_get? hs
      have hopen : b.history.closedAt s.sid = none := by
        rw [hsid]
        exact hbinv.not_closed hs husable.1
      have htime : InTime s.sid a.userSessionCacheDeadline b := inTime_of_open hopen (deadline_mono hb)
      have hpublish : (publishSnapshot s a.userSessionCacheDeadline).run.Keeps (sessionProtocol lands) κ
          (fun r _ => NoReuse r) c :=
        publishSnapshot_keeps husable.1 (hsnap.mono hc) (htime.mono hc)
      refine run_bind ((hpublish.and_rel fun u hu => hu).weaken ?_)
      intro r u _ hu
      cases r with
      | error => exact fun x _ _ => hQ x _
      | ok =>
        refine run_pure fun x hx _ => ?_
        exact hrow b s (ha.trans hb) hbinv hs c hc husable x (hu.2.trans hx)
    · have hdeny : (s.toSessionInfo.withStatus .revoked).status ≠ .active := by
        show SessionStatus.revoked ≠ .active
        decide
      refine run_outcome_bind ((writeUserSessionCache_fence hdeny (hsnap.mono hc)).weaken ?_)
      intro r u _ _
      exact run_throw fun x _ _ => hQ x _

include hcache in
theorem getUserSessionCached_keeps :
    (getUserSessionCached sid).run.Keeps (sessionProtocol lands) κ Q w := by
  unfold getUserSessionCached
  refine keeps_failIf (fun v => hQ v _) fun _ => ?_
  have hread : (getUserSessionCache sid).run.Keeps (sessionProtocol lands) κ
      (fun r v => (∀ e, r = .ok e → ∀ u, SessionLater v u → Q (.ok e) u) ∧ SessionLater w v) w := by
    refine and_rel (getUserSessionCache_keeps sid ?_ ?_) fun v hv => hv
    · intro v e x hx
      cases hx
    · intro v hv hvinv h hlive u hu husable x hx e he y hy
      obtain rfl := Except.ok.inj he
      exact hcache v hv hvinv h hlive u hu husable y (hx.trans hy)
  refine run_outcome_bind (hread.weaken ?_)
  intro r v _ hr
  have hfallback : (hydrateSession sid).run.Keeps (sessionProtocol lands) κ Q v :=
    hydrateSession_keeps sid hQ fun u s hu => hrow u s (hr.2.trans hu)
  cases r with
  | ok e => exact run_pure fun u hu _ => hr.1 e rfl u hu
  | error e =>
    cases e with
    | inactive => exact run_throw fun u _ _ => hQ u _
    | _ => exact hfallback

end Cached

/-- **A session that is sealed or has expired is not reported as active.** -/
theorem getUserSessionCached_shut (hshut : Shut w sid) :
    (getUserSessionCached sid).run.Keeps (sessionProtocol lands) κ (fun r _ => ∀ e, r ≠ .ok e) w := by
  refine getUserSessionCached_keeps sid ?_ ?_ ?_
  · intro v e x hx
    cases hx
  · intro v hv hvinv h hlive u hu husable
    rcases hshut.mono hv with ⟨-, -, -, -, hdenied, -⟩ | ⟨r, hr, hexpired⟩
    · exact absurd husable.1 (hdenied h hlive)
    · obtain ⟨r', hr', hexp, -⟩ := hvinv.behind sid h (live_eq_some.mp hlive).1
      rw [hr] at hr'
      obtain rfl := some.inj hr'
      have hlate := hexpired.trans (unix_mono hu.now)
      rw [hexp] at hlate
      exact absurd husable.2.2 (not_lt.mpr hlate)
  · intro v s hv hvinv hs u hu husable
    rcases hshut.mono hv with ⟨t, -, ht, -⟩ | ⟨r, hr, hexpired⟩
    · rw [hvinv.not_closed hs husable.1] at ht
      cases ht
    · rw [hr] at hs
      obtain rfl := some.inj hs
      exact absurd husable.2.2 (not_lt.mpr (hexpired.trans (unix_mono hu.now)))

variable (userID now : ℕ) (excluded reason : String)

theorem advanceUserSessionAuthVersion_keeps (sid : String) (version uav next : ℕ) :
    (advanceUserSessionAuthVersion userID sid version uav next).run.Keeps (sessionProtocol lands) κ (fun _ _ => True) w := by
  unfold advanceUserSessionAuthVersion
  refine keeps_failIf (fun _ => trivial) fun _ => ?_
  refine keeps_read fun a _ _ => ?_
  refine keeps_read fun b hb _ => ?_
  refine run_attempt_bind fun c hc hcinv _ => ?_
  obtain ⟨hinv, hlater⟩ := advance_later hcinv sid userID b.unix version uav next
  refine ⟨hinv, hlater, ?_, fun _ _ _ _ _ => trivial⟩
  intro s hs
  cases hadv : c.advancedRow sid userID b.unix version uav next with
  | none =>
    rw [hadv] at hs
    cases hs
  | some s' =>
    rw [hadv] at hs
    obtain rfl := Except.ok.inj hs
    obtain ⟨old, hwrite⟩ := rowWrite_advance hadv
    have hrow : (c.advance sid userID b.unix version uav next).sessions.get? s'.sid = some s' := by
      rw [hwrite.sid]
      exact hwrite.get_self
    have hactive : s'.status = .active := by
      obtain ⟨r, -, hr, rfl⟩ := advancedRow_eq_some hadv
      exact hr
    have htime : InTime s'.sid a.userSessionCacheDeadline (c.advance sid userID b.unix version uav next) :=
      inTime_of_open (hinv.not_closed hrow hactive) (deadline_mono ((hb.trans hc).trans hlater))
    refine run_outcome_bind
      ((writeUserSessionCache_active hactive (snapshot_of_row hrow) htime).weaken ?_)
    intro r v _ _
    cases r with
    | ok => exact run_pure fun _ _ _ => trivial
    | error e =>
      cases e with
      | observationStale =>
        refine run_bind ((confirm_keeps _).weaken ?_)
        intro r u _ _
        cases r with
        | ok => exact run_pure fun _ _ _ => trivial
        | error => exact fun _ _ _ => trivial
      | _ => exact run_throw fun _ _ _ => trivial

/-! ## Revoking -/

/-- The row as a revocation marked it. -/
theorem revokeOne_closed {userID now : ℕ} (h : (w.revocable sid userID now).isSome) :
    ∃ t, (w.revokeOne sid userID now reason).history.closedAt sid = some t := by
  obtain ⟨s, hs⟩ := isSome_iff_exists.mp h
  obtain ⟨hrow, -⟩ := revocable_eq_some hs
  refine ⟨w.now, ?_⟩
  unfold revokeOne
  rw [hs, ← sid_of_get? hrow]
  exact Function.update_self _ _ _

/-- A tombstone made from a row that was read earlier: it lands because the run grants it. -/
theorem readTombstone_keeps {now t : ℕ} {reason : String} (hsnap : Snapshot s.toSessionInfo w)
    (hclosed : w.history.closedAt s.sid = some t) :
    (writeUserSessionCache .readTombstone (s.revoke now reason).toSessionInfo none).run.Keeps (sessionProtocol lands) κ
      (fun _ u => lands → Sealed u s.sid) w := by
  have hdeny : (s.revoke now reason).status ≠ .active := by
    show SessionStatus.revoked ≠ .active
    decide
  by_cases hlands : lands
  · have htomb : (writeUserSessionCache .readTombstone (s.revoke now reason).toSessionInfo none).run.Keeps
        (sessionProtocol lands) κ (fun _ u => Sealed u s.sid) w :=
      writeUserSessionCache_tombstone hdeny hsnap hclosed fun v ms _ _ hok => hok hlands
    exact htomb.weaken fun _ _ _ h _ => h
  · exact (writeUserSessionCache_fence hdeny hsnap).weaken fun _ _ _ _ h => absurd h hlands

/-- A tombstone made from the locked row: nothing in the cache is ahead of it. -/
theorem lockedTombstone_keeps {now t : ℕ} {reason : String}
    (hrow : w.sessions.get? s.sid = some (s.revoke now reason)) (hclosed : w.history.closedAt s.sid = some t) :
    (writeUserSessionCache .lockedTombstone (s.revoke now reason).toSessionInfo none).run.Keeps (sessionProtocol lands) κ
      (fun _ u => Sealed u s.sid) w := by
  have hdeny : (s.revoke now reason).status ≠ .active := by
    show SessionStatus.revoked ≠ .active
    decide
  refine writeUserSessionCache_tombstone hdeny (snapshot_of_row hrow) hclosed ?_
  intro v ms hv hvinv _
  obtain ⟨r, hr, hle⟩ := hv.rows _ _ hrow
  have hsame : r = s.revoke now reason := hle.closed hdeny
  unfold liveVersion
  cases hlive : v.live (s.revoke now reason).sid with
  | none => exact Nat.zero_le _
  | some h =>
    obtain ⟨hcache, -⟩ := live_eq_some.mp hlive
    obtain ⟨r', hr', -, hbehind⟩ := hvinv.behind _ h hcache
    have hr : v.sessions.get? (s.revoke now reason).sid = some r := hr
    rw [hr] at hr'
    obtain rfl := some.inj hr'
    rw [hsame] at hbehind
    exact hbehind

theorem denyFence_keeps {now : ℕ} {reason : String} (hsnap : Snapshot s.toSessionInfo w) :
    (writeUserSessionDenyFence s.toSessionInfo now reason).run.Keeps (sessionProtocol lands) κ
      (fun r u => (r = .ok () ∨ r = .error .inactive) ∧ SessionLater w u) w := by
  have hdeny : (denied s.toSessionInfo .revoking now reason).status ≠ .active := by
    show SessionStatus.revoking ≠ .active
    decide
  exact (writeUserSessionCache_fence hdeny hsnap).and_rel fun u hu => hu

/-- A row that a revocation finds unusable is sealed, where the run grants that, or it has expired. -/
theorem shut_of_unusable (hw : SessionInv w) (hrow : w.sessions.get? sid = some s) {now : ℕ} (hnow : now ≤ w.unix)
    (h : ¬ s.Usable now) (hok : lands → SealedIfMarked w sid) (hlands : lands) : Shut w sid := by
  rcases hw.unusable hrow h with hmarked | hexpired
  · exact Or.inl (hok hlands hmarked)
  · exact Or.inr ⟨s, hrow, hexpired.trans hnow⟩

theorem ofUser_later {userID : ℕ} (h : (w.ofUser sid userID).isSome) (hwv : SessionLater w v) :
    ∃ r, v.ofUser sid userID = some r := by
  obtain ⟨r, hr⟩ := isSome_iff_exists.mp h
  obtain ⟨hget, huser⟩ := ofUser_eq_some hr
  obtain ⟨r', hr', hle⟩ := hwv.rows sid r hget
  exact ⟨r', filter_eq_some_iff.mpr ⟨hr', decide_eq_true (hle.userID.trans huser)⟩⟩

/-- What has returned without an error has shut the session, if it revoked it itself or found it. -/
theorem revokeUserSession_keeps (sid reason : String) :
    (revokeUserSession userID sid reason).run.Keeps (sessionProtocol lands) κ
      (fun r u => ∀ revoked, r = .ok revoked → revoked = true ∨ (w.ofUser sid userID).isSome → lands → Shut u sid) w := by
  unfold revokeUserSession
  refine keeps_failIf (fun _ _ h => by cases h) fun _ => ?_
  refine keeps_read fun a ha _ => ?_
  refine keeps_granted (fun _ => trivial) fun b hb hbinv hbok => ?_
  show Prog.Keeps _ _ _ _ b
  cases hrow : b.ofUser sid userID with
  | none =>
    refine run_pure fun _ _ _ revoked h hscope => ?_
    obtain rfl := Except.ok.inj h
    obtain ⟨r, hr⟩ := ofUser_later (hscope.resolve_left Bool.false_ne_true) (ha.trans hb)
    rw [hrow] at hr
    cases hr
  | some candidate =>
    obtain ⟨hget, huser⟩ := ofUser_eq_some hrow
    obtain rfl := sid_of_get? hget
    have hsnap : Snapshot candidate.toSessionInfo b := snapshot_of_row hget
    have hnow : a.unix ≤ b.unix := unix_mono hb.now
    simp only
    split
    · refine run_bind ((denyFence_keeps hsnap).weaken ?_)
      rintro r c _ ⟨-, hbc⟩
      cases r with
      | error => exact fun _ _ _ _ h => by cases h
      | ok =>
        refine keeps_granted (fun _ => trivial) fun d hd hdinv hdok => ?_
        split
        · rename_i hrevoked
          obtain ⟨t, ht⟩ := revokeOne_closed reason hrevoked
          obtain ⟨-, hlater⟩ := revokeOne_later hdinv candidate.sid userID a.unix reason
          have hsnap' := hsnap.mono ((hbc.trans hd).trans hlater)
          refine run_outcome_bind ((readTombstone_keeps hsnap' ht).weaken ?_)
          intro _ u _ hsealed
          exact run_pure fun x hx _ _ _ _ h => Or.inl (hx.sealed _ (hsealed h))
        · -- another call has marked the row since
          rename_i hrevoked
          obtain ⟨r, hr, hle⟩ := (hbc.trans hd).rows _ _ hget
          have hunusable : ¬ r.Usable a.unix := by
            intro husable
            refine hrevoked (isSome_iff_exists.mpr ⟨r, ?_⟩)
            unfold revocable ofUser
            rw [hr]
            exact filter_eq_some_iff.mpr ⟨filter_eq_some_iff.mpr ⟨rfl, decide_eq_true (hle.userID.trans huser)⟩,
              decide_eq_true husable⟩
          have hlate : a.unix ≤ d.unix := hnow.trans (unix_mono (hbc.trans hd).now)
          obtain ⟨-, hlater⟩ := revokeOne_later hdinv candidate.sid userID a.unix reason
          refine run_pure fun x hx _ _ _ _ hlands => ?_
          exact (shut_of_unusable hdinv hr hlate hunusable hdok hlands).mono (hlater.trans hx)
    · rename_i hunusable
      exact run_pure fun x hx _ _ _ _ hlands => (shut_of_unusable hbinv hget hnow hunusable hbok hlands).mono hx

/-- The row that logging out leaves. -/
theorem revokeByHash_closed {sid presented reason : String} {now : ℕ} (h : w.logoutTarget sid presented now = some s)
    (href : ¬ w.refuses (denied s.toSessionInfo .revoking now reason)) :
    (w.revokeByHash sid presented now reason).sessions.get? s.sid = some (s.revoke now reason) ∧
      ∃ t, (w.revokeByHash sid presented now reason).history.closedAt s.sid = some t := by
  unfold revokeByHash
  rw [h]
  simp only [href]
  exact ⟨Table.get?_put_self _ _, _, Function.update_self _ _ _⟩

theorem revokeUserSessionByRefreshHash_keeps (sid presented reason : String) :
    (revokeUserSessionByRefreshHash sid presented reason).run.Keeps (sessionProtocol lands) κ
      (fun r u => r = .ok true → Sealed u sid) w := by
  unfold revokeUserSessionByRefreshHash
  refine keeps_failIf (fun _ h => by cases h) fun _ => ?_
  refine keeps_read fun a _ _ => ?_
  refine run_attempt_bind fun b _ hbinv _ => ?_
  obtain ⟨hinv, hlater⟩ := revokeByHash_later hbinv sid presented a.unix reason
  refine ⟨hinv, hlater, ?_, fun _ _ _ _ _ h => by cases h⟩
  intro target htarget
  cases htgt : b.logoutTarget sid presented a.unix with
  | none =>
    rw [htgt] at htarget
    obtain rfl := Except.ok.inj htarget
    exact run_pure fun _ _ _ h => by cases h
  | some s =>
    rw [htgt] at htarget
    by_cases href : b.refuses (denied s.toSessionInfo .revoking a.unix reason)
    · simp only [href, if_true] at htarget
      cases htarget
    · simp only [href] at htarget
      obtain rfl := Except.ok.inj htarget
      obtain ⟨hget, -⟩ := logoutTarget_eq_some htgt
      obtain rfl := sid_of_get? hget
      obtain ⟨hrow, t, ht⟩ := revokeByHash_closed htgt href
      refine run_outcome_bind ((lockedTombstone_keeps hrow ht).weaken ?_)
      intro _ u _ hsealed
      exact run_pure fun x hx _ _ => hx.sealed _ hsealed

theorem denyAll_keeps : ∀ (batch : List UserSession) (w : SessionWorld), (∀ s ∈ batch, Snapshot s.toSessionInfo w) →
      (denyAll now reason batch).run.Keeps (sessionProtocol lands) κ (fun _ _ => True) w := by
  intro batch
  induction batch with
  | nil => exact fun w _ => run_pure fun _ _ _ => trivial
  | cons s _ ih =>
    intro w hsnap
    unfold denyAll
    refine run_bind ((denyFence_keeps (hsnap s mem_cons_self)).weaken ?_)
    rintro r v _ ⟨-, hv⟩
    cases r with
    | error => exact fun _ _ _ => trivial
    | ok => exact ih v fun x hx => (hsnap x (mem_cons_of_mem _ hx)).mono hv

/-- The tombstones of a batch seal every session of it. -/
theorem buryAll_keeps : ∀ (batch : List UserSession) (w : SessionWorld),
    (∀ s ∈ batch, w.sessions.get? s.sid = some (s.revoke now reason) ∧ (w.history.closedAt s.sid).isSome) →
      (buryAll now reason batch).run.Keeps (sessionProtocol lands) κ (fun _ u => ∀ s ∈ batch, Sealed u s.sid) w := by
  intro batch
  induction batch with
  | nil => exact fun w _ => run_pure fun _ _ _ _ h => absurd h not_mem_nil
  | cons s batch ih =>
    intro w hclosed
    obtain ⟨hrow, hsome⟩ := hclosed s mem_cons_self
    obtain ⟨t, ht⟩ := isSome_iff_exists.mp hsome
    unfold buryAll
    have htomb : (writeUserSessionCache .lockedTombstone (s.revoke now reason).toSessionInfo none).run.Keeps
        (sessionProtocol lands) κ (fun _ u => Sealed u s.sid ∧ SessionLater w u) w :=
      (lockedTombstone_keeps hrow ht).and_rel fun u hu => hu
    refine run_outcome_bind (htomb.weaken ?_)
    rintro _ v _ ⟨hsealed, hv⟩
    have hrest : ∀ x ∈ batch, v.sessions.get? x.sid = some (x.revoke now reason) ∧
        (v.history.closedAt x.sid).isSome := by
      intro x hx
      obtain ⟨hxrow, hxsome⟩ := hclosed x (mem_cons_of_mem _ hx)
      obtain ⟨tx, htx⟩ := isSome_iff_exists.mp hxsome
      obtain ⟨r, hr, hle⟩ := hv.rows _ _ hxrow
      have hsame : r = x.revoke now reason := by
        refine hle.closed ?_
        show SessionStatus.revoked ≠ .active
        decide
      exact ⟨hsame ▸ hr, isSome_of_eq_some (hv.closed _ tx htx)⟩
    refine ((ih v hrest).and_rel fun u hu => hu).weaken ?_
    rintro _ u _ ⟨hbatch, hu⟩ x hx
    rcases mem_cons.mp hx with rfl | hx
    · exact hu.sealed _ hsealed
    · exact hbatch x hx

/-- The candidates of a batch are rows of the table. -/
theorem revokeCandidates_rows {userID now : ℕ} {excluded : String} :
    ∀ s ∈ revokeCandidates userID now excluded w, Snapshot s.toSessionInfo w := by
  intro s hs
  have hsort := mem_of_mem_take hs
  rw [(perm_insertionSort _ _).mem_iff] at hsort
  have hmem := (mem_filter.mp hsort).1
  exact snapshot_of_row (Table.get?_of_mem hmem)

theorem SessionWorld.InScope.mono {userID : ℕ} {excluded : String} (h : w.InScope userID excluded sid)
    (hwv : SessionLater w v) :
    v.InScope userID excluded sid := by
  obtain ⟨⟨r, hr, huser⟩, hkept⟩ := h
  obtain ⟨r', hr', hle⟩ := hwv.rows sid r hr
  exact ⟨⟨r', hr', hle.userID.trans huser⟩, hkept⟩

/-- Where a bulk revocation finds no candidates, every session of its scope is shut. -/
theorem shut_of_no_candidates (hw : SessionInv w) {userID now : ℕ} {excluded : String} (hnow : now ≤ w.unix)
    (hok : lands → TombstoneLands (.findMany userID now excluded) w) (hlands : lands)
    (hnone : revokeCandidates userID now excluded w = []) (hscope : w.InScope userID excluded sid) : Shut w sid := by
  obtain ⟨⟨r, hr, huser⟩, hkept⟩ := hscope
  have hsid := sid_of_get? hr
  subst hsid
  have hmem : r ∈ w.sessions.rows := Table.mem_of_get? hr
  refine shut_of_unusable hw hr hnow ?_ (fun h => hok h hnone r hmem huser hkept) hlands
  intro husable
  have hfilter : r ∈ w.sessions.rows.filter fun s => s.userID = userID ∧ s.status = .active ∧ now < s.expiresAt ∧
      (excluded = "" ∨ s.sid ≠ excluded) :=
    mem_filter.mpr ⟨hmem, decide_eq_true ⟨huser, husable.1, husable.2.2, hkept⟩⟩
  rw [← (perm_insertionSort (fun a b : UserSession => a.sid ≤ b.sid) _).mem_iff] at hfilter
  have hempty := (take_eq_nil_iff.mp hnone).resolve_left (by decide)
  rw [hempty] at hfilter
  exact absurd hfilter not_mem_nil

theorem revokeLoop_keeps : ∀ (fuel : ℕ) (total : List String)
    (w : SessionWorld), now ≤ w.unix → (∀ sid ∈ total, Sealed w sid) →
      (revokeLoop userID now excluded reason fuel total).run.Keeps (sessionProtocol lands) κ
        (fun r u => ∀ sids, r = .ok sids → (∀ sid ∈ sids, Sealed u sid) ∧
          (lands → ∀ sid, w.InScope userID excluded sid → Shut u sid)) w := by
  intro fuel
  induction fuel with
  | zero => exact fun total w _ _ => run_throw fun _ _ _ _ h => by cases h
  | succ _ ih =>
    intro total w hnow htotal
    unfold revokeLoop
    refine keeps_granted (fun _ => trivial) fun a ha hainv hok => ?_
    have hnowa : now ≤ a.unix := hnow.trans (unix_mono ha.now)
    show Prog.Keeps _ _ _ _ a
    split
    · rename_i hnone
      refine run_pure fun u hu _ sids hsids => ⟨?_, ?_⟩
      · intro sid hsid
        obtain rfl := Except.ok.inj hsids
        exact hu.sealed _ (ha.sealed _ (htotal sid hsid))
      · intro hlands sid hscope
        exact (shut_of_no_candidates hainv hnowa hok hlands hnone (hscope.mono ha)).mono hu
    · refine run_bind (((denyAll_keeps now reason _ a revokeCandidates_rows).and_rel
        fun u hu => hu).weaken ?_)
      rintro r b _ ⟨-, hb⟩
      cases r with
      | error => exact fun _ _ _ _ h => by cases h
      | ok =>
        refine keeps_statement (fun _ => trivial) fun c hc hcinv => ?_
        let batch := c.revocableMany ((revokeCandidates userID now excluded a).map (·.sid))
        obtain ⟨hnodup, hrows⟩ := revocableMany_rows (w := c) ((revokeCandidates userID now excluded a).map (·.sid))
        obtain ⟨-, hlater, hclosed⟩ := closeRows_later now reason batch c hcinv hnodup hrows
        refine run_bind (((buryAll_keeps now reason batch _ hclosed).and_rel fun u hu => hu).weaken ?_)
        rintro r d _ ⟨hsealed, hd⟩
        cases r with
        | error => exact fun _ _ _ _ h => by cases h
        | ok =>
          have hafter : SessionLater a d := ((hb.trans hc).trans hlater).trans hd
          refine (ih _ d (hnowa.trans (unix_mono hafter.now)) ?_).weaken ?_
          · intro sid hsid
            rcases mem_append.mp hsid with hsid | hsid
            · exact (ha.trans hafter).sealed _ (htotal sid hsid)
            · obtain ⟨s, hs, rfl⟩ := mem_map.mp hsid
              exact hsealed s hs
          · intro r u _ hr sids hsids
            obtain ⟨hall, hscope⟩ := hr sids hsids
            exact ⟨hall, fun hlands sid hin => hscope hlands sid (hin.mono (ha.trans hafter))⟩

theorem revokeUserSessions_keeps (fuel : ℕ) :
    (revokeUserSessions userID excluded reason fuel).run.Keeps (sessionProtocol lands) κ
      (fun r u => ∀ sids, r = .ok sids → (∀ sid ∈ sids, Sealed u sid) ∧
        (lands → ∀ sid, w.InScope userID excluded sid → Shut u sid)) w := by
  unfold revokeUserSessions
  refine keeps_failIf (fun _ _ h => by cases h) fun _ => ?_
  refine keeps_read fun a ha _ => ?_
  refine (revokeLoop_keeps userID _ excluded reason fuel [] a le_rfl fun _ h => absurd h not_mem_nil).weaken ?_
  intro r u _ hr sids hsids
  obtain ⟨hall, hscope⟩ := hr sids hsids
  exact ⟨hall, fun hlands sid hin => hscope hlands sid (hin.mono ha)⟩

/-! ## Refreshing -/

theorem revokeReusedSession_keeps {session : UserSession} (hsnap : Snapshot session.toSessionInfo w) :
    (revokeReusedSession session userID now).run.Keeps (sessionProtocol lands) κ
      (fun r u => r = .error .refreshReuse → lands → Sealed u session.sid) w := by
  unfold revokeReusedSession
  refine run_bind ((denyFence_keeps hsnap).weaken ?_)
  rintro r a _ ⟨hr, ha⟩
  cases r with
  | error =>
    refine fun _ _ _ h => ?_
    obtain rfl := Except.error.inj h
    rcases hr with hr | hr <;> cases hr
  | ok =>
    refine keeps_statement (fun _ => trivial) fun b hb hbinv => ?_
    refine keeps_failIf (fun _ h => by cases h) fun hrevoked => ?_
    have hsome : (b.revocable session.sid userID now).isSome := Bool.eq_true_of_not_eq_false hrevoked
    obtain ⟨t, ht⟩ := revokeOne_closed "refresh_reuse" hsome
    obtain ⟨-, hlater⟩ := revokeOne_later hbinv session.sid userID now "refresh_reuse"
    refine run_outcome_bind
      ((readTombstone_keeps (hsnap.mono ((ha.trans hb).trans hlater)) ht).weaken ?_)
    intro _ u _ hsealed
    exact run_throw fun x hx _ _ h => hx.sealed _ (hsealed h)

theorem rotateLoop_keeps (sid presented next : String) (now grace : ℕ) : ∀ (tries : ℕ) (w : SessionWorld),
    (rotateLoop call userID sid presented next now grace tries).run.Keeps (sessionProtocol lands) κ
      (fun r u => r = .error .refreshReuse → lands → Sealed u sid) w := by
  intro tries
  induction tries with
  | zero => exact fun w => run_throw fun _ _ _ h => by cases h
  | succ _ ih =>
    intro w
    unfold rotateLoop
    refine keeps_read fun a _ _ => ?_
    refine keeps_statement (fun _ => trivial) fun b hb hbinv => ?_
    cases hrow : b.ofUser sid userID with
    | none => exact run_throw fun _ _ _ h => by cases h
    | some session =>
      obtain ⟨hget, -⟩ := ofUser_eq_some hrow
      obtain rfl := sid_of_get? hget
      have hsnap : Snapshot session.toSessionInfo (b.load call session.sid userID) := snapshot_of_row hget
      refine keeps_failIf (fun _ h => by cases h) fun husable => ?_
      have hactive : session.status = .active := (not_not.mp husable).1
      split
      · refine keeps_statement (fun _ => trivial) fun c hc hcinv => ?_
        have hc' : SessionLater b c := (load_later hbinv call session.sid userID).2.trans hc
        split
        · rename_i hwon
          obtain ⟨found, hfound⟩ := isSome_iff_exists.mp hwon
          obtain ⟨hinv, hlater⟩ := exchange_later hcinv call session.sid userID now presented next (now + grace)
          have hwrite := rowWrite_exchange call next (now + grace) hfound
          obtain ⟨hfget, hfusable, -⟩ := exchangeable_eq_some hfound
          have hsid := sid_of_get? hfget
          have hopen := hinv.not_closed hwrite.get_self hfusable.1
          rw [hsid] at hopen
          have htime : InTime session.sid a.userSessionCacheDeadline
              (c.exchange call session.sid userID now presented next (now + grace)) :=
            inTime_of_open hopen (deadline_mono ((hb.trans hc').trans hlater))
          have hsnap' : Snapshot (session.rotated next now (now + grace)).toSessionInfo
              (c.exchange call session.sid userID now presented next (now + grace)) := hsnap.mono (hc.trans hlater)
          have hpublish : (publishSnapshot (session.rotated next now (now + grace))
              a.userSessionCacheDeadline).run.Keeps (sessionProtocol lands) κ (fun r _ => NoReuse r)
              (c.exchange call session.sid userID now presented next (now + grace)) :=
            publishSnapshot_keeps hactive hsnap' htime
          refine run_bind (hpublish.weaken ?_)
          intro r u _ hr
          cases r with
          | error =>
            refine fun _ _ _ h => ?_
            obtain rfl := Except.error.inj h
            exact absurd rfl hr
          | ok => exact run_pure fun _ _ _ h => by cases h
        · exact ih _
      · refine keeps_failIf (fun _ h => by cases h) fun _ => ?_
        split
        · exact run_pure fun _ _ _ h => by cases h
        · exact revokeReusedSession_keeps userID now hsnap

theorem rotateUserSessionRefresh_keeps (sid presented next : String) (now grace : ℕ) :
    (rotateUserSessionRefresh call userID sid presented next now grace).run.Keeps (sessionProtocol lands) κ
      (fun r u => r = .error .refreshReuse → lands → Sealed u sid) w := by
  unfold rotateUserSessionRefresh
  refine keeps_failIf (fun _ h => by cases h) fun _ => ?_
  exact keeps_read fun a _ _ => rotateLoop_keeps userID sid presented next _ grace 3 a

/-! ## Every run -/

/-- The call, started in the world `since`, is a revocation of the session and has returned without an error: whether it
marked the row itself, or left alone what it found marked or expired.  A logout by refresh token and a refresh attempt
count where they say that they revoked it. -/
inductive Revokes (sid : String) (since : SessionWorld) : SessionCall → SessionAnswer → Prop where
  | one (userID : ℕ) (reason : String) (revoked : Bool) (h : revoked = true ∨ (since.ofUser sid userID).isSome) :
      Revokes sid since (.revoke userID sid reason) (.revoked (.ok revoked))
  | logout (presented reason : String) : Revokes sid since (.revokeByHash sid presented reason) (.revoked (.ok true))
  | many (userID : ℕ) (excluded reason : String) (fuel : ℕ) {sids : List String}
      (h : sid ∈ sids ∨ since.InScope userID excluded sid) :
      Revokes sid since (.revokeMany userID excluded reason fuel) (.sids (.ok sids))
  | replay (userID : ℕ) (presented next : String) (now grace : ℕ) :
      Revokes sid since (.rotate userID sid presented next now grace) (.refreshed (.error .refreshReuse))

/-- What a call that has ended tells: a session it revoked is shut, and a session it read as active was not shut when it
started. -/
def SessionCall.Knows (lands : Prop) (c : SessionCall) (since : SessionWorld) (a : SessionAnswer) (v : SessionWorld) :
    Prop :=
  (∀ sid, Revokes sid since c a → lands → Shut v sid) ∧
    ∀ sid e, c = .getCached sid → a = .info (.ok e) → ¬ Shut since sid

theorem SessionCall.body_keeps (n : ℕ) (c : SessionCall) (w : SessionWorld) :
    (SessionCall.body n c).Keeps (sessionProtocol lands) κ (c.Knows lands w) w := by
  cases c with
  | create s =>
    refine map ((createUserSession_keeps s).weaken fun r v _ _ => ⟨?_, ?_⟩)
    · rintro sid ⟨⟩
    · rintro sid e ⟨⟩
  | getCached sid =>
    refine map ?_
    by_cases hshut : Shut w sid
    · refine (getUserSessionCached_shut hshut).weaken fun r v _ hr => ⟨?_, ?_⟩
      · rintro sid ⟨⟩
      · rintro sid' e - ha
        obtain rfl := SessionAnswer.info.inj ha
        exact absurd rfl (hr e)
    · refine (getUserSessionCached_keeps sid (Q := fun _ _ => True) ?_ ?_ ?_).weaken fun r v _ _ => ⟨?_, ?_⟩
      · exact fun _ _ => trivial
      · exact fun _ _ _ _ _ _ _ _ _ _ => trivial
      · exact fun _ _ _ _ _ _ _ _ _ _ => trivial
      · rintro sid ⟨⟩
      · rintro sid' e hcall -
        obtain rfl := SessionCall.getCached.inj hcall
        exact hshut
  | rotate userID sid presented next now grace =>
    refine map ((rotateUserSessionRefresh_keeps userID sid presented next now grace).weaken
      fun r v _ hr => ⟨?_, ?_⟩)
    · intro sid' h
      generalize hans : SessionAnswer.refreshed r = answer at h
      cases h
      exact fun hlands => Or.inl (hr (SessionAnswer.refreshed.inj hans) hlands)
    · rintro sid e ⟨⟩
  | revoke userID sid reason =>
    refine map ((revokeUserSession_keeps userID sid reason).weaken fun r v _ hr => ⟨?_, ?_⟩)
    · intro sid' h
      generalize hans : SessionAnswer.revoked r = answer at h
      cases h with
      | one _ _ revoked hscope => exact hr revoked (SessionAnswer.revoked.inj hans) hscope
    · rintro sid e ⟨⟩
  | revokeByHash sid presented reason =>
    refine map ((revokeUserSessionByRefreshHash_keeps sid presented reason).weaken
      fun r v _ hr => ⟨?_, ?_⟩)
    · intro sid' h _
      generalize hans : SessionAnswer.revoked r = answer at h
      cases h
      exact Or.inl (hr (SessionAnswer.revoked.inj hans))
    · rintro sid e ⟨⟩
  | advance userID sid version uav next =>
    refine map ((advanceUserSessionAuthVersion_keeps userID sid version uav next).weaken
      fun r v _ _ => ⟨?_, ?_⟩)
    · rintro sid ⟨⟩
    · rintro sid e ⟨⟩
  | revokeMany userID excluded reason fuel =>
    refine map ((revokeUserSessions_keeps userID excluded reason fuel).weaken fun r v _ hr => ⟨?_, ?_⟩)
    · intro sid' h hlands
      generalize hans : SessionAnswer.sids r = answer at h
      cases h with
      | many _ _ _ _ hmem =>
        obtain ⟨hall, hscope⟩ := hr _ (SessionAnswer.sids.inj hans)
        exact hmem.elim (fun h => Or.inl (hall sid' h)) (hscope hlands sid')
    · rintro sid e ⟨⟩
  | wait ms =>
    refine issue fun v _ hv _ => ?_
    obtain ⟨hinv, hlater⟩ := wait_later hv ms
    refine ⟨hinv, hlater, fun u _ _ => ⟨?_, ?_⟩⟩
    · rintro sid ⟨⟩
    · rintro sid e ⟨⟩

/-- No sessions yet, at any time. -/
def SessionWorld.blank (now cacheSeconds : ℕ) : SessionWorld :=
  ⟨now, cacheSeconds, Table.empty, fun _ => none, ⟨fun _ => none, [], fun _ => none⟩⟩

theorem SessionInv.blank (cacheSeconds : ℕ) : SessionInv (blank now cacheSeconds) where
  closed := fun _ _ h => by cases h
  marked := fun _ _ h => by cases h
  behind := fun _ _ h => by cases h

/-- A session that a call of `s` has revoked is not reported as active by a read started after `s`. -/
def StaysRevoked (s t : SessionSys) : Prop :=
  ∀ sid i c since a, s.Ended i c since a → Revokes sid since c a →
    ∀ j started e, s.calls.length ≤ j → ¬ t.Ended j (.getCached sid) started (.info (.ok e))

/-- A browser session of user 1. -/
def laptop : UserSession where
  sid := "s"
  userID := 1
  version := 1
  userAuthVersion := 1
  status := .active
  loginMethod := "browser"
  ip := ""
  userAgent := ""
  createdAt := 0
  lastActiveAt := 0
  expiresAt := 86400
  revokedAt := 0
  revokedReason := ""
  refreshHash := "h0"
  previousRefreshHash := ""
  previousValidUntil := 0

open Event in
/-- The session is created and somebody logs out, and then out of all sessions. -/
def logoutNow : List (Event SessionCall) :=
  flatten [begin (.create laptop), steps 0 6, begin (.revoke 1 "s" "logout"), steps 1 9,
    begin (.revokeMany 1 "" "all" 2), steps 2 2]

open Event in
/-- The same, but the revocation stalls after its deny state for longer than a cache period, and a change of the
second factor advances the session in the meantime. -/
def logoutStalls : List (Event SessionCall) :=
  flatten [begin (.create laptop), steps 0 6, begin (.revoke 1 "s" "logout"), steps 1 5, begin (.wait 61000),
    steps 2 1, begin (.advance 1 "s" 1 1 2), steps 3 6, steps 1 4]

open Event in
def readSession (n : ℕ) : List (Event SessionCall) := flatten [begin (.getCached "s"), steps n 5]

open Event in
/-- The first revocation stalls again, a read stores a snapshot in the meantime, and the row is marked.  A revocation of
all sessions finds nothing to do, before the first one has published its tombstone. -/
def logoutPending : List (Event SessionCall) :=
  flatten [begin (.create laptop), steps 0 6, begin (.revoke 1 "s" "logout"), steps 1 5, begin (.wait 61000),
    steps 2 1, begin (.getCached "s"), steps 3 9, steps 1 1, begin (.revokeMany 1 "" "all" 2), steps 4 2]

/-- The second revocation has returned without an error, and the next read reports the session as active. -/
theorem pending_but_active : let s := SessionSys.run ⟨blank 1000000 60, []⟩ logoutPending
    s.answer? 4 = some (.revokeMany 1 "" "all" 2, .sids (.ok [])) ∧
    (s.world.sessions.get? "s").map (·.status) = some .revoked ∧
    (s.run (readSession 5)).answer? 5 =
      some (.getCached "s", .info (.ok { laptop with createdAt := 1000, lastActiveAt := 1000 })) := by
  decide +kernel

end NovaMaas.Auth
