/-
  The fence around the authentication version holds.

  Two facts about the store carry everything (`Later`): the committed floor of a user only rises, and the
  version of a row only rises while the row is there.  Every script and every statement keeps both, so they hold
  across any interleaving.

  A publish ends with the floor at its version or above (`published_floor`).  A read looks at the floor AFTER it
  has its snapshot, from the cache as well as from the database, and drops a snapshot below it
  (`getUserCache_keeps`).  So a read that starts later has a snapshot at the published version or above, however
  old the snapshots are that readers still carry around.
-/
import NovaMaas.Auth.UserCache

open Function

namespace NovaMaas.Auth

open Interleave Prog.Keeps

/-- What time and the other calls may do: floors and versions rise, rows may go. -/
def Later (w v : AuthWorld) : Prop :=
  (∀ id, w.committedVersion id ≤ v.committedVersion id) ∧
  ∀ id u, v.users id = some u → ∃ t, w.users id = some t ∧ t.authVersion ≤ u.authVersion

theorem lt_nextAuthVersion (found : ℤ) : found < nextAuthVersion found := by
  unfold nextAuthVersion
  split <;> omega

namespace Later

variable (w : AuthWorld) (id : ℕ) (found version : ℤ) (edit : UserColumns → UserColumns)

theorem refl : Later w w := ⟨fun _ => le_rfl, fun _ u hu => ⟨u, hu, le_rfl⟩⟩

theorem trans {u v w : AuthWorld} (huv : Later u v) (hvw : Later v w) : Later u w := by
  refine ⟨fun id => (huv.1 id).trans (hvw.1 id), ?_⟩
  intro id c hc
  obtain ⟨b, hb, hbc⟩ := hvw.2 id c hc
  obtain ⟨a, ha, hab⟩ := huv.2 id b hb
  exact ⟨a, ha, hab.trans hbc⟩

/-- The floor a read sees is at least the committed one. -/
theorem committed_le_floor : w.committedVersion id ≤ w.getUserAuthVersionFloor id :=
  le_max_right _ _

theorem committed_raiseFloor (i : ℕ) (version : ℤ) : (w.raiseFloor id version).committedVersion i =
      if i = id then max (w.committedVersion i) version else w.committedVersion i := by
  unfold AuthWorld.raiseFloor AuthWorld.committedVersion
  by_cases h : i = id
  · subst h
    by_cases hlt : (w.committed i).getD 0 < version
    · simp [hlt, le_of_lt hlt]
    · simp [hlt, not_lt.mp hlt]
  · by_cases hlt : (w.committed id).getD 0 < version
    · simp [h, hlt]
    · simp [h, hlt]

theorem raiseFloor : Later w (w.raiseFloor id version) := by
  refine ⟨?_, fun _ u hu => ⟨u, hu, le_rfl⟩⟩
  intro i
  rw [committed_raiseFloor]
  split
  · exact le_max_left _ _
  · exact le_rfl

/-- The keys that matter are the rows and the floors. -/
theorem of_eq {w v : AuthWorld} (hc : v.committed = w.committed) (hu : v.users = w.users) : Later w v := by
  refine ⟨fun id => ?_, fun id u h => ⟨u, hu ▸ h, le_rfl⟩⟩
  unfold AuthWorld.committedVersion
  rw [hc]

theorem putHash (h : UserHash) : Later w (w.putHash id h) := of_eq rfl rfl

theorem writeUserCache (user : UserBase) (includeQuota : Bool) : Later w (w.writeUserCache user includeQuota) := by
  have hfloor := raiseFloor w user.id user.authVersion
  unfold AuthWorld.writeUserCache
  split
  · exact refl w
  split
  · split
    · exact hfloor.trans (putHash _ _ _)
    · exact hfloor
  · exact hfloor.trans (putHash _ _ _)

theorem setFence : Later w (w.setFence id version) := by
  unfold AuthWorld.setFence
  split
  · exact of_eq rfl rfl
  split
  · exact refl w
  split
  · exact of_eq rfl rfl
  · exact refl w

theorem updateField : Later w (w.updateField id version edit) := by
  have hfloor := raiseFloor w id version
  unfold AuthWorld.updateField
  split
  · exact refl w
  split
  · exact hfloor
  split
  · exact hfloor
  · exact hfloor.trans (putHash _ _ _)

theorem quotaDelta (delta : ℤ) : Later w (w.quotaDelta id delta) := by
  unfold AuthWorld.quotaDelta
  split
  · exact refl w
  split
  · exact refl w
  · exact putHash _ _ _

/-- One row is replaced by one with a version that is not lower, or removed. -/
theorem setUser {t : User} (ht : w.users id = some t) (r : Option User)
    (hr : ∀ u ∈ r, t.authVersion ≤ u.authVersion) :
    Later w { w with users := update w.users id r } := by
  refine ⟨fun _ => le_rfl, ?_⟩
  intro i u hu
  by_cases h : i = id
  · subst h
    have hu : update w.users i r i = some u := hu
    rw [update_self] at hu
    exact ⟨t, ht, hr u hu⟩
  · have hu : update w.users id r i = some u := hu
    rw [update_of_ne h] at hu
    exact ⟨u, hu, le_rfl⟩

theorem commit (delete : Bool) : Later w (w.commit id found edit delete) := by
  unfold AuthWorld.commit
  split
  · exact refl w
  · rename_i t ht
    split
    · exact refl w
    · rename_i hfound
      have hfound := not_not.mp hfound
      split
      · exact setUser w id ht none (by simp)
      · refine setUser w id ht _ ?_
        intro u hu
        obtain rfl := Option.some.inj hu
        show t.authVersion ≤ nextAuthVersion found
        rw [hfound]
        exact (lt_nextAuthVersion found).le

theorem update : Later w (w.update id edit) := by
  unfold AuthWorld.update
  split
  · exact refl w
  · rename_i t ht
    refine setUser w id ht _ ?_
    intro u hu
    obtain rfl := Option.some.inj hu
    exact le_rfl

end Later

theorem AuthOp.later (op : AuthOp) (w : AuthWorld) : Later w (op.exec w) := by
  cases op with
  | read => exact Later.refl w
  | writeUserCache user q => exact Later.writeUserCache w user q
  | setFence id v => exact Later.setFence w id v
  | publishCommitted id v => exact Later.raiseFloor w id v
  | updateField id v edit => exact Later.updateField w id v edit
  | quotaDelta id d => exact Later.quotaDelta w id d
  | delHash | wait => exact Later.of_eq rfl rfl
  | commit id found edit delete => exact Later.commit w id found edit delete
  | update id edit => exact Later.update w id edit

/-- A commit that found its version leaves the next one, or no row. -/
theorem commit_version {y : AuthWorld} {id : ℕ} {found : ℤ} {edit : UserColumns → UserColumns} {delete : Bool}
    {t : User} (hfound : (y.users id).map (·.authVersion) = some found)
    (ht : (y.commit id found edit delete).users id = some t) : nextAuthVersion found ≤ t.authVersion := by
  unfold AuthWorld.commit at ht
  cases hrow : y.users id with
  | none =>
    rw [hrow] at hfound
    cases hfound
  | some row =>
    rw [hrow] at hfound ht
    have hversion : row.authVersion = found := Option.some.inj hfound
    simp only [ne_eq, hversion, not_true_eq_false, if_false] at ht
    cases delete with
    | true =>
      have ht : update y.users id none id = some t := ht
      rw [update_self] at ht
      cases ht
    | false =>
      have ht : update y.users id (some ⟨edit row.toUserColumns, nextAuthVersion found⟩) id = some t := ht
      rw [update_self] at ht
      obtain rfl := Option.some.inj ht
      exact le_rfl

/-- The protocol of the three keys. -/
def authProtocol : Protocol AuthCall AuthOp AuthWorld :=
  .plain AuthOp.exec (fun _ _ => True) (fun _ => True) Later Later.refl Later.trans

/-! ## The calls -/

variable {α β : Type} {w : AuthWorld} {id : ℕ} {κ : ℕ × AuthCall}

theorem keeps_query {f : α → AuthM β} {Q : Except AuthError β → AuthWorld → Prop} {op : AuthOp}
    {report : AuthWorld → α} (h : ∀ v, Later w v → (f (report v)).run.Keeps authProtocol κ Q (op.exec v)) :
    (Prog.query op report >>= f).run.Keeps authProtocol κ Q w :=
  run_query_bind fun v hv _ _ => ⟨trivial, op.later v, h v hv⟩

theorem keeps_attempt {Q : Except AuthError α → AuthWorld → Prop} {op : AuthOp}
    {report : AuthWorld → Except AuthError α} (h : ∀ v u, Later w v → Later (op.exec v) u → Q (report v) u) :
    (Prog.attempt op report : AuthM α).run.Keeps authProtocol κ Q w :=
  run_attempt fun v hv _ _ => ⟨trivial, op.later v, fun u hu _ => h v u hv hu⟩

/-- What is known of a snapshot a read returns: it is not below the floor `n`. -/
def AtLeast (n : ℤ) (r : Except AuthError UserBase) : Prop := ∀ user, r = .ok user → n ≤ user.authVersion

theorem atLeast_error (n : ℤ) (e : AuthError) : AtLeast n (.error e) := by
  intro user h
  cases h

theorem cacheGetUserBase_keeps {n : ℤ} (hn : n ≤ w.committedVersion id) :
    (cacheGetUserBase id).run.Keeps authProtocol κ (fun r _ => AtLeast n r) w := by
  unfold cacheGetUserBase
  refine keeps_query fun v hv => ?_
  cases v.liveHash id with
  | none => exact fun _ _ _ => atLeast_error n _
  | some h =>
    refine run_failIf_bind (fun _ _ _ _ => atLeast_error n _) fun _ => ?_
    refine keeps_query fun u hu => ?_
    refine run_failIf_bind (fun _ _ _ _ => atLeast_error n _) fun hfloor => ?_
    refine run_pure fun _ _ _ => ?_
    intro user huser
    -- the floor was read after the hash, and has risen since the call started
    have hrise : n ≤ u.getUserAuthVersionFloor id :=
      calc n ≤ w.committedVersion id := hn
        _ ≤ v.committedVersion id := hv.1 id
        _ ≤ u.committedVersion id := hu.1 id
        _ ≤ u.getUserAuthVersionFloor id := Later.committed_le_floor u id
    have hversion : user.authVersion = h.base.authVersion := by
      have heq := Except.ok.inj huser
      rw [← heq]
      split <;> rfl
    omega

/-- A row that is read now has at least the version it had before. -/
theorem getUserById_keeps {n : ℤ} (hn : ∀ u, w.users id = some u → n ≤ u.authVersion) :
    (getUserById id).run.Keeps authProtocol κ (fun r _ => ∀ u, r = .ok u → id ≠ 0 ∧ n ≤ u.authVersion) w := by
  refine keeps_attempt fun v _ hv _ => ?_
  intro u hu
  by_cases hid : id = 0
  · rw [if_pos hid] at hu
    cases hu
  · rw [if_neg hid] at hu
    cases hrow : v.users id with
    | none =>
      rw [hrow] at hu
      cases hu
    | some row =>
      rw [hrow] at hu
      obtain rfl := Except.ok.inj hu
      obtain ⟨t, ht, htu⟩ := hv.2 id row hrow
      exact ⟨hid, (hn t ht).trans htu⟩

theorem writeUserCache_keeps (user : UserBase) (includeQuota : Bool) :
    (writeUserCache user includeQuota).run.Keeps authProtocol κ
      (fun r v => r = .ok () → user.id ≠ 0 → user.authVersion ≤ v.committedVersion user.id) w := by
  unfold writeUserCache
  split
  · rename_i hid
    exact run_pure fun _ _ _ _ h => absurd hid h
  refine run_failIf_bind (fun _ _ _ _ h => by cases h) fun _ => ?_
  refine keeps_attempt fun v u _ hu hok _ => ?_
  by_cases href : v.refuses user.id user.authVersion
  · rw [if_pos href] at hok
    cases hok
  · -- the script was not refused, so it has raised the floor to this version
    have hscript : user.authVersion ≤ (AuthOp.exec (.writeUserCache user includeQuota) v).committedVersion user.id := by
      have hraise : user.authVersion ≤ (v.raiseFloor user.id user.authVersion).committedVersion user.id := by
        rw [Later.committed_raiseFloor, if_pos rfl]
        exact le_max_right _ _
      show _ ≤ (v.writeUserCache user includeQuota).committedVersion user.id
      unfold AuthWorld.writeUserCache
      rw [if_neg href]
      cases v.liveHash user.id with
      | none =>
        cases includeQuota with
        | true => exact hraise
        | false => exact hraise
      | some => exact hraise
    exact hscript.trans (hu.1 user.id)

/-- Any call keeps the protocol, whatever it is. -/
theorem keeps_any (p : Prog AuthOp AuthWorld α) (w : AuthWorld) : p.Keeps authProtocol κ (fun _ _ => True) w :=
  Prog.keeps_of_forall (fun op v _ _ => ⟨trivial, op.later v⟩) p w

theorem hydrateUser_keeps {n : ℤ} (hn : n ≤ w.committedVersion id) :
    (hydrateUser id).run.Keeps authProtocol κ (fun r _ => AtLeast n r) w := by
  have hlater : (getUserById id).run.Keeps authProtocol κ (fun _ v => n ≤ v.committedVersion id) w :=
    keeps_attempt fun v u hv hu => hn.trans ((hv.1 id).trans (hu.1 id))
  unfold hydrateUser
  refine run_bind (hlater.weaken ?_)
  intro r v _ hv
  cases r with
  | error e => exact fun _ _ _ => atLeast_error n e
  | ok user =>
    refine keeps_query fun u hu => ?_
    refine run_failIf_bind (fun _ _ _ _ => atLeast_error n _) fun hfloor => ?_
    have huser : n ≤ user.authVersion :=
      calc n ≤ v.committedVersion id := hv
        _ ≤ u.committedVersion id := hu.1 id
        _ ≤ u.getUserAuthVersionFloor id := Later.committed_le_floor u id
        _ ≤ user.authVersion := not_lt.mp hfloor
    refine run_outcome_bind ((keeps_any _ _).weaken ?_)
    intro r x _ _
    have hreturn : (pure (user.toBaseUser id) : AuthM UserBase).run.Keeps authProtocol κ (fun r _ => AtLeast n r) x := by
      refine run_pure fun _ _ _ => ?_
      intro base hbase
      obtain rfl := Except.ok.inj hbase
      exact huser
    cases r with
    | ok => exact hreturn
    | error e =>
      cases e with
      | cachePending => exact fun _ _ _ => atLeast_error n _
      | _ => exact hreturn

/-- **A read drops what is below the floor it started under.** -/
theorem getUserCache_keeps :
    (getUserCache id).run.Keeps authProtocol κ (fun r _ => AtLeast (w.committedVersion id) r) w := by
  unfold getUserCache
  have hcache : (cacheGetUserBase id).run.Keeps authProtocol κ
      (fun r v => AtLeast (w.committedVersion id) r ∧ w.committedVersion id ≤ v.committedVersion id) w :=
    and_rel (cacheGetUserBase_keeps le_rfl) fun v hv => hv.1 id
  refine run_outcome_bind (hcache.weaken ?_)
  intro r v _ hr
  cases r with
  | ok => exact run_pure fun _ _ _ => hr.1
  | error => exact hydrateUser_keeps hr.2

/-! ## What a publish leaves behind -/

/-- After a snapshot of the row was published, the floor has the version the row had before. -/
theorem publishUserAuthCache_keeps {n : ℤ} (hn : ∀ u, w.users id = some u → n ≤ u.authVersion) :
    (publishUserAuthCache id).run.Keeps authProtocol κ (fun r v => r = .ok () → n ≤ v.committedVersion id) w := by
  unfold publishUserAuthCache
  refine run_bind ((getUserById_keeps hn).weaken ?_)
  intro r v _ hr
  cases r with
  | error => exact fun _ _ _ h => by cases h
  | ok user =>
    obtain ⟨hid, huser⟩ := hr user rfl
    refine (writeUserCache_keeps (user.toBaseUser id) false).weaken ?_
    intro r u _ hu hok
    exact huser.trans (hu hok hid)

theorem incrementUserAuthVersion_keeps (id : ℕ) (tx : AuthTx) : ∀ (tries : ℕ) (w : AuthWorld),
    (incrementUserAuthVersion id tx tries).run.Keeps authProtocol κ
      (fun r v => ∀ next, r = .ok next → ∀ u, v.users id = some u → next ≤ u.authVersion) w := by
  intro tries
  induction tries with
  | zero =>
    intro w v _ _ next h
    cases h
  | succ _ ih =>
    intro w
    unfold incrementUserAuthVersion
    refine keeps_query fun v _ => ?_
    cases v.users id with
    | none => exact fun _ _ _ _ h => by cases h
    | some =>
      refine run_bind ((keeps_any _ _).weaken ?_)
      intro r x _ _
      cases r with
      | error => exact fun _ _ _ _ h => by cases h
      | ok =>
        refine run_failIf_bind (fun _ _ _ _ _ h => by cases h) fun _ => ?_
        refine keeps_query fun y _ => ?_
        split
        · rename_i haffected
          refine run_pure fun z hz _ next hnext u hu => ?_
          obtain rfl := Except.ok.inj hnext
          obtain ⟨t, ht, htu⟩ := hz.2 id u hu
          refine le_trans ?_ htu
          -- the row that the commit left, if it left one, has the next version
          exact commit_version (of_decide_eq_true haffected) ht
        · exact ih _

theorem bumpUserAuthVersion_keeps (tx : AuthTx) : (bumpUserAuthVersion id tx).run.Keeps authProtocol κ
      (fun r v => ∀ next, r = .ok next → next ≤ v.committedVersion id) w := by
  unfold bumpUserAuthVersion
  refine run_bind ((incrementUserAuthVersion_keeps id tx 3 w).weaken ?_)
  intro r v _ hr
  cases r with
  | error => exact fun _ _ _ _ h => by cases h
  | ok next =>
    refine run_bind ((publishUserAuthCache_keeps (hr next rfl)).weaken ?_)
    intro r u _ hu
    cases r with
    | error => exact fun _ _ _ _ h => by cases h
    | ok =>
      refine run_pure fun x hx _ n hn => ?_
      obtain rfl := Except.ok.inj hn
      exact (hu rfl).trans (hx.1 id)

theorem publishCommittedUserAuthVersion_keeps (n : ℤ) :
    (publishCommittedUserAuthVersion id n).run.Keeps authProtocol κ
      (fun r v => r = .ok () → n ≤ v.committedVersion id) w := by
  unfold publishCommittedUserAuthVersion
  refine run_failIf_bind (fun _ _ _ _ h => by cases h) fun _ => ?_
  refine keeps_attempt fun v u _ hu _ => le_trans ?_ (hu.1 id)
  show n ≤ (v.raiseFloor id n).committedVersion id
  rw [Later.committed_raiseFloor, if_pos rfl]
  exact le_max_right _ _

theorem deleteUser_keeps (aborts : Bool) : (deleteUser id aborts).run.Keeps authProtocol κ
      (fun r v => ∀ next, r = .ok next → next ≤ v.committedVersion id) w := by
  unfold deleteUser
  refine run_bind ((keeps_any _ w).weaken ?_)
  intro r v _ _
  cases r with
  | error => exact fun _ _ _ _ h => by cases h
  | ok next =>
    refine run_bind ((publishCommittedUserAuthVersion_keeps next).weaken ?_)
    intro r u _ hu
    cases r with
    | error => exact fun _ _ _ _ h => by cases h
    | ok =>
      refine keeps_attempt fun x y hx hy n hn => ?_
      obtain rfl := Except.ok.inj hn
      exact (hu rfl).trans ((hx.1 id).trans (hy.1 id))

/-! ## Every run -/

/-- What a call that has ended tells about the world it was started in and the world now. -/
def AuthCall.Knows : AuthCall → AuthWorld → AuthAnswer → AuthWorld → Prop
  | .getUserCache id, since, .user r, _ => AtLeast (since.committedVersion id) r
  | .publishUserAuthCache id, since, .unit r, v =>
    r = .ok () → ∀ u, since.users id = some u → u.authVersion ≤ v.committedVersion id
  | .bumpUserAuthVersion id _, _, .version r, v => ∀ next, r = .ok next → next ≤ v.committedVersion id
  | .deleteUser id _, _, .version r, v => ∀ next, r = .ok next → next ≤ v.committedVersion id
  | _, _, _, _ => True

theorem AuthCall.body_keeps (n : ℕ) (c : AuthCall) (w : AuthWorld) :
    (AuthCall.body n c).Keeps authProtocol κ (c.Knows w) w := by
  cases c with
  | getUserCache => exact map getUserCache_keeps
  | publishUserAuthCache id =>
    refine map ?_
    cases hrow : w.users id with
    | none =>
      refine (keeps_any _ w).weaken ?_
      intro r v _ _ _ u hu
      rw [hrow] at hu
      cases hu
    | some row =>
      have hn : ∀ u, w.users id = some u → row.authVersion ≤ u.authVersion := by
        intro u hu
        rw [hrow] at hu
        obtain rfl := Option.some.inj hu
        exact le_rfl
      refine (publishUserAuthCache_keeps hn).weaken ?_
      intro r v _ h hok u hu
      rw [hrow] at hu
      obtain rfl := Option.some.inj hu
      exact h hok
  | bumpUserAuthVersion _ tx => exact map (bumpUserAuthVersion_keeps tx)
  | deleteUser _ aborts => exact map (deleteUser_keeps aborts)
  | editUser | updateUserCacheField | refreshUserGroupCache => exact map (keeps_any _ w)
  | cacheIncrUserQuota | invalidateUserCache | wait => exact keeps_any _ w

/-- A run of any calls, in any order. -/
def AuthSys.run (s : AuthSys) (events : List (Event AuthCall)) : AuthSys := Sys.run AuthOp.exec AuthCall.body s events

/-- The call, started in `since` and ended with the answer, has published version `n` of the user: it raised the
version to `n`, or it published a row that had version `n` when it started. -/
inductive Publishes (id : ℕ) (n : ℤ) : AuthCall → AuthWorld → AuthAnswer → Prop where
  | bump (tx : AuthTx) (since : AuthWorld) : Publishes id n (.bumpUserAuthVersion id tx) since (.version (.ok n))
  | delete (aborts : Bool) (since : AuthWorld) : Publishes id n (.deleteUser id aborts) since (.version (.ok n))
  | row {since : AuthWorld} {u : User} (hrow : since.users id = some u) (hn : u.authVersion = n) :
      Publishes id n (.publishUserAuthCache id) since (.unit (.ok ()))

/-- A publish that has ended left the floor at its version or above. -/
theorem published_floor {n : ℤ} {c : AuthCall} {since v : AuthWorld} {a : AuthAnswer} (h : Publishes id n c since a)
    (hknows : c.Knows since a v) : n ≤ v.committedVersion id := by
  cases h with
  | bump => exact hknows n rfl
  | delete => exact hknows n rfl
  | row hrow hn =>
    rw [← hn]
    exact hknows rfl _ hrow

/-- **The fence.**  Take any run, in which some call has published version `n` of a user, and any continuation
of it.  A read of the user that was started in the continuation and has ended with a user returned one with
version `n` or above; and no floor has gone down. -/
theorem auth_version_fence (w : AuthWorld) (past future : List (Event AuthCall)) : let s := AuthSys.run ⟨w, []⟩ past
    let t := s.run future
    (∀ id n i c since a, s.Ended i c since a → Publishes id n c since a →
      ∀ j started user, s.calls.length ≤ j → t.Ended j (.getUserCache id) started (.user (.ok user)) →
        n ≤ user.authVersion) ∧
    ∀ id, s.world.committedVersion id ≤ t.world.committedVersion id := by
  intro s t
  have hbody : ∀ n c v, authProtocol.Inv v → authProtocol.Rely (n, c) w v → True →
      (AuthCall.body n c).Keeps authProtocol (n, c) (c.Knows v) v :=
    fun n c v _ _ _ => c.body_keeps n v
  have hs : Sys.Good authProtocol w (fun _ => AuthCall.Knows) s :=
    (Sys.run_keeps hbody past (Sys.good_init trivial) (Sys.admits_of_forall _ _ _ _)).1
  have ht := Sys.run_keeps hbody future hs (Sys.admits_of_forall _ _ _ _)
  have hnew := Sys.run_newSince hbody future hs Sys.newSince_self (Sys.admits_of_forall _ _ _ _)
  constructor
  · intro id n i c since a hended hpublished j started user hj hread
    have hfloor : n ≤ s.world.committedVersion id := published_floor hpublished (hs.ended hended)
    have hstarted : Later s.world started := (hnew.2.2 j _ hj hread).1
    have hknows : AtLeast (started.committedVersion id) (.ok user) := ht.1.ended hread
    calc n ≤ s.world.committedVersion id := hfloor
      _ ≤ started.committedVersion id := hstarted.1 id
      _ ≤ user.authVersion := hknows user rfl
  · exact fun id => ht.2.1 id

/-- One user, number 7, whose row has version 1, and an empty cache. -/
def coldCache : AuthWorld where
  now := 0
  cacheSeconds := 60
  users := fun id => if id = 7 then some ⟨⟨"default", "", 500, 1, 1, "ada", ""⟩, 1⟩ else none
  hash := fun _ => none
  fence := fun _ => none
  committed := fun _ => none

/-- A reader of version 1 stalls before it fills the cache, and a password change publishes version 2. -/
def staleFill : List (Event AuthCall) :=
  [.start (.getUserCache 7), .advance 0, .advance 0, .advance 0,
    .start (.bumpUserAuthVersion 7 ⟨fun u => u, false, false⟩), .advance 1, .advance 1, .advance 1, .advance 1, .advance 1]

/-- The stalled reader wakes up, then somebody reads. -/
def readAfter : List (Event AuthCall) :=
  [.advance 0, .start (.getUserCache 7), .advance 2, .advance 2, .advance 2, .advance 2]

theorem auth_version_fence_staleFill : let s := AuthSys.run ⟨coldCache, []⟩ staleFill
    let t := s.run readAfter
    (∃ since, t.Ended 0 (.getUserCache 7) since (.user (.error .cachePending))) ∧
    ∃ since user, t.Ended 2 (.getUserCache 7) since (.user (.ok user)) ∧ user.authVersion = 2 ∧
      2 ≤ user.authVersion := by
  refine ⟨⟨_, rfl⟩, _, _, rfl, rfl, ?_⟩
  exact (auth_version_fence coldCache staleFill readAfter).1 7 2 1 _ _ _ rfl
    (Publishes.bump ⟨fun u => u, false, false⟩ _) 2 _ _ (by decide) rfl

end NovaMaas.Auth
