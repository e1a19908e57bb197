/-
  What one statement can do to a session.

  `SessionInv` holds between any two statements, `SessionLater` relates the worlds before and after.  The heart is
  `Sealed`: the row is marked revoked, the cache shows no active snapshot of it, and a deny state stays in the
  cache until no active snapshot that was read in time can be stored any more (`lastFill`).  Sealed sessions stay
  sealed: a snapshot that comes in before `lastFill` meets the deny state and is refused, one that comes in after
  it is past its own deadline and is deleted on arrival.

  Not every publish is harmless as such; `SessionOp.Fits` says what the calls see to (`SessionCalls`).
-/
import NovaMaas.Auth.Session

open List Option

namespace NovaMaas.Auth

open Interleave SessionWorld

variable {w v : SessionWorld}

/-! ## The invariant -/

/-- The row of a session now, against its row before: a row that is not active any more is not written again. -/
structure RowLater (r r' : UserSession) : Prop where
  userID : r'.userID = r.userID
  expiresAt : r'.expiresAt = r.expiresAt
  version : r.version ≤ r'.version
  closed : r.status ≠ .active → r' = r

structure SessionInv (w : SessionWorld) : Prop where
  /-- A session is marked revoked in the past, and its row says so. -/
  closed : ∀ sid t, w.history.closedAt sid = some t →
    t ≤ w.now ∧ ∃ r, w.sessions.get? sid = some r ∧ r.status = .revoked
  /-- No other session's row does. -/
  marked : ∀ sid r, w.sessions.get? sid = some r → (r.status = .active ∧ r.revokedAt = 0) ∨
    (w.history.closedAt sid).isSome
  /-- The cache is never ahead of the row, and knows when the session expires. -/
  behind : ∀ sid h, w.cache sid = some h → ∃ r, w.sessions.get? sid = some r ∧ r.expiresAt = h.entry.expiresAt ∧
    h.entry.version ≤ r.version

/-- No active snapshot of a session that was marked revoked at `t` may be in the cache after this. -/
def SessionWorld.lastFill (w : SessionWorld) (t : ℕ) (r : UserSession) : ℕ :=
  min (t + 1000 * w.cacheSeconds) (1000 * r.expiresAt)

/-- The session is revoked for good, in the database and in the cache. -/
def Sealed (w : SessionWorld) (sid : String) : Prop :=
  ∃ t r, w.history.closedAt sid = some t ∧ w.sessions.get? sid = some r ∧
    (∀ h, w.live sid = some h → h.entry.status ≠ .active) ∧
    (w.now ≤ w.lastFill t r → ∃ h, w.live sid = some h ∧ w.lastFill t r ≤ h.goneAfter)

structure SessionLater (w v : SessionWorld) : Prop where
  now : w.now ≤ v.now
  seconds : v.cacheSeconds = w.cacheSeconds
  rows : ∀ sid r, w.sessions.get? sid = some r → ∃ r', v.sessions.get? sid = some r' ∧ RowLater r r'
  closed : ∀ sid t, w.history.closedAt sid = some t → v.history.closedAt sid = some t
  closedNew : ∀ sid t, w.history.closedAt sid = none → v.history.closedAt sid = some t → w.now ≤ t
  sealed : ∀ sid, Sealed w sid → Sealed v sid

instance (w : SessionWorld) (sid : String) : Decidable (Sealed w sid) :=
  match hclosed : w.history.closedAt sid, hrow : w.sessions.get? sid with
  | some t, some r => decidable_of_iff ((∀ h ∈ w.live sid, h.entry.status ≠ .active) ∧
      (w.now ≤ w.lastFill t r → ∃ h ∈ w.live sid, w.lastFill t r ≤ h.goneAfter)) (by simp [Sealed, hclosed, hrow])
  | none, _ => isFalse (by simp [Sealed, hclosed])
  | some _, none => isFalse (by simp [Sealed, hrow])

/-- The session is not to be reported as active any more: it is sealed, or it has expired. -/
def Shut (w : SessionWorld) (sid : String) : Prop :=
  Sealed w sid ∨ ∃ r, w.sessions.get? sid = some r ∧ r.expiresAt ≤ w.unix

theorem RowLater.refl (r : UserSession) : RowLater r r := ⟨rfl, rfl, le_rfl, fun _ => rfl⟩

theorem RowLater.trans {a b c : UserSession} (hab : RowLater a b) (hbc : RowLater b c) : RowLater a c := by
  refine ⟨hbc.userID.trans hab.userID, hbc.expiresAt.trans hab.expiresAt, hab.version.trans hbc.version, ?_⟩
  intro ha
  have hb : b = a := hab.closed ha
  rw [← hb] at ha ⊢
  exact hbc.closed ha

theorem SessionLater.refl (w : SessionWorld) : SessionLater w w where
  now := le_rfl
  seconds := rfl
  rows := fun _ r hr => ⟨r, hr, RowLater.refl r⟩
  closed := fun _ _ h => h
  closedNew := fun _ _ h h' => by
    rw [h] at h'
    cases h'
  sealed := fun _ h => h

theorem SessionLater.trans {u v w : SessionWorld} (huv : SessionLater u v) (hvw : SessionLater v w) :
    SessionLater u w where
  now := huv.now.trans hvw.now
  seconds := hvw.seconds.trans huv.seconds
  rows := by
    intro sid a ha
    obtain ⟨b, hb, hab⟩ := huv.rows sid a ha
    obtain ⟨c, hc, hbc⟩ := hvw.rows sid b hb
    exact ⟨c, hc, hab.trans hbc⟩
  closed := fun sid t h => hvw.closed sid t (huv.closed sid t h)
  closedNew := by
    intro sid t hu hw
    cases hv : v.history.closedAt sid with
    | none => exact huv.now.trans (hvw.closedNew sid t hv hw)
    | some t' =>
      have ht := hvw.closed sid t' hv
      rw [hw] at ht
      obtain rfl := some.inj ht
      exact huv.closedNew sid t hu hv
  sealed := fun sid h => hvw.sealed sid (huv.sealed sid h)

theorem unix_mono (h : w.now ≤ v.now) : w.unix ≤ v.unix := Nat.div_le_div_right h

variable {sid : String}

theorem Shut.mono (h : Shut w sid) (hwv : SessionLater w v) : Shut v sid := by
  rcases h with hsealed | ⟨r, hr, hexpired⟩
  · exact Or.inl (hwv.sealed sid hsealed)
  · obtain ⟨r', hr', hle⟩ := hwv.rows sid r hr
    refine Or.inr ⟨r', hr', ?_⟩
    rw [hle.expiresAt]
    exact hexpired.trans (unix_mono hwv.now)

/-- A row that is not usable is marked revoked, or it has expired. -/
theorem SessionInv.unusable (hw : SessionInv w) {r : UserSession} {now : ℕ}
    (hr : w.sessions.get? sid = some r) (h : ¬ r.Usable now) :
    (w.history.closedAt sid).isSome ∨ r.expiresAt ≤ now := by
  rcases hw.marked sid r hr with ⟨hactive, hrevokedAt⟩ | hclosed
  · exact Or.inr (not_lt.mp fun hlt => h ⟨hactive, hrevokedAt, hlt⟩)
  · exact Or.inl hclosed

/-! ## Reading the cache -/

theorem live_eq_some {h : SessionHash} : w.live sid = some h ↔ w.cache sid = some h ∧ w.now ≤ h.goneAfter := by
  unfold live
  rw [filter_eq_some_iff]
  simp

theorem live_congr (hcache : v.cache sid = w.cache sid) (hnow : v.now = w.now) : v.live sid = w.live sid := by
  unfold live
  rw [hcache, hnow]

/-- Whether a session is sealed is up to the clock, its row and its hash. -/
theorem Sealed.congr (h : Sealed w sid) (hnow : v.now = w.now) (hsec : v.cacheSeconds = w.cacheSeconds)
    (hcache : v.cache sid = w.cache sid) (hclosed : v.history.closedAt sid = w.history.closedAt sid)
    (hrow : v.sessions.get? sid = w.sessions.get? sid) : Sealed v sid := by
  obtain ⟨t, r, ht, hr, hactive, hlast⟩ := h
  have hlive : v.live sid = w.live sid := live_congr hcache hnow
  have hfill : v.lastFill t r = w.lastFill t r := by
    unfold lastFill
    rw [hsec]
  refine ⟨t, r, hclosed.trans ht, hrow.trans hr, ?_, ?_⟩
  · rw [hlive]
    exact hactive
  · rw [hlive, hfill, hnow]
    exact hlast

/-- The session of a row that is active was not marked revoked. -/
theorem SessionInv.not_closed (hw : SessionInv w) {r : UserSession} (hr : w.sessions.get? sid = some r)
    (hactive : r.status = .active) : w.history.closedAt sid = none := by
  cases hc : w.history.closedAt sid with
  | none => rfl
  | some t =>
    obtain ⟨-, r', hr', hrevoked⟩ := hw.closed sid t hc
    rw [hr] at hr'
    obtain rfl := some.inj hr'
    rw [hactive] at hrevoked
    cases hrevoked

/-! ## Writing a row -/

/-- An active row `s` is replaced by `s'`; when `s'` is revoked the session is marked so, now. -/
structure RowWrite (w v : SessionWorld) (s s' : UserSession) : Prop where
  row : w.sessions.get? s.sid = some s
  active : s.status = .active
  sid : s'.sid = s.sid
  userID : s'.userID = s.userID
  expiresAt : s'.expiresAt = s.expiresAt
  version : s.version ≤ s'.version
  now : v.now = w.now
  seconds : v.cacheSeconds = w.cacheSeconds
  cache : v.cache = w.cache
  sessions : v.sessions = w.sessions.put s'
  others : ∀ sid, sid ≠ s.sid → v.history.closedAt sid = w.history.closedAt sid
  own : (v.history.closedAt s.sid = w.history.closedAt s.sid ∧ s'.status = .active ∧ s'.revokedAt = s.revokedAt) ∨
    (v.history.closedAt s.sid = some w.now ∧ s'.status = .revoked)

namespace RowWrite

variable {s s' : UserSession}

theorem get_self (h : RowWrite w v s s') : v.sessions.get? s.sid = some s' := by
  rw [h.sessions, ← h.sid]
  exact Table.get?_put_self _ _

theorem get_ne (h : RowWrite w v s s') {sid : String} (hne : sid ≠ s.sid) :
    v.sessions.get? sid = w.sessions.get? sid := by
  rw [h.sessions]
  refine Table.get?_put_ne ?_
  rw [h.sid]
  exact hne.symm

theorem inv (h : RowWrite w v s s') (hw : SessionInv w) : SessionInv v := by
  have hopen := hw.not_closed h.row h.active
  constructor
  · intro sid t ht
    by_cases hsid : sid = s.sid
    · subst hsid
      rcases h.own with ⟨hown, -⟩ | ⟨hown, hrevoked⟩
      · rw [hown, hopen] at ht
        cases ht
      · rw [hown] at ht
        obtain rfl := some.inj ht
        exact ⟨h.now.ge, s', h.get_self, hrevoked⟩
    · rw [h.others sid hsid] at ht
      rw [h.get_ne hsid, h.now]
      exact hw.closed sid t ht
  · intro sid r hr
    by_cases hsid : sid = s.sid
    · subst hsid
      rw [h.get_self] at hr
      obtain rfl := some.inj hr
      rcases h.own with ⟨-, hactive, hrevokedAt⟩ | ⟨hown, -⟩
      · refine Or.inl ⟨hactive, hrevokedAt.trans ?_⟩
        rcases hw.marked _ s h.row with hs | hs
        · exact hs.2
        · rw [hopen] at hs
          cases hs
      · exact Or.inr (isSome_of_eq_some hown)
    · rw [h.get_ne hsid] at hr
      rw [h.others sid hsid]
      exact hw.marked sid r hr
  · intro sid hash hhash
    rw [h.cache] at hhash
    obtain ⟨r, hr, hexp, hle⟩ := hw.behind sid hash hhash
    by_cases hsid : sid = s.sid
    · subst hsid
      rw [h.row] at hr
      obtain rfl := some.inj hr
      exact ⟨s', h.get_self, h.expiresAt.trans hexp, hle.trans h.version⟩
    · rw [h.get_ne hsid]
      exact ⟨r, hr, hexp, hle⟩

theorem later (h : RowWrite w v s s') (hw : SessionInv w) : SessionLater w v := by
  have hopen := hw.not_closed h.row h.active
  refine ⟨h.now.ge, h.seconds, ?_, ?_, ?_, ?_⟩
  · intro sid r hr
    by_cases hsid : sid = s.sid
    · subst hsid
      rw [h.row] at hr
      obtain rfl := some.inj hr
      exact ⟨s', h.get_self, h.userID, h.expiresAt, h.version, fun hne => absurd h.active hne⟩
    · exact ⟨r, (h.get_ne hsid).trans hr, RowLater.refl r⟩
  · intro sid t ht
    have hsid : sid ≠ s.sid := by
      rintro rfl
      rw [hopen] at ht
      cases ht
    rw [h.others sid hsid]
    exact ht
  · intro sid t hnone ht
    by_cases hsid : sid = s.sid
    · subst hsid
      rcases h.own with ⟨hown, -⟩ | ⟨hown, -⟩
      · rw [hown, hnone] at ht
        cases ht
      · rw [hown] at ht
        exact (some.inj ht).le
    · rw [h.others sid hsid, hnone] at ht
      cases ht
  · intro sid hsealed
    have hsid : sid ≠ s.sid := by
      rintro rfl
      obtain ⟨t, -, ht, -⟩ := hsealed
      rw [hopen] at ht
      cases ht
    exact hsealed.congr h.now h.seconds (congrFun h.cache sid) (h.others sid hsid) (h.get_ne hsid)

end RowWrite

variable {sid : String}

variable {s : UserSession} {userID : ℕ}

/-- The rows that a filtered read finds are in the table. -/
theorem ofUser_eq_some (h : w.ofUser sid userID = some s) : w.sessions.get? sid = some s ∧ s.userID = userID := by
  obtain ⟨hrow, hp⟩ := filter_eq_some_iff.mp h
  exact ⟨hrow, of_decide_eq_true hp⟩

theorem sid_of_get? (h : w.sessions.get? sid = some s) : s.sid = sid := by
  have hkey := Table.key_of_get? h
  exact hkey

variable {now : ℕ}

theorem revocable_eq_some (h : w.revocable sid userID now = some s) :
    w.sessions.get? sid = some s ∧ s.Usable now := by
  obtain ⟨hrow, hp⟩ := filter_eq_some_iff.mp h
  exact ⟨(ofUser_eq_some hrow).1, of_decide_eq_true hp⟩

theorem exchangeable_eq_some {presented : String} (h : w.exchangeable sid userID now presented = some s) :
    w.sessions.get? sid = some s ∧ s.Usable now ∧ s.refreshHash = presented := by
  obtain ⟨hrow, hp⟩ := filter_eq_some_iff.mp h
  exact ⟨(ofUser_eq_some hrow).1, of_decide_eq_true hp⟩

theorem rowWrite_closeRow (now : ℕ) (reason : String) (hrow : w.sessions.get? s.sid = some s)
    (hactive : s.status = .active) : RowWrite w (w.closeRow s now reason) s (s.revoke now reason) where
  row := hrow
  active := hactive
  sid := rfl
  userID := rfl
  expiresAt := rfl
  version := le_rfl
  now := rfl
  seconds := rfl
  cache := rfl
  sessions := rfl
  others := fun _ hne => Function.update_of_ne hne _ _
  own := Or.inr ⟨Function.update_self _ _ _, rfl⟩

theorem rowWrite_exchange (call : ℕ) (next : String) (validUntil : ℕ)
    {presented : String} (h : w.exchangeable sid userID now presented = some s) :
    RowWrite w (w.exchange call sid userID now presented next validUntil) s (s.rotated next now validUntil) := by
  obtain ⟨hrow, husable, -⟩ := exchangeable_eq_some h
  unfold exchange
  rw [h]
  exact {
    row := by rw [sid_of_get? hrow]; exact hrow
    active := husable.1
    sid := rfl
    userID := rfl
    expiresAt := rfl
    version := le_rfl
    now := rfl
    seconds := rfl
    cache := rfl
    sessions := rfl
    others := fun _ _ => rfl
    own := Or.inl ⟨rfl, husable.1, rfl⟩ }

theorem advancedRow_eq_some {version uav next : ℕ} {s' : UserSession}
    (h : w.advancedRow sid userID now version uav next = some s') :
    ∃ s, w.sessions.get? sid = some s ∧ s.status = .active ∧
      s' = { s with version := s.version + 1, userAuthVersion := next, lastActiveAt := now } := by
  obtain ⟨s, hs, rfl⟩ := map_eq_some_iff.mp h
  obtain ⟨hrow, hp⟩ := filter_eq_some_iff.mp hs
  exact ⟨s, (ofUser_eq_some hrow).1, (of_decide_eq_true hp).1, rfl⟩

theorem rowWrite_advance {version uav next : ℕ} {s' : UserSession}
    (h : w.advancedRow sid userID now version uav next = some s') :
    ∃ s, RowWrite w (w.advance sid userID now version uav next) s s' := by
  obtain ⟨s, hrow, hactive, hs'⟩ := advancedRow_eq_some h
  refine ⟨s, ?_⟩
  unfold advance
  rw [h]
  subst hs'
  exact {
    row := by rw [sid_of_get? hrow]; exact hrow
    active := hactive
    sid := rfl
    userID := rfl
    expiresAt := rfl
    version := Nat.le_succ _
    now := rfl
    seconds := rfl
    cache := rfl
    sessions := rfl
    others := fun _ _ => rfl
    own := Or.inl ⟨rfl, hactive, rfl⟩ }

/-- A whole batch is marked revoked, one row after the other. -/
theorem closeRows_later (now : ℕ) (reason : String) : ∀ (batch : List UserSession) (w : SessionWorld),
    SessionInv w → (batch.map (·.sid)).Nodup → (∀ s ∈ batch, w.sessions.get? s.sid = some s ∧ s.status = .active) →
    let v := batch.foldl (fun w s => w.closeRow s now reason) w
    SessionInv v ∧ SessionLater w v ∧
      ∀ s ∈ batch, v.sessions.get? s.sid = some (s.revoke now reason) ∧ (v.history.closedAt s.sid).isSome := by
  intro batch
  induction batch with
  | nil => exact fun w hw _ _ => ⟨hw, SessionLater.refl w, fun _ h => absurd h not_mem_nil⟩
  | cons s batch ih =>
    intro w hw hnodup hrows
    obtain ⟨hrow, hactive⟩ := hrows s mem_cons_self
    have hwrite := rowWrite_closeRow now reason hrow hactive
    obtain ⟨hfresh, hnodup⟩ := nodup_cons.mp hnodup
    have hrest : ∀ x ∈ batch, (w.closeRow s now reason).sessions.get? x.sid = some x ∧ x.status = .active := by
      intro x hx
      have hne : x.sid ≠ s.sid := fun heq => hfresh (mem_map.mpr ⟨x, hx, heq⟩)
      rw [hwrite.get_ne hne]
      exact hrows x (mem_cons_of_mem _ hx)
    obtain ⟨hinv, hlater, hclosed⟩ := ih (w.closeRow s now reason) (hwrite.inv hw) hnodup hrest
    refine ⟨hinv, (hwrite.later hw).trans hlater, ?_⟩
    intro x hx
    rcases mem_cons.mp hx with rfl | hx
    · -- the row of the head is closed, so the rest of the batch leaves it alone
      obtain ⟨r', hr', hle⟩ := hlater.rows x.sid _ hwrite.get_self
      have hsame : r' = x.revoke now reason := by
        refine hle.closed ?_
        show SessionStatus.revoked ≠ .active
        decide
      have hat : (w.closeRow x now reason).history.closedAt x.sid = some w.now := Function.update_self _ _ _
      refine ⟨?_, ?_⟩
      · rw [← hsame]
        exact hr'
      · exact isSome_of_eq_some (hlater.closed _ _ hat)
    · exact hclosed x hx

/-! ## Publishing -/

/-- What the calls see to when they publish: the entry is not ahead of the row; an active one goes by the time
`lastFill` says, a deny state stays until then. -/
structure EntryFits (w : SessionWorld) (entry : SessionInfo) (expiry : Expiry) : Prop where
  row : ∃ r, w.sessions.get? entry.sid = some r ∧ r.expiresAt = entry.expiresAt ∧ entry.version ≤ r.version
  active : ∀ ms, expiry = .deadline ms → entry.status = .active ∧ ∀ t r, w.history.closedAt entry.sid = some t →
    w.sessions.get? entry.sid = some r → ms ≤ w.lastFill t r
  deny : ∀ ms, expiry = .after ms → entry.status ≠ .active ∧ ∀ r, w.sessions.get? entry.sid = some r →
    1000 * w.cacheSeconds ≤ ms ∨ 1000 * r.expiresAt ≤ w.now + ms

section Publish

variable {entry : SessionInfo} {expiry : Expiry}

theorem publish_sessions : (w.publish entry expiry).sessions = w.sessions := by
  unfold publish
  split <;> rfl

theorem publish_now : (w.publish entry expiry).now = w.now := by
  unfold publish
  split <;> rfl

theorem publish_seconds : (w.publish entry expiry).cacheSeconds = w.cacheSeconds := by
  unfold publish
  split <;> rfl

theorem publish_closedAt : (w.publish entry expiry).history.closedAt = w.history.closedAt := by
  unfold publish
  split <;> rfl

theorem publish_cache_ne {sid : String} (h : sid ≠ entry.sid) : (w.publish entry expiry).cache sid = w.cache sid := by
  unfold publish
  split
  · rfl
  · exact Function.update_of_ne h _ _

theorem publish_cache_self (h : ¬ w.refuses entry) :
    (w.publish entry expiry).cache entry.sid = w.hashOf entry expiry := by
  unfold publish
  rw [if_neg h]
  exact Function.update_self _ _ _

theorem hashOf_entry {h : SessionHash} (heq : w.hashOf entry expiry = some h) : h.entry = entry := by
  cases expiry with
  | deadline ms =>
    by_cases hms : ms ≤ w.now
    · rw [hashOf, if_pos hms] at heq
      cases heq
    · rw [hashOf, if_neg hms] at heq
      obtain rfl := some.inj heq
      rfl
  | after =>
    obtain rfl := some.inj heq
    rfl

theorem publish_inv (hw : SessionInv w) (hfit : EntryFits w entry expiry) : SessionInv (w.publish entry expiry) := by
  constructor
  · rw [publish_closedAt, publish_sessions, publish_now]
    exact hw.closed
  · rw [publish_closedAt, publish_sessions]
    exact hw.marked
  · intro sid h hh
    rw [publish_sessions]
    by_cases href : w.refuses entry
    · unfold publish at hh
      rw [if_pos href] at hh
      exact hw.behind sid h hh
    by_cases hsid : sid = entry.sid
    · subst hsid
      rw [publish_cache_self href] at hh
      rw [hashOf_entry hh]
      exact hfit.row
    · rw [publish_cache_ne hsid] at hh
      exact hw.behind sid h hh

/-- A deny state that is accepted after the row was marked revoked seals the session. -/
theorem sealed_of_deny {ms t : ℕ} (hw : SessionInv w) (hfit : EntryFits w entry (.after ms)) (href : ¬ w.refuses entry)
    (ht : w.history.closedAt entry.sid = some t) : Sealed (w.publish entry (.after ms)) entry.sid := by
  obtain ⟨htnow, r, hr, -⟩ := hw.closed entry.sid t ht
  obtain ⟨hdeny, hlong⟩ := hfit.deny ms rfl
  have hlive : (w.publish entry (.after ms)).live entry.sid = some ⟨entry, userSessionCacheSchema, w.now + ms⟩ := by
    rw [live_eq_some, publish_cache_self href, publish_now]
    exact ⟨rfl, Nat.le_add_right _ _⟩
  refine ⟨t, r, ?_, ?_, ?_, ?_⟩
  · rw [publish_closedAt]
    exact ht
  · rw [publish_sessions]
    exact hr
  · intro h hh
    rw [hlive] at hh
    obtain rfl := some.inj hh
    exact hdeny
  · intro _
    refine ⟨_, hlive, ?_⟩
    show min (t + 1000 * (w.publish entry (.after ms)).cacheSeconds) (1000 * r.expiresAt) ≤ w.now + ms
    rw [publish_seconds]
    rcases hlong r hr with h | h
    · exact (min_le_left _ _).trans (by omega)
    · exact (min_le_right _ _).trans h

/-- No publish opens a sealed session again. -/
theorem Sealed.publish {sid : String} (hw : SessionInv w) (hfit : EntryFits w entry expiry) (h : Sealed w sid) :
    Sealed (w.publish entry expiry) sid := by
  by_cases href : w.refuses entry
  · have hsame : w.publish entry expiry = w := if_pos href
    rw [hsame]
    exact h
  by_cases hsid : sid = entry.sid
  · subst hsid
    cases expiry with
    | after =>
      obtain ⟨t, -, ht, -⟩ := h
      exact sealed_of_deny hw hfit href ht
    | deadline ms =>
      obtain ⟨t, r, ht, hr, hactive, hlast⟩ := h
      obtain ⟨hentry, hfill⟩ := hfit.active ms rfl
      have hlate : ¬ w.now ≤ w.lastFill t r := by
        -- before that time the deny state is there, and the script refuses the snapshot
        intro hle
        obtain ⟨hash, hhash, -⟩ := hlast hle
        refine href ?_
        unfold refuses
        rw [hhash]
        simp [hentry, hactive hash hhash]
      have hpast : ms ≤ w.now := (hfill t r ht hr).trans (by omega)
      have hgone : (w.publish entry (.deadline ms)).cache entry.sid = none := by
        rw [publish_cache_self href, hashOf, if_pos hpast]
      refine ⟨t, r, ?_, ?_, ?_, ?_⟩
      · rw [publish_closedAt]
        exact ht
      · rw [publish_sessions]
        exact hr
      · intro hash hhash
        rw [live_eq_some, hgone] at hhash
        cases hhash.1
      · intro hle
        rw [publish_now] at hle
        unfold lastFill at hle hlate
        rw [publish_seconds] at hle
        exact absurd hle hlate
  · exact h.congr publish_now publish_seconds (publish_cache_ne hsid) (congrFun publish_closedAt sid)
      (by rw [publish_sessions])

theorem publish_later (hw : SessionInv w) (hfit : EntryFits w entry expiry) :
    SessionLater w (w.publish entry expiry) where
  now := publish_now.ge
  seconds := publish_seconds
  rows := by
    intro sid r hr
    rw [publish_sessions]
    exact ⟨r, hr, RowLater.refl r⟩
  closed := by
    intro sid t ht
    rw [publish_closedAt]
    exact ht
  closedNew := by
    intro sid t hnone ht
    rw [publish_closedAt, hnone] at ht
    cases ht
  sealed := fun _ h => h.publish hw hfit

end Publish

/-! ## One statement -/

/-- The clock moves on.  Hashes go; a deny state only after its time. -/
theorem wait_later (hw : SessionInv w) (ms : ℕ) :
    SessionInv { w with now := w.now + ms } ∧ SessionLater w { w with now := w.now + ms } := by
  refine ⟨⟨?_, hw.marked, hw.behind⟩, ?_⟩
  · intro sid t ht
    obtain ⟨hle, hr⟩ := hw.closed sid t ht
    exact ⟨hle.trans (Nat.le_add_right _ _), hr⟩
  refine ⟨Nat.le_add_right _ _, rfl, fun _ r hr => ⟨r, hr, RowLater.refl r⟩, fun _ _ h => h, ?_, ?_⟩
  · intro sid t hnone ht
    have ht : w.history.closedAt sid = some t := ht
    rw [hnone] at ht
    cases ht
  · rintro sid ⟨t, r, ht, hr, hactive, hlast⟩
    refine ⟨t, r, ht, hr, ?_, ?_⟩
    · intro h hh
      obtain ⟨hcache, hnow⟩ := live_eq_some.mp hh
      have hnow : w.now + ms ≤ h.goneAfter := hnow
      exact hactive h (live_eq_some.mpr ⟨hcache, by omega⟩)
    · intro hle
      have hle : w.now + ms ≤ w.lastFill t r := hle
      obtain ⟨h, hh, hgone⟩ := hlast (by omega)
      obtain ⟨hcache, -⟩ := live_eq_some.mp hh
      have hstill : w.now + ms ≤ h.goneAfter := by omega
      exact ⟨h, live_eq_some.mpr ⟨hcache, hstill⟩, hgone⟩

variable {s : UserSession}

/-- A new row belongs to no session so far. -/
theorem insert_later (hw : SessionInv w) (hactive : s.status = .active ∧ s.revokedAt = 0) :
    SessionInv (w.insert s) ∧ SessionLater w (w.insert s) := by
  unfold SessionWorld.insert
  cases hnone : w.sessions.get? s.sid with
  | some => exact ⟨hw, SessionLater.refl w⟩
  | none =>
    have hkept : ∀ {sid r}, w.sessions.get? sid = some r → (w.sessions.put s).get? sid = some r := by
      intro sid r hr
      rw [Table.get?_put_ne]
      · exact hr
      · rintro rfl
        rw [hnone] at hr
        cases hr
    refine ⟨⟨?_, ?_, ?_⟩, ?_⟩
    · intro sid t ht
      obtain ⟨hle, r, hr, hrevoked⟩ := hw.closed sid t ht
      exact ⟨hle, r, hkept hr, hrevoked⟩
    · intro sid r hr
      have hr : (w.sessions.put s).get? sid = some r := hr
      by_cases hsid : s.sid = sid
      · subst hsid
        rw [Table.get?_put_self _ _] at hr
        obtain rfl := some.inj hr
        exact Or.inl hactive
      · have hother : (w.sessions.put s).get? sid = w.sessions.get? sid := Table.get?_put_ne hsid
        rw [hother] at hr
        exact hw.marked sid r hr
    · intro sid h hh
      obtain ⟨r, hr, hle⟩ := hw.behind sid h hh
      exact ⟨r, hkept hr, hle⟩
    · refine ⟨le_rfl, rfl, fun _ r hr => ⟨r, hkept hr, RowLater.refl r⟩, fun _ _ h => h, ?_, ?_⟩
      · intro sid t hopen ht
        have ht : w.history.closedAt sid = some t := ht
        rw [hopen] at ht
        cases ht
      · intro sid hsealed
        obtain ⟨t, r, -, hr, -⟩ := id hsealed
        exact hsealed.congr rfl rfl rfl rfl ((hkept hr).trans hr.symm)

theorem load_later (hw : SessionInv w) (call : ℕ) (sid : String) (userID : ℕ) :
    SessionInv (w.load call sid userID) ∧ SessionLater w (w.load call sid userID) := by
  refine ⟨⟨hw.closed, hw.marked, hw.behind⟩, le_rfl, rfl, fun _ r hr => ⟨r, hr, RowLater.refl r⟩, fun _ _ h => h, ?_, ?_⟩
  · intro sid t hopen ht
    have ht : w.history.closedAt sid = some t := ht
    rw [hopen] at ht
    cases ht
  · exact fun _ h => h.congr rfl rfl rfl rfl rfl

theorem exchange_later (hw : SessionInv w) (call : ℕ) (sid : String) (userID now : ℕ) (presented next : String)
    (validUntil : ℕ) : SessionInv (w.exchange call sid userID now presented next validUntil) ∧
      SessionLater w (w.exchange call sid userID now presented next validUntil) := by
  cases h : w.exchangeable sid userID now presented with
  | none =>
    have hsame : w.exchange call sid userID now presented next validUntil = w := by
      unfold exchange
      rw [h]
    rw [hsame]
    exact ⟨hw, SessionLater.refl w⟩
  | some =>
    have hwrite := rowWrite_exchange call next validUntil h
    exact ⟨hwrite.inv hw, hwrite.later hw⟩

theorem revokeOne_later (hw : SessionInv w) (sid : String) (userID now : ℕ) (reason : String) :
    SessionInv (w.revokeOne sid userID now reason) ∧ SessionLater w (w.revokeOne sid userID now reason) := by
  unfold revokeOne
  cases h : w.revocable sid userID now with
  | none => exact ⟨hw, SessionLater.refl w⟩
  | some =>
    obtain ⟨hrow, husable⟩ := revocable_eq_some h
    rw [← sid_of_get? hrow] at hrow
    have hwrite := rowWrite_closeRow now reason hrow husable.1
    exact ⟨hwrite.inv hw, hwrite.later hw⟩

theorem advance_later (hw : SessionInv w) (sid : String) (userID now version uav next : ℕ) :
    SessionInv (w.advance sid userID now version uav next) ∧
      SessionLater w (w.advance sid userID now version uav next) := by
  cases h : w.advancedRow sid userID now version uav next with
  | none =>
    have hsame : w.advance sid userID now version uav next = w := by
      unfold advance
      rw [h]
    rw [hsame]
    exact ⟨hw, SessionLater.refl w⟩
  | some =>
    obtain ⟨s, hwrite⟩ := rowWrite_advance h
    exact ⟨hwrite.inv hw, hwrite.later hw⟩

theorem revocableMany_rows (sids : List String) : ((w.revocableMany sids).map (·.sid)).Nodup ∧
      ∀ s ∈ w.revocableMany sids, w.sessions.get? s.sid = some s ∧ s.status = .active := by
  constructor
  · exact (List.Sublist.map _ filter_sublist).nodup w.sessions.nodup
  · intro s hs
    obtain ⟨hmem, hp⟩ := mem_filter.mp hs
    exact ⟨Table.get?_of_mem hmem, (of_decide_eq_true hp).2⟩

theorem logoutTarget_eq_some {sid presented : String} {now : ℕ}
    (h : w.logoutTarget sid presented now = some s) : w.sessions.get? sid = some s ∧ s.status = .active := by
  obtain ⟨hrow, hp⟩ := filter_eq_some_iff.mp h
  exact ⟨hrow, (of_decide_eq_true hp).1.1⟩

/-- How long a deny state lives: a whole cache period, or past the end of the session. -/
theorem denyTTL_long {expiresAt now : ℕ} (hnow : now ≤ v.now) (hsec : v.cacheSeconds = w.cacheSeconds) :
    1000 * v.cacheSeconds ≤ w.denyTTL expiresAt now ∨ 1000 * expiresAt ≤ v.now + w.denyTTL expiresAt now := by
  unfold denyTTL
  rw [hsec]
  simp only
  split <;> omega

theorem denyFits {now at' : ℕ} {reason : String} {status : SessionStatus} {sid : String}
    (hrow : w.sessions.get? sid = some s) (hstatus : status ≠ .active) (hnow : at' ≤ w.now) :
    EntryFits w (denied s.toSessionInfo status now reason) (.after (w.denyTTL s.expiresAt at')) := by
  have hsid := sid_of_get? hrow
  refine ⟨⟨s, by rw [← hsid] at hrow; exact hrow, rfl, le_rfl⟩, ?_, ?_⟩
  · intro ms h
    cases h
  · intro ms h
    obtain rfl := Expiry.after.inj h
    refine ⟨hstatus, ?_⟩
    intro r hr
    have hr : w.sessions.get? s.sid = some r := hr
    rw [hsid, hrow] at hr
    obtain rfl := some.inj hr
    exact denyTTL_long hnow rfl

/-- Logging out with a refresh token: the deny state and the row in one transaction. -/
theorem revokeByHash_later (hw : SessionInv w) (sid presented : String) (now : ℕ) (reason : String) :
    SessionInv (w.revokeByHash sid presented now reason) ∧
      SessionLater w (w.revokeByHash sid presented now reason) := by
  unfold revokeByHash
  cases h : w.logoutTarget sid presented now with
  | none => exact ⟨hw, SessionLater.refl w⟩
  | some s =>
    obtain ⟨hrow, hactive⟩ := logoutTarget_eq_some h
    let fence := denied s.toSessionInfo .revoking now reason
    let fenced := w.publish fence (.after (w.denyTTL s.expiresAt w.now))
    have hfit : EntryFits w fence (.after (w.denyTTL s.expiresAt w.now)) := denyFits hrow (by decide) le_rfl
    simp only
    split
    · exact ⟨hw, SessionLater.refl w⟩
    · have hinv : SessionInv fenced := publish_inv hw hfit
      have hlater : SessionLater w fenced := publish_later hw hfit
      rw [← sid_of_get? hrow] at hrow
      have hkept : fenced.sessions.get? s.sid = some s := by
        rw [publish_sessions]
        exact hrow
      have hwrite := rowWrite_closeRow now reason hkept hactive
      exact ⟨hwrite.inv hinv, hlater.trans (hwrite.later hinv)⟩

/-- What a call sees to before it issues a statement. -/
def SessionOp.Fits : SessionOp → SessionWorld → Prop
  | .publish _ entry expiry, w => EntryFits w entry expiry
  | .insert s, _ => s.status = .active ∧ s.revokedAt = 0
  | _, _ => True

/-- **What one statement does.** -/
theorem SessionOp.later {op : SessionOp} (hw : SessionInv w) (hfit : op.Fits w) :
    SessionInv (op.exec w) ∧ SessionLater w (op.exec w) := by
  cases op with
  | read => exact ⟨hw, SessionLater.refl w⟩
  | find => exact ⟨hw, SessionLater.refl w⟩
  | findMany => exact ⟨hw, SessionLater.refl w⟩
  | wait ms => exact wait_later hw ms
  | insert => exact insert_later hw hfit
  | load call sid userID => exact load_later hw call sid userID
  | exchange call sid userID now presented next validUntil =>
    exact exchange_later hw call sid userID now presented next validUntil
  | revokeReused sid userID now => exact revokeOne_later hw sid userID now _
  | revokeOne sid userID now reason => exact revokeOne_later hw sid userID now reason
  | revokeByHash sid presented now reason => exact revokeByHash_later hw sid presented now reason
  | revokeMany sids now reason =>
    obtain ⟨hnodup, hrows⟩ := revocableMany_rows (w := w) sids
    obtain ⟨hinv, hlater, -⟩ := closeRows_later now reason _ w hw hnodup hrows
    exact ⟨hinv, hlater⟩
  | advance sid userID now version uav next => exact advance_later hw sid userID now version uav next
  | publish => exact ⟨publish_inv hw hfit, publish_later hw hfit⟩

end NovaMaas.Auth
