/-
  Refresh tokens: what any interleaving of refresh attempts can do to a session.

  A session has a current refresh hash and remembers the one before it.  An attempt that presents the current hash
  EXCHANGES it for a next one; an attempt that presents the previous hash is a RACE inside the window and a REPLAY
  outside it.  All of this rests on the exchange being one compare-and-swap, so the exchanges of a session form a
  chain: each one presents what the one before it issued (`RotationInv`).

  A run may hold any calls at all.  What an attempt did is known to the attempt alone, and no other call has its
  number: so `rotationProtocol` is one in which a call relies on more than what all calls keep (`Untouched`).
-/
import NovaMaas.Auth.SessionRevocation

open List Option

namespace NovaMaas.Auth

open Interleave Prog.Keeps SessionWorld

variable {w v u : SessionWorld} {calm : Prop}

/-! ## The chain of exchanges -/

namespace SessionWorld

def exchangesOf (w : SessionWorld) (sid : String) : List Exchange := w.history.exchanges.filter fun e => e.sid = sid

def exchangesBy (w : SessionWorld) (call : ℕ) : List Exchange := w.history.exchanges.filter fun e => e.call = call

/-- The hashes a session was ever given, in order: the one it was created with, once it was exchanged, and the next
hash of each exchange. -/
def hashesIssued (w : SessionWorld) (sid : String) : List String :=
  ((w.exchangesOf sid).head?.map (·.presented)).toList ++ (w.exchangesOf sid).map (·.next)

end SessionWorld

/-- The hash is or was the current refresh hash of the session. -/
def Issued (w : SessionWorld) (sid hash : String) : Prop :=
  (∃ r, w.sessions.get? sid = some r ∧ r.refreshHash = hash) ∨ ∃ e ∈ w.exchangesOf sid, e.presented = hash

/-- Each exchange presents what the one before it issued. -/
def Chained (exchanges : List Exchange) : Prop := exchanges.IsChain fun a b => a.next = b.presented

structure RotationInv (w : SessionWorld) : Prop where
  none : ∀ sid, w.sessions.get? sid = none → w.exchangesOf sid = []
  first : ∀ sid r, w.sessions.get? sid = some r → w.exchangesOf sid = [] → r.previousRefreshHash = ""
  last : ∀ sid r e, w.sessions.get? sid = some r → (w.exchangesOf sid).getLast? = some e →
    r.refreshHash = e.next ∧ r.previousRefreshHash = e.presented
  chained : ∀ sid, Chained (w.exchangesOf sid)
  moves : ∀ e ∈ w.history.exchanges, e.presented ≠ e.next
  /-- The row an exchange was made on did not show the presented hash as its previous one. -/
  shown : ∀ e ∈ w.history.exchanges, ∃ r, w.history.seen e.call = some r ∧ r.previousRefreshHash ≠ e.presented

/-- The row of a session now, against its row before.  In a `calm` run no session is advanced. -/
structure RowKept (calm : Prop) (r r' : UserSession) : Prop where
  userID : r'.userID = r.userID
  expiresAt : r'.expiresAt = r.expiresAt
  version : calm → r'.version = r.version
  status : r'.status = r.status ∨ r'.status = .revoked
  active : r'.status = .active → r'.revokedAt = r.revokedAt
  closed : r.status ≠ .active → r' = r

structure RotationLater (calm : Prop) (w v : SessionWorld) : Prop where
  now : w.now ≤ v.now
  rows : ∀ sid r, w.sessions.get? sid = some r → ∃ r', v.sessions.get? sid = some r' ∧ RowKept calm r r'
  issued : ∀ sid hash, Issued w sid hash → Issued v sid hash

theorem RowKept.refl (r : UserSession) : RowKept calm r r :=
  ⟨rfl, rfl, fun _ => rfl, Or.inl rfl, fun _ => rfl, fun _ => rfl⟩

theorem RowKept.trans {a b c : UserSession} (hab : RowKept calm a b) (hbc : RowKept calm b c) : RowKept calm a c where
  userID := hbc.userID.trans hab.userID
  expiresAt := hbc.expiresAt.trans hab.expiresAt
  version := fun h => (hbc.version h).trans (hab.version h)
  status := by
    rcases hbc.status with hc | hc
    · rw [hc]
      exact hab.status
    · exact Or.inr hc
  active := by
    intro hc
    by_cases hb : b.status = .active
    · exact (hbc.active hc).trans (hab.active hb)
    · rw [hbc.closed hb] at hc
      exact absurd hc hb
  closed := by
    intro ha
    have hb : b = a := hab.closed ha
    rw [← hb] at ha ⊢
    exact hbc.closed ha

theorem RotationLater.refl (w : SessionWorld) : RotationLater calm w w where
  now := le_rfl
  rows := fun _ r hr => ⟨r, hr, RowKept.refl r⟩
  issued := fun _ _ h => h

theorem RotationLater.trans (hwv : RotationLater calm w v) (hvu : RotationLater calm v u) :
    RotationLater calm w u where
  now := hwv.now.trans hvu.now
  rows := by
    intro sid a ha
    obtain ⟨b, hb, hab⟩ := hwv.rows sid a ha
    obtain ⟨c, hc, hbc⟩ := hvu.rows sid b hb
    exact ⟨c, hc, hab.trans hbc⟩
  issued := fun sid hash h => hvu.issued sid hash (hwv.issued sid hash h)

/-- The previous hash of a session was issued to it. -/
theorem RotationInv.issued_previous (hw : RotationInv w) {sid : String} {r : UserSession}
    (hr : w.sessions.get? sid = some r) (hne : r.previousRefreshHash ≠ "") : Issued w sid r.previousRefreshHash := by
  cases he : (w.exchangesOf sid).getLast? with
  | none => exact absurd (hw.first sid r hr (getLast?_eq_none_iff.mp he)) hne
  | some e => exact Or.inr ⟨e, mem_of_getLast? he, (hw.last sid r e hr he).2.symm⟩

/-- The previous hash of a session is not the current one. -/
theorem RotationInv.previous_ne (hw : RotationInv w) {sid : String} {r : UserSession}
    (hr : w.sessions.get? sid = some r) (hne : r.refreshHash ≠ "") : r.previousRefreshHash ≠ r.refreshHash := by
  cases he : (w.exchangesOf sid).getLast? with
  | none =>
    rw [hw.first sid r hr (getLast?_eq_none_iff.mp he)]
    exact Ne.symm hne
  | some e =>
    obtain ⟨hcur, hprev⟩ := hw.last sid r e hr he
    rw [hcur, hprev]
    exact hw.moves e (mem_of_mem_filter (mem_of_getLast? he))

/-! ## Statements that exchange nothing -/

/-- What a statement does that is neither an exchange nor the read of an attempt: rows keep both their hashes. -/
structure PlainStep (calm : Prop) (w v : SessionWorld) : Prop where
  now : w.now ≤ v.now
  exchanges : v.history.exchanges = w.history.exchanges
  seen : v.history.seen = w.history.seen
  rows : ∀ sid r, w.sessions.get? sid = some r → ∃ r', v.sessions.get? sid = some r' ∧ RowKept calm r r' ∧
    r'.refreshHash = r.refreshHash ∧ r'.previousRefreshHash = r.previousRefreshHash
  new : ∀ sid r, w.sessions.get? sid = none → v.sessions.get? sid = some r → r.previousRefreshHash = ""

namespace PlainStep

theorem of_sessions (hnow : w.now ≤ v.now) (hex : v.history.exchanges = w.history.exchanges)
    (hseen : v.history.seen = w.history.seen) (hrows : v.sessions = w.sessions) : PlainStep calm w v where
  now := hnow
  exchanges := hex
  seen := hseen
  rows := by
    intro sid r hr
    rw [hrows]
    exact ⟨r, hr, RowKept.refl r, rfl, rfl⟩
  new := by
    intro sid r hnone hr
    rw [hrows, hnone] at hr
    cases hr

theorem refl (w : SessionWorld) : PlainStep calm w w := of_sessions le_rfl rfl rfl rfl

theorem trans (hwv : PlainStep calm w v) (hvu : PlainStep calm v u) : PlainStep calm w u where
  now := hwv.now.trans hvu.now
  exchanges := hvu.exchanges.trans hwv.exchanges
  seen := hvu.seen.trans hwv.seen
  rows := by
    intro sid a ha
    obtain ⟨b, hb, hab, hcur, hprev⟩ := hwv.rows sid a ha
    obtain ⟨c, hc, hbc, hcur', hprev'⟩ := hvu.rows sid b hb
    exact ⟨c, hc, hab.trans hbc, hcur'.trans hcur, hprev'.trans hprev⟩
  new := by
    intro sid r hnone hr
    cases hv : v.sessions.get? sid with
    | none => exact hvu.new sid r hv hr
    | some b =>
      obtain ⟨c, hc, -, -, hprev⟩ := hvu.rows sid b hv
      rw [hr] at hc
      obtain rfl := some.inj hc
      exact hprev.trans (hwv.new sid b hnone hv)

/-- A row is written over, with the same hashes. -/
theorem write {s : UserSession} (s' : UserSession) (hrow : w.sessions.get? s.sid = some s) (hsid : s'.sid = s.sid)
    (hkept : RowKept calm s s') (hcur : s'.refreshHash = s.refreshHash)
    (hprev : s'.previousRefreshHash = s.previousRefreshHash) (hnow : w.now ≤ v.now)
    (hex : v.history.exchanges = w.history.exchanges) (hseen : v.history.seen = w.history.seen)
    (hput : v.sessions = w.sessions.put s') : PlainStep calm w v where
  now := hnow
  exchanges := hex
  seen := hseen
  rows := by
    intro sid r hr
    rw [hput]
    by_cases h : sid = s.sid
    · subst h
      rw [hrow] at hr
      obtain rfl := some.inj hr
      exact ⟨s', by rw [← hsid]; exact Table.get?_put_self _ _, hkept, hcur, hprev⟩
    · rw [Table.get?_put_ne (by rw [hsid]; exact Ne.symm h)]
      exact ⟨r, hr, RowKept.refl r, rfl, rfl⟩
  new := by
    intro sid r hnone hr
    have h : sid ≠ s.sid := by
      rintro rfl
      rw [hrow] at hnone
      cases hnone
    rw [hput, Table.get?_put_ne (by rw [hsid]; exact Ne.symm h), hnone] at hr
    cases hr

theorem exchangesOf (h : PlainStep calm w v) (sid : String) : v.exchangesOf sid = w.exchangesOf sid := by
  unfold SessionWorld.exchangesOf
  rw [h.exchanges]

theorem inv (h : PlainStep calm w v) (hw : RotationInv w) : RotationInv v := by
  have hback : ∀ sid r, v.sessions.get? sid = some r →
      (w.sessions.get? sid = none ∧ r.previousRefreshHash = "") ∨ ∃ a, w.sessions.get? sid = some a ∧
        r.refreshHash = a.refreshHash ∧ r.previousRefreshHash = a.previousRefreshHash := by
    intro sid r hr
    cases ha : w.sessions.get? sid with
    | none => exact Or.inl ⟨rfl, h.new sid r ha hr⟩
    | some a =>
      obtain ⟨r', hr', -, hsame⟩ := h.rows sid a ha
      rw [hr] at hr'
      obtain rfl := some.inj hr'
      exact Or.inr ⟨a, rfl, hsame⟩
  refine ⟨?_, ?_, ?_, ?_, ?_, ?_⟩
  · intro sid hnone
    rw [h.exchangesOf]
    refine hw.none sid ?_
    cases ha : w.sessions.get? sid with
    | none => rfl
    | some a =>
      obtain ⟨r', hr', -⟩ := h.rows sid a ha
      rw [hnone] at hr'
      cases hr'
  · intro sid r hr hempty
    rw [h.exchangesOf] at hempty
    rcases hback sid r hr with ⟨-, hprev⟩ | ⟨a, ha, -, hprev⟩
    · exact hprev
    · exact hprev.trans (hw.first sid a ha hempty)
  · intro sid r e hr he
    rw [h.exchangesOf] at he
    rcases hback sid r hr with ⟨hnone, -⟩ | ⟨a, ha, hcur, hprev⟩
    · rw [hw.none sid hnone] at he
      cases he
    · obtain ⟨hcur', hprev'⟩ := hw.last sid a e ha he
      exact ⟨hcur.trans hcur', hprev.trans hprev'⟩
  · intro sid
    rw [h.exchangesOf]
    exact hw.chained sid
  · rw [h.exchanges]
    exact hw.moves
  · rw [h.exchanges, h.seen]
    exact hw.shown

theorem later (h : PlainStep calm w v) : RotationLater calm w v where
  now := h.now
  rows := by
    intro sid r hr
    obtain ⟨r', hr', hkept, -⟩ := h.rows sid r hr
    exact ⟨r', hr', hkept⟩
  issued := by
    intro sid hash hissued
    rcases hissued with ⟨r, hr, rfl⟩ | ⟨e, he, rfl⟩
    · obtain ⟨r', hr', -, hcur, -⟩ := h.rows sid r hr
      exact Or.inl ⟨r', hr', hcur⟩
    · rw [← h.exchangesOf] at he
      exact Or.inr ⟨e, he, rfl⟩

end PlainStep

variable {s : UserSession}

theorem rowKept_revoke (now : ℕ) (reason : String) (hactive : s.status = .active) :
    RowKept calm s (s.revoke now reason) where
  userID := rfl
  expiresAt := rfl
  version := fun _ => rfl
  status := Or.inr rfl
  active := fun h => by cases h
  closed := fun h => absurd hactive h

theorem plain_closeRow (now : ℕ) (reason : String) (hrow : w.sessions.get? s.sid = some s)
    (hactive : s.status = .active) : PlainStep calm w (w.closeRow s now reason) :=
  PlainStep.write (s.revoke now reason) hrow rfl (rowKept_revoke now reason hactive) rfl rfl le_rfl rfl rfl rfl

theorem plain_closeRows (now : ℕ) (reason : String) : ∀ (batch : List UserSession) (w : SessionWorld),
    (batch.map (·.sid)).Nodup → (∀ s ∈ batch, w.sessions.get? s.sid = some s ∧ s.status = .active) →
      PlainStep calm w (batch.foldl (fun w s => w.closeRow s now reason) w) := by
  intro batch
  induction batch with
  | nil => exact fun w _ _ => PlainStep.refl w
  | cons s _ ih =>
    intro w hnodup hrows
    obtain ⟨hrow, hactive⟩ := hrows s mem_cons_self
    obtain ⟨hfresh, hnodup⟩ := nodup_cons.mp hnodup
    refine (plain_closeRow now reason hrow hactive).trans (ih _ hnodup ?_)
    intro x hx
    have hne : x.sid ≠ s.sid := fun heq => hfresh (mem_map.mpr ⟨x, hx, heq⟩)
    rw [(rowWrite_closeRow now reason hrow hactive).get_ne hne]
    exact hrows x (mem_cons_of_mem _ hx)

theorem plain_publish (entry : SessionInfo) (expiry : Expiry) : PlainStep calm w (w.publish entry expiry) := by
  unfold publish
  split
  · exact PlainStep.refl w
  · exact PlainStep.of_sessions le_rfl rfl rfl rfl

/-- The statements of every call but a refresh attempt.  A session is created with no previous hash. -/
def SessionOp.Plain (calm : Prop) : SessionOp → Prop
  | .insert s => s.previousRefreshHash = ""
  | .load _ _ _ => False
  | .exchange _ _ _ _ _ _ _ => False
  | .advance _ _ _ _ _ _ => ¬ calm
  | _ => True

theorem plain_insert (hprev : s.previousRefreshHash = "") : PlainStep calm w (w.insert s) := by
  unfold SessionWorld.insert
  cases hnone : w.sessions.get? s.sid with
  | some => exact PlainStep.refl w
  | none =>
    refine ⟨le_rfl, rfl, rfl, ?_, ?_⟩
    · intro sid r hr
      have hne : s.sid ≠ sid := by
        rintro rfl
        rw [hnone] at hr
        cases hr
      have hother : (w.putRow s).sessions.get? sid = w.sessions.get? sid := Table.get?_put_ne hne
      exact ⟨r, hother.trans hr, RowKept.refl r, rfl, rfl⟩
    · intro sid r hr hr'
      by_cases h : sid = s.sid
      · subst h
        have hself : (w.putRow s).sessions.get? s.sid = some s := Table.get?_put_self _ _
        rw [hself] at hr'
        obtain rfl := some.inj hr'
        exact hprev
      · have hother : (w.putRow s).sessions.get? sid = w.sessions.get? sid := Table.get?_put_ne (Ne.symm h)
        rw [hother, hr] at hr'
        cases hr'

theorem plain_revokeOne (sid : String) (userID now : ℕ) (reason : String) :
    PlainStep calm w (w.revokeOne sid userID now reason) := by
  unfold revokeOne
  cases h : w.revocable sid userID now with
  | none => exact PlainStep.refl w
  | some =>
    obtain ⟨hrow, husable⟩ := revocable_eq_some h
    rw [← sid_of_get? hrow] at hrow
    exact plain_closeRow now reason hrow husable.1

theorem plain_revokeByHash (sid presented : String) (now : ℕ) (reason : String) :
    PlainStep calm w (w.revokeByHash sid presented now reason) := by
  unfold revokeByHash
  cases h : w.logoutTarget sid presented now with
  | none => exact PlainStep.refl w
  | some =>
    obtain ⟨hrow, hactive⟩ := logoutTarget_eq_some h
    rw [← sid_of_get? hrow] at hrow
    simp only
    split
    · exact PlainStep.refl w
    · refine (plain_publish _ _).trans (plain_closeRow now reason ?_ hactive)
      rw [publish_sessions]
      exact hrow

theorem plain_advance (sid : String) (userID now version uav next : ℕ) (hcalm : ¬ calm) :
    PlainStep calm w (w.advance sid userID now version uav next) := by
  unfold advance
  cases h : w.advancedRow sid userID now version uav next with
  | none => exact PlainStep.refl w
  | some s' =>
    obtain ⟨s, hrow, hactive, hs'⟩ := advancedRow_eq_some h
    rw [← sid_of_get? hrow] at hrow
    have hkept : RowKept calm s s' := by
      subst hs'
      exact ⟨rfl, rfl, fun hc => absurd hc hcalm, Or.inl rfl, fun _ => rfl, fun hne => absurd hactive hne⟩
    exact PlainStep.write s' hrow (by rw [hs']) hkept (by rw [hs']) (by rw [hs']) le_rfl rfl rfl rfl

theorem SessionOp.Plain.step {op : SessionOp} (h : op.Plain calm) (w : SessionWorld) :
    PlainStep calm w (op.exec w) := by
  cases op with
  | read => exact PlainStep.refl w
  | find => exact PlainStep.refl w
  | findMany => exact PlainStep.refl w
  | wait => exact PlainStep.of_sessions (Nat.le_add_right _ _) rfl rfl rfl
  | insert => exact plain_insert h
  | load => exact h.elim
  | exchange => exact h.elim
  | revokeReused sid userID now => exact plain_revokeOne sid userID now _
  | revokeOne sid userID now reason => exact plain_revokeOne sid userID now reason
  | revokeByHash sid presented now reason => exact plain_revokeByHash sid presented now reason
  | revokeMany sids now reason =>
    obtain ⟨hnodup, hrows⟩ := revocableMany_rows (w := w) sids
    exact plain_closeRows now reason _ w hnodup hrows
  | advance sid userID now version uav next => exact plain_advance sid userID now version uav next h
  | publish _ entry expiry => exact plain_publish entry expiry

/-! ## The exchange -/

section Exchange

variable {call : ℕ} {sid : String} {userID now : ℕ} {presented next : String} {validUntil : ℕ} {s : UserSession}

theorem exchangesOf_exchange (h : w.exchangeable sid userID now presented = some s) (sid' : String) :
    (w.exchange call sid userID now presented next validUntil).exchangesOf sid' =
      w.exchangesOf sid' ++ if sid = sid' then [⟨call, sid, presented, next⟩] else [] := by
  unfold exchangesOf exchange
  rw [h]
  simp only [filter_append]
  by_cases hsid : sid = sid'
  · simp [hsid]
  · simp [hsid]

theorem exchange_none (h : w.exchangeable sid userID now presented = none) :
    w.exchange call sid userID now presented next validUntil = w := by
  unfold exchange
  rw [h]

/-- An exchange extends the chain of its session: it presents the hash that is current, and that is what the
exchange before it issued. -/
theorem exchange_inv (hw : RotationInv w) (hne : presented ≠ next) {session : UserSession}
    (hseen : w.history.seen call = some session) (hprev : session.previousRefreshHash ≠ presented)
    (h : w.exchangeable sid userID now presented = some s) :
    RotationInv (w.exchange call sid userID now presented next validUntil) := by
  obtain ⟨hrow, -, hcur⟩ := exchangeable_eq_some h
  have hwrite := rowWrite_exchange call next validUntil h
  have hsid := sid_of_get? hrow
  have hown : (w.exchange call sid userID now presented next validUntil).sessions.get? sid =
      some (s.rotated next now validUntil) := by
    have hself := hwrite.get_self
    rw [hsid] at hself
    exact hself
  have hother : ∀ sid', sid' ≠ sid →
      (w.exchange call sid userID now presented next validUntil).sessions.get? sid' = w.sessions.get? sid' := by
    intro sid' hsid'
    rw [← hsid] at hsid'
    exact hwrite.get_ne hsid'
  have hadds : (w.exchange call sid userID now presented next validUntil).history =
      { w.history with exchanges := w.history.exchanges ++ [⟨call, sid, presented, next⟩] } := by
    unfold exchange
    rw [h]
  refine ⟨?_, ?_, ?_, ?_, ?_, ?_⟩
  · intro sid' hnone
    have hsid' : sid' ≠ sid := by
      rintro rfl
      rw [hown] at hnone
      cases hnone
    rw [hother sid' hsid'] at hnone
    rw [exchangesOf_exchange h, if_neg (Ne.symm hsid'), append_nil]
    exact hw.none sid' hnone
  · intro sid' r hr hempty
    rw [exchangesOf_exchange h] at hempty
    by_cases hsid' : sid' = sid
    · rw [if_pos hsid'.symm] at hempty
      exact absurd hempty (append_ne_nil_of_right_ne_nil _ (cons_ne_nil _ _))
    · rw [if_neg (Ne.symm hsid'), append_nil] at hempty
      rw [hother sid' hsid'] at hr
      exact hw.first sid' r hr hempty
  · intro sid' r e hr he
    rw [exchangesOf_exchange h] at he
    by_cases hsid' : sid' = sid
    · subst hsid'
      rw [if_pos rfl, getLast?_concat] at he
      obtain rfl := some.inj he
      rw [hown] at hr
      obtain rfl := some.inj hr
      exact ⟨rfl, hcur⟩
    · rw [if_neg (Ne.symm hsid'), append_nil] at he
      rw [hother sid' hsid'] at hr
      exact hw.last sid' r e hr he
  · intro sid'
    rw [exchangesOf_exchange h]
    by_cases hsid' : sid' = sid
    · subst hsid'
      rw [if_pos rfl]
      refine isChain_append.mpr ⟨hw.chained sid', isChain_singleton _, ?_⟩
      intro a ha b hb
      obtain rfl := some.inj hb
      exact (hw.last sid' s a hrow ha).1.symm.trans hcur
    · rw [if_neg (Ne.symm hsid'), append_nil]
      exact hw.chained sid'
  · intro e he
    rw [hadds] at he
    rcases mem_append.mp he with he | he
    · exact hw.moves e he
    · obtain rfl := mem_singleton.mp he
      exact hne
  · intro e he
    rw [hadds] at he ⊢
    rcases mem_append.mp he with he | he
    · exact hw.shown e he
    · obtain rfl := mem_singleton.mp he
      exact ⟨session, hseen, hprev⟩

theorem exchange_rotates (h : w.exchangeable sid userID now presented = some s) :
    RotationLater calm w (w.exchange call sid userID now presented next validUntil) := by
  obtain ⟨hrow, husable, hcur⟩ := exchangeable_eq_some h
  have hsid := sid_of_get? hrow
  have hwrite := rowWrite_exchange call next validUntil h
  refine ⟨hwrite.now.ge, ?_, ?_⟩
  · intro sid' r hr
    by_cases hsid' : sid' = s.sid
    · subst hsid'
      rw [hwrite.row] at hr
      obtain rfl := some.inj hr
      exact ⟨_, hwrite.get_self, rfl, rfl, fun _ => rfl, Or.inl rfl, fun _ => rfl, fun hne => absurd husable.1 hne⟩
    · exact ⟨r, (hwrite.get_ne hsid').trans hr, RowKept.refl r⟩
  · intro sid' hash hissued
    rcases hissued with ⟨r, hr, rfl⟩ | ⟨e, he, rfl⟩
    · by_cases hsid' : sid' = sid
      · -- the hash that was current is the one the exchange presented
        subst hsid'
        rw [hrow] at hr
        obtain rfl := some.inj hr
        refine Or.inr ⟨⟨call, sid', presented, next⟩, ?_, hcur.symm⟩
        rw [exchangesOf_exchange h, if_pos rfl]
        exact mem_append_right _ (mem_singleton_self _)
      · rw [← hsid] at hsid'
        exact Or.inl ⟨r, (hwrite.get_ne hsid').trans hr, rfl⟩
    · refine Or.inr ⟨e, ?_, rfl⟩
      rw [exchangesOf_exchange h]
      exact mem_append_left _ he

end Exchange

/-! ## The protocol -/

/-- What the run has noted about the call `j` is as before. -/
def Untouched (j : ℕ) (w v : SessionWorld) : Prop :=
  v.history.seen j = w.history.seen j ∧ v.exchangesBy j = w.exchangesBy j

/-- A refresh attempt that presents a hash which was never issued to the session changes nothing. -/
def SessionCall.Harmless : SessionCall → SessionWorld → SessionWorld → Prop
  | .rotate _ sid presented _ _ _, w, v => ¬ Issued w sid presented → v.sessions = w.sessions ∧ v.cache = w.cache
  | _, _, _ => True

/-- The call is a refresh attempt for this exchange. -/
def SessionCall.Asks : SessionCall → Exchange → Prop
  | .rotate _ sid presented next _ _, e => e.sid = sid ∧ e.presented = presented ∧ e.next = next
  | _, _ => False

def rotationProtocol (calm : Prop) : Protocol SessionCall SessionOp SessionWorld where
  exec := SessionOp.exec
  ok := fun _ => SessionInv
  Inv := RotationInv
  Rel := RotationLater calm
  Rely := fun κ w v => RotationLater calm w v ∧ Untouched κ.1 w v
  Guar := fun κ w v => RotationLater calm w v ∧ (∀ j, j ≠ κ.1 → Untouched j w v) ∧ κ.2.Harmless w v ∧
    ∀ e ∈ v.exchangesBy κ.1, e ∈ w.exchangesBy κ.1 ∨ κ.2.Asks e
  refl := RotationLater.refl
  trans := RotationLater.trans
  rely_refl := fun _ w => ⟨RotationLater.refl w, rfl, rfl⟩
  rely_trans := fun h h' => ⟨h.1.trans h'.1, h'.2.1.trans h.2.1, h'.2.2.trans h.2.2⟩
  rely_rel := fun h => h.1
  guar_rel := fun h => h.1
  guar_rely := fun hne h => ⟨h.1, h.2.1 _ hne⟩

theorem PlainStep.untouched (h : PlainStep calm w v) (j : ℕ) : Untouched j w v := by
  refine ⟨by rw [h.seen], ?_⟩
  unfold exchangesBy
  rw [h.exchanges]

variable {α β : Type} {κ : ℕ × SessionCall}

theorem PlainStep.guar (h : PlainStep calm w v) (hκ : κ.2.Harmless w v) : (rotationProtocol calm).Guar κ w v := by
  refine ⟨h.later, fun j _ => h.untouched j, hκ, fun e he => Or.inl ?_⟩
  rwa [← (h.untouched κ.1).2]

/-- A call that is no refresh attempt. -/
theorem plain_keeps (hκ : ∀ w v, κ.2.Harmless w v) {p : Prog SessionOp SessionWorld α}
    (hp : p.All (SessionOp.Plain calm)) : p.Keeps (rotationProtocol calm) κ (fun _ _ => True) w := by
  refine hp.keeps (A := fun _ => True) (fun _ _ _ _ => trivial) ?_ trivial
  intro op v hop hv _ _
  have hstep := hop.step v
  exact ⟨hstep.inv hv, hstep.guar (hκ _ _), trivial⟩

/-! ## Calls that exchange nothing -/

section Plain

open Prog

open All

theorem writeUserSessionCache_all (kind : Publish) (entry : SessionInfo) (deadline : Option ℕ) :
    (writeUserSessionCache kind entry deadline).run.All (SessionOp.Plain calm) := by
  unfold writeUserSessionCache
  refine run_bind (run_query trivial) fun now => ?_
  split
  · cases deadline with
    | none => exact run_throw
    | some =>
      refine run_bind run_failIf fun _ => ?_
      refine run_bind run_failIf fun _ => ?_
      refine run_bind (run_attempt trivial) fun _ => ?_
      refine run_bind (run_query trivial) fun completedAt => ?_
      exact run_bind run_failIf fun _ => run_failIf
  · exact run_bind (run_query trivial) fun _ => run_attempt trivial

theorem confirm_all (s : SessionInfo) : (confirmUserSessionActiveSnapshot s).run.All (SessionOp.Plain calm) := by
  unfold confirmUserSessionActiveSnapshot
  refine run_bind run_failIf fun _ => ?_
  exact run_bind (run_query trivial) fun _ => run_attempt trivial

theorem publishSnapshot_all (s : UserSession) (deadline : ℕ) :
    (publishSnapshot s deadline).run.All (SessionOp.Plain calm) := by
  unfold publishSnapshot
  refine run_bind (run_outcome (writeUserSessionCache_all _ _ _)) fun r => ?_
  split
  · exact run_pure
  · exact confirm_all _
  · exact run_throw
  · exact run_pure

theorem createUserSession_all {session : UserSession} (hprev : session.previousRefreshHash = "") :
    (createUserSession session).run.All (SessionOp.Plain calm) := by
  unfold createUserSession
  refine run_bind (run_query trivial) fun now => ?_
  refine run_bind run_failIf fun _ => ?_
  refine run_bind run_failIf fun _ => ?_
  refine run_bind (run_query trivial) fun deadline => ?_
  exact run_bind (run_attempt hprev) fun _ => publishSnapshot_all _ _

theorem getUserSessionCached_all (sid : String) : (getUserSessionCached sid).run.All (SessionOp.Plain calm) := by
  have hcache : (getUserSessionCache sid).run.All (SessionOp.Plain calm) := by
    unfold getUserSessionCache
    refine run_bind (run_query trivial) fun hash => ?_
    cases hash with
    | none => exact run_throw
    | some => exact run_bind run_failIf fun _ => run_attempt trivial
  have hhydrate : (hydrateSession sid).run.All (SessionOp.Plain calm) := by
    unfold hydrateSession
    refine run_bind (run_query trivial) fun deadline => ?_
    refine run_bind (run_query trivial) fun row => ?_
    cases row with
    | none => exact run_throw
    | some =>
      refine run_bind (run_query trivial) fun now => ?_
      split
      · exact run_bind (publishSnapshot_all _ _) fun _ => run_pure
      · exact run_bind (run_outcome (writeUserSessionCache_all _ _ _)) fun _ => run_throw
  unfold getUserSessionCached
  refine run_bind run_failIf fun _ => ?_
  refine run_bind (run_outcome hcache) fun r => ?_
  split
  · exact run_pure
  · exact run_throw
  · exact hhydrate

theorem revokeUserSession_all (userID : ℕ) (sid reason : String) :
    (revokeUserSession userID sid reason).run.All (SessionOp.Plain calm) := by
  unfold revokeUserSession
  refine run_bind run_failIf fun _ => ?_
  refine run_bind (run_query trivial) fun now => ?_
  refine run_bind (run_query trivial) fun row => ?_
  cases row with
  | none => exact run_pure
  | some =>
    simp only
    split
    · refine run_bind (writeUserSessionCache_all _ _ _) fun _ => ?_
      refine run_bind (run_query trivial) fun revoked => ?_
      split
      · exact run_bind (run_outcome (writeUserSessionCache_all _ _ _)) fun _ => run_pure
      · exact run_pure
    · exact run_pure

theorem revokeUserSessionByRefreshHash_all (sid presented reason : String) :
    (revokeUserSessionByRefreshHash sid presented reason).run.All (SessionOp.Plain calm) := by
  unfold revokeUserSessionByRefreshHash
  refine run_bind run_failIf fun _ => ?_
  refine run_bind (run_query trivial) fun now => ?_
  refine run_bind (run_attempt trivial) fun target => ?_
  cases target with
  | none => exact run_pure
  | some => exact run_bind (run_outcome (writeUserSessionCache_all _ _ _)) fun _ => run_pure

theorem advanceUserSessionAuthVersion_all (hcalm : ¬ calm) (userID : ℕ) (sid : String) (version uav next : ℕ) :
    (advanceUserSessionAuthVersion userID sid version uav next).run.All (SessionOp.Plain calm) := by
  unfold advanceUserSessionAuthVersion
  refine run_bind run_failIf fun _ => ?_
  refine run_bind (run_query trivial) fun deadline => ?_
  refine run_bind (run_query trivial) fun now => ?_
  refine run_bind (run_attempt hcalm) fun session => ?_
  refine run_bind (run_outcome (writeUserSessionCache_all _ _ _)) fun r => ?_
  split
  · exact run_pure
  · exact run_bind (confirm_all _) fun _ => run_pure
  · exact run_throw

theorem denyAll_all (now : ℕ) (reason : String) (batch : List UserSession) :
    (denyAll now reason batch).run.All (SessionOp.Plain calm) := by
  induction batch with
  | nil => exact run_pure
  | cons _ _ ih => exact run_bind (writeUserSessionCache_all _ _ _) fun _ => ih

theorem buryAll_all (now : ℕ) (reason : String) (batch : List UserSession) :
    (buryAll now reason batch).run.All (SessionOp.Plain calm) := by
  induction batch with
  | nil => exact run_pure
  | cons _ _ ih => exact run_bind (run_outcome (writeUserSessionCache_all _ _ _)) fun _ => ih

theorem revokeLoop_all (userID now : ℕ) (excluded reason : String) (fuel : ℕ) :
    ∀ total, (revokeLoop userID now excluded reason fuel total).run.All (SessionOp.Plain calm) := by
  induction fuel with
  | zero => exact fun _ => run_throw
  | succ _ ih =>
    intro total
    unfold revokeLoop
    refine run_bind (run_query trivial) fun candidates => ?_
    split
    · exact run_pure
    · refine run_bind (denyAll_all _ _ _) fun _ => ?_
      refine run_bind (run_query trivial) fun revoked => ?_
      exact run_bind (buryAll_all _ _ _) fun _ => ih _

end Plain

/-- The calls of a run: sessions are created with no previous hash, and in a calm run none is advanced. -/
def SessionCall.Granted (calm : Prop) : SessionCall → Prop
  | .create s => s.previousRefreshHash = ""
  | .advance _ _ _ _ _ => ¬ calm
  | _ => True

/-! ## A refresh attempt -/

/-- The row is usable and shows the presented hash as its previous one, outside the window.  The attempt began and
ended at these times. -/
def Replayed (r : UserSession) (presented : String) (began ended : ℕ) : Prop :=
  r.Usable ended ∧ r.refreshHash ≠ presented ∧ r.previousRefreshHash = presented ∧ r.previousValidUntil < began

theorem Replayed.narrow {r : UserSession} {presented : String} {began now ended : ℕ}
    (h : Replayed r presented began ended) (hbegan : began ≤ now) (hended : now ≤ ended) :
    Replayed r presented now now := by
  obtain ⟨⟨hactive, hopen, hexpires⟩, hcur, hprev, hwindow⟩ := h
  exact ⟨⟨hactive, hopen, by omega⟩, hcur, hprev, by omega⟩

def Closed (w : SessionWorld) (sid : String) : Prop := ∃ r, w.sessions.get? sid = some r ∧ r.status = .revoked

theorem Closed.mono {sid : String} (h : Closed w sid) (hwv : RotationLater calm w v) : Closed v sid := by
  obtain ⟨r, hr, hrevoked⟩ := h
  obtain ⟨r', hr', hkept⟩ := hwv.rows sid r hr
  have hsame : r' = r := by
    refine hkept.closed ?_
    rw [hrevoked]
    decide
  exact ⟨r', hr', by rw [hsame]; exact hrevoked⟩

section Attempt

variable {call userID : ℕ} {sid presented next : String} {asked now grace : ℕ} {session : UserSession}

/-- What an attempt knows after it has read the row: the row has not become another one, and the presented hash is
one of the session's. -/
structure Read (calm : Prop) (call : ℕ) (sid presented : String) (session : UserSession) (w : SessionWorld) : Prop where
  seen : w.history.seen call = some session
  row : ∃ r, w.sessions.get? sid = some r ∧ RowKept calm session r
  issued : Issued w sid presented

theorem Read.mono (h : Read calm call sid presented session w) (hwv : RotationLater calm w v)
    (hseen : v.history.seen call = w.history.seen call) : Read calm call sid presented session v := by
  obtain ⟨r, hr, hkept⟩ := h.row
  obtain ⟨r', hr', hkept'⟩ := hwv.rows sid r hr
  exact ⟨hseen.trans h.seen, ⟨r', hr', hkept.trans hkept'⟩, hwv.issued _ _ h.issued⟩

/-- After the row was read, every statement that exchanges nothing is fine. -/
theorem Read.statement (h : Read calm call sid presented session w) (op : SessionOp) (hop : op.Plain calm)
    (hw : RotationInv w) : RotationInv (op.exec w) ∧
      (rotationProtocol calm).Guar (call, .rotate userID sid presented next asked grace) w (op.exec w) ∧
      Read calm call sid presented session (op.exec w) := by
  have hstep := hop.step w
  refine ⟨hstep.inv hw, hstep.guar fun hnew => absurd h.issued hnew, ?_⟩
  exact h.mono hstep.later (hstep.untouched call).1

theorem Read.keeps (h : Read calm call sid presented session w) {p : Prog SessionOp SessionWorld α}
    (hp : p.All (SessionOp.Plain calm)) :
    p.Keeps (rotationProtocol calm) (call, .rotate userID sid presented next asked grace)
      (fun _ u => Read calm call sid presented session u) w := by
  refine hp.keeps (fun w v hwv hw => hw.mono hwv.1 hwv.2.1) ?_ h
  intro op v hop hv _ hread
  exact hread.statement op hop hv

/-- Any call may look. -/
theorem attempt_read {f : α → SessionM β} {Q : Except SessionError β → SessionWorld → Prop}
    {report : SessionWorld → α}
    (h : ∀ v, (rotationProtocol calm).Rely (call, .rotate userID sid presented next asked grace) w v →
      (f (report v)).run.Keeps (rotationProtocol calm) (call, .rotate userID sid presented next asked grace) Q v) :
    (Prog.query .read report >>= f).run.Keeps (rotationProtocol calm)
      (call, .rotate userID sid presented next asked grace) Q w := by
  refine run_query_bind fun v hwv hv _ => ⟨hv, ?_, h v hwv⟩
  exact (PlainStep.refl v).guar fun _ => ⟨rfl, rfl⟩

/-- In a calm run the cache does not refuse the deny state of a replay. -/
theorem denyFence_calm (h : Read calm call sid presented session w) (hsid : session.sid = sid) (reason : String) :
    (writeUserSessionDenyFence session.toSessionInfo now reason).run.Keeps (rotationProtocol calm)
      (call, .rotate userID sid presented next asked grace)
      (fun r u => (calm → r = .ok ()) ∧ Read calm call sid presented session u) w := by
  have hdeny : (denied session.toSessionInfo .revoking now reason).status ≠ .active := by
    show SessionStatus.revoking ≠ .active
    decide
  unfold writeUserSessionDenyFence writeUserSessionCache
  refine attempt_read fun a ha => ?_
  rw [if_neg hdeny]
  refine attempt_read fun b hb => ?_
  refine run_attempt fun v hv hvinv hvsession => ?_
  have hread : Read calm call sid presented session v :=
    ((h.mono ha.1 ha.2.1).mono hb.1 hb.2.1).mono hv.1 hv.2.1
  obtain ⟨hinv, hguar, hread'⟩ := hread.statement (.publish .fence _ _) trivial hvinv
  refine ⟨hinv, hguar, fun u hu _ => ⟨?_, hread'.mono hu.1 hu.2.1⟩⟩
  intro hcalm
  refine if_neg (not_refuses hdeny ?_)
  obtain ⟨r, hr, hkept⟩ := hread.row
  unfold liveVersion
  show ((v.live session.sid).map _).getD 0 ≤ session.version
  cases hlive : v.live session.sid with
  | none => exact Nat.zero_le _
  | some hash =>
    obtain ⟨hcache, -⟩ := live_eq_some.mp hlive
    obtain ⟨r', hr', -, hbehind⟩ := hvsession.behind _ hash hcache
    rw [hsid, hr] at hr'
    obtain rfl := some.inj hr'
    rw [hkept.version hcalm] at hbehind
    exact hbehind

/-- After the revocation of a replayed session its row is marked revoked, by this call or by another. -/
theorem closed_of_revokeReused (h : Read calm call sid presented session w) (hsid : session.sid = sid)
    (huser : session.userID = userID) (husable : session.Usable now) :
    Closed (SessionOp.exec (.revokeReused session.sid userID now) w) sid := by
  obtain ⟨r, hr, hkept⟩ := h.row
  show Closed (w.revokeOne session.sid userID now "refresh_reuse") sid
  unfold revokeOne
  rw [hsid]
  cases hrev : w.revocable sid userID now with
  | some s =>
    obtain ⟨hrow, -⟩ := revocable_eq_some hrev
    have hself : (w.closeRow s now "refresh_reuse").sessions.get? s.sid = some (s.revoke now "refresh_reuse") :=
      Table.get?_put_self _ _
    rw [sid_of_get? hrow] at hself
    exact ⟨_, hself, rfl⟩
  | none =>
    refine ⟨r, hr, ?_⟩
    rcases hkept.status with hstatus | hstatus
    swap
    · exact hstatus
    -- an active row would have been found
    exfalso
    have hactive : r.status = .active := hstatus.trans husable.1
    have hfound : w.revocable sid userID now = some r := by
      unfold revocable ofUser
      rw [hr]
      refine filter_eq_some_iff.mpr ⟨filter_eq_some_iff.mpr ⟨rfl, ?_⟩, ?_⟩
      · exact decide_eq_true (hkept.userID.trans huser)
      · refine decide_eq_true ⟨hactive, (hkept.active hactive).trans husable.2.1, ?_⟩
        rw [hkept.expiresAt]
        exact husable.2.2
    rw [hrev] at hfound
    cases hfound

/-- What an attempt that has ended knows: if it was told of a race it exchanged nothing, and if it read a replay in a
calm run the session is revoked. -/
def AttemptKnows (calm : Prop) (call : ℕ) (sid presented : String) (now : ℕ) (r : Except SessionError Refreshed)
    (w : SessionWorld) : Prop :=
  ((∃ s, r = .ok ⟨s, true⟩) → w.exchangesBy call = []) ∧
    (calm → ∀ s, w.history.seen call = some s → Replayed s presented now now → Closed w sid)

theorem revokeReused_attempt (h : Read calm call sid presented session w) (hsid : session.sid = sid)
    (huser : session.userID = userID) (husable : session.Usable now) :
    (revokeReusedSession session userID now).run.Keeps (rotationProtocol calm)
      (call, .rotate userID sid presented next asked grace) (AttemptKnows calm call sid presented now) w := by
  unfold revokeReusedSession
  refine run_bind ((denyFence_calm h hsid "refresh_reuse").weaken ?_)
  rintro r a _ ⟨hok, hread⟩
  cases r with
  | error =>
    refine fun u hu _ => ⟨(fun ⟨s, hs⟩ => by cases hs), fun hcalm => ?_⟩
    cases hok hcalm
  | ok =>
    refine run_query_bind fun b hb hbinv _ => ?_
    have hreadb := hread.mono hb.1 hb.2.1
    obtain ⟨hinv, hguar, hread'⟩ := hreadb.statement (.revokeReused session.sid userID now) trivial hbinv
    have hclosed := closed_of_revokeReused hreadb hsid huser husable
    refine ⟨hinv, hguar, ?_⟩
    have hknows : ∀ (e : SessionError) u,
        RotationLater calm (SessionOp.exec (.revokeReused session.sid userID now) b) u →
        AttemptKnows calm call sid presented now (.error e) u :=
      fun e u hu => ⟨(fun ⟨s, hs⟩ => by cases hs), fun _ _ _ _ => hclosed.mono hu⟩
    refine run_failIf_bind (fun _ u hu _ => hknows _ u hu.1) fun _ => ?_
    refine run_outcome_bind (((hread'.keeps (writeUserSessionCache_all _ _ _)).and_rel
      fun u hu => hu).weaken ?_)
    intro _ u _ hu
    exact run_throw fun x hx _ => hknows _ x (hu.2.trans hx.1)

/-- What an attempt knows before it reads the row, and again after another one won the exchange. -/
structure Idle (call : ℕ) (presented : String) (now : ℕ) (w : SessionWorld) : Prop where
  exchanges : w.exchangesBy call = []
  seen : ∀ s, w.history.seen call = some s → ¬ Replayed s presented now now

theorem Idle.mono (h : Idle call presented now w) (hwv : Untouched call w v) : Idle call presented now v where
  exchanges := hwv.2.trans h.exchanges
  seen := by
    rw [hwv.1]
    exact h.seen

theorem Idle.knows (h : Idle call presented now w) (r : Except SessionError Refreshed) :
    AttemptKnows calm call sid presented now r w :=
  ⟨fun _ => h.exchanges, fun _ s hs hreplayed => absurd hreplayed (h.seen s hs)⟩

/-- An attempt that has read the row, and it is no replay. -/
theorem AttemptKnows.of_read (hseen : w.history.seen call = some session)
    (hno : ¬ Replayed session presented now now) {r : Except SessionError Refreshed} (hr : ∀ s, r ≠ .ok ⟨s, true⟩) :
    AttemptKnows calm call sid presented now r w := by
  refine ⟨fun ⟨s, hs⟩ => absurd hs (hr s), ?_⟩
  intro _ s hs hreplayed
  rw [hseen] at hs
  obtain rfl := some.inj hs
  exact absurd hreplayed hno

theorem load_inv (hw : RotationInv w) (hnone : w.exchangesBy call = []) : RotationInv (w.load call sid userID) := by
  refine ⟨hw.none, hw.first, hw.last, hw.chained, hw.moves, ?_⟩
  intro e he
  have hne : e.call ≠ call := by
    rintro rfl
    exact ne_nil_of_mem (mem_filter.mpr ⟨he, decide_eq_true rfl⟩) hnone
  obtain ⟨r, hr, hprev⟩ := hw.shown e he
  exact ⟨r, (Function.update_of_ne hne _ _).trans hr, hprev⟩

theorem load_guar {c : SessionCall} (hc : ∀ v, v.sessions = w.sessions → v.cache = w.cache → c.Harmless w v) :
    (rotationProtocol calm).Guar (call, c) w (w.load call sid userID) := by
  refine ⟨⟨le_rfl, fun _ r hr => ⟨r, hr, RowKept.refl r⟩, fun _ _ h => h⟩, ?_, hc _ rfl rfl, fun _ he => Or.inl he⟩
  intro j hj
  exact ⟨Function.update_of_ne hj _ _, rfl⟩

theorem exchange_untouched (call : ℕ) (next : String) (validUntil : ℕ) {s : UserSession}
    (h : w.exchangeable sid userID now presented = some s) :
    (∀ j, j ≠ call → Untouched j w (w.exchange call sid userID now presented next validUntil)) ∧
      (w.exchange call sid userID now presented next validUntil).history.seen = w.history.seen := by
  unfold exchange
  rw [h]
  refine ⟨?_, rfl⟩
  intro j hj
  refine ⟨rfl, ?_⟩
  have hsplit := filter_append (p := fun e : Exchange => e.call = j) w.history.exchanges
    [⟨call, sid, presented, next⟩]
  have hnone : ([⟨call, sid, presented, next⟩] : List Exchange).filter (fun e => e.call = j) = [] := by
    simp [Ne.symm hj]
  rw [hnone, append_nil] at hsplit
  exact hsplit

/-- An exchange is one that the attempt asked for. -/
theorem exchange_asks {validUntil : ℕ} {s : UserSession} (h : w.exchangeable sid userID now presented = some s) :
    ∀ e ∈ (w.exchange call sid userID now presented next validUntil).exchangesBy call,
      e ∈ w.exchangesBy call ∨ (SessionCall.rotate userID sid presented next asked grace).Asks e := by
  unfold exchange exchangesBy
  rw [h]
  intro e he
  rw [filter_append] at he
  rcases mem_append.mp he with he | he
  · exact Or.inl he
  · obtain rfl := mem_singleton.mp (mem_of_mem_filter he)
    exact Or.inr ⟨rfl, rfl, rfl⟩

theorem rotateLoop_attempt (hnext : presented ≠ next) (hpresented : presented ≠ "") : ∀ (tries : ℕ) (w : SessionWorld),
    Idle call presented now w →
      (rotateLoop call userID sid presented next now grace tries).run.Keeps (rotationProtocol calm)
        (call, .rotate userID sid presented next asked grace) (AttemptKnows calm call sid presented now) w := by
  intro tries
  induction tries with
  | zero => exact fun w hidle => run_throw fun v hv _ => (hidle.mono hv.2).knows _
  | succ _ ih =>
    intro w hidle
    unfold rotateLoop
    refine attempt_read fun a ha => ?_
    have hidlea := hidle.mono ha.2
    refine run_query_bind fun b hb hbinv _ => ?_
    have hidleb := hidlea.mono hb.2
    refine ⟨load_inv hbinv hidleb.exchanges, load_guar fun _ hs hc _ => ⟨hs, hc⟩, ?_⟩
    have hseen : (b.load call sid userID).history.seen call = b.ofUser sid userID := Function.update_self _ _ _
    cases hrow : b.ofUser sid userID with
    | none =>
      refine run_throw fun v hv _ => ⟨?_, ?_⟩
      · rintro ⟨s, hs⟩
        cases hs
      intro _ s hs
      have hnone : v.history.seen call = none := hv.2.1.trans (hseen.trans hrow)
      rw [hnone] at hs
      cases hs
    | some session =>
      obtain ⟨hget, huser⟩ := ofUser_eq_some hrow
      have hsid := sid_of_get? hget
      rw [hrow] at hseen
      refine run_failIf_bind ?_ fun husable => ?_
      · intro hunusable v hv _
        exact AttemptKnows.of_read (hv.2.1.trans hseen) (fun h => hunusable h.1) fun s h => by cases h
      have husable : session.Usable now := not_not.mp husable
      split
      · -- the presented hash is the current one
        rename_i hcur
        have hno : ¬ Replayed session presented now now := fun h => h.2.1 hcur
        have hprev : session.previousRefreshHash ≠ presented := by
          rw [← hcur]
          exact hbinv.previous_ne hget (by rwa [hcur])
        have hread : Read calm call sid presented session (b.load call sid userID) :=
          ⟨hseen, ⟨session, hget, RowKept.refl session⟩, Or.inl ⟨session, hget, hcur⟩⟩
        have hidlel : Idle call presented now (b.load call sid userID) := by
          refine ⟨hidleb.exchanges, ?_⟩
          intro s hs
          rw [hseen] at hs
          obtain rfl := some.inj hs
          exact hno
        refine run_query_bind fun c hc hcinv _ => ?_
        have hreadc := hread.mono hc.1 hc.2.1
        have hidlec := hidlel.mono hc.2
        cases hfound : c.exchangeable sid userID now presented with
        | none =>
          have hsame : SessionOp.exec (.exchange call sid userID now presented next (now + grace)) c = c :=
            exchange_none hfound
          refine ⟨?_, ?_, ?_⟩
          · show RotationInv (SessionOp.exec (.exchange call sid userID now presented next (now + grace)) c)
            rw [hsame]
            exact hcinv
          · show (rotationProtocol calm).Guar _ c
              (SessionOp.exec (.exchange call sid userID now presented next (now + grace)) c)
            rw [hsame]
            exact (PlainStep.refl c).guar fun _ => ⟨rfl, rfl⟩
          · refine ih _ ?_
            show Idle call presented now (SessionOp.exec (.exchange call sid userID now presented next (now + grace)) c)
            rw [hsame]
            exact hidlec
        | some =>
          obtain ⟨hothers, hseen'⟩ := exchange_untouched call next (now + grace) hfound
          have hrotates : RotationLater calm c (c.exchange call sid userID now presented next (now + grace)) :=
            exchange_rotates hfound
          refine ⟨exchange_inv hcinv hnext hreadc.seen hprev hfound,
            ⟨hrotates, hothers, fun hnew => absurd hreadc.issued hnew, exchange_asks hfound⟩, ?_⟩
          have hreadx : Read calm call sid presented session
              (c.exchange call sid userID now presented next (now + grace)) :=
            hreadc.mono hrotates (by rw [hseen'])
          refine run_bind ((hreadx.keeps (publishSnapshot_all _ _)).weaken ?_)
          intro r u _ hu
          cases r with
          | error =>
            exact fun v hv _ => AttemptKnows.of_read (hv.2.1.trans hu.seen) hno fun s h => by cases h
          | ok =>
            refine run_pure fun v hv _ => ?_
            exact AttemptKnows.of_read (hv.2.1.trans hu.seen) hno fun s h => by cases h
      · rename_i hcur
        refine run_failIf_bind ?_ fun hprev => ?_
        · intro hunknown v hv _
          refine AttemptKnows.of_read (hv.2.1.trans hseen) ?_ fun s h => by cases h
          intro hreplayed
          rcases hunknown with hempty | hne
          · exact hpresented (hreplayed.2.2.1.symm.trans hempty)
          · exact hne hreplayed.2.2.1
        have hprev := not_or.mp hprev
        have hmatch : session.previousRefreshHash = presented := not_not.mp hprev.2
        split
        · -- a race
          rename_i hwindow
          have hidlel : Idle call presented now (b.load call sid userID) := by
            refine ⟨hidleb.exchanges, ?_⟩
            intro s hs hreplayed
            rw [hseen] at hs
            obtain rfl := some.inj hs
            have hlate := hreplayed.2.2.2
            omega
          exact run_pure fun v hv _ => (hidlel.mono hv.2).knows _
        · have hissued : Issued b sid presented := by
            rw [← hmatch]
            exact hbinv.issued_previous hget hprev.1
          have hread : Read calm call sid presented session (b.load call sid userID) :=
            ⟨hseen, ⟨session, hget, RowKept.refl session⟩, hissued⟩
          exact revokeReused_attempt hread hsid huser husable

end Attempt

/-! ## Every run -/

/-- `now` as a refresh attempt uses it: the clock decides where the caller has not. -/
def attemptTime (asked clock : ℕ) : ℕ := if asked = 0 then clock else asked

/-- What a refresh attempt that has ended tells. -/
def SessionCall.Learns (calm : Prop) (n : ℕ) : SessionCall → SessionWorld → SessionAnswer → SessionWorld → Prop
  | .rotate _ sid presented _ asked _, since, a, w =>
    ((∃ s, a = .refreshed (.ok ⟨s, true⟩)) → w.exchangesBy n = []) ∧ (calm → ∀ s, w.history.seen n = some s →
        Replayed s presented (attemptTime asked since.unix) (attemptTime asked w.unix) → Closed w sid)
  | _, _, _, _ => True

theorem attemptTime_mono {asked a b : ℕ} (h : a ≤ b) : attemptTime asked a ≤ attemptTime asked b := by
  unfold attemptTime
  split <;> omega

open SessionCall

theorem rotate_learns {n userID : ℕ} {sid presented next : String} {asked grace : ℕ}
    (hexchanges : w.exchangesBy n = []) (hseen : w.history.seen n = none) :
    (body n (.rotate userID sid presented next asked grace)).Keeps (rotationProtocol calm)
      (n, .rotate userID sid presented next asked grace)
      ((rotate userID sid presented next asked grace).Learns calm n w) w := by
  refine map ?_
  unfold rotateUserSessionRefresh
  refine run_failIf_bind ?_ fun hvalid => ?_
  · intro _ v hv _
    refine ⟨(fun ⟨s, hs⟩ => by cases hs), ?_⟩
    intro _ s hs
    have hnone : v.history.seen n = none := hv.2.1.trans hseen
    rw [hnone] at hs
    cases hs
  obtain ⟨-, -, hpresented, -, hnext⟩ : _ ∧ _ ∧ presented ≠ "" ∧ _ ∧ presented ≠ next := by
    simp only [not_or] at hvalid
    exact hvalid
  refine attempt_read fun a ha => ?_
  have hidle : Idle n presented (attemptTime asked a.unix) a := by
    refine ⟨ha.2.2.trans hexchanges, ?_⟩
    intro s hs
    have hnone : a.history.seen n = none := ha.2.1.trans hseen
    rw [hnone] at hs
    cases hs
  refine ((rotateLoop_attempt hnext hpresented 3 a hidle).and_rel fun u hu => hu.now).weaken ?_
  rintro r u _ ⟨⟨hrace, hreplay⟩, hnow⟩
  refine ⟨fun ⟨s, hs⟩ => hrace ⟨s, SessionAnswer.refreshed.inj hs⟩, ?_⟩
  intro hcalm s hs hreplayed
  refine hreplay hcalm s hs (hreplayed.narrow ?_ ?_)
  · exact attemptTime_mono (unix_mono ha.1.now)
  · exact attemptTime_mono (unix_mono hnow)

theorem SessionCall.body_learns {n : ℕ} {c : SessionCall} {now cacheSeconds : ℕ} (hc : c.Granted calm)
    (hfresh : (rotationProtocol calm).Rely (n, c) (blank now cacheSeconds) w) :
    (body n c).Keeps (rotationProtocol calm) (n, c) (c.Learns calm n w) w := by
  -- every call but a refresh attempt has nothing to tell
  have hplain : ∀ {p : Prog SessionOp SessionWorld SessionAnswer}, (∀ v u, c.Harmless v u) →
      (∀ a u, c.Learns calm n w a u) → p.All (SessionOp.Plain calm) →
      p.Keeps (rotationProtocol calm) (n, c) (c.Learns calm n w) w :=
    fun hharmless hlearns hp => (plain_keeps hharmless hp).weaken fun a u _ _ => hlearns a u
  cases c with
  | rotate => exact rotate_learns hfresh.2.2 hfresh.2.1
  | create => exact hplain (fun _ _ => trivial) (fun _ _ => trivial) (createUserSession_all hc).map
  | getCached sid => exact hplain (fun _ _ => trivial) (fun _ _ => trivial) (getUserSessionCached_all sid).map
  | revoke userID sid reason =>
    exact hplain (fun _ _ => trivial) (fun _ _ => trivial) (revokeUserSession_all userID sid reason).map
  | revokeByHash sid presented reason =>
    exact hplain (fun _ _ => trivial) (fun _ _ => trivial)
      (revokeUserSessionByRefreshHash_all sid presented reason).map
  | advance userID sid version uav next =>
    exact hplain (fun _ _ => trivial) (fun _ _ => trivial)
      (advanceUserSessionAuthVersion_all hc userID sid version uav next).map
  | revokeMany =>
    refine hplain (fun _ _ => trivial) (fun _ _ => trivial) (Prog.All.map ?_)
    unfold revokeUserSessions
    refine Prog.All.run_bind Prog.All.run_failIf fun _ => ?_
    exact Prog.All.run_bind (Prog.All.run_query trivial) fun _ => revokeLoop_all _ _ _ _ _ _
  | wait => exact hplain (fun _ _ => trivial) (fun _ _ => trivial) (Prog.All.issue trivial)

variable (now cacheSeconds : ℕ) (events : List (Event SessionCall))

theorem RotationInv.blank : RotationInv (blank now cacheSeconds) where
  none := fun _ _ => rfl
  first := fun _ _ h => by cases h
  last := fun _ _ _ h => by cases h
  chained := fun _ => isChain_nil
  moves := fun _ h => absurd h not_mem_nil
  shown := fun _ h => absurd h not_mem_nil

/-- Every call of the run is granted. -/
def GrantedRun (calm : Prop) (events : List (Event SessionCall)) : Prop :=
  ∀ c, Event.start c ∈ events → c.Granted calm

theorem admits_granted {events : List (Event SessionCall)} {ok : SessionOp → SessionWorld → Prop} :
    ∀ {s : SessionSys}, GrantedRun calm events → Sys.Admits SessionOp.exec body (fun _ _ => True) ok s events →
      Sys.Admits SessionOp.exec body (fun c _ => c.Granted calm) ok s events := by
  induction events with
  | nil => exact fun _ _ => trivial
  | cons e _ ih =>
    rintro s hrun ⟨he, hrest⟩
    refine ⟨?_, ih (fun c hc => hrun c (mem_cons_of_mem _ hc)) hrest⟩
    cases e with
    | start c => exact hrun c mem_cons_self
    | advance => exact he

theorem body_keeps_any {now cacheSeconds : ℕ} : ∀ n c v, (sessionProtocol False).Inv v →
    (sessionProtocol False).Rely (n, c) (blank now cacheSeconds) v → True →
    (body n c).Keeps (sessionProtocol False) (n, c) (c.Knows False v) v :=
  fun n c v _ _ _ => c.body_keeps n v

theorem admits_any {now cacheSeconds : ℕ} :
    Sys.Admits SessionOp.exec body (fun _ _ => True) (sessionProtocol False).ok ⟨blank now cacheSeconds, []⟩ events :=
  (Sys.admits_of_forall _ _ _ _).weaken (fun _ _ h => h) fun _ _ _ h => h.elim

/-- The invariant of the cache holds in every run. -/
theorem sessionInv_run : SessionInv (SessionSys.run ⟨blank now cacheSeconds, []⟩ events).world :=
  (Sys.run_keeps body_keeps_any events (Sys.good_init (SessionInv.blank now cacheSeconds)) (admits_any events)).1.inv

/-- What a state of any run leads to is later: a row that is not active is never written again, and a session that is
revoked for good, in the database and in the cache, stays so. -/
theorem sessions_later (now cacheSeconds : ℕ) (past future : List (Event SessionCall)) :
    let s := SessionSys.run ⟨blank now cacheSeconds, []⟩ past
    SessionInv s.world ∧ SessionLater s.world (s.run future).world := by
  intro s
  obtain ⟨hpast, hfuture⟩ := (Sys.admits_append _ _ _ _ past future _).mp (admits_any (past ++ future))
  have hs := (Sys.run_keeps body_keeps_any past (Sys.good_init (SessionInv.blank now cacheSeconds)) hpast).1
  exact ⟨hs.inv, (Sys.run_keeps body_keeps_any future hs hfuture).2⟩

theorem admits_sessionInv :
    Sys.Admits SessionOp.exec body (fun _ _ => True) (fun _ => SessionInv) ⟨blank now cacheSeconds, []⟩ events :=
  Sys.Good.admits_inv body_keeps_any events (Sys.good_init (SessionInv.blank now cacheSeconds)) (admits_any events)

/-- What a run leads to: a state that keeps the protocol, from which any other run leads to a later world. -/
theorem rotation_run {past future : List (Event SessionCall)} (hrun : GrantedRun calm (past ++ future)) :
    let s := SessionSys.run ⟨blank now cacheSeconds, []⟩ past
    Sys.Good (rotationProtocol calm) (blank now cacheSeconds) (fun n c => c.Learns calm n) s ∧
      (∀ i r, s.calls[i]? = some r → ∀ e ∈ s.world.exchangesBy i, r.call.Asks e) ∧
      RotationLater calm s.world (s.run future).world := by
  intro s
  have hadm := admits_granted hrun (admits_sessionInv now cacheSeconds (past ++ future))
  obtain ⟨hpast, hfuture⟩ := (Sys.admits_append _ _ _ _ past future _).mp hadm
  have hbody : ∀ n c v, (rotationProtocol calm).Inv v →
      (rotationProtocol calm).Rely (n, c) (blank now cacheSeconds) v → c.Granted calm →
      (body n c).Keeps (rotationProtocol calm) (n, c) (c.Learns calm n v) v :=
    fun n c v _ hfresh hc => c.body_learns hc hfresh
  have hinit := Sys.good_init (Q := fun n c => c.Learns calm n) (P := rotationProtocol calm)
    (RotationInv.blank now cacheSeconds)
  have hs := (Sys.run_keeps hbody past hinit hpast).1
  refine ⟨hs, ?_, (Sys.run_keeps hbody future hs hfuture).2⟩
  refine hinit.run_call (K := fun κ w => ∀ e ∈ w.exchangesBy κ.1, κ.2.Asks e) hbody ?_ ?_ ?_ past hpast ?_
  · intro κ v hv
    rw [hv.2.2]
    exact fun e he => absurd he not_mem_nil
  · intro κ v u hvu hv
    rw [hvu.2.2]
    exact hv
  · intro κ v u hvu hv e he
    exact (hvu.2.2.2 e he).elim (hv e) id
  · exact fun i r hr => by cases hr

/-! ## The claims on refresh tokens -/

/-- A current hash is exchanged at most once: where two exchanges of a session present the same hash, one between
them has issued it again.  So if no hash is ever issued twice to the session, no hash is exchanged twice. -/
def ExchangedOnce (w : SessionWorld) (sid : String) : Prop :=
  (∀ (i j : ℕ) (a b : Exchange), i < j → (w.exchangesOf sid)[i]? = some a → (w.exchangesOf sid)[j]? = some b →
    a.presented = b.presented →
      ∃ (k : ℕ) (c : Exchange), i < k ∧ k < j ∧ (w.exchangesOf sid)[k]? = some c ∧ c.next = b.presented) ∧
  ((w.hashesIssued sid).Nodup → ((w.exchangesOf sid).map (·.presented)).Nodup)

/-- What the exchanges present is what was issued, but for the hash that is current now. -/
theorem Chained.presented_append {exchanges : List Exchange} (h : Chained exchanges) :
    exchanges.map (·.presented) ++ (exchanges.getLast?.map (·.next)).toList =
      (exchanges.head?.map (·.presented)).toList ++ exchanges.map (·.next) := by
  induction exchanges with
  | nil => rfl
  | cons a rest ih =>
    cases rest with
    | nil => rfl
    | cons b rest =>
      obtain ⟨hab, hrest⟩ := isChain_cons_cons.mp h
      have hih := ih hrest
      have hlast : (a :: b :: rest).getLast? = (b :: rest).getLast? := getLast?_cons_cons
      rw [hlast, map_cons, cons_append, hih]
      simp [hab]

theorem Chained.step {exchanges : List Exchange} (h : Chained exchanges) {j : ℕ} {a b : Exchange}
    (ha : exchanges[j]? = some a) (hb : exchanges[j + 1]? = some b) : a.next = b.presented := by
  obtain ⟨hj, rfl⟩ := List.getElem?_eq_some_iff.mp hb
  obtain ⟨hj', rfl⟩ := List.getElem?_eq_some_iff.mp ha
  exact isChain_iff_getElem.mp h j hj

theorem RotationInv.exchangedOnce (hw : RotationInv w) (sid : String) : ExchangedOnce w sid := by
  have hchain := hw.chained sid
  constructor
  · intro i j a b hij ha hb hsame
    obtain ⟨k, rfl⟩ : ∃ k, j = k + 1 := ⟨j - 1, by omega⟩
    have hk : k < (w.exchangesOf sid).length := by
      have hlt := (List.getElem?_eq_some_iff.mp hb).1
      omega
    have hget := getElem?_eq_getElem hk
    have hissued := hchain.step hget hb
    refine ⟨k, _, ?_, Nat.lt_succ_self k, hget, hissued⟩
    -- the exchange before `j` cannot be `i` itself: that one has issued another hash than it presented
    rcases Nat.lt_or_eq_of_le (Nat.le_of_lt_succ hij) with hlt | rfl
    · exact hlt
    · rw [hget] at ha
      obtain rfl := some.inj ha
      have hmem := mem_of_mem_filter (getElem_mem hk)
      exact absurd (hsame.trans hissued.symm) (hw.moves _ hmem)
  · intro hnodup
    unfold hashesIssued at hnodup
    rw [← hchain.presented_append] at hnodup
    exact (nodup_append.mp hnodup).1

/-- Sessions are created with no previous hash, as logging in does. -/
def NewSessions (events : List (Event SessionCall)) : Prop :=
  ∀ s, Event.start (.create s) ∈ events → s.previousRefreshHash = ""

/-- No session is advanced to a new user version. -/
def NoAdvance (events : List (Event SessionCall)) : Prop :=
  ∀ userID sid version uav next, Event.start (.advance userID sid version uav next) ∉ events

theorem granted_of_new {events : List (Event SessionCall)} (hnew : NewSessions events)
    (hcalm : calm → NoAdvance events) : GrantedRun calm events := by
  intro c hc
  cases c with
  | create s => exact hnew s hc
  | advance => exact fun h => hcalm h _ _ _ _ _ hc
  | _ => exact trivial

/-- **Refresh tokens.**  Take any run `past`, of any calls in any order, and any continuation of it.
A current hash is exchanged at most once.  What an attempt exchanges is the hash it presents, for the next one it brings,
and nothing where the row shows it that hash as the previous one; nor has one that was told of a race.  An attempt that
read its hash as the previous one, outside the window, leaves the session revoked.  An attempt with a hash that was
never issued to the session changes nothing, with no statement it issues.  And a session that is revoked stays as it
is. -/
theorem refresh_rotation (now cacheSeconds : ℕ) (past future : List (Event SessionCall))
    (hnew : NewSessions (past ++ future)) :
    let s := SessionSys.run ⟨blank now cacheSeconds, []⟩ past
    (∀ sid, ExchangedOnce s.world sid) ∧
    (∀ i userID sid presented next asked grace since rest,
      s.calls[i]? = some ⟨.rotate userID sid presented next asked grace, since, rest⟩ →
        (∀ e ∈ s.world.exchangesBy i, e.sid = sid ∧ e.presented = presented ∧ e.next = next) ∧
        ∀ row, s.world.history.seen i = some row → row.previousRefreshHash = presented → s.world.exchangesBy i = []) ∧
    (∀ i userID sid presented next asked grace since row,
      s.Ended i (.rotate userID sid presented next asked grace) since (.refreshed (.ok ⟨row, true⟩)) →
        s.world.exchangesBy i = []) ∧
    (NoAdvance past → ∀ i userID sid presented next asked grace since answer row,
      s.Ended i (.rotate userID sid presented next asked grace) since answer → s.world.history.seen i = some row →
        Replayed row presented (attemptTime asked since.unix) (attemptTime asked s.world.unix) →
        Closed s.world sid) ∧
    (∀ i userID sid presented next asked grace since rest,
      s.calls[i]? = some ⟨.rotate userID sid presented next asked grace, since, rest⟩ →
        ¬ Issued s.world sid presented →
        (s.run [.advance i]).world.sessions = s.world.sessions ∧ (s.run [.advance i]).world.cache = s.world.cache) ∧
    ∀ sid row, s.world.sessions.get? sid = some row → row.status = .revoked →
      (s.run future).world.sessions.get? sid = some row := by
  intro s
  have hpast : NewSessions past := fun x hx => hnew x (mem_append_left _ hx)
  have hcalm : GrantedRun (NoAdvance past) (past ++ []) := by
    rw [append_nil]
    exact granted_of_new hpast id
  have hany : GrantedRun False (past ++ future) := granted_of_new hnew False.elim
  obtain ⟨hgood, hasks, -⟩ := rotation_run now cacheSeconds hcalm
  obtain ⟨-, -, hlater⟩ := rotation_run now cacheSeconds hany
  refine ⟨?_, ?_, ?_, ?_, ?_, ?_⟩
  · exact hgood.inv.exchangedOnce
  · intro i userID sid presented next asked grace since rest hi
    refine ⟨hasks i _ hi, ?_⟩
    intro row hseen hprevious
    refine eq_nil_iff_forall_not_mem.mpr fun e he => ?_
    obtain ⟨-, hpresented, -⟩ := hasks i _ hi e he
    obtain ⟨row', hrow', hne⟩ := hgood.inv.shown e (mem_of_mem_filter he)
    have hcall : e.call = i := by simpa using (mem_filter.mp he).2
    rw [hcall, hseen] at hrow'
    obtain rfl := some.inj hrow'
    exact hne (hprevious.trans hpresented.symm)
  · intro i userID sid presented next asked grace since row hended
    exact (hgood.ended hended).1 ⟨row, rfl⟩
  · intro hcalm i userID sid presented next asked grace since answer row hended hseen hreplayed
    exact (hgood.ended hended).2 hcalm row hseen hreplayed
  · intro i userID sid presented next asked grace since rest hi hunknown
    have hmeets : Sys.Meets (fun _ _ => True) (rotationProtocol (NoAdvance past)).ok s (.advance i) :=
      fun _ _ => sessionInv_run now cacheSeconds past
    have hstep : s.run [.advance i] = s ∨ (rotationProtocol (NoAdvance past)).Guar
        (i, .rotate userID sid presented next asked grace) s.world (s.run [.advance i]).world :=
      hgood.guar body hi hmeets
    rcases hstep with hrun | hguar
    · rw [hrun]
      exact ⟨rfl, rfl⟩
    · exact hguar.2.2.1 hunknown
  · intro sid row hrow hrevoked
    obtain ⟨row', hrow', hkept⟩ := hlater.rows sid row hrow
    have hsame : row' = row := by
      refine hkept.closed ?_
      rw [hrevoked]
      decide
    rw [← hsame]
    exact hrow'

/-- The session of the laptop after one exchange. -/
def refreshedLaptop : UserSession :=
  { laptop with
    createdAt := 1000, lastActiveAt := 1000, refreshHash := "h1", previousRefreshHash := "h0", previousValidUntil := 1030 }

open Event in
/-- The laptop refreshes; a second tab presents the same token inside the window; somebody guesses; and a thief
presents the old token after the window. -/
def stolenToken : List (Event SessionCall) :=
  flatten [begin (.create laptop), steps 0 6, begin (.rotate 1 "s" "h0" "h1" 1000 30), steps 1 9,
    begin (.rotate 1 "s" "h0" "h1" 1010 30), steps 2 3, begin (.rotate 1 "s" "guess" "h2" 1020 30), steps 3 2,
    begin (.rotate 1 "s" "h0" "h1" 1050 30), steps 4 10]

theorem refresh_rotation_stolenToken : let s := SessionSys.run ⟨blank 1000000 60, []⟩ stolenToken
    s.world.history.exchanges = [⟨1, "s", "h0", "h1"⟩] ∧
    s.answer? 2 = some (.rotate 1 "s" "h0" "h1" 1010 30, .refreshed (.ok ⟨refreshedLaptop, true⟩)) ∧
    s.world.exchangesBy 2 = [] ∧
    s.answer? 4 = some (.rotate 1 "s" "h0" "h1" 1050 30, .refreshed (.error .refreshReuse)) ∧
    Closed s.world "s" := by
  have hnew : NewSessions (stolenToken ++ []) := by
    intro x hx
    have hx : Event.start (create x) ∈ stolenToken := by simpa using hx
    simp [stolenToken, Event.begin, Event.steps] at hx
    rw [hx]
    rfl
  have hcalm : NoAdvance stolenToken := by
    intro userID sid version uav next h
    simp [stolenToken, Event.begin, Event.steps] at h
  obtain ⟨-, hattempt, -, hreplay, -, -⟩ := refresh_rotation 1000000 60 stolenToken [] hnew
  have hsecond : (SessionSys.run ⟨blank 1000000 60, []⟩ stolenToken).answer? 2 =
      some (.rotate 1 "s" "h0" "h1" 1010 30, .refreshed (.ok ⟨refreshedLaptop, true⟩)) := by decide +kernel
  have hthief : (SessionSys.run ⟨blank 1000000 60, []⟩ stolenToken).answer? 4 =
      some (.rotate 1 "s" "h0" "h1" 1050 30, .refreshed (.error .refreshReuse)) := by decide +kernel
  have hshown : (SessionSys.run ⟨blank 1000000 60, []⟩ stolenToken).world.history.seen 2 =
      some refreshedLaptop := by decide +kernel
  have hseen : (SessionSys.run ⟨blank 1000000 60, []⟩ stolenToken).world.history.seen 4 =
      some refreshedLaptop := by decide +kernel
  obtain ⟨since, hended⟩ := Sys.ended_of_answer? hsecond
  obtain ⟨since', hended'⟩ := Sys.ended_of_answer? hthief
  refine ⟨by decide +kernel, hsecond, (hattempt 2 _ _ _ _ _ _ since _ hended).2 _ hshown rfl, hthief, ?_⟩
  refine hreplay hcalm 4 _ _ _ _ _ _ since' _ refreshedLaptop hended' hseen ?_
  have hbegan : attemptTime 1050 since'.unix = 1050 := if_neg (by decide)
  refine ⟨⟨rfl, rfl, by decide⟩, by decide, rfl, ?_⟩
  rw [hbegan]
  decide

end NovaMaas.Auth
