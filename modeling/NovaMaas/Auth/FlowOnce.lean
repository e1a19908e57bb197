/-
  A flow is consumed once, and what an assertion frees again.

  Two invariants, both kept by every transaction.  `Spending` is about flows: a row that is not consumed is the row of a
  token whose action has not been committed; the hash tells tokens apart, and no token is issued twice.  `Remembered` is
  about assertions: an acceptance is over for a day, or its row is in the table.  The row stays so long since both conditions
  of the clean-up say that it was consumed more than a day ago: the one on the expiry too, for a row expires after it has
  been consumed.

  So an assertion is accepted again after more than a day only, and then with a later expiry (`flows_one_time`).  A caller
  that derives the expiry from the assertion, as the handlers of Telegram do from the date that is signed, never accepts it
  twice.  A caller that reads the clock for it may, a day later (`code_again`).
-/
import NovaMaas.Auth.AuthFlow

open List Option

namespace NovaMaas.Auth

open Table

variable {hash : String → String}

/-! ## The invariants -/

/-- No action of a token whose row can be consumed has been committed. -/
structure Spending (hash : String → String) (db : FlowDB) : Prop where
  issued : (db.issued.map Prod.fst).Nodup
  once   : (db.commits.map FlowCommit.token).Nodup
  right  : ∀ c ∈ db.commits, ∃ input, (c.token, input) ∈ db.issued ∧ c.time < input.expiresAt ∧
    c.fields.admits (input.row (hash c.token)) = true
  unused : ∀ row ∈ db.flows.rows, row.consumedAt = none → ∃ token input, (token, input) ∈ db.issued ∧
    row = input.row (hash token) ∧ token ∉ db.commits.map FlowCommit.token

/-- The row of an acceptance is in the table, or the acceptance is a day old. -/
def FlowKept (hash : String → String) (time : ℤ) (flows : Table AuthFlow.tokenHash) (a : Acceptance) : Prop :=
  a.time + authFlowDefaultCleanupRetention < time ∨
    ∃ row, flows.get? (hash (externalText a.purpose a.assertion)) = some row ∧ row.consumedAt = some a.time ∧
      a.time < row.expiresAt

/-- A second acceptance of one assertion comes after a day. -/
def DayApart (a b : Acceptance) : Prop :=
  externalText a.purpose a.assertion = externalText b.purpose b.assertion →
    a.time + authFlowDefaultCleanupRetention < b.time

structure Remembered (hash : String → String) (time : ℤ) (db : FlowDB) : Prop where
  kept  : ∀ a ∈ db.accepted, FlowKept hash time db.flows a
  live  : ∀ a ∈ db.accepted, a.time ≤ time ∧ a.time < a.expiresAt
  apart : db.accepted.Pairwise DayApart

structure FlowSound (hash : String → String) (time : ℤ) (db : FlowDB) : Prop where
  spending   : Spending hash db
  remembered : Remembered hash time db

/-! ## Claims -/

variable {db db' : FlowDB}

variable {assertion : String} {expiresAt : ℤ}

/-- What a claim that is accepted has done. -/
theorem claim_ok {time : ℤ} {purpose : String}
    (h : claimExternalAuthAssertionWithTx hash time purpose assertion expiresAt db = .ok db') :
    time < expiresAt ∧ db.flows.get? (hash (externalText purpose assertion)) = none ∧ db' = { db with
        flows := db.flows.put (externalRow (hash (externalText purpose assertion)) (trimSpace purpose) expiresAt time)
        accepted := db.accepted ++ [⟨purpose, assertion, expiresAt, time⟩] } := by
  unfold claimExternalAuthAssertionWithTx at h
  by_cases hinvalid : trimSpace purpose = "" ∨ trimSpace assertion = "" ∨ ¬ time < expiresAt
  · rw [if_pos hinvalid] at h
    cases h
  · rw [if_neg hinvalid] at h
    push Not at hinvalid
    by_cases htaken : (db.flows.get? (hash (externalText purpose assertion))).isSome = true
    · rw [if_pos htaken] at h
      cases h
    · rw [if_neg htaken] at h
      cases h
      exact ⟨hinvalid.2.2, by simpa using htaken, rfl⟩

variable {time : ℤ}

variable {flows : Table AuthFlow.tokenHash}

variable {a : Acceptance}

theorem FlowKept.put {row : AuthFlow} (h : FlowKept hash time flows a)
    (hfresh : flows.get? row.tokenHash = none) : FlowKept hash time (flows.put row) a := by
  rcases h with hold | ⟨r, hget, hrow⟩
  · exact .inl hold
  · refine .inr ⟨r, ?_, hrow⟩
    have hne : row.tokenHash ≠ hash (externalText a.purpose a.assertion) := by
      intro heq
      rw [← heq, hfresh] at hget
      cases hget
    rw [get?_put_ne hne, hget]

/-- A new row that is consumed, or a token's. -/
theorem unused_put {row : AuthFlow} {P : AuthFlow → Prop}
    (h : ∀ row ∈ flows.rows, row.consumedAt = none → P row) (hrow : row.consumedAt = none → P row) :
    ∀ x ∈ (flows.put row).rows, x.consumedAt = none → P x := by
  intro x hx hnone
  rcases mem_put.1 hx with rfl | ⟨hx, -⟩
  · exact hrow hnone
  · exact h x hx hnone

theorem claim_sound {time : ℤ} {purpose : String} (hdb : FlowSound hash time db)
    (h : claimExternalAuthAssertionWithTx hash time purpose assertion expiresAt db = .ok db') :
    FlowSound hash time db' := by
  obtain ⟨hexpiry, hfresh, rfl⟩ := claim_ok h
  obtain ⟨hspending, hkept, hlive, hapart⟩ := hdb
  constructor
  · refine ⟨hspending.issued, hspending.once, hspending.right, ?_⟩
    exact unused_put hspending.unused fun hnone => by cases hnone
  · constructor
    · intro a ha
      rcases mem_append.1 ha with ha | ha
      · exact (hkept a ha).put hfresh
      · obtain rfl := mem_singleton.1 ha
        exact .inr ⟨_, get?_put_self _ _, rfl, hexpiry⟩
    · intro a ha
      rcases mem_append.1 ha with ha | ha
      · exact hlive a ha
      · obtain rfl := mem_singleton.1 ha
        exact ⟨le_refl _, hexpiry⟩
    · refine pairwise_append.2 ⟨hapart, pairwise_singleton _ _, ?_⟩
      intro a ha b hb htext
      obtain rfl := mem_singleton.1 hb
      -- the row of the earlier acceptance is gone
      rcases hkept a ha with hold | ⟨row, hget, -⟩
      · exact hold
      · rw [htext, hfresh] at hget
        cases hget

theorem action_sound : ∀ {action : FlowAction} {db db' : FlowDB}, FlowSound hash time db →
    action.run hash time db = .ok db' → FlowSound hash time db' := by
  intro action
  induction action with
  | done =>
    intro db db' hdb h
    cases h
    exact hdb
  | fail =>
    intro db db' hdb h
    cases h
  | claim purpose assertion expiresAt _ ih =>
    intro db db' hdb h
    unfold FlowAction.run at h
    cases hclaim : claimExternalAuthAssertionWithTx hash time purpose assertion expiresAt db with
    | ok =>
      rw [hclaim] at h
      exact ih none (claim_sound hdb hclaim) h
    | error err =>
      rw [hclaim] at h
      exact ih (some err) hdb h

/-- An action commits no flow, and takes back no acceptance. -/
theorem action_notes : ∀ {action : FlowAction} {db db' : FlowDB}, action.run hash time db = .ok db' →
    db'.commits = db.commits ∧ db.accepted <+: db'.accepted := by
  intro action
  induction action with
  | done =>
    intro db db' h
    cases h
    exact ⟨rfl, prefix_rfl⟩
  | fail =>
    intro db db' h
    cases h
  | claim purpose assertion expiresAt _ ih =>
    intro db db' h
    unfold FlowAction.run at h
    cases hclaim : claimExternalAuthAssertionWithTx hash time purpose assertion expiresAt db with
    | ok claimed =>
      rw [hclaim] at h
      obtain ⟨hcommits, haccepted⟩ := ih none h
      obtain ⟨-, -, rfl⟩ := claim_ok hclaim
      exact ⟨hcommits, (prefix_append _ _).trans haccepted⟩
    | error err =>
      rw [hclaim] at h
      exact ih (some err) h

/-! ## Flows -/

variable {token : String}

theorem create_sound {input : AuthFlowCreate} (hdb : FlowSound hash time db)
    (hnew : token ∉ db.issued.map Prod.fst) (h : createAuthFlow hash time token input db = .ok db') :
    FlowSound hash time db' := by
  unfold createAuthFlow at h
  by_cases hinvalid : trimSpace input.purpose = "" ∨ input.expiresAt = zeroTime ∨ ¬ time < input.expiresAt
  · rw [if_pos hinvalid] at h
    cases h
  rw [if_neg hinvalid] at h
  by_cases htaken : (db.flows.get? (hash token)).isSome = true
  · rw [if_pos htaken] at h
    cases h
  rw [if_neg htaken] at h
  cases h
  have hfresh : db.flows.get? (hash token) = none := by simpa using htaken
  obtain ⟨hspending, hremembered⟩ := hdb
  have hcommits : token ∉ db.commits.map FlowCommit.token := by
    intro hmem
    obtain ⟨c, hc, rfl⟩ := mem_map.1 hmem
    obtain ⟨input, hissued, -⟩ := hspending.right c hc
    exact hnew (mem_map.2 ⟨_, hissued, rfl⟩)
  refine ⟨⟨?_, hspending.once, ?_, ?_⟩, ⟨?_, hremembered.live, hremembered.apart⟩⟩
  · show ((db.issued ++ [(token, input)]).map Prod.fst).Nodup
    rw [map_append, nodup_append]
    refine ⟨hspending.issued, nodup_singleton _, ?_⟩
    rintro a ha b hb rfl
    obtain rfl := mem_singleton.1 hb
    exact hnew ha
  · intro c hc
    obtain ⟨input', hissued, hrest⟩ := hspending.right c hc
    exact ⟨input', mem_append_left _ hissued, hrest⟩
  · refine unused_put ?_ fun _ => ⟨token, input, mem_append_right _ mem_cons_self, rfl, hcommits⟩
    intro row hrow hnone
    obtain ⟨token', input', hissued, hrest⟩ := hspending.unused row hrow hnone
    exact ⟨token', input', mem_append_left _ hissued, hrest⟩
  · exact fun a ha => (hremembered.kept a ha).put hfresh

variable {action : Option (AuthFlow → FlowAction)}

variable {m : AuthFlowMatch}

/-- What a request that is served has found. -/
theorem consume_ok (h : consumeAuthFlowWithAction hash time token m action db = .ok db') :
    ∃ flow, db.flows.get? (hash token) = some flow ∧ m.admits flow = true ∧ flow.consumedAt = none ∧
      time < flow.expiresAt ∧
      (action.elim FlowAction.done fun act => act { flow with consumedAt := some time }).run hash time { db with
        flows := db.flows.put { flow with consumedAt := some time }
        commits := db.commits ++ [⟨token, m, time⟩] } = .ok db' := by
  unfold consumeAuthFlowWithAction at h
  by_cases hinvalid : token = "" ∨ m.purpose = ""
  · rw [if_pos hinvalid] at h
    cases h
  rw [if_neg hinvalid] at h
  cases hfound : applyAuthFlowMatch hash db.flows token m with
  | none =>
    rw [hfound] at h
    cases h
  | some flow =>
    rw [hfound] at h
    dsimp only at h
    obtain ⟨hget, hadmits⟩ := filter_eq_some_iff.1 hfound
    by_cases hconsumed : flow.consumedAt.isSome = true
    · rw [if_pos hconsumed] at h
      cases h
    rw [if_neg hconsumed] at h
    by_cases hexpired : ¬ time < flow.expiresAt
    · rw [if_pos hexpired] at h
      cases h
    rw [if_neg hexpired] at h
    refine ⟨flow, hget, hadmits, by simpa using hconsumed, not_not.1 hexpired, ?_⟩
    cases action with
    | none => exact h
    | some => exact h

/-- A request that is served is noted, and so is what its action claims. -/
theorem consume_notes (h : consumeAuthFlowWithAction hash time token m action db = .ok db') :
    db'.commits = db.commits ++ [⟨token, m, time⟩] ∧ db.accepted <+: db'.accepted := by
  obtain ⟨flow, -, -, -, -, hrun⟩ := consume_ok h
  exact action_notes hrun

theorem consume_sound (hinj : Function.Injective hash) (hdb : FlowSound hash time db)
    (h : consumeAuthFlowWithAction hash time token m action db = .ok db') : FlowSound hash time db' := by
  obtain ⟨flow, hget, hadmits, hnone, hexpiry, hrun⟩ := consume_ok h
  refine action_sound ?_ hrun
  obtain ⟨hspending, hremembered⟩ := hdb
  -- the row is the row of this token, and its action has not been committed
  obtain ⟨token', input, hissued, rfl, hcommits⟩ := hspending.unused flow (mem_of_get? hget) hnone
  have hkey : AuthFlow.tokenHash (input.row (hash token')) = hash token := key_of_get? hget
  obtain rfl : token' = token := hinj hkey
  refine ⟨⟨hspending.issued, ?_, ?_, ?_⟩, ⟨?_, hremembered.live, hremembered.apart⟩⟩
  · show ((db.commits ++ [(⟨token', m, time⟩ : FlowCommit)]).map FlowCommit.token).Nodup
    rw [map_append, nodup_append]
    refine ⟨hspending.once, nodup_singleton _, ?_⟩
    rintro a ha b hb rfl
    obtain rfl := mem_singleton.1 hb
    exact hcommits ha
  · intro c hc
    rcases mem_append.1 hc with hc | hc
    · exact hspending.right c hc
    · obtain rfl := mem_singleton.1 hc
      exact ⟨input, hissued, hexpiry, hadmits⟩
  · intro x hx hunused
    rcases mem_put.1 hx with rfl | ⟨hx, hne⟩
    · cases hunused
    · obtain ⟨token, input', hissued', rfl, hcommits'⟩ := hspending.unused x hx hunused
      refine ⟨token, input', hissued', rfl, ?_⟩
      rw [map_append, mem_append]
      rintro (hmem | hmem)
      · exact hcommits' hmem
      · obtain rfl : token = token' := mem_singleton.1 hmem
        exact hne rfl
  · intro a ha
    rcases hremembered.kept a ha with hold | ⟨row, hrow, hconsumed, hrest⟩
    · exact .inl hold
    · refine .inr ⟨row, ?_, hconsumed, hrest⟩
      have hne : hash token' ≠ hash (externalText a.purpose a.assertion) := by
        intro heq
        rw [← heq, hget] at hrow
        obtain rfl := some.inj hrow
        cases hconsumed
      refine (get?_put_ne ?_).trans hrow
      exact hne

/-! ## The clean-up -/

/-- A row that the clean-up deletes has been consumed for a day. -/
theorem FlowKept.cleanup {time now : ℤ} (h : FlowKept hash time flows a)
    (hnow : now ≤ time) : FlowKept hash time (deleteExpiredAuthFlows now flows) a := by
  rcases h with hold | ⟨row, hget, hconsumed, hexpiry⟩
  · exact .inl hold
  · by_cases hold : a.time + authFlowDefaultCleanupRetention < time
    · exact .inl hold
    · refine .inr ⟨row, ?_, hconsumed, hexpiry⟩
      refine get?_eq_some_iff.2 ⟨mem_deleteWhere.2 ⟨mem_of_get? hget, ?_⟩, key_of_get? hget⟩
      rw [hconsumed, any_some, Bool.or_eq_false_iff, decide_eq_false_iff_not, decide_eq_false_iff_not]
      constructor
      · omega
      · omega

theorem cleanup_sound {time now : ℤ} {db : FlowDB} (hdb : FlowSound hash time db) (hnow : now ≤ time) :
    FlowSound hash time { db with flows := deleteExpiredAuthFlows now db.flows } where
  spending :=
    ⟨hdb.spending.issued, hdb.spending.once, hdb.spending.right, fun row hrow hnone =>
      hdb.spending.unused row (mem_deleteWhere.1 hrow).1 hnone⟩
  remembered := ⟨fun a ha => (hdb.remembered.kept a ha).cleanup hnow, hdb.remembered.live, hdb.remembered.apart⟩

/-! ## Runs -/

theorem advance_sound {elapsed : ℕ} {db : FlowDB} (hdb : FlowSound hash time db) :
    FlowSound hash (time + elapsed) db where
  spending := hdb.spending
  remembered := by
    refine ⟨?_, ?_, hdb.remembered.apart⟩
    · intro a ha
      rcases hdb.remembered.kept a ha with hold | hrow
      · exact .inl (by omega)
      · exact .inr hrow
    · intro a ha
      obtain ⟨hle, hlt⟩ := hdb.remembered.live a ha
      exact ⟨by omega, hlt⟩

variable {w : FlowWorld}

/-- A transaction that fails leaves the table. -/
theorem commit_sound {r : Except AuthFlowError FlowDB} (hw : FlowSound hash w.time w.db)
    (hr : ∀ db, r = .ok db → FlowSound hash w.time db) : FlowSound hash (w.commit r).time (w.commit r).db := by
  cases r with
  | ok db => exact hr db rfl
  | error => exact hw

theorem step_sound {w' : FlowWorld} {move : FlowMove} (hinj : Function.Injective hash)
    (hw : FlowSound hash w.time w.db) (h : w.step hash move = some w') : FlowSound hash w'.time w'.db := by
  cases move with
  | advance =>
    cases h
    exact advance_sound hw
  | create =>
    obtain ⟨hnew, h⟩ := ite_none_left_eq_some.1 h
    cases h
    exact commit_sound hw fun db hdb => create_sound hw hnew hdb
  | consume =>
    cases h
    exact commit_sound hw fun db hdb => consume_sound hinj hw hdb
  | claim =>
    cases h
    exact commit_sound hw fun db hdb => claim_sound hw hdb
  | cleanup =>
    obtain ⟨hnow, h⟩ := ite_none_right_eq_some.1 h
    cases h
    exact cleanup_sound hw hnow

theorem start_sound (time : ℤ) : FlowSound hash (FlowWorld.start time).time (FlowWorld.start time).db where
  spending := ⟨nodup_nil, nodup_nil, fun c hc => (by cases hc), fun row hrow => (by cases hrow)⟩
  remembered := ⟨fun a ha => (by cases ha), fun a ha => (by cases ha), List.Pairwise.nil⟩

theorem run_sound {w' : FlowWorld} {moves : List FlowMove} (hinj : Function.Injective hash)
    (hw : FlowSound hash w.time w.db) (h : w.run hash moves = some w') : FlowSound hash w'.time w'.db := by
  induction moves generalizing w with
  | nil =>
    cases h
    exact hw
  | cons _ _ ih =>
    obtain ⟨w₁, hstep, hrun⟩ := bind_eq_some_iff.1 h
    exact ih (step_sound hinj hw hstep) hrun

/-! ## What the table promises -/

/-- The action of a token is committed once, in time, and for a request that matches; an assertion is accepted again after
    a day only, and with a later expiry if it expired within the day. -/
structure OneTime (hash : String → String) (db : FlowDB) : Prop where
  once  : (db.commits.map FlowCommit.token).Nodup
  right : ∀ c ∈ db.commits, ∃ input, (c.token, input) ∈ db.issued ∧ c.time < input.expiresAt ∧
    c.fields.admits (input.row (hash c.token)) = true
  again : db.accepted.Pairwise fun a b =>
    externalText a.purpose a.assertion = externalText b.purpose b.assertion →
      a.time + authFlowDefaultCleanupRetention < b.time ∧
        (a.expiresAt ≤ a.time + authFlowDefaultCleanupRetention → a.expiresAt < b.expiresAt)

theorem FlowSound.oneTime {db : FlowDB} (h : FlowSound hash time db) : OneTime hash db where
  once := h.spending.once
  right := h.spending.right
  again := by
    refine (h.remembered.apart.imp_of_mem ?_)
    intro a b _ hb hapart htext
    have hday := hapart htext
    have hlive := (h.remembered.live b hb).2
    exact ⟨hday, fun hexpiry => by omega⟩

/-- An acceptance by a handler of Telegram, of the authorization `params`. -/
structure TelegramClaim (hmacSha256 : String → String → List ℕ) (botToken : String) (params : UrlValues) (a : Acceptance) :
    Prop where
  purpose  : a.purpose = authFlowPurposeTelegramAssertion
  verified : ∃ now id, now ≤ a.time ∧ verifyTelegramAuthorization hmacSha256 params botToken now = .ok id
  claimed  : ∃ now, telegramAuthorizationClaim params now = .ok (a.assertion, a.expiresAt)

/-- Both are of one text that Telegram has signed, however the signature is written. -/
def SameAuthorization (hmacSha256 : String → String → List ℕ) (botToken : String) (a b : Acceptance) : Prop :=
  ∃ p q, telegramSignedText p = telegramSignedText q ∧ p.get "auth_date" = q.get "auth_date" ∧
    TelegramClaim hmacSha256 botToken p a ∧ TelegramClaim hmacSha256 botToken q b

/-- The date of an authorization that is verified, and its signature. -/
theorem verify_ok {hmacSha256 : String → String → List ℕ} {params : UrlValues} {botToken id : String} {now : ℤ}
    (h : verifyTelegramAuthorization hmacSha256 params botToken now = .ok id) :
    ∃ authDate, parseInt (params.get "auth_date") = some authDate ∧
      authDate ≤ (now + telegramAuthorizationFutureSkew) / flowSecond ∧
      hexDecodeString (params.get "hash") = some (hmacSha256 botToken (telegramSignedText params)) := by
  unfold verifyTelegramAuthorization at h
  by_cases htoken : botToken = ""
  · rw [if_pos htoken] at h
    cases h
  rw [if_neg htoken] at h
  by_cases hduplicate : params.any (fun param => param.2.length ≠ 1) = true
  · rw [if_pos hduplicate] at h
    cases h
  rw [if_neg hduplicate] at h
  by_cases hincomplete : params.get "id" = "" ∨ params.get "hash" = "" ∨ params.get "auth_date" = ""
  · rw [if_pos hincomplete] at h
    cases h
  rw [if_neg hincomplete] at h
  cases hdate : parseInt (params.get "auth_date") with
  | none =>
    rw [hdate] at h
    cases h
  | some authDate =>
    rw [hdate] at h
    dsimp only at h
    split at h
    · cases h
    · next hwindow =>
      push Not at hwindow
      split at h
      · cases h
      · next hsignature => exact ⟨authDate, rfl, hwindow.2, not_not.1 hsignature⟩

theorem claimed_ok {params : UrlValues} {now : ℤ}
    (h : telegramAuthorizationClaim params now = .ok (assertion, expiresAt)) :
    ∃ authDate bytes, parseInt (params.get "auth_date") = some authDate ∧
      hexDecodeString (params.get "hash") = some bytes ∧ assertion = hexEncodeToString bytes ∧
      expiresAt = authDate * flowSecond + telegramAuthorizationMaxAge := by
  unfold telegramAuthorizationClaim at h
  cases hdate : parseInt (params.get "auth_date") with
  | none =>
    rw [hdate] at h
    cases h
  | some authDate =>
    rw [hdate] at h
    dsimp only at h
    cases hbytes : hexDecodeString (params.get "hash") with
    | none =>
      rw [hbytes] at h
      cases h
    | some bytes =>
      rw [hbytes] at h
      dsimp only at h
      split at h
      · cases h
      · cases h
        exact ⟨authDate, bytes, rfl, rfl, rfl, rfl⟩

/-- What the handlers of Telegram claim for one authorization: one assertion, of one expiry, within the day. -/
theorem SameAuthorization.fixed {hmacSha256 : String → String → List ℕ} {botToken : String} {b : Acceptance}
    (h : SameAuthorization hmacSha256 botToken a b) :
    externalText a.purpose a.assertion = externalText b.purpose b.assertion ∧ a.expiresAt = b.expiresAt ∧
      a.expiresAt ≤ a.time + authFlowDefaultCleanupRetention := by
  obtain ⟨p, q, htext, hdate, ⟨hpurpose, ⟨now, id, hnow, hp⟩, _, hclaim⟩, hpurpose', ⟨_, _, -, hq⟩, _, hclaim'⟩ := h
  obtain ⟨date, hdatep, hskew, hhash⟩ := verify_ok hp
  obtain ⟨_, _, _, hhash'⟩ := verify_ok hq
  obtain ⟨datea, bytes, hdatea, hbytes, hassertion, hexpiry⟩ := claimed_ok hclaim
  obtain ⟨dateb, bytes', hdateb, hbytes', hassertion', hexpiry'⟩ := claimed_ok hclaim'
  rw [hdatep] at hdatea
  obtain rfl := some.inj hdatea
  rw [← hdate, hdatep] at hdateb
  obtain rfl := some.inj hdateb
  rw [hhash] at hbytes
  rw [hhash', ← htext, hbytes] at hbytes'
  obtain rfl := some.inj hbytes'
  refine ⟨?_, ?_, ?_⟩
  · rw [hpurpose, hpurpose', hassertion, hassertion']
  · rw [hexpiry, hexpiry']
  · -- five minutes after a date that is two minutes ahead at most
    rw [hexpiry]
    unfold telegramAuthorizationMaxAge authFlowDefaultCleanupRetention
    unfold telegramAuthorizationFutureSkew at hskew
    unfold flowSecond at hskew ⊢
    omega

/-- A consumption whose action fails has done nothing. -/
theorem step_consume_failed (h : ∀ db, consumeAuthFlowWithAction hash w.time token m action w.db ≠ .ok db) :
    w.step hash (.consume token m action) = some w := by
  show some (w.commit _) = some w
  cases hr : consumeAuthFlowWithAction hash w.time token m action w.db with
  | ok db => exact absurd hr (h db)
  | error => rfl

/-- In every run the action of a token is committed once, before it expires and for a request that matches; a request whose
    action fails leaves the flow to the next one; an assertion is accepted again after a day only, and with a later expiry;
    and an authorization of Telegram never.  What a transaction answers for is noted: a request that is served with its
    commitment, a claim that is accepted with its acceptance. -/
theorem flows_one_time (hash : String → String) (hinj : Function.Injective hash) (time : ℤ) (moves : List FlowMove)
    (w : FlowWorld) (hrun : (FlowWorld.start time).run hash moves = some w) :
    OneTime hash w.db ∧ (∀ token m action db, consumeAuthFlowWithAction hash w.time token m none w.db = .ok db →
        (∀ db', consumeAuthFlowWithAction hash w.time token m action w.db ≠ .ok db') →
        (w.step hash (.consume token m action)).bind (fun w' => w'.step hash (.consume token m none)) =
          some { w with db := db }) ∧
      (∀ hmacSha256 botToken, w.db.accepted.Pairwise fun a b => ¬ SameAuthorization hmacSha256 botToken a b) ∧
      (∀ now token m action db db', consumeAuthFlowWithAction hash now token m action db = .ok db' →
        db'.commits = db.commits ++ [⟨token, m, now⟩] ∧ db.accepted <+: db'.accepted) ∧
      ∀ now purpose assertion expiresAt db db',
        claimExternalAuthAssertionWithTx hash now purpose assertion expiresAt db = .ok db' →
          db'.accepted = db.accepted ++ [⟨purpose, assertion, expiresAt, now⟩] ∧ db'.commits = db.commits := by
  have hsound := run_sound hinj (start_sound time) hrun
  refine ⟨hsound.oneTime, ?_, ?_, fun _ _ _ _ _ _ => consume_notes, ?_⟩
  · intro token m action db hfit hfailed
    rw [step_consume_failed hfailed, bind_some]
    show some (w.commit _) = _
    rw [hfit]
    rfl
  · intro hmacSha256 botToken
    refine hsound.oneTime.again.imp ?_
    intro a b hagain hsame
    obtain ⟨htext, hexpiry, hday⟩ := hsame.fixed
    have hlater := (hagain htext).2 hday
    omega
  · intro now purpose assertion expiresAt db db' hclaim
    obtain ⟨-, -, rfl⟩ := claim_ok hclaim
    exact ⟨rfl, rfl⟩

/-- A flow whose first action fails, and an assertion that is shown twice. -/
def bindTwice : List FlowMove :=
  [.create "token" ⟨"telegram_bind", "", "", 7, "s", "", 300 * flowSecond⟩,
    .consume "token" ⟨"telegram_bind", "", "", 7, "s"⟩ (some fun _ => .fail),
    .consume "token" ⟨"telegram_bind", "", "", 7, ""⟩
      (some fun _ => .claim "telegram_assertion" "ab" (300 * flowSecond) fun _ => .done),
    .claim "telegram_assertion" "ab" (300 * flowSecond), .cleanup 0]

theorem flows_one_time_bind : ∃ w, (FlowWorld.start 0).run id bindTwice = some w ∧ OneTime id w.db := by
  have hsome : ((FlowWorld.start 0).run id bindTwice).isSome = true := by decide +kernel
  obtain ⟨w, hrun⟩ := isSome_iff_exists.1 hsome
  exact ⟨w, hrun, (flows_one_time id Function.injective_id 0 bindTwice w hrun).1⟩

/-- The code of a mini program, claimed with an expiry of ten minutes from now, and again a day later. -/
def codeTwice : List FlowMove :=
  [.claim "mini_sms_send" "app:code" (600 * flowSecond), .advance 86401000000000, .cleanup (86401 * flowSecond),
    .claim "mini_sms_send" "app:code" (87001 * flowSecond)]

theorem code_again : ¬ ∀ (hash : String → String), Function.Injective hash → ∀ (time : ℤ) (moves : List FlowMove)
    (w : FlowWorld), (FlowWorld.start time).run hash moves = some w →
    (∀ a ∈ w.db.accepted, a.expiresAt ≤ a.time + authFlowDefaultCleanupRetention) →
    w.db.accepted.Pairwise fun a b => externalText a.purpose a.assertion ≠ externalText b.purpose b.assertion := by
  intro h
  have htwo : ((FlowWorld.start 0).run id codeTwice).any (fun w => w.db.accepted =
      [⟨"mini_sms_send", "app:code", 600 * flowSecond, 0⟩,
        ⟨"mini_sms_send", "app:code", 87001 * flowSecond, 86401 * flowSecond⟩]) = true := by decide +kernel
  obtain ⟨w, hrun, haccepted⟩ := (any_eq_true _ _).1 htwo
  have hpairwise := h id Function.injective_id 0 codeTwice w hrun
  rw [of_decide_eq_true haccepted] at hpairwise
  exact absurd (hpairwise (by decide)) (by simp)

end NovaMaas.Auth
