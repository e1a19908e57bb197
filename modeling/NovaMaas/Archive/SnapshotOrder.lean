/-
  The store of snapshots does not lose the newest copy, if inline saves come in order and are given back as they are.

  Along every run whose inline bodies are given back as they were saved (`GivenBack`) a row describes what its reader
  obtains (`SnapshotSound`), a reader of several statements obtains it too, and an inline body is cleared only if the
  object has a body of the same digest.  A publication never puts an earlier capture in the place of a later one; an
  inline save does not look at the capture time of the row.  So a capture time decreases in a step exactly if an inline
  save with an earlier capture time is committed (`snapshots_iff`); the newer copy is lost then, and with it the index of
  its object (`late_archive`).
-/
import NovaMaas.Archive.SnapshotReads

open Option hiding all_eq_true

open List

namespace NovaMaas.Archive

open Table

variable {β : Type} (env : SnapshotEnv β)

/-! ## Runs -/

/-- The table, the objects of the storages, and the publications whose reference has been looked up. -/
structure SnapshotWorld (β : Type) where
  time     : ℤ
  db       : SnapshotDB β
  objects  : ℕ × String → Option β
  prepared : List (TaskRequestBody β)

def SnapshotWorld.start (time : ℤ) : SnapshotWorld β := ⟨time, ⟨empty, 1⟩, fun _ => none, []⟩

inductive SnapshotMove (β : Type) where
  | advance (elapsed : ℕ)
  /-- An object is uploaded, under a key of its own. -/
  | upload (profileID : ℕ) (objectKey : String) (body : β)
  | save (taskID requestID : String) (body : β)
  | saveSnapshots (taskID requestID : String) (originalBody upstreamBody : β)
  | saveAt (taskID requestID : String) (body : β) (requestCreatedAt : ℤ)
  | archiveLegacy (row : LegacyTaskRequestBodyRow β)
  /-- A publication of an object that has been verified, up to its transaction. -/
  | prepare (publication : Publication)
  /-- The transaction of a publication. -/
  | publish (index : ℕ)
  | bind (taskID requestID : String)
  | clear (id : ℕ) (expectedSHA256 : String)

/-- `common.GetTimestamp`. -/
def SnapshotWorld.now (w : SnapshotWorld β) : ℤ := w.time / snapshotSecond

/-- A transaction that returns an error is rolled back. -/
def SnapshotWorld.commit (w : SnapshotWorld β) (r : Option (SnapshotDB β)) : SnapshotWorld β :=
  { w with db := r.getD w.db }

/-- The object has been read back: it is as the publication says. -/
def Publication.verified (p : Publication) (objects : ℕ × String → Option β) : Bool :=
  (objects (p.profileID, p.objectKey)).any fun body =>
    p.size = env.size body && p.bodySHA256.toLower = env.sha256 body && p.evidence = env.evidence body

/-- One transaction, or one that fails; none if it cannot be. -/
def SnapshotWorld.step (w : SnapshotWorld β) : SnapshotMove β → Option (SnapshotWorld β)
  | .advance elapsed => some { w with time := w.time + elapsed }
  | .upload profileID objectKey body =>
    if (w.objects (profileID, objectKey)).isNone then
      some { w with objects := fun k => if k = (profileID, objectKey) then some body else w.objects k }
    else none
  | .save taskID requestID body => some (w.commit (saveTaskRequestBody env w.db taskID requestID body w.now))
  | .saveSnapshots taskID requestID originalBody upstreamBody =>
    some (w.commit (saveTaskRequestSnapshots env w.now w.db taskID requestID originalBody upstreamBody))
  | .saveAt taskID requestID body requestCreatedAt =>
    some (w.commit (saveTaskRequestBodyAt env w.now w.db taskID requestID body requestCreatedAt))
  | .archiveLegacy row => some (w.commit (archiveLegacyTaskRequestBody env w.db row))
  | .prepare p =>
    if p.verified env w.objects then
      some { w with prepared := w.prepared ++ (publicationRecord env w.time w.db p).toList }
    else none
  | .publish index =>
    (w.prepared[index]?).map fun record =>
      { w with db := publishRecord w.db record, prepared := w.prepared.eraseIdx index }
  | .bind taskID requestID => some (w.commit (bindTaskRequestSnapshots w.db taskID requestID))
  | .clear id expectedSHA256 => some { w with db := clearMigratedSnapshotBody env w.db id expectedSHA256 }

def SnapshotWorld.run (w : SnapshotWorld β) : List (SnapshotMove β) → Option (SnapshotWorld β)
  | [] => some w
  | move :: moves => (w.step env move).bind fun w' => w'.run moves

/-- The prefix of upstream references is not the beginning of a task's id. -/
def SnapshotMove.unreserved : SnapshotMove β → Bool
  | .prepare p => !hasPrefix p.taskID upstreamRequestBodyReferencePrefix
  | _ => true

/-! ## Inline saves -/

/-- The row of one inline save, if it is committed. -/
def savedRecord (taskID requestID : String) (body : β) (requestCreatedAt : ℤ) : List (TaskRequestBody β) :=
  if env.size body = 0 ∨ env.validJSON body = false then []
  else
    (taskRequestBodyReference taskID requestID).toList.map fun referenceID =>
      inlineRecord env referenceID taskID requestID body requestCreatedAt

/-- The rows of an original and an upstream body. -/
def savedRecords (taskID requestID : String) (originalBody upstreamBody : β) (now : ℤ) : List (TaskRequestBody β) :=
  if maxTaskRequestBodyBytes < env.size originalBody ∨ maxTaskRequestBodyBytes < env.size upstreamBody then []
  else if env.size upstreamBody = 0 then savedRecord env taskID requestID originalBody now
  else if env.validJSON upstreamBody = false ∨ savedRecord env taskID requestID originalBody now = [] then []
  else
    savedRecord env taskID requestID originalBody now ++
      (upstreamRequestBodyReference env taskID requestID).toList.map fun referenceID =>
        inlineRecord env referenceID taskID requestID upstreamBody now

/-- The rows that a move saves inline. -/
def inlineWrites (w : SnapshotWorld β) : SnapshotMove β → List (TaskRequestBody β)
  | .save taskID requestID body => savedRecord env taskID requestID body w.now
  | .saveSnapshots taskID requestID originalBody upstreamBody =>
    savedRecords env taskID requestID originalBody upstreamBody w.now
  | .saveAt taskID requestID body requestCreatedAt =>
    savedRecord env taskID requestID body (requestCreatedAtOr w.now requestCreatedAt)
  | .archiveLegacy row => savedRecord env row.taskID "" row.requestBody row.requestCreatedAt
  | _ => []

/-- No inline save has an earlier capture time than the row in whose place it is put. -/
def InOrder (w : SnapshotWorld β) (move : SnapshotMove β) : Bool :=
  (inlineWrites env w move).all fun record =>
    w.db.rows.rows.all fun row => row.referenceID ≠ record.referenceID || row.capturedAt ≤ record.capturedAt

/-- Of rows that are saved one after the other, those that stay: the last of each reference. -/
def standing : List (TaskRequestBody β) → List (TaskRequestBody β)
  | [] => []
  | record :: records =>
    if records.any fun r => r.referenceID = record.referenceID then standing records else record :: standing records

/-- The columns of a row describe the body that is read from it. -/
def TaskRequestBody.describes (row : TaskRequestBody β) : Bool :=
  row.body.any fun body =>
    row.bodySize = env.size body && row.bodySHA256 = env.sha256 body && row.evidence = env.evidence body

/-- What a move saves inline is given back with the size, the digest and the evidence that were saved with it. -/
def GivenBack (w : SnapshotWorld β) (move : SnapshotMove β) : Bool :=
  (standing (inlineWrites env w move)).all (TaskRequestBody.describes env)

/-- All inline saves of a run are given back. -/
def AllGivenBack (w : SnapshotWorld β) : List (SnapshotMove β) → Bool
  | [] => true
  | move :: moves => GivenBack env w move && (w.step env move).all fun w' => AllGivenBack w' moves

/-- The inline saves of a run are in order. -/
def AllInOrder (w : SnapshotWorld β) : List (SnapshotMove β) → Bool
  | [] => true
  | move :: moves => InOrder env w move && (w.step env move).all fun w' => AllInOrder w' moves

/-! ## What the store promises -/

/-- Capture times do not decrease. -/
def CapturesGrow (rows rows' : List (TaskRequestBody β)) : Prop :=
  ∀ row ∈ rows, ∀ row' ∈ rows', row'.referenceID = row.referenceID → row.capturedAt ≤ row'.capturedAt

/-- An inline body goes only if the object of the row has the same digest. -/
def ClearsCopies (w w' : SnapshotWorld β) : Prop :=
  ∀ row ∈ w.db.rows.rows, ∀ row' ∈ w'.db.rows.rows, row'.referenceID = row.referenceID → ∀ body, row.body = some body →
    row'.body = none → row.published = true ∧
      ∃ object, w.objects (row.storageProfileID, row.objectKey) = some object ∧ env.sha256 object = env.sha256 body

/-- The worlds that a reader sees, one a statement.  What is saved inline in between is given back. -/
def ReaderViews (w : SnapshotWorld β) (worlds : ℕ → SnapshotWorld β) : Prop :=
  worlds 0 = w ∧ ∀ i, i < 5 → ∃ moves : List (SnapshotMove β), moves.all SnapshotMove.unreserved = true ∧
    AllGivenBack env (worlds i) moves = true ∧ (worlds i).run env moves = some (worlds (i + 1))

/-- What a reader that begins now will obtain: each record is as its columns say, and a row of the source has one. -/
def Served (w : SnapshotWorld β) : Prop :=
  ∀ worlds, ReaderViews env w worlds → ∀ taskID requestID property records,
    getSnapshotRecords env taskID requestID property false (fun i => (worlds i).db.rows.rows) = some records →
    (∀ record ∈ records, Obtains env (worlds 5).objects record) ∧ ∀ row ∈ w.db.rows.rows, row.isSnapshot = true →
        row.referenceID ∈
          (if taskID = "" then [] else sourceReferences env taskID "") ++ sourceReferences env "" requestID →
        ∃ record ∈ records, record.kind = some row.snapshotKind

/-- In every state of a run rows describe what is obtained, and no step loses the newest copy. -/
def KeepsNewest (w : SnapshotWorld β) : List (SnapshotMove β) → Prop
  | [] => (∀ row ∈ w.db.rows.rows, Obtains env w.objects row) ∧ Served env w
  | move :: moves => ((∀ row ∈ w.db.rows.rows, Obtains env w.objects row) ∧ Served env w) ∧
    ∀ w', w.step env move = some w' →
      CapturesGrow w.db.rows.rows w'.db.rows.rows ∧ ClearsCopies env w w' ∧ KeepsNewest w' moves

/-! ## What a step does to the rows -/

variable {env}

variable (db : SnapshotDB β)

/-- The table after an upsert: the row has the number that the reference had. -/
theorem upsert_rows (record : TaskRequestBody β) :
    ∃ id, (db.upsert record).rows = db.rows.put { record with id := id } ∧
      ∀ row ∈ db.rows.rows, row.referenceID = record.referenceID → row.id = id := by
  unfold SnapshotDB.upsert
  cases hget : db.rows.get? record.referenceID with
  | some existing =>
    refine ⟨existing.id, rfl, ?_⟩
    intro row hrow hreference
    have hrow' := get?_of_mem hrow
    rw [hreference, hget] at hrow'
    rw [some.inj hrow']
  | none =>
    refine ⟨db.nextID, rfl, ?_⟩
    intro row hrow hreference
    exact absurd hreference (get?_eq_none.1 hget row hrow)

theorem later_refl (rows : List (TaskRequestBody β)) : Later rows rows := fun row hrow => ⟨row, hrow, rfl, rfl⟩

theorem Later.trans {rows rows₁ rows₂ : List (TaskRequestBody β)} (h : Later rows rows₁) (h' : Later rows₁ rows₂) :
    Later rows rows₂ := by
  intro row hrow
  obtain ⟨row₁, hrow₁, hid, hreference⟩ := h row hrow
  obtain ⟨row₂, hrow₂, hid', hreference'⟩ := h' row₁ hrow₁
  exact ⟨row₂, hrow₂, hid'.trans hid, hreference'.trans hreference⟩

variable {record : TaskRequestBody β}

open TaskRequestBody

theorem later_put {rows : Table (referenceID (β := β))}
    (h : ∀ row ∈ rows.rows, row.referenceID = record.referenceID → row.id = record.id) :
    Later rows.rows (rows.put record).rows := by
  intro row hrow
  by_cases hreference : row.referenceID = record.referenceID
  · exact ⟨record, mem_put.2 (.inl rfl), (h row hrow hreference).symm, hreference.symm⟩
  · exact ⟨row, mem_put.2 (.inr ⟨hrow, hreference⟩), rfl, rfl⟩

theorem later_updateWhere {rows : Table (referenceID (β := β))} {p : TaskRequestBody β → Bool}
    {f : TaskRequestBody β → TaskRequestBody β} (hf : ∀ row, (f row).referenceID = row.referenceID)
    (hid : ∀ row, (f row).id = row.id) : Later rows.rows (rows.updateWhere p f hf).rows := by
  intro row hrow
  refine ⟨_, mem_updateWhere_of_mem p f hf hrow, ?_, ?_⟩
  · split
    · exact hid row
    · rfl
  · split
    · exact hf row
    · rfl

variable {records : List (TaskRequestBody β)}

theorem mem_of_mem_standing (h : record ∈ standing records) : record ∈ records := by
  induction records with
  | nil => cases h
  | cons r records ih =>
    unfold standing at h
    split at h
    · exact mem_cons_of_mem _ (ih h)
    · rcases mem_cons.1 h with rfl | h
      · exact mem_cons_self
      · exact mem_cons_of_mem _ (ih h)

theorem mem_standing_cons {r : TaskRequestBody β} (h : record ∈ standing records) :
    record ∈ standing (r :: records) := by
  unfold standing
  split
  · exact h
  · exact mem_cons_of_mem _ h

/-- The table after inline saves of one capture time. -/
structure SavedRows (rows rows' : List (TaskRequestBody β)) (records : List (TaskRequestBody β)) : Prop where
  later : Later rows rows'
  cases : ∀ row' ∈ rows', (row' ∈ rows ∧ ∀ record ∈ records, record.referenceID ≠ row'.referenceID) ∨
    ∃ record ∈ standing records, ∃ id, row' = { record with id := id }
  stand : ∀ record ∈ standing records, ∃ id, { record with id := id } ∈ rows'

theorem savedRows_foldl (records : List (TaskRequestBody β)) : ∀ db : SnapshotDB β,
    SavedRows db.rows.rows (records.foldl SnapshotDB.upsert db).rows.rows records := by
  induction records with
  | nil =>
    exact fun db => ⟨later_refl _, fun row' hrow' => .inl ⟨hrow', fun record hrecord => by cases hrecord⟩,
      fun record hrecord => by cases hrecord⟩
  | cons record records ih =>
    intro db
    obtain ⟨hlater, hcases, hstand⟩ := ih (db.upsert record)
    obtain ⟨id, hrows, hid⟩ := upsert_rows db record
    rw [foldl_cons]
    -- the row of the head stays, unless one of the others has its reference
    have hhead : ∀ {x}, x ∈ standing (record :: records) → x ∈ standing records ∨
        (x = record ∧ ∀ r ∈ records, r.referenceID ≠ record.referenceID) := by
      intro x hx
      unfold standing at hx
      split at hx
      · exact .inl hx
      · next hnone =>
        rcases mem_cons.1 hx with rfl | hx
        · refine .inr ⟨rfl, fun r hr heq => hnone ?_⟩
          exact any_of_mem hr (decide_eq_true heq)
        · exact .inl hx
    refine ⟨?_, ?_, ?_⟩
    · refine Later.trans ?_ hlater
      rw [hrows]
      exact later_put hid
    · intro row' hrow'
      rcases hcases row' hrow' with ⟨hmem, hother⟩ | ⟨record', hrecord', hrow'⟩
      · rw [hrows, mem_put] at hmem
        rcases hmem with rfl | ⟨hold, hne⟩
        · refine .inr ⟨record, ?_, id, rfl⟩
          unfold standing
          rw [if_neg]
          · exact mem_cons_self
          · simpa using hother
        · refine .inl ⟨hold, ?_⟩
          intro record' hrecord'
          rcases mem_cons.1 hrecord' with rfl | hrecord'
          · exact fun heq => hne heq.symm
          · exact hother record' hrecord'
      · exact .inr ⟨record', mem_standing_cons hrecord', hrow'⟩
    · intro x hx
      rcases hhead hx with hx | ⟨rfl, hlast⟩
      · exact hstand x hx
      · have hput : { x with id := id } ∈ (db.upsert x).rows.rows := by
          rw [hrows]
          exact mem_put.2 (.inl rfl)
        obtain ⟨row', hrow', -, hreference⟩ := hlater _ hput
        rcases hcases row' hrow' with ⟨hmem, -⟩ | ⟨r, hr, _, rfl⟩
        · obtain rfl := eq_of_key_eq hmem hput hreference
          exact ⟨id, hrow'⟩
        · exact absurd hreference (hlast r (mem_of_mem_standing hr))

/-! ## The saves write what they say -/

theorem saveTaskRequestBody_eq (taskID requestID : String) (body : β) (created : ℤ) :
    saveTaskRequestBody env db taskID requestID body created =
      if savedRecord env taskID requestID body created = [] then none
      else some ((savedRecord env taskID requestID body created).foldl SnapshotDB.upsert db) := by
  unfold saveTaskRequestBody savedRecord saveTaskRequestBodyAtReference
  cases taskRequestBodyReference taskID requestID with
  | none => simp
  | some =>
    by_cases hsize : env.size body = 0
    · simp [hsize]
    · by_cases hvalid : env.validJSON body = false
      · simp [hvalid]
      · simp [hsize, hvalid]

theorem getD_ite_nil {db : SnapshotDB β} :
    (if records = [] then none else some (records.foldl SnapshotDB.upsert db)).getD db =
      records.foldl SnapshotDB.upsert db := by
  by_cases hnil : records = []
  · rw [if_pos hnil, hnil]
    rfl
  · rw [if_neg hnil]
    rfl

theorem saveTaskRequestSnapshots_getD (taskID requestID : String) (originalBody upstreamBody : β) (now : ℤ) :
    (saveTaskRequestSnapshots env now db taskID requestID originalBody upstreamBody).getD db =
      (savedRecords env taskID requestID originalBody upstreamBody now).foldl SnapshotDB.upsert db := by
  unfold saveTaskRequestSnapshots savedRecords
  by_cases hlarge : maxTaskRequestBodyBytes < env.size originalBody ∨ maxTaskRequestBodyBytes < env.size upstreamBody
  · rw [if_pos hlarge, if_pos hlarge]
    rfl
  rw [if_neg hlarge, if_neg hlarge]
  unfold upstreamRequestBodyReference
  cases hreference : taskRequestBodyReference taskID requestID with
  | none =>
    have hnil : savedRecord env taskID requestID originalBody now = [] := by
      unfold savedRecord
      rw [hreference]
      simp
    rw [hnil]
    simp
  | some =>
    rw [map_some, bind_some, saveTaskRequestBody_eq]
    by_cases hnil : savedRecord env taskID requestID originalBody now = []
    · rw [hnil]
      simp
    rw [if_neg hnil, bind_some]
    by_cases hempty : env.size upstreamBody = 0
    · rw [if_pos hempty, if_pos hempty]
      rfl
    rw [if_neg hempty, if_neg hempty]
    unfold saveTaskRequestBodyAtReference
    rw [if_neg hempty]
    by_cases hvalid : env.validJSON upstreamBody = false
    · rw [if_pos hvalid, if_pos (.inl hvalid)]
      rfl
    · rw [if_neg hvalid, if_neg (by simp [hvalid, hnil]), foldl_append]
      rfl

theorem archiveLegacyTaskRequestBody_getD (row : LegacyTaskRequestBodyRow β) :
    (archiveLegacyTaskRequestBody env db row).getD db =
      (savedRecord env row.taskID "" row.requestBody row.requestCreatedAt).foldl SnapshotDB.upsert db := by
  unfold archiveLegacyTaskRequestBody
  by_cases hempty : env.size row.requestBody = 0
  · have hnil : savedRecord env row.taskID "" row.requestBody row.requestCreatedAt = [] := by
      unfold savedRecord
      rw [if_pos (.inl hempty)]
    rw [if_pos hempty, hnil]
    rfl
  · rw [if_neg hempty, saveTaskRequestBody_eq, getD_ite_nil]

variable {requestID taskID : String}

/-- What is saved inline is a row with its body, and all rows of a move have one capture time. -/
theorem savedRecord_eq {body : β} {created : ℤ} (h : record ∈ savedRecord env taskID requestID body created) :
    ∃ referenceID, record = inlineRecord env referenceID taskID requestID body created := by
  unfold savedRecord at h
  split at h
  · cases h
  · obtain ⟨referenceID, -, rfl⟩ := mem_map.1 h
    exact ⟨referenceID, rfl⟩

theorem inlineWrites_eq (env : SnapshotEnv β) (w : SnapshotWorld β) (move : SnapshotMove β) :
    ∃ created, ∀ record ∈ inlineWrites env w move, ∃ referenceID taskID requestID body,
      record = inlineRecord env referenceID taskID requestID body created := by
  cases move with
  | save taskID requestID body =>
    refine ⟨w.now, fun record hrecord => ?_⟩
    obtain ⟨referenceID, hrecord⟩ := savedRecord_eq hrecord
    exact ⟨referenceID, taskID, requestID, body, hrecord⟩
  | saveSnapshots taskID requestID originalBody upstreamBody =>
    refine ⟨w.now, fun record hrecord => ?_⟩
    have hrecord' : record ∈ savedRecords env taskID requestID originalBody upstreamBody w.now := hrecord
    unfold savedRecords at hrecord'
    split at hrecord'
    · cases hrecord'
    · split at hrecord'
      · obtain ⟨referenceID, hrecord⟩ := savedRecord_eq hrecord'
        exact ⟨referenceID, taskID, requestID, originalBody, hrecord⟩
      · split at hrecord'
        · cases hrecord'
        · rcases mem_append.1 hrecord' with hrecord | hrecord
          · obtain ⟨referenceID, hrecord⟩ := savedRecord_eq hrecord
            exact ⟨referenceID, taskID, requestID, originalBody, hrecord⟩
          · obtain ⟨referenceID, -, rfl⟩ := mem_map.1 hrecord
            exact ⟨referenceID, taskID, requestID, upstreamBody, rfl⟩
  | saveAt taskID requestID body requestCreatedAt =>
    refine ⟨requestCreatedAtOr w.now requestCreatedAt, fun record hrecord => ?_⟩
    obtain ⟨referenceID, hrecord⟩ := savedRecord_eq hrecord
    exact ⟨referenceID, taskID, requestID, body, hrecord⟩
  | archiveLegacy row =>
    refine ⟨row.requestCreatedAt, fun record hrecord => ?_⟩
    obtain ⟨referenceID, hrecord⟩ := savedRecord_eq hrecord
    exact ⟨referenceID, row.taskID, "", row.requestBody, hrecord⟩
  | advance | upload | prepare | publish | bind | clear => exact ⟨0, fun record hrecord => by cases hrecord⟩

/-! ## The steps -/

/-- The table, the objects and the publications after a step. -/
inductive SnapshotStep (env : SnapshotEnv β) (w w' : SnapshotWorld β) (move : SnapshotMove β) : Prop where
  | saved (hdb : w'.db = (inlineWrites env w move).foldl SnapshotDB.upsert w.db) (hobjects : w'.objects = w.objects)
      (hprepared : w'.prepared = w.prepared)
  | uploaded (k : ℕ × String) (body : β) (hdb : w'.db = w.db) (hwrites : inlineWrites env w move = [])
      (hfresh : w.objects k = none) (hobjects : w'.objects = fun k' => if k' = k then some body else w.objects k')
      (hprepared : w'.prepared = w.prepared)
  | prepared (p : Publication) (hmove : move = .prepare p) (hdb : w'.db = w.db)
      (hwrites : inlineWrites env w move = []) (hobjects : w'.objects = w.objects)
      (hverified : p.verified env w.objects = true)
      (hprepared : w'.prepared = w.prepared ++ (publicationRecord env w.time w.db p).toList)
  | published (record : TaskRequestBody β) (hrecord : record ∈ w.prepared) (hdb : w'.db = publishRecord w.db record)
      (hwrites : inlineWrites env w move = []) (hobjects : w'.objects = w.objects)
      (hprepared : ∀ r ∈ w'.prepared, r ∈ w.prepared)
  | bound (taskID requestID : String) (hdb : w'.db = (bindTaskRequestSnapshots w.db taskID requestID).getD w.db)
      (hwrites : inlineWrites env w move = []) (hobjects : w'.objects = w.objects) (hprepared : w'.prepared = w.prepared)
  | cleared (id : ℕ) (expectedSHA256 : String) (hdb : w'.db = clearMigratedSnapshotBody env w.db id expectedSHA256)
      (hwrites : inlineWrites env w move = []) (hobjects : w'.objects = w.objects) (hprepared : w'.prepared = w.prepared)

variable {w w' : SnapshotWorld β} {move : SnapshotMove β}

theorem snapshotStep (h : w.step env move = some w') : SnapshotStep env w w' move := by
  cases move with
  | advance =>
    cases h
    exact .saved rfl rfl rfl
  | upload profileID objectKey body =>
    obtain ⟨hfresh, h⟩ := ite_none_right_eq_some.1 h
    cases h
    exact .uploaded (profileID, objectKey) body rfl rfl (by simpa using hfresh) rfl rfl
  | save taskID requestID body =>
    cases h
    refine .saved ?_ rfl rfl
    exact (congrArg (fun r => getD r w.db)
      (saveTaskRequestBody_eq w.db taskID requestID body w.now)).trans getD_ite_nil
  | saveSnapshots taskID requestID originalBody upstreamBody =>
    cases h
    exact .saved (saveTaskRequestSnapshots_getD w.db taskID requestID originalBody upstreamBody w.now) rfl rfl
  | saveAt taskID requestID body requestCreatedAt =>
    cases h
    refine .saved ?_ rfl rfl
    exact (congrArg (fun r => getD r w.db) (saveTaskRequestBody_eq w.db taskID requestID body
      (requestCreatedAtOr w.now requestCreatedAt))).trans getD_ite_nil
  | archiveLegacy row =>
    cases h
    exact .saved (archiveLegacyTaskRequestBody_getD w.db row) rfl rfl
  | prepare p =>
    obtain ⟨hverified, h⟩ := ite_none_right_eq_some.1 h
    cases h
    exact .prepared p rfl rfl rfl rfl hverified rfl
  | publish =>
    obtain ⟨record, hrecord, rfl⟩ := map_eq_some_iff.1 h
    exact .published record (mem_of_getElem? hrecord) rfl rfl rfl fun r hr => mem_of_mem_eraseIdx hr
  | bind taskID requestID =>
    cases h
    exact .bound taskID requestID rfl rfl rfl rfl
  | clear id expectedSHA256 =>
    cases h
    exact .cleared id expectedSHA256 rfl rfl rfl rfl

/-- Where a row after a step comes from. -/
inductive RowAfter (env : SnapshotEnv β) (w : SnapshotWorld β) (writes : List (TaskRequestBody β))
    (row' : TaskRequestBody β) : Prop where
  | kept (h : row' ∈ w.db.rows.rows)
  | saved (record : TaskRequestBody β) (hrecord : record ∈ standing writes) (id : ℕ) (h : row' = { record with id := id })
  | published (record : TaskRequestBody β) (hrecord : record ∈ w.prepared) (id : ℕ) (body : Option β) (created : ℤ)
      (h : row' = { record with id := id, body := body, requestCreatedAt := created })
      (hold : ∀ row ∈ w.db.rows.rows, row.referenceID = record.referenceID →
        row.body = body ∧ row.capturedAt ≤ record.capturedAt)
  | bound (row : TaskRequestBody β) (hrow : row ∈ w.db.rows.rows) (taskID : String)
      (h : row' = { row with taskID := taskID })
  | cleared (row : TaskRequestBody β) (hrow : row ∈ w.db.rows.rows) (expectedSHA256 : String)
      (hclear : row.clearable env expectedSHA256 = true) (h : row' = { row with body := none })

theorem publishRecord_rows (record : TaskRequestBody β) : publishRecord db record = db ∨ ∃ id body created,
      (publishRecord db record).rows = db.rows.put { record with id := id, body := body, requestCreatedAt := created } ∧
        ∀ row ∈ db.rows.rows, row.referenceID = record.referenceID →
          row.id = id ∧ row.body = body ∧ row.capturedAt ≤ record.capturedAt := by
  unfold publishRecord
  cases hget : db.rows.get? record.referenceID with
  | none =>
    refine .inr ⟨db.nextID, record.body, record.requestCreatedAt, rfl, ?_⟩
    intro row hrow hreference
    exact absurd hreference (get?_eq_none.1 hget row hrow)
  | some existing =>
    dsimp only
    by_cases hlater : record.capturedAt < existing.capturedAt
    · exact .inl (if_pos hlater)
    · rw [if_neg hlater]
      refine .inr ⟨existing.id, existing.body, existing.requestCreatedAt, rfl, ?_⟩
      intro row hrow hreference
      have hrow' := get?_of_mem hrow
      rw [hreference, hget] at hrow'
      obtain rfl := some.inj hrow'
      exact ⟨rfl, rfl, Int.not_lt.1 hlater⟩

theorem SnapshotStep.rowAfter
    (h : SnapshotStep env w w' move) : ∀ row' ∈ w'.db.rows.rows, RowAfter env w (inlineWrites env w move) row' := by
  intro row' hrow'
  cases h with
  | saved hdb =>
    rw [hdb] at hrow'
    rcases (savedRows_foldl (inlineWrites env w move) w.db).cases row' hrow' with ⟨hold, -⟩ | ⟨record, hrecord, id, hnew⟩
    · exact .kept hold
    · exact .saved record hrecord id hnew
  | uploaded _ _ hdb
  | prepared _ _ hdb =>
    rw [hdb] at hrow'
    exact .kept hrow'
  | published record hrecord hdb =>
    rcases publishRecord_rows w.db record with hsame | ⟨id, body, created, hrows, hold⟩
    · rw [hdb, hsame] at hrow'
      exact .kept hrow'
    · rw [hdb, hrows] at hrow'
      rcases mem_put.1 hrow' with rfl | ⟨hrow', -⟩
      · exact .published record hrecord id body created rfl fun row hrow hreference => (hold row hrow hreference).2
      · exact .kept hrow'
  | bound taskID _ hdb =>
    rw [hdb] at hrow'
    unfold bindTaskRequestSnapshots at hrow'
    split at hrow'
    · exact .kept hrow'
    · obtain ⟨row, hrow, rfl⟩ := mem_map.1 hrow'
      split
      · exact .bound row hrow taskID rfl
      · exact .kept hrow
  | cleared _ expectedSHA256 hdb =>
    rw [hdb] at hrow'
    obtain ⟨row, hrow, rfl⟩ := mem_map.1 hrow'
    split
    · next hclear =>
      rw [Bool.and_eq_true] at hclear
      exact .cleared row hrow expectedSHA256 hclear.2 rfl
    · exact .kept hrow

/-- No step deletes a row. -/
theorem SnapshotStep.later (h : SnapshotStep env w w' move) : Later w.db.rows.rows w'.db.rows.rows := by
  cases h with
  | saved hdb =>
    rw [hdb]
    exact (savedRows_foldl (inlineWrites env w move) w.db).later
  | uploaded _ _ hdb
  | prepared _ _ hdb =>
    rw [hdb]
    exact later_refl _
  | published record _ hdb =>
    rw [hdb]
    rcases publishRecord_rows w.db record with hsame | ⟨id, body, created, hrows, hold⟩
    · rw [hsame]
      exact later_refl _
    · rw [hrows]
      exact later_put fun row hrow hreference => (hold row hrow hreference).1
  | bound _ _ hdb =>
    rw [hdb]
    unfold bindTaskRequestSnapshots
    split
    · exact later_refl _
    · refine later_updateWhere ?_ fun row => rfl
      exact fun row => rfl
  | cleared _ _ hdb =>
    rw [hdb]
    refine later_updateWhere ?_ fun row => rfl
    exact fun row => rfl

/-- An object stays as it is. -/
theorem SnapshotStep.objects
    (h : SnapshotStep env w w' move) : ∀ k body, w.objects k = some body → w'.objects k = some body := by
  intro k body hobject
  cases h with
  | uploaded k' _ _ _ hfresh hobjects =>
    rw [hobjects]
    have hne : k ≠ k' := by
      rintro rfl
      rw [hfresh] at hobject
      cases hobject
    show (if k = k' then _ else _) = _
    rw [if_neg hne]
    exact hobject
  | saved _ hobjects | prepared _ _ _ _ hobjects | published _ _ _ _ hobjects
  | bound _ _ _ _ hobjects | cleared _ _ _ _ hobjects =>
    rw [hobjects]
    exact hobject

/-! ## The invariant -/

/-- Rows, and publications that are prepared, are as the object or the body says. -/
structure SnapshotSound (env : SnapshotEnv β) (w : SnapshotWorld β) : Prop where
  kinds    : KindsFit w.db.rows.rows
  obtains  : ∀ row ∈ w.db.rows.rows, Obtains env w.objects row
  prepared : ∀ record ∈ w.prepared, record.kind = some (referenceKind record.referenceID) ∧ record.published = true ∧
    Obtains env w.objects record

variable {row : TaskRequestBody β}

theorem Obtains.objects {objects objects' : ℕ × String → Option β} (h : Obtains env objects row)
    (hobjects : ∀ k body, objects k = some body → objects' k = some body) : Obtains env objects' row := by
  unfold Obtains at h ⊢
  by_cases hpublished : row.published = true
  · rw [if_pos hpublished] at h ⊢
    obtain ⟨body, hobject, hdescribed⟩ := h
    exact ⟨body, hobjects _ _ hobject, hdescribed⟩
  · rw [if_neg hpublished] at h ⊢
    exact h

variable {referenceID : String}

/-- A row that was saved inline is obtained as it says exactly if it is given back. -/
theorem obtains_inlineRecord {objects : ℕ × String → Option β} {body : β}
    {created : ℤ} {id : ℕ} (h : record = inlineRecord env referenceID taskID requestID body created) :
    Obtains env objects { record with id := id } ↔ record.describes env = true := by
  subst h
  unfold Obtains describes
  rw [if_neg (by simp [inlineRecord, published])]
  constructor
  · rintro ⟨_, ⟨⟩, hsize, hsha256, hevidence⟩
    exact (any_eq_true _ _).2 ⟨_, rfl, by simpa using ⟨⟨hsize, hsha256⟩, hevidence⟩⟩
  · intro hany
    obtain ⟨body', hbody, hfacts⟩ := (any_eq_true _ _).1 hany
    rw [Bool.and_eq_true, Bool.and_eq_true, decide_eq_true_eq, decide_eq_true_eq, decide_eq_true_eq] at hfacts
    exact ⟨body', hbody, ⟨hfacts.1.1, hfacts.1.2, hfacts.2⟩⟩

theorem obtains_published {objects : ℕ × String → Option β} (h : Obtains env objects record)
    (hpublished : record.published = true) (id : ℕ) (body : Option β) (created : ℤ) :
    Obtains env objects { record with id := id, body := body, requestCreatedAt := created } := by
  unfold Obtains at h ⊢
  rw [if_pos hpublished] at h
  rw [if_pos (by exact hpublished)]
  obtain ⟨object, hobject, hsize, hsha256, hevidence⟩ := h
  exact ⟨object, hobject, ⟨hsize, hsha256, hevidence⟩⟩

theorem clearable_iff {expectedSHA256 : String} (h : row.clearable env expectedSHA256 = true) :
    row.published = true ∧ row.bodySHA256 = expectedSHA256 ∧
      ∃ body, row.body = some body ∧ env.sha256 body = expectedSHA256 := by
  unfold clearable at h
  rw [Bool.and_eq_true, Bool.and_eq_true, Bool.and_eq_true] at h
  obtain ⟨⟨⟨-, hpublished⟩, hsha256⟩, hbody⟩ := h
  obtain ⟨body, hbody, hany⟩ := (any_eq_true _ _).1 hbody
  rw [Bool.and_eq_true] at hany
  exact ⟨hpublished, of_decide_eq_true hsha256, body, hbody, of_decide_eq_true hany.2⟩

/-- The reference of a publication is of its kind. -/
theorem kindReference_kind {kind : SnapshotKind} (htask : hasPrefix taskID upstreamRequestBodyReferencePrefix = false)
    (h : kindReference env kind taskID requestID = some referenceID) : referenceKind referenceID = kind := by
  unfold referenceKind
  cases kind with
  | original =>
    have hreference : taskRequestBodyReference taskID requestID = some referenceID := h
    unfold taskRequestBodyReference at hreference
    split at hreference
    · cases hreference
      rw [htask]
      rfl
    · split at hreference
      · cases hreference
        rw [if_neg]
        simp [hasPrefix, upstreamRequestBodyReferencePrefix, String.toList_append]
      · cases hreference
  | upstream =>
    obtain ⟨text, -, rfl⟩ := map_eq_some_iff.1 h
    rw [if_pos]
    simp [hasPrefix, upstreamRequestBodyReferencePrefix, String.toList_append]

theorem oldest_mem {rows : List (TaskRequestBody β)} (h : oldest rows = some row) : row ∈ rows := by
  rcases foldl_better_mem rows none h with hmem | hnone
  · exact hmem
  · cases hnone

/-- The reference is one of the two of the source. -/
theorem publicationReference_cases {db : SnapshotDB β} {p : Publication}
    (h : publicationReference env db p = some referenceID) : ∃ kind, p.kind = some kind ∧
      (kindReference env kind p.taskID p.requestID = some referenceID ∨
        kindReference env kind "" p.requestID = some referenceID) := by
  unfold publicationReference at h
  obtain ⟨kind, hkind, h⟩ := bind_eq_some_iff.1 h
  obtain ⟨defaultReference, hdefault, h⟩ := bind_eq_some_iff.1 h
  refine ⟨kind, hkind, ?_⟩
  dsimp only at h
  -- what is not the default is the reference of the request
  have hrequest : ∀ r : String, r ≠ "" →
      r = (if p.requestID ≠ "" then (kindReference env kind "" p.requestID).getD "" else "") →
      kindReference env kind "" p.requestID = some r := by
    intro r hne heq
    by_cases hid : p.requestID ≠ ""
    · rw [if_pos hid] at heq
      cases href : kindReference env kind "" p.requestID with
      | none =>
        rw [href] at heq
        exact absurd heq hne
      | some =>
        rw [href] at heq
        exact congrArg some heq.symm
    · rw [if_neg hid] at heq
      exact absurd heq hne
  by_cases hgiven : p.referenceID ≠ ""
  · rw [if_pos hgiven] at h
    obtain ⟨hfits, h⟩ := ite_none_left_eq_some.1 h
    cases h
    push Not at hfits
    by_cases hdef : p.referenceID = defaultReference
    · exact .inl (hdefault.trans (congrArg some hdef.symm))
    · exact .inr (hrequest _ hgiven (hfits.2.1 hdef))
  · rw [if_neg hgiven] at h
    by_cases hboth : p.taskID ≠ "" ∧ p.requestID ≠ ""
    · rw [if_pos hboth] at h
      split at h
      · next existing hexisting =>
        cases h
        obtain ⟨-, hfilter⟩ := mem_filter.1 (oldest_mem hexisting)
        rw [Bool.and_eq_true, Bool.or_eq_true, decide_eq_true_eq, decide_eq_true_eq] at hfilter
        rcases hfilter.1 with hdef | hreq
        · exact .inl (hdefault.trans (congrArg some hdef.symm))
        · refine .inr ?_
          have hsome : (kindReference env kind "" p.requestID).isSome = true := by
            cases kind with
            | original => simp [kindReference, taskRequestBodyReference, hboth.2]
            | upstream => simp [kindReference, upstreamRequestBodyReference, taskRequestBodyReference, hboth.2]
          obtain ⟨r, hr⟩ := isSome_iff_exists.1 hsome
          rw [if_pos hboth.2, hr] at hreq
          rw [hr, hreq]
          rfl
      · cases h
        exact .inl hdefault
    · rw [if_neg hboth] at h
      cases h
      exact .inl hdefault

/-- A publication that is prepared is of the object that was verified. -/
theorem publicationRecord_sound {w : SnapshotWorld β} {p : Publication} (hverified : p.verified env w.objects = true)
    (htask : hasPrefix p.taskID upstreamRequestBodyReferencePrefix = false)
    (h : publicationRecord env w.time w.db p = some record) :
    record.kind = some (referenceKind record.referenceID) ∧ record.published = true ∧ Obtains env w.objects record := by
  unfold publicationRecord at h
  obtain ⟨referenceID, hreference, h⟩ := bind_eq_some_iff.1 h
  obtain ⟨hmetadata, h⟩ := ite_none_left_eq_some.1 h
  obtain ⟨-, h⟩ := ite_none_left_eq_some.1 h
  cases h
  push Not at hmetadata
  obtain ⟨hprofile, hkey, -⟩ := hmetadata
  have hkey' : p.objectKey ≠ "" := by
    intro hempty
    rw [hempty] at hkey
    exact hkey (by decide)
  have hpublished : StorageState.ready = .ready ∧ 0 < p.profileID ∧ p.objectKey ≠ "" :=
    ⟨rfl, Nat.pos_of_ne_zero hprofile, hkey'⟩
  obtain ⟨body, hobject, hfacts⟩ := (any_eq_true _ _).1 hverified
  rw [Bool.and_eq_true, Bool.and_eq_true, decide_eq_true_eq, decide_eq_true_eq, decide_eq_true_eq] at hfacts
  obtain ⟨⟨hsize, hsha256⟩, hevidence⟩ := hfacts
  refine ⟨?_, ?_, ?_⟩
  · obtain ⟨kind, hkind, hkindreference⟩ := publicationReference_cases hreference
    show p.kind = _
    rw [hkind]
    rcases hkindreference with hdefault | hrequest
    · rw [kindReference_kind htask hdefault]
    · rw [kindReference_kind (by decide) hrequest]
  · simp [published, hpublished]
  · unfold Obtains
    rw [if_pos (by simp [published, hpublished])]
    exact ⟨body, hobject, ⟨hsize, hsha256, hevidence⟩⟩

theorem SnapshotSound.step (hw : SnapshotSound env w) (hmove : move.unreserved = true)
    (hgiven : GivenBack env w move = true) (h : w.step env move = some w') : SnapshotSound env w' := by
  have hstep := snapshotStep h
  have hobjects := hstep.objects
  constructor
  · intro row' hrow'
    cases hstep.rowAfter row' hrow' with
    | kept h => exact hw.kinds row' h
    | saved record hrecord _ h =>
      obtain ⟨created, hcreated⟩ := inlineWrites_eq env w move
      obtain ⟨referenceID, taskID, requestID, body, rfl⟩ := hcreated record (mem_of_mem_standing hrecord)
      rw [h]
      rfl
    | published record hrecord _ _ _ h =>
      rw [h]
      exact (hw.prepared record hrecord).1
    | bound row hrow _ h | cleared row hrow _ _ h =>
      rw [h]
      exact hw.kinds row hrow
  · intro row' hrow'
    cases hstep.rowAfter row' hrow' with
    | kept h => exact (hw.obtains row' h).objects hobjects
    | saved record hrecord id h =>
      obtain ⟨created, hcreated⟩ := inlineWrites_eq env w move
      obtain ⟨referenceID, taskID, requestID, body, heq⟩ := hcreated record (mem_of_mem_standing hrecord)
      rw [h]
      exact (obtains_inlineRecord heq).2 (all_eq_true.1 hgiven record hrecord)
    | published record hrecord id body created h =>
      obtain ⟨-, hpublished, hobtains⟩ := hw.prepared record hrecord
      rw [h]
      exact obtains_published (hobtains.objects hobjects) hpublished id body created
    | bound row hrow _ h =>
      have hobtains := (hw.obtains row hrow).objects hobjects
      rw [h]
      unfold Obtains at hobtains ⊢
      by_cases hpublished : row.published = true
      · rw [if_pos hpublished] at hobtains
        rw [if_pos (by exact hpublished)]
        obtain ⟨object, hobject, hsize, hsha256, hevidence⟩ := hobtains
        exact ⟨object, hobject, ⟨hsize, hsha256, hevidence⟩⟩
      · rw [if_neg hpublished] at hobtains
        rw [if_neg (by exact hpublished)]
        obtain ⟨body, hbody, hsize, hsha256, hevidence⟩ := hobtains
        exact ⟨body, hbody, ⟨hsize, hsha256, hevidence⟩⟩
    | cleared row hrow _ hclear h =>
      rw [h]
      exact obtains_published ((hw.obtains row hrow).objects hobjects) (clearable_iff hclear).1 row.id none
        row.requestCreatedAt
  · intro record hrecord
    cases hstep with
    | prepared p hunreserved _ _ hobjects' hverified hprepared =>
      rw [hobjects']
      rw [hprepared] at hrecord
      rcases mem_append.1 hrecord with hold | hnew
      · exact hw.prepared record hold
      · have htask : hasPrefix p.taskID upstreamRequestBodyReferencePrefix = false := by
          rw [hunreserved] at hmove
          simpa [SnapshotMove.unreserved] using hmove
        exact publicationRecord_sound hverified htask (mem_toList.1 hnew)
    | saved _ _ hprepared | uploaded _ _ _ _ _ _ hprepared
    | bound _ _ _ _ _ hprepared | cleared _ _ _ _ _ hprepared =>
      rw [hprepared] at hrecord
      obtain ⟨hkind, hpublished, hobtains⟩ := hw.prepared record hrecord
      exact ⟨hkind, hpublished, hobtains.objects hobjects⟩
    | published _ _ _ _ _ hprepared =>
      obtain ⟨hkind, hpublished, hobtains⟩ := hw.prepared record (hprepared record hrecord)
      exact ⟨hkind, hpublished, hobtains.objects hobjects⟩

variable {moves : List (SnapshotMove β)}

theorem SnapshotSound.run (hw : SnapshotSound env w)
    (hmoves : moves.all SnapshotMove.unreserved = true) (hgiven : AllGivenBack env w moves = true)
    (h : w.run env moves = some w') : SnapshotSound env w' ∧ Later w.db.rows.rows w'.db.rows.rows ∧
      ∀ k body, w.objects k = some body → w'.objects k = some body := by
  induction moves generalizing w with
  | nil =>
    cases h
    exact ⟨hw, later_refl _, fun k body hobject => hobject⟩
  | cons _ _ ih =>
    obtain ⟨w₁, hstep, hrun⟩ := bind_eq_some_iff.1 h
    rw [all_cons, Bool.and_eq_true] at hmoves
    unfold AllGivenBack at hgiven
    rw [hstep, Bool.and_eq_true] at hgiven
    obtain ⟨hsound, hlater, hobjects⟩ := ih (hw.step hmoves.1 hgiven.1 hstep) hmoves.2 hgiven.2 hrun
    have hstep' := snapshotStep hstep
    exact ⟨hsound, hstep'.later.trans hlater, fun k body hobject => hobjects k body (hstep'.objects k body hobject)⟩

theorem SnapshotSound.start (time : ℤ) : SnapshotSound env (SnapshotWorld.start time) where
  kinds := fun row hrow => by cases hrow
  obtains := fun row hrow => by cases hrow
  prepared := fun record hrecord => by cases hrecord

/-! ## Readers -/

/-- What a reader sees later is sound, has the rows that it has seen, and their objects. -/
theorem readerViews_sound {w : SnapshotWorld β} {worlds : ℕ → SnapshotWorld β} (hw : SnapshotSound env w)
    (h : ReaderViews env w worlds) : ∀ i, i < 6 → SnapshotSound env (worlds i) ∧
      ∀ j, j ≤ i → Later (worlds j).db.rows.rows (worlds i).db.rows.rows ∧
        ∀ k body, (worlds j).objects k = some body → (worlds i).objects k = some body := by
  intro i
  induction i with
  | zero =>
    intro _
    rw [h.1]
    refine ⟨hw, fun j hj => ?_⟩
    obtain rfl := Nat.le_zero.1 hj
    rw [h.1]
    exact ⟨later_refl _, fun k body hobject => hobject⟩
  | succ i ih =>
    intro hi
    obtain ⟨hsound, hbefore⟩ := ih (by omega)
    obtain ⟨moves, hmoves, hgiven, hrun⟩ := h.2 i (by omega)
    obtain ⟨hsound', hlater, hobjects⟩ := hsound.run hmoves hgiven hrun
    refine ⟨hsound', fun j hj => ?_⟩
    rcases Nat.lt_or_ge i j with hlt | hle
    · obtain rfl : j = i + 1 := by omega
      exact ⟨later_refl _, fun k body hobject => hobject⟩
    · obtain ⟨hlater', hobjects'⟩ := hbefore j hle
      exact ⟨hlater'.trans hlater, fun k body hobject => hobjects k body (hobjects' k body hobject)⟩

theorem SnapshotSound.served {w : SnapshotWorld β} (hw : SnapshotSound env w) : Served env w := by
  intro worlds hviews taskID requestID property records h
  have hsound := readerViews_sound hw hviews
  obtain ⟨-, hlast⟩ := hsound 5 (by decide)
  constructor
  · exact obtains_getSnapshotRecords (fun i => (worlds i).objects) (fun i hi => (hsound i hi).1.kinds)
      (fun i hi => (hsound i hi).1.obtains) (fun i hi => (hlast i (by omega)).1) (fun i hi => (hlast i (by omega)).2) h
  · intro row hrow hsnapshot hreference
    refine exists_getSnapshotRecords h ?_ hsnapshot hreference
    show row ∈ (worlds 0).db.rows.rows
    rw [hviews.1]
    exact hrow

/-! ## Capture times -/

theorem eq_of_reference {w : SnapshotWorld β} {row' : TaskRequestBody β} (hrow : row ∈ w.db.rows.rows)
    (hrow' : row' ∈ w.db.rows.rows) (h : row'.referenceID = row.referenceID) : row' = row :=
  eq_of_key_eq hrow' hrow h

/-- Capture times do not decrease in a step exactly if its inline saves are in order. -/
theorem capturesGrow_iff (h : w.step env move = some w') :
    CapturesGrow w.db.rows.rows w'.db.rows.rows ↔ InOrder env w move = true := by
  have hstep := snapshotStep h
  unfold InOrder
  rw [all_eq_true]
  constructor
  · intro hgrow record hrecord
    rw [all_eq_true]
    intro row hrow
    rw [Bool.or_eq_true, decide_eq_true_eq, decide_eq_true_eq]
    by_cases hreference : row.referenceID = record.referenceID
    · refine .inr ?_
      obtain ⟨created, hcreated⟩ := inlineWrites_eq env w move
      have hcaptured : ∀ r ∈ inlineWrites env w move, r.capturedAt = created * snapshotSecond := by
        intro r hr
        obtain ⟨_, _, _, _, rfl⟩ := hcreated r hr
        rfl
      -- the row of the reference is one of the rows that are saved
      obtain ⟨row', hrow', -, hreference'⟩ := hstep.later row hrow
      have hle := hgrow row hrow row' hrow' hreference'
      cases hstep with
      | saved hdb =>
        rw [hdb] at hrow'
        rcases (savedRows_foldl (inlineWrites env w move) w.db).cases row' hrow' with ⟨-, hother⟩ | ⟨r, hr, id, hnew⟩
        · exact absurd (hreference.symm.trans hreference'.symm) (hother record hrecord)
        · rw [hcaptured record hrecord]
          rw [hnew] at hle
          have heq := hcaptured r (mem_of_mem_standing hr)
          exact hle.trans_eq heq
      | uploaded _ _ _ hwrites | prepared _ _ _ hwrites | published _ _ _ hwrites
      | bound _ _ _ hwrites | cleared _ _ _ hwrites =>
        rw [hwrites] at hrecord
        cases hrecord
    · exact .inl hreference
  · intro horder row hrow row' hrow' hreference
    cases hstep.rowAfter row' hrow' with
    | kept h => rw [eq_of_reference hrow h hreference]
    | saved record hrecord _ h =>
      have hall := all_eq_true.1 (horder record (mem_of_mem_standing hrecord)) row hrow
      rw [Bool.or_eq_true, decide_eq_true_eq, decide_eq_true_eq] at hall
      rw [h] at hreference ⊢
      exact hall.resolve_left fun hne => hne hreference.symm
    | published _ _ _ _ _ h hold =>
      rw [h] at hreference ⊢
      exact (hold row hrow hreference.symm).2
    | bound _ hrow₀ _ h | cleared _ hrow₀ _ _ h =>
      rw [h] at hreference ⊢
      rw [← eq_of_reference hrow hrow₀ hreference]

/-- An inline body that goes is in the object. -/
theorem SnapshotSound.clearsCopies (hw : SnapshotSound env w)
    (h : w.step env move = some w') : ClearsCopies env w w' := by
  have hstep := snapshotStep h
  intro row hrow row' hrow' hreference body hbody hnone
  cases hstep.rowAfter row' hrow' with
  | kept h =>
    rw [eq_of_reference hrow h hreference, hbody] at hnone
    cases hnone
  | saved record hrecord _ h =>
    obtain ⟨created, hcreated⟩ := inlineWrites_eq env w move
    obtain ⟨_, _, _, _, rfl⟩ := hcreated record (mem_of_mem_standing hrecord)
    rw [h] at hnone
    cases hnone
  | published _ _ _ _ _ h hold =>
    rw [h] at hreference hnone
    have hsame := (hold row hrow hreference.symm).1
    rw [hbody] at hsame
    rw [← hsame] at hnone
    cases hnone
  | bound _ hrow₀ _ h =>
    rw [h] at hreference hnone
    have hsame := eq_of_reference hrow hrow₀ hreference
    rw [hsame] at hnone
    rw [hbody] at hnone
    cases hnone
  | cleared _ hrow₀ _ hclear h =>
    rw [h] at hreference
    obtain rfl := eq_of_reference hrow hrow₀ hreference
    obtain ⟨hpublished, hsha256, body', hbody', hdigest⟩ := clearable_iff hclear
    rw [hbody] at hbody'
    obtain rfl := some.inj hbody'
    have hobtains := hw.obtains _ hrow
    unfold Obtains at hobtains
    rw [if_pos hpublished] at hobtains
    obtain ⟨object, hobject, hdescribed⟩ := hobtains
    exact ⟨hpublished, object, hobject, by rw [← hdescribed.sha256, hsha256, hdigest]⟩

/-- A move that cannot be made saves nothing. -/
theorem inlineWrites_of_stuck {w : SnapshotWorld β} (h : w.step env move = none) : inlineWrites env w move = [] := by
  cases move with
  | advance | upload | prepare | publish | bind | clear => rfl
  | save | saveSnapshots | saveAt | archiveLegacy => cases h

/-- What a move has saved is given back, if the rows after it are obtained as they say. -/
theorem givenBack_of_obtains (h : w.step env move = some w')
    (hobtains : ∀ row ∈ w'.db.rows.rows, Obtains env w'.objects row) : GivenBack env w move = true := by
  refine all_eq_true.2 fun record hrecord => ?_
  obtain ⟨created, hcreated⟩ := inlineWrites_eq env w move
  obtain ⟨_, _, _, _, heq⟩ := hcreated record (mem_of_mem_standing hrecord)
  cases snapshotStep h with
  | saved hdb =>
    obtain ⟨id, hrow⟩ := (savedRows_foldl (inlineWrites env w move) w.db).stand record hrecord
    rw [← hdb] at hrow
    exact (obtains_inlineRecord heq).1 (hobtains _ hrow)
  | uploaded _ _ _ hwrites | prepared _ _ _ hwrites | published _ _ _ hwrites
  | bound _ _ _ hwrites | cleared _ _ _ hwrites =>
    rw [hwrites] at hrecord
    cases hrecord

theorem KeepsNewest.obtains {w : SnapshotWorld β} (h : KeepsNewest env w moves) :
    ∀ row ∈ w.db.rows.rows, Obtains env w.objects row := by
  cases moves with
  | nil => exact h.1
  | cons => exact h.1.1

/-- A run keeps the newest copy exactly if its inline saves are in order and are given back. -/
theorem SnapshotSound.keepsNewest_iff {w : SnapshotWorld β} (hw : SnapshotSound env w)
    (hmoves : moves.all SnapshotMove.unreserved = true) :
    KeepsNewest env w moves ↔ AllInOrder env w moves = true ∧ AllGivenBack env w moves = true := by
  induction moves generalizing w with
  | nil =>
    constructor
    · exact fun _ => ⟨rfl, rfl⟩
    · exact fun _ => ⟨hw.obtains, hw.served⟩
  | cons move moves ih =>
    rw [all_cons, Bool.and_eq_true] at hmoves
    obtain ⟨hmove, hmoves⟩ := hmoves
    show ((_ ∧ _) ∧ ∀ w', w.step env move = some w' → _) ↔
      (InOrder env w move && (w.step env move).all fun w' => AllInOrder env w' moves) = true ∧
        (GivenBack env w move && (w.step env move).all fun w' => AllGivenBack env w' moves) = true
    rw [Bool.and_eq_true, Bool.and_eq_true]
    cases hstep : w.step env move with
    | none =>
      have hnone := inlineWrites_of_stuck hstep
      have horder : InOrder env w move = true := by
        unfold InOrder
        rw [hnone]
        rfl
      have hgiven : GivenBack env w move = true := by
        unfold GivenBack
        rw [hnone]
        rfl
      constructor
      · exact fun _ => ⟨⟨horder, rfl⟩, hgiven, rfl⟩
      · exact fun _ => ⟨⟨hw.obtains, hw.served⟩, fun w' h => by cases h⟩
    | some w' =>
      rw [all_some, all_some]
      constructor
      · rintro ⟨-, hrest⟩
        obtain ⟨hgrow, -, hkeeps⟩ := hrest w' rfl
        have hgiven := givenBack_of_obtains hstep hkeeps.obtains
        obtain ⟨horders, hgivens⟩ := (ih (hw.step hmove hgiven hstep) hmoves).1 hkeeps
        exact ⟨⟨(capturesGrow_iff hstep).1 hgrow, horders⟩, hgiven, hgivens⟩
      · rintro ⟨⟨horder, horders⟩, hgiven, hgivens⟩
        refine ⟨⟨hw.obtains, hw.served⟩, ?_⟩
        rintro _ ⟨⟩
        exact ⟨(capturesGrow_iff hstep).2 horder, hw.clearsCopies hstep,
          (ih (hw.step hmove hgiven hstep) hmoves).2 ⟨horders, hgivens⟩⟩

/-- Every run from the empty store keeps the newest copy exactly if its inline saves are in order, and the column gives
them back with the size, the digest and the evidence that were saved. -/
theorem snapshots_iff (env : SnapshotEnv β) (time : ℤ) (moves : List (SnapshotMove β))
    (hmoves : moves.all SnapshotMove.unreserved = true) :
    KeepsNewest env (SnapshotWorld.start time) moves ↔
      AllInOrder env (SnapshotWorld.start time) moves = true ∧ AllGivenBack env (SnapshotWorld.start time) moves = true :=
  (SnapshotSound.start time).keepsNewest_iff hmoves

theorem allGivenBack_append {past future : List (SnapshotMove β)} {w w' : SnapshotWorld β}
    (hgiven : AllGivenBack env w (past ++ future) = true) (h : w.run env past = some w') :
    AllGivenBack env w past = true ∧ AllGivenBack env w' future = true := by
  induction past generalizing w with
  | nil =>
    cases h
    exact ⟨rfl, hgiven⟩
  | cons move past ih =>
    obtain ⟨w₁, hstep, hrun⟩ := bind_eq_some_iff.1 h
    rw [cons_append] at hgiven
    unfold AllGivenBack at hgiven
    rw [hstep, Bool.and_eq_true] at hgiven
    obtain ⟨hpast, hfuture⟩ := ih hgiven.2 hrun
    refine ⟨?_, hfuture⟩
    unfold AllGivenBack
    rw [hstep, Bool.and_eq_true]
    exact ⟨hgiven.1, hpast⟩

/-- In whatever order inline saves come: no row goes away, and a reader of a row obtains what its columns say, where the
column gives back what is saved. -/
theorem snapshots_readable (env : SnapshotEnv β) (time : ℤ) (past future : List (SnapshotMove β))
    {w w' : SnapshotWorld β} (hmoves : (past ++ future).all SnapshotMove.unreserved = true)
    (hgiven : AllGivenBack env (SnapshotWorld.start time) (past ++ future) = true)
    (hpast : (SnapshotWorld.start time).run env past = some w) (hfuture : w.run env future = some w') :
    Later w.db.rows.rows w'.db.rows.rows ∧ ∀ row ∈ w'.db.rows.rows, Obtains env w'.objects row := by
  rw [all_append, Bool.and_eq_true] at hmoves
  obtain ⟨hgivenPast, hgivenFuture⟩ := allGivenBack_append hgiven hpast
  obtain ⟨hsound, hlater, -⟩ :=
    ((SnapshotSound.start time).run hmoves.1 hgivenPast hpast).1.run hmoves.2 hgivenFuture hfuture
  exact ⟨hlater, hsound.obtains⟩

/-! ## Two runs -/

/-- Two bodies, by their digests. -/
def twoBodies : SnapshotEnv ℕ where
  column := id
  size := fun _ => 2
  validJSON := fun _ => true
  sha256 := fun body => String.ofList (replicate 64 (if body = 0 then '0' else '1'))
  evidence := fun _ => ⟨1, false, "", false⟩
  sha256Text := id

/-- A publication of the body 1, captured at 200 seconds. -/
def publicationAt200 : Publication where
  referenceID := ""
  taskID := "task_1"
  requestID := ""
  kind := some .original
  nodeName := "node-a"
  profileID := 7
  objectKey := "snapshots/original.json"
  size := 2
  bodySHA256 := String.ofList (replicate 64 '1')
  evidence := ⟨1, false, "", false⟩
  capturedAt := 200 * snapshotSecond

/-- A legacy row is archived, its request is published with a later capture, and the inline body is cleared. -/
def migratedSnapshot : List (SnapshotMove ℕ) :=
  [.archiveLegacy ⟨"task_1", 90, 100, 1⟩, .upload 7 "snapshots/original.json" 1, .prepare publicationAt200, .publish 0,
    .clear 1 (String.ofList (replicate 64 '1'))]

theorem keepsNewest_migrated : KeepsNewest twoBodies (SnapshotWorld.start 0) migratedSnapshot :=
  (snapshots_iff twoBodies 0 migratedSnapshot (by decide +kernel)).2 ⟨by decide +kernel, by decide +kernel⟩

/-- The row of the task is archived after its publication. -/
def lateArchive : List (SnapshotMove ℕ) :=
  [.upload 7 "snapshots/original.json" 1, .prepare publicationAt200, .publish 0, .archiveLegacy ⟨"task_1", 90, 100, 0⟩]

theorem snapshots_readable_late : ∃ w, (SnapshotWorld.start 0).run twoBodies lateArchive = some w ∧
    ∀ row ∈ w.db.rows.rows, Obtains twoBodies w.objects row := by
  have hends : ((SnapshotWorld.start 0).run twoBodies lateArchive).isSome = true := by decide +kernel
  obtain ⟨w, hrun⟩ := isSome_iff_exists.1 hends
  exact ⟨w, hrun, (snapshots_readable twoBodies 0 [] lateArchive (by decide +kernel) (by decide +kernel) rfl hrun).2⟩

theorem late_archive : ((SnapshotWorld.start 0).run twoBodies lateArchive).any (fun w => w.db.rows.rows.all fun row =>
      row.body = some 0 && row.capturedAt = 100 * snapshotSecond && !row.published) = true ∧
    ¬ ∀ (env : SnapshotEnv ℕ) (time : ℤ) (moves : List (SnapshotMove ℕ)),
      moves.all SnapshotMove.unreserved = true → KeepsNewest env (SnapshotWorld.start time) moves := by
  refine ⟨by decide +kernel, ?_⟩
  intro h
  have hkeeps := h twoBodies 0 lateArchive (by decide +kernel)
  have horder := (((SnapshotSound.start 0).keepsNewest_iff (by decide +kernel)).1 hkeeps).1
  exact absurd horder (by decide +kernel)

/-- A column that rewrites the body 1: it gives back another one than was saved, with its size but not its digest. -/
theorem rewritten_not_kept : ¬ KeepsNewest { twoBodies with column := fun _ => 0 } (SnapshotWorld.start 0)
    [.archiveLegacy ⟨"task_1", 90, 100, 1⟩] := by
  intro h
  have hgiven := (((SnapshotSound.start 0).keepsNewest_iff (by decide +kernel)).1 h).2
  exact absurd hgiven (by decide +kernel)

end NovaMaas.Archive
