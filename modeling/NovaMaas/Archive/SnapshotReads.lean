/-
  Reading the snapshots of a request (`GetSnapshotRecordsContext`).

  A read is up to six statements: the rows of the references, the newest row of a task for each kind that is missing, the
  request of the task, the rows of that request, and at last the bodies of what has been selected and is not published.
  Each statement sees the table as it is at its time, so the table is given once a statement.

  Only the last statement reads bodies, and it reads the other columns again; a row that has been published meanwhile comes
  with its index.  It finds the row by its number: a row keeps its reference, and the reference decides on the kind
  (`obtains_getSnapshotRecords`).
-/
import NovaMaas.Archive.Snapshots

open List

namespace NovaMaas.Archive

variable {β : Type} (env : SnapshotEnv β)

/-! ## The read -/

/-- `taskRequestSnapshotKind`. -/
def TaskRequestBody.snapshotKind (row : TaskRequestBody β) : SnapshotKind := row.kind.getD (referenceKind row.referenceID)

/-- A row without its body. -/
def TaskRequestBody.omitBody (row : TaskRequestBody β) : TaskRequestBody β := { row with body := none }

/-- The first of the best rows, where of two of one priority the newer is better. -/
def selectBy (priority : TaskRequestBody β → ℕ) (rows : List (TaskRequestBody β)) : Option (TaskRequestBody β) :=
  rows.foldl (fun best row =>
    if best.all (fun b => priority b < priority row || (priority b = priority row && b.id < row.id)) then some row
    else best) none

/-- `ORDER BY id DESC LIMIT 1`. -/
def newest (rows : List (TaskRequestBody β)) : Option (TaskRequestBody β) := selectBy (fun _ => 0) rows

/-- The two references of a source. -/
def sourceReferences (taskID requestID : String) : List String :=
  if taskID = "" ∧ requestID = "" then []
  else
    [(taskRequestBodyReference taskID requestID).getD "", (upstreamRequestBodyReference env taskID requestID).getD ""]

/-- Not an entry of the history of a poll. -/
def TaskRequestBody.isSnapshot (row : TaskRequestBody β) : Bool := !hasPrefix row.referenceID taskPollHistoryPrefix

/-- The rows of the references. -/
def referencedRecords (references : List String) (rows : List (TaskRequestBody β)) : List (TaskRequestBody β) :=
  (rows.filter fun row => references.contains row.referenceID && row.isSnapshot).map TaskRequestBody.omitBody

def foundKind (kind : SnapshotKind) (records : List (TaskRequestBody β)) : Bool :=
  records.any fun row => row.snapshotKind = kind

/-- The newest row of the task, if there is none of the kind. -/
def fallbackRecords (taskID : String) (kind : SnapshotKind) (records rows : List (TaskRequestBody β)) :
    List (TaskRequestBody β) :=
  if taskID = "" ∨ foundKind kind records then []
  else
    (newest (rows.filter fun row => row.taskID = taskID && row.isSnapshot && row.snapshotKind = kind)).toList.map
      TaskRequestBody.omitBody

/-- The request of a task: of a record, of a row of the task, or of the task's properties (`property`). -/
def linkedRequest (taskID property : String) (metadata : Bool) (records rows : List (TaskRequestBody β)) : String :=
  match newest (records.filter fun row => row.requestID ≠ "") with
  | some row => row.requestID
  | none =>
    match newest (rows.filter fun row => row.taskID = taskID && row.requestID ≠ "" && row.isSnapshot) with
    | some row => row.requestID
    | none => if metadata then "" else property

/-- The records of the request of a task, if a kind is missing. -/
def linkedRecords (taskID requestID property : String) (metadata : Bool)
    (records linkage rows : List (TaskRequestBody β)) : List (TaskRequestBody β) :=
  if taskID ≠ "" ∧ requestID = "" ∧ ¬ (foundKind .original records ∧ foundKind .upstream records) then
    let linked := linkedRequest taskID property metadata records linkage
    if linked ≠ "" then
      (rows.filter fun row => (sourceReferences env "" linked).contains row.referenceID).map TaskRequestBody.omitBody
    else []
  else []

/-- A request that is asked for is before the task, and a reference before a link. -/
def recordPriority (taskID requestID : String) (row : TaskRequestBody β) : ℕ :=
  if requestID ≠ "" ∧ (sourceReferences env "" requestID).contains row.referenceID then 3
  else if taskID ≠ "" ∧ (sourceReferences env taskID "").contains row.referenceID then 2
  else if taskID ≠ "" ∧ row.taskID = taskID then 1
  else 0

/-- The record of a kind. -/
def selectedRecord (taskID requestID : String) (records : List (TaskRequestBody β)) (kind : SnapshotKind) :
    Option (TaskRequestBody β) :=
  (selectBy (recordPriority env taskID requestID) (records.filter fun row => row.snapshotKind = kind)).map fun row =>
    { row with kind := some kind }

/-- The bodies of the rows that are not published. -/
def inlineRecords (ids : List ℕ) (rows : List (TaskRequestBody β)) : List (TaskRequestBody β) :=
  (rows.filter fun row => ids.contains row.id).map fun row =>
    { row with body := if row.published then none else row.body, kind := some row.snapshotKind }

/-- A record that was read again takes the place of the one that was selected. -/
def refreshedRecord (inline : List (TaskRequestBody β)) (selected : Option (TaskRequestBody β)) (kind : SnapshotKind) :
    Option (TaskRequestBody β) :=
  ((inline.filter fun row => row.kind = some kind).getLast?).or selected

/-- The records before the selection. -/
def collectedRecords (taskID requestID property : String) (metadata : Bool) (views : ℕ → List (TaskRequestBody β)) :
    List (TaskRequestBody β) :=
  let referenced := referencedRecords
    ((if taskID = "" then [] else sourceReferences env taskID "") ++ sourceReferences env "" requestID) (views 0)
  let records := referenced ++ fallbackRecords taskID .original referenced (views 1) ++
    fallbackRecords taskID .upstream referenced (views 2)
  records ++ linkedRecords env taskID requestID property metadata records (views 3) (views 4)

/-- The answer; none if it is asked for nothing.  `views` is the table at each statement. -/
def getSnapshotRecords (taskID requestID property : String) (metadata : Bool) (views : ℕ → List (TaskRequestBody β)) :
    Option (List (TaskRequestBody β)) :=
  if taskID = "" ∧ requestID = "" then none
  else
    let selected := selectedRecord env taskID requestID
      (collectedRecords env taskID requestID property metadata views)
    let inline := if metadata then [] else
      inlineRecords (([SnapshotKind.original, .upstream].filterMap selected).filterMap fun row =>
        if row.published then none else some row.id) (views 5)
    some ([SnapshotKind.original, .upstream].filterMap fun kind => refreshedRecord inline (selected kind) kind)

/-! ## What a reader obtains -/

/-- The columns of a row describe a body. -/
structure Described (row : TaskRequestBody β) (body : β) : Prop where
  size     : row.bodySize = env.size body
  sha256   : row.bodySHA256 = env.sha256 body
  evidence : row.evidence = env.evidence body

/-- What a row gives its reader is as its columns say: the body, or the object of its index. -/
def Obtains (objects : ℕ × String → Option β) (row : TaskRequestBody β) : Prop :=
  if row.published = true then ∃ body, objects (row.storageProfileID, row.objectKey) = some body ∧ Described env row body
  else ∃ body, row.body = some body ∧ Described env row body

variable {env}

/-- What a scan that keeps the better of two ends with is one of the list, or what it began with. -/
theorem foldl_better_mem {α : Type} {better : Option α → α → Bool} {x : α} : ∀ (xs : List α) (best : Option α),
    xs.foldl (fun best x => if better best x then some x else best) best = some x → x ∈ xs ∨ best = some x := by
  intro xs
  induction xs with
  | nil => exact fun best h => .inr h
  | cons r xs ih =>
    intro best h
    rw [foldl_cons] at h
    rcases ih _ h with hmem | hbest
    · exact .inl (mem_cons_of_mem _ hmem)
    · split at hbest
      · cases hbest
        exact .inl mem_cons_self
      · exact .inr hbest

variable {rows : List (TaskRequestBody β)}

variable {row : TaskRequestBody β}

theorem selectBy_mem {priority : TaskRequestBody β → ℕ} (h : selectBy priority rows = some row) : row ∈ rows := by
  rcases foldl_better_mem rows none h with hmem | hnone
  · exact hmem
  · cases hnone

theorem selectBy_isSome {priority : TaskRequestBody β → ℕ} (h : rows ≠ []) :
    (selectBy priority rows).isSome = true := by
  have hfold : ∀ (rows : List (TaskRequestBody β)) (best : Option (TaskRequestBody β)), rows ≠ [] ∨ best.isSome = true →
      (rows.foldl (fun best row => if best.all (fun b => priority b < priority row ||
        (priority b = priority row && b.id < row.id)) then some row else best) best).isSome = true := by
    intro rows
    induction rows with
    | nil =>
      intro best h
      exact h.resolve_left (fun hne => hne rfl)
    | cons r rows ih =>
      intro best _
      rw [foldl_cons]
      refine ih _ (.inr ?_)
      split
      · rfl
      · next hbest =>
        cases best with
        | none => exact absurd rfl hbest
        | some b => rfl
  exact hfold rows none (.inl h)

/-- Where a record comes from: a row that one of the statements has seen. -/
def Seen (views : ℕ → List (TaskRequestBody β)) (record : TaskRequestBody β) : Prop :=
  ∃ i, i < 5 ∧ ∃ row ∈ views i, record = row.omitBody

variable {views : ℕ → List (TaskRequestBody β)} {record : TaskRequestBody β} {records : List (TaskRequestBody β)}

variable {kind : SnapshotKind}

theorem seen_fallback {taskID : String} {i : ℕ} (hi : i < 5)
    (h : record ∈ fallbackRecords taskID kind records (views i)) : Seen views record := by
  unfold fallbackRecords at h
  split at h
  · cases h
  · obtain ⟨row, hrow, rfl⟩ := mem_map.1 h
    have hnewest := selectBy_mem (Option.mem_toList.1 hrow)
    exact ⟨i, hi, row, (mem_filter.1 hnewest).1, rfl⟩

variable {taskID requestID property : String}

variable {metadata : Bool}

theorem seen_linked {records linkage : List (TaskRequestBody β)}
    (h : record ∈ linkedRecords env taskID requestID property metadata records linkage (views 4)) : Seen views record := by
  unfold linkedRecords at h
  split at h
  · dsimp only at h
    split at h
    · obtain ⟨row, hrow, rfl⟩ := mem_map.1 h
      exact ⟨4, by decide, row, (mem_filter.1 hrow).1, rfl⟩
    · cases h
  · cases h

theorem seen_collected (h : record ∈ collectedRecords env taskID requestID property metadata views) :
    Seen views record := by
  unfold collectedRecords at h
  rcases mem_append.1 h with h | h
  · rcases mem_append.1 h with h | h
    · rcases mem_append.1 h with h | h
      · obtain ⟨row, hrow, rfl⟩ := mem_map.1 h
        exact ⟨0, by decide, row, (mem_filter.1 hrow).1, rfl⟩
      · exact seen_fallback (by decide) h
    · exact seen_fallback (by decide) h
  · exact seen_linked h

/-- A record that is selected is a row that was seen, of its kind. -/
theorem seen_selected
    (h : selectedRecord env taskID requestID (collectedRecords env taskID requestID property metadata views) kind =
      some record) :
    ∃ i, i < 5 ∧ ∃ row ∈ views i, row.snapshotKind = kind ∧ record = { row.omitBody with kind := some kind } := by
  unfold selectedRecord at h
  obtain ⟨row', hselect, rfl⟩ := Option.map_eq_some_iff.1 h
  obtain ⟨hmem, hkind⟩ := mem_filter.1 (selectBy_mem hselect)
  obtain ⟨i, hi, row, hrow, rfl⟩ := seen_collected hmem
  exact ⟨i, hi, row, hrow, of_decide_eq_true hkind, rfl⟩

/-- Rows keep their number and their reference. -/
def Later (rows rows' : List (TaskRequestBody β)) : Prop :=
  ∀ row ∈ rows, ∃ row' ∈ rows', row'.id = row.id ∧ row'.referenceID = row.referenceID

/-- The reference decides on the kind. -/
def KindsFit (rows : List (TaskRequestBody β)) : Prop :=
  ∀ row ∈ rows, row.kind = some (referenceKind row.referenceID)

theorem KindsFit.snapshotKind (h : KindsFit rows)
    (hrow : row ∈ rows) : row.snapshotKind = referenceKind row.referenceID := by
  unfold TaskRequestBody.snapshotKind
  rw [h row hrow]
  rfl

/-- What is read again is as it is then. -/
theorem obtains_inline {objects : ℕ × String → Option β} {ids : List ℕ}
    (hrows : ∀ row ∈ rows, Obtains env objects row) (h : record ∈ inlineRecords ids rows) :
    Obtains env objects record := by
  obtain ⟨row, hrow, rfl⟩ := mem_map.1 h
  have hobtains := hrows row (mem_filter.1 hrow).1
  unfold Obtains at hobtains ⊢
  by_cases hpublished : row.published = true
  · rw [if_pos hpublished] at hobtains
    obtain ⟨body, hobject, hsize, hsha256, hevidence⟩ := hobtains
    rw [if_pos (by exact hpublished)]
    exact ⟨body, hobject, ⟨hsize, hsha256, hevidence⟩⟩
  · rw [if_neg hpublished] at hobtains
    obtain ⟨body, hbody, hsize, hsha256, hevidence⟩ := hobtains
    rw [if_neg (by exact hpublished)]
    refine ⟨body, ?_, ⟨hsize, hsha256, hevidence⟩⟩
    show (if row.published = true then none else row.body) = some body
    rw [if_neg hpublished]
    exact hbody

/-- Every record of a read is as its columns say, with the objects that there are at its end. -/
theorem obtains_getSnapshotRecords (objects : ℕ → ℕ × String → Option β) (hkinds : ∀ i, i < 6 → KindsFit (views i))
    (hviews : ∀ i, i < 6 → ∀ row ∈ views i, Obtains env (objects i) row)
    (hlater : ∀ i, i < 5 → Later (views i) (views 5))
    (hobjects : ∀ i, i < 5 → ∀ k body, objects i k = some body → objects 5 k = some body)
    (h : getSnapshotRecords env taskID requestID property false views = some records) :
    ∀ record ∈ records, Obtains env (objects 5) record := by
  unfold getSnapshotRecords at h
  split at h
  · cases h
  cases h
  intro record hrecord
  obtain ⟨kind, hkind, hrefreshed⟩ := mem_filterMap.1 hrecord
  unfold refreshedRecord at hrefreshed
  rcases Option.or_eq_some_iff.1 hrefreshed with hlast | ⟨hnone, hselected⟩
  · -- it was read again
    have hmem := mem_of_getLast? hlast
    exact obtains_inline (hviews 5 (by decide)) (mem_filter.1 hmem).1
  · obtain ⟨i, hi, row, hrow, hrowkind, rfl⟩ := seen_selected hselected
    have hobtains := hviews i (by omega) row hrow
    unfold Obtains at hobtains ⊢
    by_cases hpublished : row.published = true
    · rw [if_pos hpublished] at hobtains
      obtain ⟨body, hobject, hsize, hsha256, hevidence⟩ := hobtains
      rw [if_pos (by exact hpublished)]
      exact ⟨body, hobjects i hi _ _ hobject, ⟨hsize, hsha256, hevidence⟩⟩
    · -- the row is still there, and of the same kind: it was read again
      obtain ⟨row', hrow', hid, hreference⟩ := hlater i hi row hrow
      have hkind' : row'.snapshotKind = kind := by
        rw [(hkinds 5 (by decide)).snapshotKind hrow', hreference, ← (hkinds i (by omega)).snapshotKind hrow, hrowkind]
      rw [getLast?_eq_none_iff, filter_eq_nil_iff] at hnone
      refine absurd ?_ (hnone { row' with body := if row'.published then none else row'.body, kind := some kind } ?_)
      · simp
      · refine mem_map.2 ⟨row', mem_filter.2 ⟨hrow', ?_⟩, by rw [hkind']⟩
        rw [contains_iff_mem, mem_filterMap]
        refine ⟨_, mem_filterMap.2 ⟨kind, hkind, hselected⟩, ?_⟩
        show (if row.published = true then none else some row.id) = some row'.id
        rw [if_neg hpublished, hid]

/-- A record that was read again is of the kind that it stands for. -/
theorem refreshedRecord_kind {selected : TaskRequestBody β} (inline : List (TaskRequestBody β))
    (h : selected.kind = some kind) :
    ∃ record, refreshedRecord inline (some selected) kind = some record ∧ record.kind = some kind := by
  unfold refreshedRecord
  cases hlast : (inline.filter fun row => row.kind = some kind).getLast? with
  | none => exact ⟨selected, rfl, h⟩
  | some record =>
    refine ⟨record, rfl, ?_⟩
    exact of_decide_eq_true (mem_filter.1 (mem_of_getLast? hlast)).2

/-- A row of the source has a record of its kind. -/
theorem exists_getSnapshotRecords
    (h : getSnapshotRecords env taskID requestID property metadata views = some records) (hrow : row ∈ views 0)
    (hsnapshot : row.isSnapshot = true)
    (hreference : row.referenceID ∈
      (if taskID = "" then [] else sourceReferences env taskID "") ++ sourceReferences env "" requestID) :
    ∃ record ∈ records, record.kind = some row.snapshotKind := by
  unfold getSnapshotRecords at h
  split at h
  · cases h
  cases h
  have hcollected : row.omitBody ∈ collectedRecords env taskID requestID property metadata views := by
    refine mem_append_left _ (mem_append_left _ (mem_append_left _ ?_))
    refine mem_map.2 ⟨row, mem_filter.2 ⟨hrow, ?_⟩, rfl⟩
    rw [Bool.and_eq_true, contains_iff_mem]
    exact ⟨hreference, hsnapshot⟩
  have hkinds : row.snapshotKind ∈ [SnapshotKind.original, .upstream] := by
    cases row.snapshotKind with
    | original => exact mem_cons_self
    | upstream => exact mem_cons_of_mem _ mem_cons_self
  have hselected : (selectedRecord env taskID requestID
      (collectedRecords env taskID requestID property metadata views) row.snapshotKind).isSome = true := by
    unfold selectedRecord
    rw [Option.isSome_map]
    refine selectBy_isSome (ne_nil_of_mem (mem_filter.2 ⟨hcollected, ?_⟩))
    exact decide_eq_true rfl
  obtain ⟨selected, hselected⟩ := Option.isSome_iff_exists.1 hselected
  have hselectedKind : selected.kind = some row.snapshotKind := by
    obtain ⟨_, _, _, _, _, rfl⟩ := seen_selected hselected
    rfl
  obtain ⟨record, hrecord, hkind⟩ := refreshedRecord_kind _ hselectedKind
  refine ⟨record, mem_filterMap.2 ⟨row.snapshotKind, hkinds, ?_⟩, hkind⟩
  rw [hselected]
  exact hrecord

end NovaMaas.Archive
