/-
  The scanner of upstream streams (StreamScannerHandler of relay/helper/stream_scanner.go).

  One loop scans the lines and puts payloads into a channel, another one takes them out and hands them to the data
  handler; the channel holds ten.  Whatever the order of their steps, what has been handled, what waits in the channel
  and what the lines to come give make up the same (`Scanning.step`), so every run ends with the same deliveries and the
  same reason (`scanning_outcome`).

  Both kinds of lines that are looked at, `data:` and a bare `[DONE]`, have their first five characters cut off.  Of a
  bare `[DONE]` that leaves a bracket, which is not the terminator any more and is delivered.  The scanner does what is
  wanted if and only if no such line comes before a terminator with `data:` (`scanner_exact_iff`).

  Lines are what bufio.ScanLines gives, as characters.  Nobody stops or cancels the stream.
-/
import NovaMaas.Lib.Text

open List

namespace NovaMaas.Relay

/-! ## One line -/

/-- `len` of a string: its bytes. -/
def byteLength (s : String) : ℕ := (s.toList.map Char.utf8Size).sum

/-- What the scanner makes of a line. -/
inductive Scanned where
  | skipped
  | payload (data : String)
  | finished
  deriving DecidableEq

/-- The payload of a line of either kind: what stands behind its first five characters, trimmed. -/
def behindFive (line : String) : String := trimSpace (String.ofList (line.toList.drop 5))

/-- The body of the scanner's loop. -/
def scanLine (line : String) : Scanned :=
  if byteLength line < 6 then .skipped
  else if !hasPrefix line "data:" && !hasPrefix line "[DONE]" then .skipped
  else if behindFive line = "" then .skipped
  else if !hasPrefix (behindFive line) "[DONE]" then .payload (behindFive line)
  else .finished

/-! ## Both loops -/

inductive EndReason where
  | eof
  | done
  deriving DecidableEq

/-- The lines not yet scanned, the channel and whether it is open, the scanner's result, what the handler received, and
the reason it recorded in the end. -/
structure Stream where
  lines     : List String
  dataChan  : List String := []
  isOpen    : Bool := true
  result    : EndReason := .eof
  delivered : List String := []
  recorded  : Option EndReason := none
  deriving DecidableEq

inductive Move where
  | scan
  | handle

def channelCapacity : ℕ := 10

/-- A step of one of the loops, where it is not blocked. -/
def Stream.step (s : Stream) : Move → Option Stream
  | .scan =>
    if !s.isOpen then none
    else
      match s.lines with
      | [] => some { s with isOpen := false }
      | line :: rest =>
        match scanLine line with
        | .skipped => some { s with lines := rest }
        | .payload data =>
          if s.dataChan.length < channelCapacity then some { s with lines := rest, dataChan := s.dataChan ++ [data] }
          else none
        | .finished => some { s with lines := rest, isOpen := false, result := .done }
  | .handle =>
    match s.dataChan with
    | data :: rest => some { s with dataChan := rest, delivered := s.delivered ++ [data] }
    | [] => if s.isOpen || s.recorded.isSome then none else some { s with recorded := some s.result }

/-- A run, by the moves made. -/
def Stream.run : Stream → List Move → Option Stream
  | s, [] => some s
  | s, move :: moves => (s.step move).bind fun s' => s'.run moves

/-! ## What is wanted -/

/-- A line with `data:` whose payload is the terminator. -/
def isDataTerminator (line : String) : Bool := hasPrefix line "data:" && hasPrefix (behindFive line) "[DONE]"

/-- The other shape of the terminator. -/
def isBareTerminator (line : String) : Bool := hasPrefix line "[DONE]"

def isTerminator (line : String) : Bool := isDataTerminator line || isBareTerminator line

/-- The trimmed payload of a line with `data:`, unless it is empty. -/
def payload? (line : String) : Option String :=
  if hasPrefix line "data:" && behindFive line ≠ "" then some (behindFive line) else none

def wantedData (lines : List String) : List String := (lines.takeWhile fun line => !isTerminator line).filterMap payload?

def wantedReason (lines : List String) : EndReason := if lines.any isTerminator then .done else .eof

/-- No bare terminator comes before a terminator with `data:`. -/
def NoBareTerminator (lines : List String) : Prop :=
  ∀ line ∈ lines.takeWhile (fun line => !isDataTerminator line), isBareTerminator line = false

instance (lines : List String) : Decidable (NoBareTerminator lines) := inferInstanceAs (Decidable (∀ _ ∈ _, _))

/-! ## The two loops together -/

/-- What the scanner gives to the handler, line by line. -/
def scannedData : List String → List String
  | [] => []
  | line :: rest =>
    match scanLine line with
    | .skipped => scannedData rest
    | .payload data => data :: scannedData rest
    | .finished => []

def scannedReason : List String → EndReason
  | [] => .eof
  | line :: rest =>
    match scanLine line with
    | .skipped => scannedReason rest
    | .payload _ => scannedReason rest
    | .finished => .done

theorem scannedData_cons (line : String) (rest : List String) :
    scannedData (line :: rest) = match scanLine line with
      | .skipped => scannedData rest
      | .payload data => data :: scannedData rest
      | .finished => [] := rfl

theorem scannedReason_cons (line : String) (rest : List String) :
    scannedReason (line :: rest) = match scanLine line with
      | .skipped => scannedReason rest
      | .payload _ => scannedReason rest
      | .finished => .done := rfl

/-- What holds at any time of a run on these lines. -/
structure Scanning (lines : List String) (s : Stream) : Prop where
  data     : s.delivered ++ s.dataChan ++ (if s.isOpen then scannedData s.lines else []) = scannedData lines
  reason   : (if s.isOpen then scannedReason s.lines else s.result) = scannedReason lines
  first    : s.isOpen = true → s.result = .eof
  recorded : ∀ reason ∈ s.recorded, s.isOpen = false ∧ s.dataChan = [] ∧ reason = s.result

variable {lines : List String} {s s' : Stream} {move : Move}

theorem Scanning.start (lines : List String) : Scanning lines { lines := lines } :=
  ⟨rfl, rfl, fun _ => rfl, fun _ h => nomatch h⟩

/-- A step of either loop keeps it. -/
theorem Scanning.step (h : Scanning lines s) (hstep : s.step move = some s') : Scanning lines s' := by
  obtain ⟨rest, dataChan, isOpen, result, delivered, recorded⟩ := s
  obtain ⟨hdata, hreason, hfirst, hrecorded⟩ := h
  unfold Stream.step at hstep
  cases move with
  | scan =>
    cases isOpen with
    | false => cases hstep
    | true =>
      have hnone : recorded = none := by
        cases recorded with
        | none => rfl
        | some reason => exact Bool.noConfusion (hrecorded reason rfl).1
      have hresult : result = .eof := hfirst rfl
      subst hnone hresult
      simp only [Bool.not_true, Bool.false_eq_true, if_false, if_true] at hstep hdata hreason
      cases rest with
      | nil =>
        cases hstep
        exact ⟨hdata, hreason, fun hopen => (nomatch hopen), fun _ hr => (nomatch hr)⟩
      | cons line rest =>
        rw [scannedData_cons] at hdata
        rw [scannedReason_cons] at hreason
        cases hline : scanLine line with
        | skipped =>
          simp only [hline] at hstep hdata hreason
          cases hstep
          exact ⟨hdata, hreason, fun _ => rfl, fun _ hr => (nomatch hr)⟩
        | payload data =>
          simp only [hline] at hstep hdata hreason
          split_ifs at hstep
          cases hstep
          refine ⟨?_, hreason, fun _ => rfl, fun _ hr => (nomatch hr)⟩
          rw [← hdata]
          show delivered ++ (dataChan ++ [data]) ++ scannedData rest = delivered ++ dataChan ++ data :: scannedData rest
          simp only [append_assoc, singleton_append]
        | finished =>
          simp only [hline] at hstep hdata hreason
          cases hstep
          exact ⟨hdata, hreason, fun hopen => (nomatch hopen), fun _ hr => (nomatch hr)⟩
  | handle =>
    cases dataChan with
    | cons data chan =>
      cases hstep
      have hnone : recorded = none := by
        cases recorded with
        | none => rfl
        | some reason => exact absurd (hrecorded reason rfl).2.1 (cons_ne_nil _ _)
      subst hnone
      refine ⟨?_, hreason, hfirst, fun _ hr => (nomatch hr)⟩
      rw [← hdata]
      show delivered ++ [data] ++ chan ++ _ = delivered ++ (data :: chan) ++ _
      simp only [append_assoc, nil_append, cons_append]
    | nil =>
      simp only at hstep
      split_ifs at hstep with hblocked
      cases hstep
      rw [Bool.or_eq_true, not_or] at hblocked
      refine ⟨hdata, hreason, hfirst, fun reason hr => ⟨Bool.not_eq_true _ ▸ hblocked.1, rfl, (Option.some.inj hr).symm⟩⟩

theorem Scanning.run (h : Scanning lines s) {moves : List Move} (hrun : s.run moves = some s') : Scanning lines s' := by
  induction moves generalizing s with
  | nil =>
    cases hrun
    exact h
  | cons _ _ ih =>
    obtain ⟨next, hstep, hrest⟩ := Option.bind_eq_some_iff.1 hrun
    exact ih (h.step hstep) hrest

/-- As long as no reason is recorded one of the loops can go on. -/
theorem not_blocked (h : s.recorded = none) : ∃ move, (s.step move).isSome = true := by
  obtain ⟨rest, dataChan, isOpen, result, delivered, recorded⟩ := s
  subst h
  cases dataChan with
  | cons => exact ⟨.handle, rfl⟩
  | nil =>
    cases isOpen with
    | false => exact ⟨.handle, rfl⟩
    | true =>
      refine ⟨.scan, ?_⟩
      unfold Stream.step
      cases rest with
      | nil => rfl
      | cons line =>
        cases hline : scanLine line with
        | skipped => simp [hline]
        | payload => simp [hline, channelCapacity]
        | finished => simp [hline]

/-- The steps that are left at most. -/
def Stream.stepsLeft (s : Stream) : ℕ :=
  2 * s.lines.length + s.dataChan.length + (if s.isOpen then 1 else 0) + (if s.recorded.isSome then 0 else 1)

/-- Every step takes one of those that are left, so every run ends. -/
theorem stepsLeft_step (hstep : s.step move = some s') : s'.stepsLeft + 1 ≤ s.stepsLeft := by
  obtain ⟨rest, dataChan, isOpen, result, delivered, recorded⟩ := s
  unfold Stream.step at hstep
  cases move with
  | scan =>
    cases isOpen with
    | false => cases hstep
    | true =>
      simp only [Bool.not_true, Bool.false_eq_true, if_false] at hstep
      cases rest with
      | nil =>
        cases hstep
        simp only [Stream.stepsLeft, Bool.false_eq_true, if_false, if_true]
        omega
      | cons line =>
        cases hline : scanLine line with
        | skipped =>
          simp only [hline] at hstep
          cases hstep
          simp only [Stream.stepsLeft, length_cons]
          omega
        | payload =>
          simp only [hline] at hstep
          split_ifs at hstep
          cases hstep
          simp only [Stream.stepsLeft, length_cons, length_append, length_nil]
          omega
        | finished =>
          simp only [hline] at hstep
          cases hstep
          simp only [Stream.stepsLeft, length_cons, Bool.false_eq_true, if_false, if_true]
          omega
  | handle =>
    cases dataChan with
    | cons =>
      cases hstep
      simp only [Stream.stepsLeft, length_cons]
      omega
    | nil =>
      simp only at hstep
      split_ifs at hstep with hblocked
      cases hstep
      rw [Bool.or_eq_true, not_or, Bool.not_eq_true, Bool.not_eq_true] at hblocked
      simp only [Stream.stepsLeft, hblocked.2, Option.isSome_some, Bool.false_eq_true, if_false, if_true]
      omega

/-- Whatever the order of the steps: when a reason is recorded, everything scanned has been delivered. -/
theorem scanning_outcome {moves : List Move} (hrun : Stream.run { lines := lines } moves = some s) {reason : EndReason}
    (hrecorded : s.recorded = some reason) : s.delivered = scannedData lines ∧ reason = scannedReason lines := by
  have h := (Scanning.start lines).run hrun
  obtain ⟨hclosed, hempty, hreason⟩ := h.recorded reason hrecorded
  have hdata := h.data
  have hresult := h.reason
  rw [hclosed] at hdata hresult
  rw [hempty, append_nil] at hdata
  exact ⟨by simpa using hdata, by rw [hreason]; simpa using hresult⟩

theorem run_length {moves : List Move} (hrun : s.run moves = some s') : moves.length + s'.stepsLeft ≤ s.stepsLeft := by
  induction moves generalizing s with
  | nil =>
    cases hrun
    simp
  | cons _ _ ih =>
    obtain ⟨next, hstep, hrest⟩ := Option.bind_eq_some_iff.1 hrun
    have hone := stepsLeft_step hstep
    have hmore := ih hrest
    rw [length_cons]
    omega

/-- Every run comes to an end: it has two steps for a line at most, and two more; until a reason is recorded one of the
loops can go on; and at any time the handler has received the first payloads of those that are scanned. -/
theorem scanner_ends (moves : List Move) (hrun : Stream.run { lines := lines } moves = some s) :
    moves.length ≤ 2 * lines.length + 2 ∧ (s.recorded = none → ∃ move, (s.step move).isSome = true) ∧
      s.delivered <+: scannedData lines := by
  refine ⟨?_, not_blocked, ?_⟩
  · have hlength := run_length hrun
    have hstart : Stream.stepsLeft { lines := lines } = 2 * lines.length + 2 := rfl
    omega
  · have hdata := ((Scanning.start lines).run hrun).data
    rw [append_assoc] at hdata
    exact ⟨_, hdata⟩

theorem scanner_ends_two : ∃ s, Stream.run { lines := ["data: a", "[DONE]"] } [.scan, .scan, .handle] = some s ∧
    s.delivered <+: scannedData ["data: a", "[DONE]"] :=
  ⟨_, rfl, (scanner_ends [.scan, .scan, .handle] rfl).2.2⟩

/-! ## The scanner and what is wanted -/

theorem prefix_split {line start : String} (h : hasPrefix line start = true) :
    ∃ rest, line.toList = start.toList ++ rest := by
  obtain ⟨rest, hrest⟩ := isPrefixOf_iff_prefix.1 h
  exact ⟨rest, hrest.symm⟩

theorem length_le_byteLength (s : String) : s.toList.length ≤ byteLength s := by
  unfold byteLength
  induction s.toList with
  | nil => exact Nat.le_refl _
  | cons c =>
    have hpos := Char.utf8Size_pos c
    rw [length_cons, map_cons, sum_cons]
    omega

variable {line : String}

/-- What is too short to be looked at has no payload and is no terminator. -/
theorem short_line (h : byteLength line < 6) :
    isBareTerminator line = false ∧ isDataTerminator line = false ∧ payload? line = none := by
  have hlength := length_le_byteLength line
  have hbare : isBareTerminator line = false := by
    by_contra hcontra
    rw [Bool.not_eq_false] at hcontra
    obtain ⟨rest, hrest⟩ := prefix_split hcontra
    rw [hrest, length_append] at hlength
    have hsix : "[DONE]".toList.length = 6 := rfl
    omega
  -- of the kind with data: there is one, with an empty payload
  have hempty : hasPrefix line "data:" = true → behindFive line = "" := by
    intro hdata
    obtain ⟨rest, hrest⟩ := prefix_split hdata
    have hfive : "data:".toList.length = 5 := rfl
    rw [hrest, length_append] at hlength
    have hnil : rest = [] := length_eq_zero_iff.1 (by omega)
    unfold behindFive
    rw [hrest, hnil]
    decide +kernel
  refine ⟨hbare, ?_, ?_⟩
  · unfold isDataTerminator
    cases hdata : hasPrefix line "data:" with
    | false => rfl
    | true =>
      rw [hempty hdata]
      decide +kernel
  · unfold payload?
    refine if_neg fun hboth => ?_
    rw [Bool.and_eq_true] at hboth
    exact of_decide_eq_true hboth.2 (hempty hboth.1)

/-- What is left of a bare terminator begins with its bracket. -/
theorem bare_behindFive (h : isBareTerminator line = true) : ∃ rest, (behindFive line).toList = ']' :: rest := by
  obtain ⟨rest, hrest⟩ := prefix_split h
  unfold behindFive trimSpace
  rw [hrest]
  have hdrop : (String.ofList (("[DONE]".toList ++ rest).drop 5)).toList = ']' :: rest := by
    rw [String.toList_ofList]
    rfl
  have hspace : isSpace ']' = false := by decide
  rw [hdrop, dropWhile_cons_of_neg (by rw [hspace]; decide), String.toList_ofList, reverse_cons]
  rw [dropWhile_append]
  split_ifs
  · exact ⟨[], by rw [dropWhile_cons_of_neg (by rw [hspace]; decide)]; rfl⟩
  · exact ⟨(dropWhile isSpace rest.reverse).reverse, by rw [reverse_append]; rfl⟩

/-- A bare terminator is taken for a payload. -/
theorem scanLine_bare (h : isBareTerminator line = true) : scanLine line = .payload (behindFive line) := by
  have hlong : ¬ byteLength line < 6 := by
    intro hshort
    rw [(short_line hshort).1] at h
    cases h
  obtain ⟨rest, hrest⟩ := bare_behindFive h
  have hne : behindFive line ≠ "" := by
    intro hempty
    rw [hempty] at hrest
    cases hrest
  have hnot : hasPrefix (behindFive line) "[DONE]" = false := by
    unfold hasPrefix
    rw [hrest]
    rfl
  unfold isBareTerminator at h
  unfold scanLine
  rw [if_neg hlong, h, if_neg (by simp), if_neg hne, if_pos (by rw [hnot]; rfl)]

/-- Every other line is treated as wanted. -/
theorem scanLine_other (h : isBareTerminator line = false) :
    scanLine line = if isDataTerminator line then .finished
      else match payload? line with
        | some data => .payload data
        | none => .skipped := by
  unfold scanLine
  by_cases hshort : byteLength line < 6
  · obtain ⟨_, hdata, hpayload⟩ := short_line hshort
    rw [if_pos hshort, hdata, hpayload]
    rfl
  · rw [if_neg hshort]
    unfold isDataTerminator payload?
    rw [show hasPrefix line "[DONE]" = false from h]
    cases hasPrefix line "data:" with
    | false => rfl
    | true =>
      by_cases hempty : behindFive line = ""
      · rw [hempty]
        decide +kernel
      · cases hdone : hasPrefix (behindFive line) "[DONE]" with
        | false => simp [hempty]
        | true => simp [hempty]

theorem wantedData_cons (line : String) (rest : List String) : wantedData (line :: rest) =
      if isTerminator line then [] else (payload? line).toList ++ wantedData rest := by
  unfold wantedData
  cases hterminator : isTerminator line with
  | true => rw [takeWhile_cons_of_neg (by simp [hterminator])]; rfl
  | false =>
    rw [takeWhile_cons_of_pos (by simp [hterminator]), filterMap_cons]
    cases payload? line with
    | none => rfl
    | some => rfl

theorem noBare_cons (line : String) (rest : List String) : NoBareTerminator (line :: rest) ↔
      isDataTerminator line = true ∨ (isBareTerminator line = false ∧ NoBareTerminator rest) := by
  unfold NoBareTerminator
  cases hdata : isDataTerminator line with
  | true =>
    rw [takeWhile_cons_of_neg (by simp [hdata])]
    simp
  | false =>
    rw [takeWhile_cons_of_pos (by simp [hdata]), forall_mem_cons]
    simp

/-- A line is not a terminator of both kinds. -/
theorem bare_not_data (h : isBareTerminator line = true) : isDataTerminator line = false := by
  obtain ⟨rest, hrest⟩ := prefix_split h
  unfold isDataTerminator hasPrefix
  rw [hrest]
  rfl

/-- Without a bare terminator in front the scanner does what is wanted. -/
theorem scanned_exact {lines : List String} (h : NoBareTerminator lines) :
    scannedData lines = wantedData lines ∧ scannedReason lines = wantedReason lines := by
  induction lines with
  | nil => exact ⟨rfl, rfl⟩
  | cons line rest ih =>
    rw [scannedData_cons, scannedReason_cons, wantedData_cons]
    unfold wantedReason isTerminator
    rw [any_cons]
    rcases (noBare_cons line rest).1 h with hdata | ⟨hbare, hrest⟩
    · have hbare : isBareTerminator line = false := by
        by_contra hcontra
        rw [bare_not_data (Bool.not_eq_false _ ▸ hcontra)] at hdata
        cases hdata
      rw [scanLine_other hbare, hdata, if_pos rfl]
      exact ⟨rfl, rfl⟩
    · obtain ⟨hdataRest, hreasonRest⟩ := ih hrest
      rw [scanLine_other hbare]
      cases hdata : isDataTerminator line with
      | true => exact ⟨rfl, rfl⟩
      | false =>
        rw [hbare]
        unfold wantedReason isTerminator at hreasonRest
        cases payload? line with
        | none => exact ⟨hdataRest, hreasonRest⟩
        | some data => exact ⟨congrArg (data :: ·) hdataRest, hreasonRest⟩

/-- With one, it delivers more than is wanted. -/
theorem scanned_more (lines : List String) : (wantedData lines).length ≤ (scannedData lines).length ∧
      (¬ NoBareTerminator lines → (wantedData lines).length < (scannedData lines).length) := by
  induction lines with
  | nil => exact ⟨Nat.le_refl _, fun h => absurd (fun _ hm => nomatch hm) h⟩
  | cons line _ ih =>
    rw [scannedData_cons, wantedData_cons, noBare_cons]
    cases hbare : isBareTerminator line with
    | true =>
      rw [scanLine_bare hbare]
      have hterminator : isTerminator line = true := by
        unfold isTerminator
        rw [hbare, Bool.or_true]
      rw [hterminator]
      exact ⟨Nat.zero_le _, fun _ => Nat.succ_pos _⟩
    | false =>
      rw [scanLine_other hbare]
      unfold isTerminator
      rw [hbare, Bool.or_false]
      cases hdata : isDataTerminator line with
      | true => exact ⟨Nat.le_refl _, fun h => absurd (Or.inl rfl) h⟩
      | false =>
        simp only [Bool.false_eq_true, if_false, false_or, true_and]
        cases payload? line with
        | none => exact ih
        | some => exact ⟨Nat.succ_le_succ ih.1, fun h => Nat.succ_lt_succ (ih.2 h)⟩

/-- Some reason is recorded in every run that cannot go on; and when one is, the handler has received what is wanted and
the reason is right, if and only if no bare terminator comes before one with `data:`. -/
theorem scanner_exact_iff (lines : List String) (moves : List Move) (s : Stream)
    (hrun : Stream.run { lines := lines } moves = some s) (hended : ∀ move, s.step move = none) :
    (s.delivered = wantedData lines ∧ s.recorded = some (wantedReason lines)) ↔ NoBareTerminator lines := by
  obtain ⟨reason, hrecorded⟩ : ∃ reason, s.recorded = some reason := by
    rw [← Option.ne_none_iff_exists']
    intro hnone
    obtain ⟨move, hmove⟩ := not_blocked hnone
    rw [hended move] at hmove
    cases hmove
  obtain ⟨hdelivered, hreason⟩ := scanning_outcome hrun hrecorded
  rw [hdelivered, hrecorded, hreason]
  constructor
  · rintro ⟨hdata, -⟩
    by_contra hbare
    have hmore := (scanned_more lines).2 hbare
    rw [hdata] at hmore
    exact Nat.lt_irrefl _ hmore
  · intro hbare
    obtain ⟨hdata, hreason⟩ := scanned_exact hbare
    exact ⟨hdata, congrArg some hreason⟩

/-- A stream that ends with a terminator with `data:`, scanned and handled in turns. -/
theorem scanner_exact_turns : (["a"] : List String) = wantedData ["data: a", "", "data: [DONE]", "data: b"] ∧
      some EndReason.done = some (wantedReason ["data: a", "", "data: [DONE]", "data: b"]) :=
  (scanner_exact_iff ["data: a", "", "data: [DONE]", "data: b"] [.scan, .scan, .handle, .scan, .handle]
    ⟨["data: b"], [], false, .done, ["a"], some .done⟩ (by decide +kernel)
    (fun move => by cases move <;> rfl)).2 (by decide +kernel)

/-- A bare terminator: its bracket is delivered, and the stream goes on to its end. -/
theorem bare_terminator_delivered :
    Stream.run { lines := ["data: a", "[DONE]"] } [.scan, .scan, .scan, .handle, .handle, .handle] =
        some ⟨[], [], false, .eof, ["a", "]"], some .eof⟩ ∧
      wantedData ["data: a", "[DONE]"] = ["a"] ∧ wantedReason ["data: a", "[DONE]"] = .done := by
  decide +kernel

end NovaMaas.Relay
