/-
  What the events of a Responses stream say about tool calls.

  An event that is about a tool call names it by its output index, by its item id, by its call id, or by several of them.
  An identifier is a `ToolKey`, and `owner` says which call an identifier belongs to; nothing is assumed of `owner`, so
  the calls may be of any type and a call may have any number of identifiers.

  Two things are said of the inputs that are about one call.

  1. **They agree** (`ToolNews.tells`): the deltas add up, an item gives no arguments or gives arguments that begin with
     all that was said before, and at the end the arguments of the call were said.
  2. **They are routed** (`Route.step`): what the stream converter must see of the identifiers so that it never takes one
     call for two and never sends a delta before an earlier one.  An item makes its identifiers known.  A delta that
     names no known identifier is kept, under the first identifier that it names, until an item makes that one known.

  `ExactCalls` is what the chat deltas are to satisfy: each call has one index, and the fragments sent for it add up to
  its arguments.
-/
import NovaMaas.Convert.ResponsesToChat

open Option

namespace NovaMaas.Convert

/-! ## Inputs -/

/-- What an event says about a tool call. -/
inductive ToolNews where
  | delta (d : Bytes)
  | argumentsDone
  | item (arguments : Bytes) (callID name : String)

/-- A piece of news, and the identifiers of the call it is about. -/
structure ToolInput where
  given : List ToolKey
  news  : ToolNews

def outputKey (outputIndex : Option ℤ) : List ToolKey := (outputIndex.map ToolKey.output).toList

def itemKey (itemID : String) : List ToolKey := if itemID = "" then [] else [.item itemID]

def callKey (callID : String) : List ToolKey := if callID = "" then [] else [.call callID]

/-- The identifiers of an event about arguments. -/
def argumentsGiven (event : WireEvent) : List ToolKey :=
  outputKey event.outputIndex ++ itemKey (trimSpace event.itemID)

/-- The identifiers of an event with an item. -/
def itemGiven (event : WireEvent) (item : ResponsesOutput Bytes) : List ToolKey :=
  outputKey event.outputIndex ++ itemKey (responseStreamEventItemID event) ++ callKey (trimSpace item.callId)

/-- The input of an event with an item that is a tool call. -/
def itemInputs (event : WireEvent) : List ToolInput :=
  match event.item with
  | none => []
  | some item =>
    if isResponsesToolOutputType item.type then
      [⟨itemGiven event item, .item item.arguments (trimSpace item.callId) (trimSpace item.name)⟩]
    else []

/-- The event that an item of the final response is read as. -/
def terminalEvent (out : ResponsesOutput Bytes) : WireEvent := { type := .other "", delta := [], item := some out }

/-- The inputs of an event.  An empty delta says nothing. -/
def toolInputs (event : WireEvent) : List ToolInput :=
  match event.type with
  | .functionArgsDelta | .customToolInputDelta =>
    if event.delta = [] then [] else [⟨argumentsGiven event, .delta event.delta⟩]
  | .functionArgsDone | .customToolInputDone => [⟨argumentsGiven event, .argumentsDone⟩]
  | .outputItemAdded | .outputItemDone => itemInputs event
  | .completed | .done | .incomplete =>
    ((event.response.map OpenAIResponsesResponse.output).getD []).flatMap fun out => itemInputs (terminalEvent out)
  | _ => []

def toolInputsOf (events : List WireEvent) : List ToolInput := events.flatMap toolInputs

/-! ## Streams -/

def ResponsesEventType.isTerminal : ResponsesEventType → Bool
  | .completed | .done | .incomplete => true
  | _ => false

def ResponsesEventType.isFailure : ResponsesEventType → Bool
  | .failed | .error => true
  | _ => false

def ResponsesEventType.isArguments : ResponsesEventType → Bool
  | .functionArgsDelta | .customToolInputDelta | .functionArgsDone | .customToolInputDone => true
  | _ => false

/-- A stream as the Responses API has it, and without a failure: only the last event can be the end of the answer, and
events about arguments carry no item. -/
structure ProperStream (events : List WireEvent) : Prop where
  noFailure : ∀ event ∈ events, event.type.isFailure = false
  noItem    : ∀ event ∈ events, event.type.isArguments = true → event.item = none
  lastOnly  : ∀ event ∈ events.dropLast, event.type.isTerminal = false

instance (events : List WireEvent) : Decidable (ProperStream events) :=
  decidable_of_iff ((∀ event ∈ events, event.type.isFailure = false) ∧
      (∀ event ∈ events, event.type.isArguments = true → event.item = none) ∧
      ∀ event ∈ events.dropLast, event.type.isTerminal = false)
    ⟨fun h => ⟨h.1, h.2.1, h.2.2⟩, fun h => ⟨h.1, h.2, h.3⟩⟩

/-! ## Calls -/

section
variable {C : Type} [DecidableEq C] (owner : ToolKey → C)

/-- The call an input is about. -/
def ToolInput.call (x : ToolInput) : Option C := x.given.head?.map owner

/-- The input names a call, and one only. -/
def ToolInput.Single (x : ToolInput) : Prop := ∃ c, x.call owner = some c ∧ ∀ id ∈ x.given, owner id = c

/-- The inputs about one call. -/
def inputsOf (c : C) (xs : List ToolInput) : List ToolInput := xs.filter fun x => x.call owner = some c

/-- Some input is about the call. -/
def Occurs (xs : List ToolInput) (c : C) : Prop := inputsOf owner c xs ≠ []

end

/-! ## Agreement -/

/-- What was said of the arguments, after one more piece of news. -/
def ToolNews.tells (said : Bytes) : ToolNews → Option Bytes
  | .delta d => some (said ++ d)
  | .argumentsDone => some said
  | .item arguments _ _ =>
    if arguments = [] then some said else if said.isPrefixOf arguments then some arguments else none

def ToolInput.tells (said : Bytes) (x : ToolInput) : Option Bytes := x.news.tells said

/-- All inputs about one call agree with its arguments. -/
structure Agreeing {C : Type} [DecidableEq C] (owner : ToolKey → C) (args : C → Bytes) (xs : List ToolInput) :
    Prop where
  single : ∀ x ∈ xs, x.Single owner
  said   : ∀ c, Occurs owner xs c → (inputsOf owner c xs).foldlM ToolInput.tells [] = some (args c)

/-! ## Routes -/

/-- What the inputs about a call showed of its identifiers: those that are known, and the one that deltas are kept
under. -/
structure Route where
  known : List ToolKey := []
  kept  : Option ToolKey := none

/-- Identifiers become known; what was kept under one of them is not kept any more. -/
def Route.learn (r : Route) (given : List ToolKey) : Route :=
  { known := r.known ++ given, kept := r.kept.filter fun id => id ∉ given }

/-- One of the identifiers is known. -/
def Route.knows (r : Route) (given : List ToolKey) : Bool := given.any fun id => id ∈ r.known

/-- One more input about the call.
* A delta that names a known identifier is sent, so nothing may be kept; another one is kept, under its first identifier
  and not beside something kept under another.
* The end of the arguments and an item are about a call that was not known at all, or by an identifier that is known.
* With an item that gives arguments nothing stays kept. -/
def Route.step (r : Route) (x : ToolInput) : Option Route :=
  match x.news with
  | .delta _ =>
    if r.knows x.given then (if r.kept = none then some r else none)
    else if r.kept = none ∨ r.kept = x.given.head? then some { r with kept := x.given.head? }
    else none
  | .argumentsDone =>
    if r.knows x.given then some r
    else if r.known = [] then some (r.learn x.given)
    else none
  | .item arguments _ _ =>
    if (r.known = [] ∨ r.knows x.given) ∧ (arguments = [] ∨ (r.learn x.given).kept = none) then some (r.learn x.given)
    else none

section
variable {r r' : Route} {given : List ToolKey}

theorem Route.step_delta {d : Bytes} (h : r.step ⟨given, .delta d⟩ = some r') :
    r.knows given = true ∧ r.kept = none ∧ r' = r ∨
      r.knows given = false ∧ (r.kept = none ∨ r.kept = given.head?) ∧ r' = { r with kept := given.head? } := by
  unfold Route.step at h
  cases hk : r.knows given with
  | true =>
    simp only [hk, if_true, ite_none_right_eq_some, some.injEq] at h
    exact Or.inl ⟨rfl, h.1, h.2.symm⟩
  | false =>
    simp only [hk, Bool.false_eq_true, if_false, ite_none_right_eq_some, some.injEq] at h
    exact Or.inr ⟨rfl, h.1, h.2.symm⟩

theorem Route.step_argumentsDone (h : r.step ⟨given, .argumentsDone⟩ = some r') :
    r.knows given = true ∧ r' = r ∨ r.knows given = false ∧ r.known = [] ∧ r' = r.learn given := by
  unfold Route.step at h
  cases hk : r.knows given with
  | true =>
    simp only [hk, if_true, some.injEq] at h
    exact Or.inl ⟨rfl, h.symm⟩
  | false =>
    simp only [hk, Bool.false_eq_true, if_false, ite_none_right_eq_some, some.injEq] at h
    exact Or.inr ⟨rfl, h.1, h.2.symm⟩

theorem Route.step_item {arguments : Bytes} {callID name : String}
    (h : r.step ⟨given, .item arguments callID name⟩ = some r') :
    (r.known = [] ∨ r.knows given = true) ∧ (arguments = [] ∨ (r.learn given).kept = none) ∧ r' = r.learn given := by
  unfold Route.step at h
  simp only [ite_none_right_eq_some, some.injEq] at h
  exact ⟨h.1.1, h.1.2, h.2.symm⟩

end

/-- The call was not known, or nothing is kept. -/
def Route.Complete (r : Route) : Prop := r.kept = none ∨ r.known = []

/-- The inputs about each call go the way of `Route.step`, and at the end nothing is kept of a call that is known. -/
def Routed {C : Type} [DecidableEq C] (owner : ToolKey → C) (xs : List ToolInput) : Prop :=
  ∀ c, ∃ r, (inputsOf owner c xs).foldlM Route.step {} = some r ∧ r.Complete

/-! ## What is sent -/

def toolDeltas (out : List ChatDelta) : List ToolDelta := out.filterMap ChatDelta.toolCall

/-- The fragments with one index. -/
def fragments (n : ℕ) (out : List ChatDelta) : List ToolDelta := (toolDeltas out).filter fun t => t.index = n

/-- The arguments that were sent under one index. -/
def sentTo (n : ℕ) (out : List ChatDelta) : Bytes := (fragments n out).flatMap ToolDelta.arguments

/-- Each call has exactly one index, and what is sent under it are the arguments of the call. -/
def ExactCalls {C : Type} [DecidableEq C] (owner : ToolKey → C) (args : C → Bytes) (xs : List ToolInput)
    (out : List ChatDelta) : Prop :=
  ∃ index : C → ℕ,
    Set.InjOn index { c | Occurs owner xs c } ∧
    (∀ c, Occurs owner xs c → fragments (index c) out ≠ [] ∧ sentTo (index c) out = args c) ∧
    ∀ t ∈ toolDeltas out, ∃ c, Occurs owner xs c ∧ t.index = index c

section
variable (n : ℕ) (out more : List ChatDelta)

@[simp] theorem toolDeltas_append : toolDeltas (out ++ more) = toolDeltas out ++ toolDeltas more := by
  simp [toolDeltas]

@[simp] theorem fragments_append : fragments n (out ++ more) = fragments n out ++ fragments n more := by
  simp [fragments]

@[simp] theorem sentTo_append : sentTo n (out ++ more) = sentTo n out ++ sentTo n more := by
  simp [sentTo]

end

end NovaMaas.Convert
