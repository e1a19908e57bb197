/-
  Tool arguments are exact, from a Responses stream to a chat stream.

  For a stream whose inputs agree and are routed, each tool call gets exactly one chat index and the fragments sent under
  it add up to the arguments of the call, in whatever order the events of different calls arrive and whether or not the
  final response gives the items again (`tool_arguments_exact`).

  Routing is needed.  Deltas that come before the item are kept in two buffers, one by output index and one by item id.
  When a call has deltas in both, the item that is added takes the ones of the output index first, whichever came first
  (`tool_arguments_swapped_mixedIdentifiers`).
-/
import NovaMaas.Convert.ToolStream

namespace NovaMaas.Convert

section
variable {C : Type} [DecidableEq C] {owner : ToolKey → C} {args : C → Bytes} {events : List WireEvent}

/-- Inputs that agree and are routed make a fold. -/
theorem exists_fold (ha : Agreeing owner args (toolInputsOf events)) (hr : Routed owner (toolInputsOf events)) :
    ∃ R S, Fold owner (fun _ => none) (toolInputsOf events) (fun _ => {}) (fun _ => []) R S ∧
      (∀ c, (R c).Complete) ∧ (∀ c, Occurs owner (toolInputsOf events) c → S c = args c) := by
  choose R hR hcomplete using hr
  have hsaid : ∀ c, ∃ b, (inputsOf owner c (toolInputsOf events)).foldlM ToolInput.tells [] = some b ∧
      (Occurs owner (toolInputsOf events) c → b = args c) := by
    intro c
    by_cases hc : Occurs owner (toolInputsOf events) c
    · exact ⟨args c, ha.said c hc, fun _ => rfl⟩
    · have hnil : inputsOf owner c (toolInputsOf events) = [] := by
        by_contra hne
        exact hc hne
      exact ⟨[], by rw [hnil]; rfl, fun h => absurd h hc⟩
  choose S hS hargs using hsaid
  exact ⟨R, S, ⟨ha.single, hR, hS, by simp⟩, hcomplete, hargs⟩

/-- **Tool arguments are exact** when the inputs are routed. -/
theorem tool_arguments_exact (owner : ToolKey → C) (args : C → Bytes) (model : String) (created : ℤ)
    (events : List WireEvent) (hp : ProperStream events) (ha : Agreeing owner args (toolInputsOf events))
    (hr : Routed owner (toolInputsOf events)) :
    ∃ out, chatStream (newResponsesToChatStreamState model created) events = .ok out ∧
      ExactCalls owner args (toolInputsOf events) out := by
  obtain ⟨R, S, hf, hcomplete, hargs⟩ := exists_fold ha hr
  obtain ⟨out, number, hout, hsent, hnum⟩ := chatStream_calls model created hp hf hcomplete
  -- a call was seen when it occurs, and only then
  have hseen : ∀ c, Occurs owner (toolInputsOf events) c ↔ (R c).Seen := by
    intro c
    constructor
    · intro hc
      refine Route.run_seen (hf.route c) ?_ hc
      intro x hx
      exact (hf.single x (mem_inputsOf hx)).given_ne_nil
    · intro hs hnil
      have hrun := hf.route c
      rw [hnil] at hrun
      rw [← Option.some.inj hrun] at hs
      rcases hs with hs | hs
      · exact hs rfl
      · exact hs rfl
  have hindex : ∀ c, Occurs owner (toolInputsOf events) c → number c = some ((number c).getD 0) := by
    intro c hc
    cases hn : number c with
    | none => exact absurd hn ((hnum c).2 ((hseen c).1 hc))
    | some n => rfl
  refine ⟨out, hout, fun c => (number c).getD 0, ?_, ?_, ?_⟩
  · intro c hc c' hc' heq
    have h₁ := hindex c hc
    have h₂ := hindex c' hc'
    rw [← show (number c).getD 0 = (number c').getD 0 from heq] at h₂
    exact hsent.inj c c' _ h₁ h₂
  · intro c hc
    obtain ⟨tool, htool, hsaid⟩ := hsent.sent c _ (hindex c hc)
    refine ⟨htool.some, ?_⟩
    rw [htool.sent, ← hsaid, hargs c hc]
  · intro t ht
    obtain ⟨c, hc⟩ := hsent.all t ht
    refine ⟨c, ?_, ?_⟩
    · rw [hseen c, ← hnum c, hc]
      simp
    · show t.index = (number c).getD 0
      rw [hc]
      rfl

end

/-! ## Two calls, one of them begun before it is added -/

/-- Two calls at the same time.  The first delta of each comes before its item; the second call is named by its item id
alone until it is added.  The final response gives both items again. -/
def twoCalls : List WireEvent :=
  let first (arguments : Bytes) : ResponsesOutput Bytes :=
    { type := .functionCall, id := "fc_1", callId := "call_1", name := "f", arguments := arguments }
  let second (arguments : Bytes) : ResponsesOutput Bytes :=
    { type := .functionCall, id := "fc_2", callId := "call_2", name := "g", arguments := arguments }
  [ { type := .functionArgsDelta, delta := [97], outputIndex := some 0, itemID := "fc_1" },
    { type := .functionArgsDelta, delta := [120], itemID := "fc_2" },
    { type := .outputItemAdded, delta := [], outputIndex := some 0, item := some (first []) },
    { type := .outputItemAdded, delta := [], outputIndex := some 1, item := some (second []) },
    { type := .functionArgsDelta, delta := [98], outputIndex := some 0 },
    { type := .functionArgsDone, delta := [], itemID := "fc_1" },
    { type := .outputItemDone, delta := [], item := some (first [97, 98]) },
    { type := .completed, delta := [], response := some { output := [first [97, 98], second [120]] } } ]

/-- The second call has the identifiers `1`, `fc_2` and `call_2`. -/
def twoCallsOwner (id : ToolKey) : Bool := [ToolKey.output 1, .item "fc_2", .call "call_2"].contains id

def twoCallsArguments (c : Bool) : Bytes := if c then [120] else [97, 98]

theorem tool_arguments_exact_twoCalls :
    ∃ out, chatStream (newResponsesToChatStreamState "m" 0) twoCalls = .ok out ∧
      ExactCalls twoCallsOwner twoCallsArguments (toolInputsOf twoCalls) out := by
  refine tool_arguments_exact twoCallsOwner twoCallsArguments "m" 0 twoCalls (by decide +kernel) ⟨?_, ?_⟩ ?_
  · have h : ∀ x ∈ toolInputsOf twoCalls, x.call twoCallsOwner = some false ∧ (∀ id ∈ x.given, twoCallsOwner id = false) ∨
        x.call twoCallsOwner = some true ∧ ∀ id ∈ x.given, twoCallsOwner id = true := by decide +kernel
    intro x hx
    rcases h x hx with h' | h'
    · exact ⟨false, h'⟩
    · exact ⟨true, h'⟩
  · have h : ∀ c, (inputsOf twoCallsOwner c (toolInputsOf twoCalls)).foldlM ToolInput.tells [] =
        some (twoCallsArguments c) := by decide +kernel
    exact fun c _ => h c
  · have h : ∀ c, ((inputsOf twoCallsOwner c (toolInputsOf twoCalls)).foldlM Route.step {}).map Route.kept = some none := by
      decide +kernel
    intro c
    obtain ⟨r, hr, hkept⟩ := Option.map_eq_some_iff.1 (h c)
    exact ⟨r, hr, Or.inl hkept⟩

/-! ## A call with deltas in both buffers -/

/-- One call.  Its first delta names it by the item id, its second by the output index, and then it is added with
both. -/
def mixedIdentifiers : List WireEvent :=
  let call (arguments : Bytes) : ResponsesOutput Bytes :=
    { type := .functionCall, id := "fc_1", callId := "call_1", name := "f", arguments := arguments }
  [ { type := .functionArgsDelta, delta := [97], itemID := "fc_1" },
    { type := .functionArgsDelta, delta := [98], outputIndex := some 0 },
    { type := .outputItemAdded, delta := [], outputIndex := some 0, item := some (call []) },
    { type := .outputItemDone, delta := [], outputIndex := some 0, item := some (call [97, 98]) },
    { type := .completed, delta := [], response := some { output := [call [97, 98]] } } ]

/-- The events agree that the arguments are `ab`, and `ba` is sent. -/
theorem tool_arguments_swapped_mixedIdentifiers :
    ProperStream mixedIdentifiers ∧ Agreeing (fun _ => ()) (fun _ => [97, 98]) (toolInputsOf mixedIdentifiers) ∧
      ∃ out, chatStream (newResponsesToChatStreamState "m" 0) mixedIdentifiers = .ok out ∧ sentTo 0 out = [98, 97] ∧
        ¬ ExactCalls (fun _ => ()) (fun _ => [97, 98]) (toolInputsOf mixedIdentifiers) out := by
  refine ⟨by decide +kernel, ⟨?_, ?_⟩, ?_⟩
  · have h : ∀ x ∈ toolInputsOf mixedIdentifiers, x.call (fun _ => ()) = some () := by decide +kernel
    intro x hx
    exact ⟨(), h x hx, fun _ _ => rfl⟩
  · have h : ∀ c : Unit, (inputsOf (fun _ => ()) c (toolInputsOf mixedIdentifiers)).foldlM ToolInput.tells [] =
        some [97, 98] := by decide +kernel
    exact fun c _ => h c
  · have hrun : (chatStream (newResponsesToChatStreamState "m" 0) mixedIdentifiers).toOption.map toolDeltas =
        some [⟨0, "call_1", "f", [98, 97]⟩] := by decide +kernel
    obtain ⟨out, hout, hdeltas⟩ := Option.map_eq_some_iff.1 hrun
    have hok : chatStream (newResponsesToChatStreamState "m" 0) mixedIdentifiers = .ok out := by
      cases h : chatStream (newResponsesToChatStreamState "m" 0) mixedIdentifiers with
      | error e => simp [h, Except.toOption] at hout
      | ok out' =>
        simp only [h, Except.toOption, Option.some.injEq] at hout
        rw [hout]
    have hsent : sentTo 0 out = [98, 97] := by simp [sentTo, fragments, hdeltas]
    refine ⟨out, hok, hsent, ?_⟩
    rintro ⟨index, -, hexact, hall⟩
    -- the only fragment has the index `0`, so that is the index of the call
    obtain ⟨c, hc, hindex⟩ := hall ⟨0, "call_1", "f", [98, 97]⟩ (by simp [hdeltas])
    have h := (hexact c hc).2
    rw [← show (0 : ℕ) = index c from hindex, hsent] at h
    simp at h

end NovaMaas.Convert
