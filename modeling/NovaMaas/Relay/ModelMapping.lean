/-
  The model mapping of a channel, followed to the end of its chain.

  The loop keeps the names it has seen.  A name that comes again ends it: a name that maps to itself is the end of the
  chain, any other one closes a circle.  From every name it has seen the chain leads to the name it is at
  (`Trail.back`), and this is what makes the second answer right: the name that came again leads back to itself.
-/
import Mathlib.Data.List.Lemmas
import NovaMaas.Lib.Chain
import NovaMaas.Lib.Loop

open List

namespace NovaMaas.Relay

open Chain

/-- What the mapping reads and writes of `RelayInfo`. -/
structure RelayInfo where
  originModelName   : String
  upstreamModelName : String
  isModelMapped     : Bool
deriving DecidableEq

/-- What the key `model_mapping` holds: nothing or \x7b\x7d, a text that cannot be read, or entries. -/
inductive MappingText
  | absent
  | broken
  | entries (modelMap : List (String × String))

/-- How the loop is left: `break`, `return nil`, or the error. -/
inductive ChainExit
  | broke
  | returned
  | cycle
deriving DecidableEq

structure ChainState where
  currentModel  : String
  visitedModels : List String
  isModelMapped : Bool
  exit          : Option ChainExit
deriving DecidableEq

/-- The name a name is mapped to.  An empty name maps nothing. -/
def mappedModel (modelMap : List (String × String)) (currentModel : String) : Option String :=
  (modelMap.lookup currentModel).filter (· ≠ "")

/-- One turn of the loop. -/
def chainTurn (modelMap : List (String × String)) (origin : String) (s : ChainState) : ChainState :=
  match mappedModel modelMap s.currentModel with
  | none => { s with exit := some .broke }
  | some mapped =>
    if mapped ∈ s.visitedModels then
      if mapped = s.currentModel then
        if s.currentModel = origin then { s with isModelMapped := false, exit := some .returned }
        else { s with isModelMapped := true, exit := some .broke }
      else { s with exit := some .cycle }
    else ⟨mapped, mapped :: s.visitedModels, true, none⟩

def followChain (fuel : ℕ) (modelMap : List (String × String)) (info : RelayInfo) : Option ChainState :=
  Loop.run (fun s => s.exit.isNone) (chainTurn modelMap info.originModelName) fuel
    ⟨info.originModelName, [info.originModelName], info.isModelMapped, none⟩

structure MappingResult where
  error : Option String
  info  : RelayInfo
  /-- The name the request is given, where it is given one. -/
  request : Option String
deriving DecidableEq

def MappingResult.done (info : RelayInfo) : MappingResult := ⟨none, info, some info.upstreamModelName⟩

/-- What is left to do after the loop. -/
def ChainState.finish (s : ChainState) (info : RelayInfo) : MappingResult :=
  let info := { info with isModelMapped := s.isModelMapped }
  if s.exit = some .returned then ⟨none, info, none⟩
  else if s.exit = some .cycle then ⟨some "model_mapping_contains_cycle", info, none⟩
  else .done (if s.isModelMapped then { info with upstreamModelName := s.currentModel } else info)

def modelMappedHelper (fuel : ℕ) (info : RelayInfo) : MappingText → Option MappingResult
  | .absent => some (.done info)
  | .broken => some ⟨some "unmarshal_model_mapping_failed", info, none⟩
  | .entries modelMap => (followChain fuel modelMap info).map fun s => s.finish info

/-! ## One turn -/

variable {modelMap : List (String × String)} {origin : String} {s : ChainState}

/-- What the loop knows. -/
structure Trail (next : String → Option String) (origin : String) (s : ChainState) : Prop where
  here     : ∃ n, follow next n origin = some s.currentModel
  back     : ∀ v ∈ s.visitedModels, ∃ n, follow next n v = some s.currentModel
  home     : s.isModelMapped = false → s.currentModel = origin
  cycle    : s.exit = some .cycle → Circles next origin
  ended    : s.exit = some .broke ∨ s.exit = some .returned →
    next s.currentModel = none ∨ next s.currentModel = some s.currentModel
  returned : s.exit = some .returned → s.currentModel = origin

theorem trail_turn (h : Trail (mappedModel modelMap) origin s) :
    Trail (mappedModel modelMap) origin (chainTurn modelMap origin s) := by
  obtain ⟨n, hn⟩ := h.here
  unfold chainTurn
  split
  · rename_i hnone
    exact ⟨⟨n, hn⟩, h.back, h.home, nofun, fun _ => Or.inl hnone, nofun⟩
  · rename_i mapped hmapped
    split
    · rename_i hseen
      split
      · rename_i hself
        rw [hself] at hmapped
        split
        · rename_i horigin
          exact ⟨⟨n, hn⟩, h.back, fun _ => horigin, nofun, fun _ => Or.inr hmapped, fun _ => horigin⟩
        · exact ⟨⟨n, hn⟩, h.back, nofun, nofun, fun _ => Or.inr hmapped, nofun⟩
      · rename_i hother
        -- the name leads to the current one, and one step further back to itself
        obtain ⟨k, hk⟩ := h.back mapped hseen
        have hround : follow (mappedModel modelMap) (1 + k) s.currentModel = some s.currentModel := by
          rw [follow_add, follow_step (n := 0) rfl hmapped]
          exact hk
        have hlong : 2 ≤ 1 + k := by
          rcases Nat.eq_zero_or_pos k with rfl | hpos
          · exact absurd (Option.some.inj hk) hother
          · omega
        have hne : mappedModel modelMap s.currentModel ≠ some s.currentModel := by
          rw [hmapped]
          exact fun hsame => hother (Option.some.inj hsame)
        exact ⟨⟨n, hn⟩, h.back, h.home, fun _ => ⟨n, _, _, hn, hlong, hround, hne⟩, nofun, nofun⟩
    · refine ⟨⟨n + 1, follow_step hn hmapped⟩, ?_, nofun, nofun, nofun, nofun⟩
      intro v hv
      rcases mem_cons.mp hv with rfl | hv
      · exact ⟨0, rfl⟩
      · obtain ⟨k, hk⟩ := h.back v hv
        exact ⟨k + 1, follow_step hk hmapped⟩

/-- The names of the mapping that the loop has not come by, and one more turn to see that it is over. -/
def turnsLeft (modelMap : List (String × String)) (s : ChainState) : ℕ :=
  if s.exit.isNone then ((modelMap.map Prod.snd).filter (· ∉ s.visitedModels)).length + 1 else 0

theorem mem_values {m mapped : String} (h : mappedModel modelMap m = some mapped) : mapped ∈ modelMap.map Prod.snd := by
  obtain ⟨hlookup, -⟩ := Option.filter_eq_some_iff.mp h
  obtain ⟨l, r, hsplit, -⟩ := lookup_eq_some_iff.mp hlookup
  rw [hsplit]
  simp

theorem turnsLeft_turn (hgoing : s.exit.isNone = true) :
    turnsLeft modelMap (chainTurn modelMap origin s) < turnsLeft modelMap s := by
  have hpos : turnsLeft modelMap s = ((modelMap.map Prod.snd).filter (· ∉ s.visitedModels)).length + 1 := if_pos hgoing
  rw [hpos]
  unfold chainTurn
  split
  · exact Nat.succ_pos _
  · rename_i mapped hmapped
    split
    · split
      · split
        · exact Nat.succ_pos _
        · exact Nat.succ_pos _
      · exact Nat.succ_pos _
    · rename_i hnew
      have hfilter : (modelMap.map Prod.snd).filter (· ∉ mapped :: s.visitedModels) =
          ((modelMap.map Prod.snd).filter (· ∉ s.visitedModels)).filter (· ≠ mapped) := by
        rw [filter_filter]
        refine filter_congr fun x _ => ?_
        simp
      have hless : (((modelMap.map Prod.snd).filter (· ∉ s.visitedModels)).filter (· ≠ mapped)).length <
          ((modelMap.map Prod.snd).filter (· ∉ s.visitedModels)).length := by
        refine length_filter_lt_length_iff_exists.mpr ⟨mapped, ?_, by simp⟩
        exact mem_filter.mpr ⟨mem_values hmapped, decide_eq_true hnew⟩
      show ((modelMap.map Prod.snd).filter (· ∉ mapped :: s.visitedModels)).length + 1 < _
      rw [hfilter]
      omega

/-! ## Every chain -/

/-- **The loop ends, at the end of the chain or with the report of a cycle.** -/
theorem chain_followed (modelMap : List (String × String)) (info : RelayInfo) :
    ∃ s r, (∀ fuel, modelMap.length + 1 ≤ fuel → followChain fuel modelMap info = some s ∧
        modelMappedHelper fuel info (.entries modelMap) = some r) ∧
      (r.error = some "model_mapping_contains_cycle" ↔ Circles (mappedModel modelMap) info.originModelName) ∧
      (∀ e, r.error = none ∧ s.currentModel = e ↔ EndsAt (mappedModel modelMap) info.originModelName e) ∧
      (r.error = none → info.upstreamModelName = info.originModelName → r.info.upstreamModelName = s.currentModel) := by
  let start : ChainState := ⟨info.originModelName, [info.originModelName], info.isModelMapped, none⟩
  have hstart : Trail (mappedModel modelMap) info.originModelName start := by
    refine ⟨⟨0, rfl⟩, ?_, fun _ => rfl, nofun, nofun, nofun⟩
    intro v hv
    obtain rfl := mem_singleton.mp hv
    exact ⟨0, rfl⟩
  have hrun := Loop.run_of_measure (I := Trail (mappedModel modelMap) info.originModelName) (turnsLeft modelMap)
    (fun _ h _ => trail_turn h) (fun _ _ => turnsLeft_turn) hstart
  have hfuel : turnsLeft modelMap start ≤ modelMap.length + 1 := by
    show ((modelMap.map Prod.snd).filter (· ∉ start.visitedModels)).length + 1 ≤ _
    have := length_filter_le (· ∉ start.visitedModels) (modelMap.map Prod.snd)
    rw [length_map] at this
    omega
  obtain ⟨s, hs⟩ := hrun _ hfuel
  obtain ⟨htrail, hdone⟩ := Loop.run_keeps (fun _ h _ => trail_turn h) hstart hs
  have hend : s.exit ≠ some .cycle → EndsAt (mappedModel modelMap) info.originModelName s.currentModel := by
    intro hne
    obtain ⟨n, hn⟩ := htrail.here
    refine ⟨n, hn, htrail.ended ?_⟩
    rcases hexit : s.exit with _ | (_ | _ | _)
    · rw [hexit] at hdone
      cases hdone
    · exact Or.inl rfl
    · exact Or.inr rfl
    · exact absurd hexit hne
  have herror : (s.finish info).error = if s.exit = some .cycle then some "model_mapping_contains_cycle" else none := by
    unfold ChainState.finish
    by_cases hcycle : s.exit = some .cycle
    · rw [hcycle]; rfl
    · simp only [if_neg hcycle]
      split <;> rfl
  refine ⟨s, s.finish info, ?_, ?_, ?_, ?_⟩
  · intro fuel hle
    have hsame : followChain fuel modelMap info = some s := Loop.run_mono hs hle
    refine ⟨hsame, ?_⟩
    show (followChain fuel modelMap info).map _ = _
    rw [hsame]
    rfl
  · rw [herror]
    by_cases hcycle : s.exit = some .cycle
    · rw [if_pos hcycle]
      exact ⟨fun _ => htrail.cycle hcycle, fun _ => rfl⟩
    · rw [if_neg hcycle]
      exact ⟨nofun, fun h => absurd h (hend hcycle).not_circles⟩
  · intro e
    rw [herror]
    by_cases hcycle : s.exit = some .cycle
    · rw [if_pos hcycle]
      exact ⟨fun h => (nomatch h.1), fun h => absurd (htrail.cycle hcycle) h.not_circles⟩
    · rw [if_neg hcycle]
      refine ⟨?_, fun h => ⟨rfl, h.unique (hend hcycle)⟩⟩
      rintro ⟨-, rfl⟩
      exact hend hcycle
  · intro hnone hsame
    have hcycle : s.exit ≠ some .cycle := by
      intro hcycle
      rw [herror, if_pos hcycle] at hnone
      cases hnone
    unfold ChainState.finish MappingResult.done
    simp only [if_neg hcycle]
    split
    · rename_i hreturned
      exact hsame.trans (htrail.returned hreturned).symm
    · split
      · rfl
      · rename_i hunmapped
        exact hsame.trans (htrail.home (Bool.eq_false_iff.mpr hunmapped)).symm

end NovaMaas.Relay
