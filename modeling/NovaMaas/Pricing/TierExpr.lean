/-
  The visual editor of tiers: what it writes as a billing expression (`generateExprFromVisualConfig`), and how it reads
  one back (`tryParseVisualConfig`).

  One tier without a condition is read by a regular expression of its own.  Several tiers are found one after the other,
  and then the expression is written again: it is refused if the two texts differ in more than white space.
-/
import NovaMaas.Pricing.BillingExpr

namespace NovaMaas.Pricing

open Pattern

variable {F : Type} (N : JsNumbers F)

/-! ## Tiers -/

/-- The value of a condition: a number, the text of an input field, or nothing. -/
inductive CondValue (F : Type) where
  | absent
  | number (x : Num F)
  | text (t : Text)

structure TierConditionInput (F : Type) where
  var   : CondVar
  op    : CondOp
  value : CondValue F

/-- A tier of the editor; a cost of `billingCacheVars` may be absent. -/
structure VisualTier (F : Type) where
  label            : Text
  conditions       : List (TierConditionInput F)
  input_unit_cost  : Num F
  output_unit_cost : Num F
  cost             : PricedVar → Option (Num F)

/-- `normalizeVisualTier`: the costs of the cache variables are numbers, those of `p` and `c` stay what they are. -/
def normalizeVisualTier (tier : VisualTier F) : VisualTier F :=
  { tier with cost := fun v => some (some (N.orZero ((tier.cost v).getD none))) }

def createDefaultVisualConfig : List (VisualTier F) :=
  [normalizeVisualTier N ⟨"base".toList, [], some N.zero, some N.zero, fun _ => none⟩]

def normalizeVisualConfig (tiers : List (VisualTier F)) : List (VisualTier F) :=
  if tiers = [] then createDefaultVisualConfig N else tiers.map (normalizeVisualTier N)

/-! ## Writing -/

def CondValue.isComplete : CondValue F → Bool
  | .absent => false
  | .number _ => true
  | .text t => t ≠ []

def CondValue.written : CondValue F → Text
  | .absent => []
  | .number x => N.written x
  | .text t => t

/-- Texts with a separator between them (`join`). -/
def join (sep : Text) : List Text → Text
  | [] => []
  | [t] => t
  | t :: ts => t ++ sep ++ join sep ts

def conditionStr (c : TierConditionInput F) : Text := c.var.key ++ [' '] ++ c.op.key ++ [' '] ++ c.value.written N

def buildConditionStr (conditions : List (TierConditionInput F)) : Text :=
  join " && ".toList ((conditions.filter fun c => c.value.isComplete).map (conditionStr N))

/-- `name * number`. -/
def priceStr (name : Text) (x : F) : Text := name ++ " * ".toList ++ N.text x

variable [DecidableEq F]

/-- The prices of the cache variables that are not zero. -/
def cachePrices (tier : VisualTier F) : List (PricedVar × F) :=
  (billingCacheVars.map fun v => (v, N.orZero ((tier.cost v).getD none))).filter fun p => p.2 ≠ N.zero

def buildTierBodyExpr (tier : VisualTier F) : Text :=
  join " + ".toList
    (priceStr N ['p'] (N.orZero tier.input_unit_cost) :: priceStr N ['c'] (N.orZero tier.output_unit_cost) ::
      (cachePrices N tier).map fun p => priceStr N p.1.key p.2)

/-- `tier("label", body)`. -/
def tierStr (label : Text) (tier : VisualTier F) : Text :=
  "tier(\"".toList ++ label ++ "\", ".toList ++ buildTierBodyExpr N tier ++ [')']

/-- The label of a tier, or the name that its place gives it. -/
def labelOr (label : Text) (i : ℕ) : Text := if label = [] then "tier_".toList ++ (toString (i + 1)).toList else label

def isLast (tiers : List (VisualTier F)) (i : ℕ) : Bool := i + 1 = tiers.length

/-- The part of a tier among several. -/
def tierPart (last : Bool) (i : ℕ) (tier : VisualTier F) : Text :=
  let body := tierStr N (labelOr tier.label i) tier
  let cond := buildConditionStr N tier.conditions
  if !last && cond ≠ [] then cond ++ " ? ".toList ++ body else body

def generateExprFromVisualConfig (tiers : List (VisualTier F)) : Text :=
  match tiers with
  | [] => "p * 0 + c * 0".toList
  | [tier] =>
    let body := tierStr N (if tier.label = [] then "default".toList else tier.label) tier
    let cond := buildConditionStr N tier.conditions
    if cond ≠ [] then cond ++ " ? ".toList ++ body ++ " : p * 0 + c * 0".toList else body
  | tiers => join " : ".toList (tiers.mapIdx fun i tier => tierPart N (isLast tiers i) i tier)

/-! ## Reading -/

/-- `bodyPat`: the prices of `p` and `c`, and of the cache variables that stand there, in their order. -/
def bodyPat : Pattern (Text × Text × List (Option Text)) :=
  (price ['p']).andThen fun input => blanks.andThen fun _ => (lit ['+']).andThen fun _ => blanks.andThen fun _ =>
    (price ['c']).andThen fun output =>
      (each (billingCacheVars.map fun v =>
        optional (blanks.andThen fun _ => (lit ['+']).andThen fun _ => blanks.andThen fun _ => price v.key))).map
          fun cache => (input, output, cache)

/-- The cost of a cache variable in a match. -/
def cacheCost (cache : List (Option Text)) (v : PricedVar) : Option (Num F) :=
  (((billingCacheVars.zip cache).lookup v).getD none).map N.number

/-- The tier of a match. -/
def visualTier (m : Option Text × Text × Text × Text × List (Option Text)) : VisualTier F where
  label := m.2.1
  conditions := (parseConditions N (m.1.getD [])).map fun c => ⟨c.var, c.op, .number c.value⟩
  input_unit_cost := N.number m.2.2.1
  output_unit_cost := N.number m.2.2.2.1
  cost := cacheCost N m.2.2.2.2

/-- `singleRe`. -/
def singleRe : Pattern (Option Text × Text × Text × Text × List (Option Text)) :=
  (tierCall bodyPat).map fun m => (none, m)

/-- `text.replace(/\s+/g, '')`. -/
def withoutBlanks (s : Text) : Text := s.filter fun c => !isBlank c

/-- `tryParseVisualConfig`. -/
def tryParseVisualConfig (expr : Text) : Option (List (VisualTier F)) :=
  if expr = [] then none
  else
    let body := stripExprVersion expr
    match singleRe.execWhole body with
    | some m => some (normalizeVisualConfig N [normalizeVisualTier N (visualTier N m)])
    | none =>
      let tiers := (execAll (fun _ => tierRe bodyPat) body).map fun m => normalizeVisualTier N (visualTier N m)
      if tiers = [] then none
      else
        let cfg := normalizeVisualConfig N tiers
        if withoutBlanks (generateExprFromVisualConfig N cfg) ≠ withoutBlanks body then none else some cfg

end NovaMaas.Pricing
