/-
  Which channel serves a request (model/channel_cache.go, model/ability.go, constant/volc_native.go,
  relaykit/dto/channel_settings.go).

  Channels belong to groups and serve models; each has a priority and a weight.  A request is retried down the
  priorities, and among the channels of a priority one is drawn by weight.  There are two ways to it: through the memory
  cache, which is loaded from the tables now and then, and through the table of abilities, which has a row for every
  group and model of a channel.

  Of the random numbers a selection is given the function that draws them.  Go's regular expressions are a parameter.
  The order of the rows of one priority in the cache, which Go's sort leaves open, is that of the channels here.
  Assumed is that the database compares names of groups and models exactly, as Go does, and that the sums of weights fit
  an int.
-/
import NovaMaas.Lib.OrderBy
import NovaMaas.Lib.Text
import NovaMaas.Lib.Weighted

namespace NovaMaas.Routing

open Weighted (draw total)

/-! ## Data -/

structure AdvancedCustomRoute where
  incomingPath : String
  models       : List String := []
  deriving DecidableEq

structure AdvancedCustomConfig where
  routes : List AdvancedCustomRoute := []
  deriving DecidableEq

structure Channel where
  id             : ℕ
  type           : ℕ := 1
  status         : ℕ := 1
  /-- The groups, with commas between them. -/
  group          : String
  /-- The models, with commas between them. -/
  models         : String
  priority       : Option ℤ := none
  weight         : Option ℕ := none
  /-- `GetOtherSettings().AdvancedCustom`. -/
  advancedCustom : Option AdvancedCustomConfig := none
  deriving DecidableEq

def Channel.getPriority (c : Channel) : ℤ := c.priority.getD 0

def Channel.getWeight (c : Channel) : ℕ := c.weight.getD 0

def Channel.groups (c : Channel) : List String := splitAt c.group ','

def Channel.modelNames (c : Channel) : List String := splitAt c.models ','

def channelStatusEnabled : ℕ := 1
def channelTypeAdvancedCustom : ℕ := 58
def channelTypeVolcNative : ℕ := 61

def Channel.enabled (c : Channel) : Bool := c.status = channelStatusEnabled

/-- A row of the abilities.  The columns of priority and weight default to 0. -/
structure Ability where
  group     : String
  model     : String
  channelId : ℕ
  enabled   : Bool
  priority  : ℤ
  weight    : ℕ
  deriving DecidableEq

/-- The row of a channel for a group and a model. -/
def abilityOf (c : Channel) (group model : String) : Ability where
  group := group
  model := model
  channelId := c.id
  enabled := c.enabled
  priority := c.getPriority
  weight := c.getWeight

/-- `AddAbilities`: the rows of a channel. -/
def addAbilities (c : Channel) : List Ability :=
  (c.modelNames.flatMap fun model => c.groups.map fun group => abilityOf c group model).dedup

/-- The tables. -/
structure DB where
  channels  : List Channel
  abilities : List Ability

/-! ## Paths -/

/-- `IsVolcNativeRequestPath`. -/
def isVolcNativeRequestPath (path : String) : Bool :=
  path = "/api/v3/images/generations" || path = "/api/v3/contents/generations/tasks" ||
    hasPrefix path "/api/v3/contents/generations/tasks/"

/-- `VolcNativeChannelMatchesPath`. -/
def volcNativeChannelMatchesPath (channelType : ℕ) (path : String) : Bool :=
  if path = "" then true
  else if isVolcNativeRequestPath path || channelType = channelTypeVolcNative then
    isVolcNativeRequestPath path && channelType = channelTypeVolcNative
  else true

def advancedCustomModelPlaceholder : String := "{model}"

/-- `matchAdvancedCustomIncomingPathTemplate`: the placeholder stands once, for something without a slash. -/
def matchAdvancedCustomIncomingPathTemplate (configuredPath requestPath : String) : Bool :=
  match cut configuredPath advancedCustomModelPlaceholder with
  | none => configuredPath = requestPath
  | some (before, behind) =>
    let model := trimSuffix (trimPrefix requestPath before) behind
    !containsText behind advancedCustomModelPlaceholder && hasPrefix requestPath before &&
      hasSuffix requestPath behind && model ≠ "" && !containsText model "/"

/-- `matchAdvancedCustomIncomingPath`. -/
def matchAdvancedCustomIncomingPath (configuredPath requestPath : String) : Bool :=
  matchAdvancedCustomIncomingPathTemplate configuredPath requestPath ||
    (containsText configuredPath ":generateContent" &&
      matchAdvancedCustomIncomingPathTemplate
        (replaceFirst configuredPath ":generateContent" ":streamGenerateContent") requestPath)

section
-- whether a name matches a pattern; none matches one that does not compile
variable (matchString : String → String → Bool)

/-- `matchAdvancedCustomRouteModelRule`. -/
def matchAdvancedCustomRouteModelRule (rule model : String) : Bool :=
  if hasPrefix rule "re:" then
    let pattern := trimPrefix rule "re:"
    pattern ≠ "" && matchString pattern model
  else rule = model

/-- `matchAdvancedCustomRouteModel`: no models stand for all. -/
def matchAdvancedCustomRouteModel (models : List String) (model : String) : Bool :=
  let normalizedModels := (models.map trimSpace).filter fun model => model ≠ ""
  normalizedModels = [] || normalizedModels.any fun rule => matchAdvancedCustomRouteModelRule matchString rule model

/-- `SupportsPathForModel`. -/
def AdvancedCustomConfig.supportsPathForModel (config : AdvancedCustomConfig) (requestPath model : String) : Bool :=
  config.routes.any fun route =>
    matchAdvancedCustomIncomingPath (trimSpace route.incomingPath) requestPath &&
      matchAdvancedCustomRouteModel matchString route.models (trimSpace model)

/-! ## The cache -/

/-- `group2model2channels`, `channelsIDM` and `channel2advancedCustomConfig`. -/
structure Cache where
  group2model2channels         : String → String → List ℕ
  channelsIDM                  : ℕ → Option Channel
  channel2advancedCustomConfig : ℕ → Option AdvancedCustomConfig

/-- The last channel with an id, as the map keeps it. -/
def DB.channelById (db : DB) (id : ℕ) : Option Channel := db.channels.reverse.find? fun c => c.id = id

/-- The ids of the enabled channels of a group and a model, once for every place they are named at. -/
def DB.cachedIds (db : DB) (group model : String) : List ℕ :=
  (db.channels.filter Channel.enabled).flatMap fun c =>
    (c.groups.filter (· = group)).flatMap fun _ => (c.modelNames.filter (· = model)).map fun _ => c.id

def DB.cachedPriority (db : DB) (id : ℕ) : ℤ := ((db.channelById id).map Channel.getPriority).getD 0

/-- What the maps hold. -/
def loadedCache (db : DB) : Cache where
  group2model2channels := fun group model => orderBy (fun id => -db.cachedPriority id) (db.cachedIds group model)
  channelsIDM := db.channelById
  channel2advancedCustomConfig := fun id =>
    match db.channelById id with
    | none => none
    | some channel => if channel.type = channelTypeAdvancedCustom then channel.advancedCustom else none

/-- `InitChannelCache`.  A group without any abilities has no map, and to write to it is a panic. -/
def initChannelCache (db : DB) : Option Cache :=
  if (db.channels.filter Channel.enabled).all fun c =>
      c.groups.all fun group => db.abilities.any fun ability => ability.group = group then some (loadedCache db)
  else none

/-! ## Selection through the cache -/

/-- `handleThinkingBudgetModel`. -/
def handleThinkingBudgetModel (name start wildcard : String) : String :=
  if hasPrefix name start && containsText name "-thinking-" then wildcard else name

/-- `FormatMatchingModelName`. -/
def formatMatchingModelName (name : String) : String :=
  let name :=
    if hasPrefix name "gemini-2.5-flash-lite" then
      handleThinkingBudgetModel name "gemini-2.5-flash-lite" "gemini-2.5-flash-lite-thinking-*"
    else if hasPrefix name "gemini-2.5-flash" then
      handleThinkingBudgetModel name "gemini-2.5-flash" "gemini-2.5-flash-thinking-*"
    else if hasPrefix name "gemini-2.5-pro" then
      handleThinkingBudgetModel name "gemini-2.5-pro" "gemini-2.5-pro-thinking-*"
    else name
  let name := if hasPrefix name "gpt-4-gizmo" then "gpt-4-gizmo-*" else name
  if hasPrefix name "gpt-4o-gizmo" then "gpt-4o-gizmo-*" else name

/-- A cached channel serves the path.  An unknown one stays, for the error that is raised of it. -/
def Cache.servesPath (cache : Cache) (requestPath model : String) (id : ℕ) : Bool :=
  match cache.channelsIDM id with
  | none => true
  | some channel =>
    volcNativeChannelMatchesPath channel.type requestPath &&
      (channel.type ≠ channelTypeAdvancedCustom ||
        (cache.channel2advancedCustomConfig id).any fun config =>
          config.supportsPathForModel matchString requestPath model)

/-- `filterChannelsByRequestPathAndModel`. -/
def Cache.filterChannelsByRequestPathAndModel (cache : Cache) (channels : List ℕ) (requestPath model : String) :
    List ℕ :=
  if requestPath = "" then channels else channels.filter (cache.servesPath matchString requestPath model)

/-- The priorities that occur, the highest first. -/
def sortedUniquePriorities (priorities : List ℤ) : List ℤ := orderBy (fun p => -p) priorities.dedup

/-- The priority of a retry; the last one stands for all beyond. -/
def targetPriority (priorities : List ℤ) (retry : ℕ) : ℤ :=
  let sorted := sortedUniquePriorities priorities
  sorted.getD (if sorted.length ≤ retry then sorted.length - 1 else retry) 0

/-- The weight a channel is drawn with: all the same if none has one, and a hundred times if they are small. -/
def smoothedWeight (targetChannels : List Channel) (channel : Channel) : ℕ :=
  let sumWeight := total Channel.getWeight targetChannels
  if sumWeight = 0 then channel.getWeight + 100
  else if sumWeight / targetChannels.length < 10 then channel.getWeight * 100 else channel.getWeight

/-- The channels of a list that have the priority of a retry. -/
def tier (channels : List Channel) (retry : ℕ) : List Channel :=
  channels.filter fun c => c.getPriority = targetPriority (channels.map Channel.getPriority) retry

/-- A channel is drawn by its weight. -/
def drawChannel (intn : ℕ → ℕ) (targetChannels : List Channel) : Except String (Option Channel) :=
  match draw (smoothedWeight targetChannels) targetChannels
      (intn (total (smoothedWeight targetChannels) targetChannels)) with
  | some channel => .ok (some channel)
  | none => .error "channel not found"

/-- The channels that the ids stand for, or the first id that is unknown. -/
def Cache.lookup (cache : Cache) : List ℕ → Except String (List Channel)
  | [] => .ok []
  | id :: ids =>
    match cache.channelsIDM id with
    | none => .error ("数据库一致性错误，渠道# " ++ toString id ++ " 不存在，请联系管理员修复")
    | some channel =>
      match cache.lookup ids with
      | .error err => .error err
      | .ok channels => .ok (channel :: channels)

/-- The candidates: those of the model, or else those of the name it is matched by. -/
def Cache.candidates (cache : Cache) (group model requestPath : String) : List ℕ :=
  let channels := cache.filterChannelsByRequestPathAndModel matchString (cache.group2model2channels group model)
    requestPath model
  if channels = [] then
    cache.filterChannelsByRequestPathAndModel matchString
      (cache.group2model2channels group (formatMatchingModelName model)) requestPath model
  else channels

/-- `GetRandomSatisfiedChannel`, with the memory cache. -/
def Cache.getRandomSatisfiedChannel (cache : Cache) (intn : ℕ → ℕ) (group model : String) (retry : ℕ)
    (requestPath : String) : Except String (Option Channel) :=
  match cache.candidates matchString group model requestPath with
  | [] => .ok none
  | ids =>
    match cache.lookup ids with
    | .error err => .error err
    | .ok [channel] => .ok (some channel)
    | .ok channels => drawChannel intn (tier channels retry)

/-! ## Selection through the abilities -/

/-- `group = ? and model = ? and enabled`. -/
def DB.enabledAbilities (db : DB) (group model : String) : List Ability :=
  db.abilities.filter fun a => a.group = group && a.model = model && a.enabled

/-- `getPriority`. -/
def DB.getPriority (db : DB) (group model : String) (retry : ℕ) : Except String ℤ :=
  let priorities := (db.enabledAbilities group model).map Ability.priority
  if priorities = [] then .error "数据库一致性被破坏" else .ok (targetPriority priorities retry)

/-- `getChannelQuery`, the heaviest first: the highest priority, or that of the retry. -/
def DB.queryAbilities (db : DB) (group model : String) (retry : ℕ) : Except String (List Ability) :=
  let byWeight := fun priority : ℤ =>
    orderBy (fun a : Ability => -(a.weight : ℤ)) ((db.enabledAbilities group model).filter fun a => a.priority = priority)
  if retry = 0 then
    match ((db.enabledAbilities group model).map Ability.priority).max? with
    | none => .ok []
    | some priority => .ok (byWeight priority)
  else
    match db.getPriority group model retry with
    | .error err => .error err
    | .ok priority => .ok (byWeight priority)

/-- `filterAbilitiesByRequestPathAndModel`. -/
def DB.filterAbilitiesByRequestPathAndModel (db : DB) (abilities : List Ability) (requestPath model : String) :
    List Ability :=
  if requestPath = "" then abilities
  else abilities.filter fun a =>
    let channel := db.channelById a.channelId
    volcNativeChannelMatchesPath ((channel.map Channel.type).getD 0) requestPath &&
      ((channel.map Channel.type).getD 0 ≠ channelTypeAdvancedCustom ||
        (channel.bind Channel.advancedCustom).any fun config =>
          config.supportsPathForModel matchString requestPath model)

/-- The weight an ability is drawn with. -/
def Ability.drawWeight (a : Ability) : ℕ := a.weight + 10

/-- A channel is drawn by the weight of its ability.  The number is counted down to zero, not below. -/
def DB.drawAbility (db : DB) (intn : ℕ → ℕ) (abilities : List Ability) : Except String (Option Channel) :=
  match draw Ability.drawWeight abilities (intn (total Ability.drawWeight abilities) - 1) with
  | none => .error "record not found"
  | some ability =>
    match db.channelById ability.channelId with
    | none => .error "record not found"
    | some channel => .ok (some channel)

/-- `GetChannel`. -/
def DB.getChannel (db : DB) (intn : ℕ → ℕ) (group model : String) (retry : ℕ) (requestPath : String) :
    Except String (Option Channel) :=
  match db.queryAbilities group model retry with
  | .error err => .error err
  | .ok found =>
    let abilities := db.filterAbilitiesByRequestPathAndModel matchString found requestPath model
    if abilities = [] then .ok none else db.drawAbility intn abilities

end

end NovaMaas.Routing
