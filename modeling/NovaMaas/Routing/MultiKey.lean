/-
  Channels with several keys (model/channel.go, model/channel_cache.go).

  Of the keys of a channel each has a status; a request is sent with one that is enabled.  The statuses and the cursor of
  polling share a column of the channel's row, and with the memory cache the channel is a value in memory as well.

  A caller selects a key on a channel VALUE: with the cache on that may be the value of the cache itself, which all callers
  share, and else it is one that was loaded from the table some time before.  A selection and a change of a status each
  hold the lock of the channel, so they are single steps here; between two of them anything may happen.

  The keys of a value are what `GetKeys` reads from its text.  Maps are functions.  Left out: the abilities, the lists of
  the channels of a model, errors of the database.
-/
import Mathlib

namespace NovaMaas.MultiKey

/-! ## Data -/

def channelStatusEnabled : ℕ := 1
def channelStatusAutoDisabled : ℕ := 3

inductive MultiKeyMode where
  | random
  | polling
  | unknown

structure ChannelInfo where
  isMultiKey             : Bool := true
  /-- By the index of the key; a key without one is enabled. -/
  multiKeyStatusList     : ℕ → Option ℕ := fun _ => none
  multiKeyDisabledReason : ℕ → Option String := fun _ => none
  multiKeyDisabledTime   : ℕ → Option ℕ := fun _ => none
  multiKeyPollingIndex   : ℤ := 0
  multiKeyMode           : MultiKeyMode := .random

structure Channel where
  key         : String := ""
  /-- `GetKeys()`. -/
  keys        : List String
  status      : ℕ := 1
  /-- `status_reason` and `status_time` of the other information. -/
  otherInfo   : Option (String × ℕ) := none
  channelInfo : ChannelInfo := {}

/-- `getStatus` of the selection. -/
def ChannelInfo.getStatus (info : ChannelInfo) (idx : ℕ) : ℕ := (info.multiKeyStatusList idx).getD channelStatusEnabled

/-- The table, the value of the cache, and the values that callers have loaded. -/
structure State where
  db     : Channel
  cache  : Option Channel := none
  loaded : List Channel := []

/-! ## Selection -/

def enabledIdx (channel : Channel) : List ℕ :=
  (List.range channel.keys.length).filter fun i => channel.channelInfo.getStatus i = channelStatusEnabled

/-- Where polling begins. -/
def pollingStart (index : ℤ) (size : ℕ) : ℕ := if index < 0 ∨ size ≤ index then 0 else index.toNat

/-- What a selection returns, the value it leaves, and whether it saves the information of the channel. -/
structure Selected where
  result  : Except String (String × ℕ)
  channel : Channel
  save    : Bool := false

/-- `GetNextEnabledKey`, with the cursor that `CacheGetChannelInfo` finds. -/
def getNextEnabledKey (memoryCacheEnabled : Bool) (cursor : Option ℤ) (intn : ℕ → ℕ) (channel : Channel) : Selected :=
  if !channel.channelInfo.isMultiKey then { result := .ok (channel.key, 0), channel := channel }
  else if channel.keys = [] then { result := .error "no keys available", channel := channel }
  else if enabledIdx channel = [] then { result := .error "no enabled keys", channel := channel }
  else
    let keyAt := fun idx => channel.keys.getD idx ""
    match channel.channelInfo.multiKeyMode with
    | .random =>
      let selectedIdx := (enabledIdx channel).getD (intn (enabledIdx channel).length) 0
      { result := .ok (keyAt selectedIdx, selectedIdx), channel := channel }
    | .polling =>
      match cursor with
      | none => { result := .error "channel not found", channel := channel }
      | some index =>
        let start := pollingStart index channel.keys.length
        let order := (List.range channel.keys.length).map fun i => (start + i) % channel.keys.length
        match order.find? fun idx => channel.channelInfo.getStatus idx = channelStatusEnabled with
        | some idx =>
          let info := { channel.channelInfo with multiKeyPollingIndex := ((idx + 1) % channel.keys.length : ℕ) }
          { result := .ok (keyAt idx, idx), channel := { channel with channelInfo := info },
            save := !memoryCacheEnabled }
        | none =>
          let idx := (enabledIdx channel).headD 0
          { result := .ok (keyAt idx, idx), channel := channel, save := !memoryCacheEnabled }
    | .unknown =>
      let idx := (enabledIdx channel).headD 0
      { result := .ok (keyAt idx, idx), channel := channel }

/-! ## Changes of the status -/

/-- `hasEnabledMultiKey`. -/
def hasEnabledMultiKey (channel : Channel) : Bool :=
  (List.range channel.keys.length).any fun i => channel.channelInfo.getStatus i = channelStatusEnabled

/-- The status of a key is written to the list, or deleted from it. -/
def ChannelInfo.setKeyStatus (info : ChannelInfo) (idx status : ℕ) (reason : String) (now : ℕ) : ChannelInfo :=
  if status = channelStatusEnabled then
    { info with multiKeyStatusList := Function.update info.multiKeyStatusList idx none }
  else
    { info with multiKeyStatusList := Function.update info.multiKeyStatusList idx (some status),
                multiKeyDisabledReason := Function.update info.multiKeyDisabledReason idx (some reason),
                multiKeyDisabledTime := Function.update info.multiKeyDisabledTime idx (some now) }

/-- `handlerMultiKeyUpdate`. -/
def handlerMultiKeyUpdate (channel : Channel) (usingKey : String) (status : ℕ) (reason : String) (now : ℕ) : Channel :=
  if channel.keys = [] then { channel with status := status }
  else if usingKey ∈ channel.keys then
    let updated : Channel :=
      { channel with channelInfo := channel.channelInfo.setKeyStatus (channel.keys.idxOf usingKey) status reason now }
    if !hasEnabledMultiKey updated then
      { updated with status := channelStatusAutoDisabled, otherInfo := some ("All keys are disabled", now) }
    else if status = channelStatusEnabled then { updated with status := channelStatusEnabled }
    else updated
  else if usingKey ≠ "" then channel
  else { channel with status := status, otherInfo := some (reason, now) }

/-- The value of the cache, as `UpdateChannelStatus` changes it. -/
def updateCached (usingKey : String) (status : ℕ) (reason : String) (now : ℕ) (channel : Channel) : Channel :=
  if channel.channelInfo.isMultiKey then handlerMultiKeyUpdate channel usingKey status reason now
  else { channel with status := status }

/-- The row, as `UpdateChannelStatus` and `saveStatusState` change it. -/
def updateStored (usingKey : String) (status : ℕ) (reason : String) (now : ℕ) (channel : Channel) : Channel :=
  if channel.channelInfo.isMultiKey then handlerMultiKeyUpdate channel usingKey status reason now
  else { channel with status := status, otherInfo := some (reason, now) }

/-- `UpdateChannelStatus`. -/
def updateChannelStatus (memoryCacheEnabled : Bool) (usingKey : String) (status : ℕ) (reason : String) (now : ℕ)
    (s : State) : State × Bool :=
  let stored := fun s : State =>
    if s.db.status = status then (s, false)
    else ({ s with db := updateStored usingKey status reason now s.db }, true)
  if memoryCacheEnabled then
    match s.cache with
    | none => (s, false)
    | some channelCache =>
      if !channelCache.channelInfo.isMultiKey && channelCache.status = status then (s, false)
      else stored { s with cache := some (updateCached usingKey status reason now channelCache) }
  else stored s

/-! ## Steps -/

/-- The value a key is selected on: that of the cache, or one that was loaded. -/
inductive Source where
  | cached
  | loaded (i : ℕ)

inductive Action where
  /-- A caller loads the channel from the table. -/
  | load
  | select (source : Source) (intn : ℕ → ℕ)
  | update (usingKey : String) (status : ℕ) (reason : String) (now : ℕ)

def State.value (s : State) : Source → Option Channel
  | .cached => s.cache
  | .loaded i => s.loaded[i]?

/-- The cursor of polling, from the cache or the table. -/
def State.cursor (memoryCacheEnabled : Bool) (s : State) : Option ℤ :=
  if memoryCacheEnabled then s.cache.map fun c => c.channelInfo.multiKeyPollingIndex
  else some s.db.channelInfo.multiKeyPollingIndex

/-- A selection leaves its value changed, and the row if it saves. -/
def State.afterSelect (s : State) (source : Source) (selected : Selected) : State :=
  let s := if selected.save then { s with db := { s.db with channelInfo := selected.channel.channelInfo } } else s
  match source with
  | .cached => { s with cache := some selected.channel }
  | .loaded i => { s with loaded := s.loaded.set i selected.channel }

/-- What a selection on a value returns. -/
def State.select (memoryCacheEnabled : Bool) (s : State) (source : Source) (intn : ℕ → ℕ) : Option Selected :=
  (s.value source).map fun channel => getNextEnabledKey memoryCacheEnabled (s.cursor memoryCacheEnabled) intn channel

def step (memoryCacheEnabled : Bool) (s : State) : Action → Option State
  | .load => some { s with loaded := s.loaded ++ [s.db] }
  | .select source intn => (s.select memoryCacheEnabled source intn).map (s.afterSelect source)
  | .update usingKey status reason now => some (updateChannelStatus memoryCacheEnabled usingKey status reason now s).1

end NovaMaas.MultiKey
