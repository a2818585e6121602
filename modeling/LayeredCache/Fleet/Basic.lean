import LayeredCache.Lock
import LayeredCache.Metrics.Exposition
import LayeredCache.Settings.Basic
import LayeredCache.Tiers.Basic
import LayeredCache.Tiers.Operations

/-!
# Fleets of caches

Several caches share a clock and are used from one thread of control. Calls reach them through numbered handles, of
which several may belong to one cache. A listener is called while its cache is held exclusively; it answers an event with
calls of its own, on any cache. A journal keeps what listeners were told and what their calls were answered; what a
listener does next may depend on all of it.
-/

set_option autoImplicit false

namespace LayeredCache

inductive Reply (Key Value : Type) where
  | done
  | value (value : Option Value)
  | flag (flag : Bool)
  | number (number : Nat)
  | lookup (outcome : Lookup Value)
  | lengths (pinned primary soft : Nat)
  | pinnedKeys (keys : List Key)
  | keys (keys : List (Key × TierName))
  | entries (entries : List (Entry Key Value))
  | audit (finding : Except Corruption Unit)
  | order (order : EvictionOrder)
  | span (span : Span)
  | snapshot (snapshot : Metrics.Snapshot)
  | text (text : String)
  | refused (timeout : LockTimeout)
  | unknownHandle (handle : Nat)

/-- What the journal keeps, as far as a listener can go by it: an event that was told, or the reply to a call that was made
through a handle in the middle of another call. -/
inductive Heard (Key Value : Type) where
  | event (cache : Nat) (event : Event Key Value)
  | reply (handle : Nat) (reply : Reply Key Value)

mutual

inductive Action (Key Value : Type) : Type where
  | put (key : Key) (value : Value)
  /-- As `put`, for a value that the caller goes on sharing. -/
  | putShared (key : Key) (value : Value)
  | get (key : Key)
  | remove (key : Key)
  | pin (key : Key)
  | unpin (key : Key)
  | containsKey (key : Key)
  | isPinned (key : Key)
  /-- Searches for a value; some calls are made when the search first compares one. -/
  | containsValue (value : Value) (during : List (Call Key Value))
  | putAll (source : Nat) (replaceExisting : Bool)
  | clear
  | setCacheSize (capacity : Nat)
  | setSoftReferenceSize (capacity : Nat)
  | size
  | isEmpty
  | cacheSize
  | softReferenceSize
  | concurrencyLevel
  | isLru
  | evictionOrder
  | lockTimeout
  | pinnedKeys
  | keys
  | entries
  | audit
  | setListener (listener : Option (Listener Key Value))
  | reclaim
  | epoch
  | purgeSoft
  | metrics
  | exposition (label : String)
  | resetMetrics
  | debug
  | debugIndented
  | clone
  | advance (nanoseconds : Nat)

inductive Call (Key Value : Type) : Type where
  | mk (handle : Nat) (action : Action Key Value)

/-- Which events the journal keeps, and the calls that an event is answered with after what the journal has kept so
far. -/
inductive Listener (Key Value : Type) : Type where
  | mk (journals : Event Key Value → Bool)
      (reacts : List (Heard Key Value) → Event Key Value → List (Call Key Value))

end

namespace Call

variable {Key Value : Type}

def handle : Call Key Value → Nat
  | mk handle _ => handle

def action : Call Key Value → Action Key Value
  | mk _ action => action

end Call

namespace Listener

variable {Key Value : Type}

def journals : Listener Key Value → Event Key Value → Bool
  | mk journals _ => journals

def reacts : Listener Key Value → List (Heard Key Value) → Event Key Value → List (Call Key Value)
  | mk _ reacts => reacts

end Listener

inductive Note (Key Value : Type) where
  | event (cache : Nat) (event : Event Key Value)
  | answered (call : Call Key Value) (reply : Reply Key Value)

def Note.heard {Key Value : Type} : Note Key Value → Heard Key Value
  | event cache told => .event cache told
  | answered call reply => .reply call.handle reply

structure Cache (Key Value : Type) [DecidableEq Key] where
  tiers : Tiers Key Value
  listener : Option (Listener Key Value)
  hold : Hold
  tally : Metrics.Tally
  epoch : Epoch
  order : EvictionOrder
  lockTimeout : Span
  concurrencyLevel : UInt64

structure Fleet (Key Value : Type) [DecidableEq Key] where
  caches : Array (Cache Key Value)
  handles : List Nat
  clock : Instant
  journal : List (Note Key Value)

namespace Cache

variable {Key Value : Type} [DecidableEq Key]

def ofSettings (settings : Settings) : Cache Key Value where
  tiers := .empty settings.evictionOrder settings.cacheSize.toNat settings.softReferenceSize.toNat
    settings.softTtlSpan
  listener := none
  hold := .free
  tally := .zero
  epoch := 0
  order := settings.evictionOrder
  lockTimeout := settings.lockTimeoutSpan
  concurrencyLevel := settings.concurrencyLevel

/-- Builds a cache of settings that are valid and for which there is room. -/
def build? (room : Room) (settings : Settings) : Except BuildFault (Cache Key Value) := do
  settings.validate.mapError .refused
  if room.admits settings.cacheSize.toNat settings.softReferenceSize.toNat settings.roomHint then
    return ofSettings settings
  else throw .overflow

def record (recording : Metrics.Recording) (cache : Cache Key Value) : Cache Key Value :=
  { cache with tally := cache.tally.record recording }

def resetMetrics (cache : Cache Key Value) : Cache Key Value := { cache with tally := cache.tally.reset }

theorem resetMetrics_eq : (resetMetrics : Cache Key Value → _) = fun cache => { cache with tally := .zero } :=
  funext fun cache => by rw [resetMetrics, Metrics.Tally.reset_eq_zero]

def snapshot (cache : Cache Key Value) (instant : Instant) : Metrics.Snapshot :=
  { Metrics.Snapshot.ofTally cache.tally with gauge := cache.tiers.gauge ⟨instant, cache.epoch⟩ }

/-- The cache as a record, which shows no tiers while a writer holds the lock. -/
def layout (cache : Cache Key Value) : Text.Layout :=
  .record "CacheMap" (.ofList [
    ("order", .atom cache.order.name),
    ("lock_timeout", .atom cache.lockTimeout.text),
    ("core", if cache.hold.admits .shared then cache.tiers.layout else .atom (Text.quoted "<locked>"))])
    true

end Cache

namespace Fleet

variable {Key Value : Type} [DecidableEq Key]

def ofSettings (settings : List Settings) : Fleet Key Value where
  caches := (settings.map Cache.ofSettings).toArray
  handles := List.range settings.length
  clock := 0
  journal := []

/-- Builds caches one after the other, up to the first that cannot be built. -/
def build? (room : Room) (settings : List Settings) : Except BuildFault (Fleet Key Value) := do
  settings.forM fun chosen => discard (Cache.build? room chosen : Except BuildFault (Cache Key Value))
  return ofSettings settings

/-- The number and the cache that a handle belongs to. -/
def find? (fleet : Fleet Key Value) (handle : Nat) : Option (Nat × Cache Key Value) := do
  let number ← fleet.handles[handle]?
  let cache ← fleet.caches[number]?
  return (number, cache)

def adjust (fleet : Fleet Key Value) (number : Nat) (change : Cache Key Value → Cache Key Value) :
    Fleet Key Value :=
  { fleet with caches := fleet.caches.modify number change }

def note (fleet : Fleet Key Value) (line : Note Key Value) : Fleet Key Value :=
  { fleet with journal := fleet.journal ++ [line] }

/-- What a listener can go by so far. -/
def heard (fleet : Fleet Key Value) : List (Heard Key Value) := fleet.journal.map Note.heard

def moment (fleet : Fleet Key Value) (cache : Cache Key Value) : Moment := ⟨fleet.clock, cache.epoch⟩

end Fleet

end LayeredCache
