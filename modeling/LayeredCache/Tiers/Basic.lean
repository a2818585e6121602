import LayeredCache.Host
import LayeredCache.Tier.Pinned
import LayeredCache.Tier.Primary
import LayeredCache.Tier.Soft
import LayeredCache.Text

/-!
# Three tiers

A cache keeps its entries in a pinned, a primary and a soft tier and looks keys up in this order. This module holds
what can be read off the tiers without changing them.
-/

set_option autoImplicit false

namespace LayeredCache

structure Tiers (Key Value : Type) [DecidableEq Key] where
  pinned : PinnedTier Key Value
  primary : PrimaryTier Key Value
  soft : SoftTier Key Value

inductive TierName where
  | pinned | primary | soft
  deriving DecidableEq, Repr

inductive Lookup (Value : Type) where
  | hit (value : Value)
  | miss
  /-- The key has a value, but serving it moves an entry. -/
  | needsWrite
  deriving DecidableEq, Repr

structure Entry (Key Value : Type) where
  key : Key
  value : Value
  tier : TierName
  deriving DecidableEq, Repr

/-- How many entries there can be room for at once in the primary and in the soft tier of a cache. An entry takes a byte at
least, and no more bytes can be asked for at once than half of those that a word can tell apart. -/
structure Room where
  primary : Nat
  soft : Nat
  primary_addressable : primary < 9223372036854775808
  soft_addressable : soft < 9223372036854775808

/-- Whether tiers can be given room from the start for all that they may come to hold, or for as much of it as a hint
says. -/
def Room.admits (room : Room) (cacheSize softReferenceSize hint : Nat) : Bool :=
  min cacheSize hint ≤ room.primary && min softReferenceSize hint ≤ room.soft

namespace Tiers

variable {World Key Value : Type} [DecidableEq Key]

def empty (order : EvictionOrder) (cacheSize softReferenceSize : Nat) (ttl : Option Span) :
    Tiers Key Value :=
  ⟨.empty, .empty cacheSize order, .empty softReferenceSize ttl⟩

def evictionOrder (tiers : Tiers Key Value) : EvictionOrder := tiers.primary.order

def cacheSize (tiers : Tiers Key Value) : Nat := tiers.primary.capacity

def softReferenceSize (tiers : Tiers Key Value) : Nat := tiers.soft.capacity

def isPinned (tiers : Tiers Key Value) (key : Key) : Bool := tiers.pinned.isPinned key

def pinnedKeys (tiers : Tiers Key Value) : List Key := tiers.pinned.keys

def containsKey (tiers : Tiers Key Value) (moment : Moment) (key : Key) : Bool :=
  (tiers.pinned.value? key).isSome || tiers.primary.contains key || tiers.soft.contains moment key

def entries (tiers : Tiers Key Value) (moment : Moment) : List (Entry Key Value) :=
  (tiers.pinned.toList.map fun entry => ⟨entry.1, entry.2, .pinned⟩) ++
    (tiers.primary.toList.map fun entry => ⟨entry.1, entry.2, .primary⟩) ++
    ((tiers.soft.live moment).map fun entry => ⟨entry.1, entry.2, .soft⟩)

def lengths (tiers : Tiers Key Value) (moment : Moment) : Nat × Nat × Nat :=
  (tiers.pinned.toList.length, tiers.primary.size, (tiers.soft.live moment).length)

def size (tiers : Tiers Key Value) (moment : Moment) : Nat :=
  (tiers.lengths moment).1 + (tiers.lengths moment).2.1 + (tiers.lengths moment).2.2

def gauge (tiers : Tiers Key Value) (moment : Moment) : Metrics.Gauge → Nat
  | .pinnedLength => (tiers.lengths moment).1
  | .primaryLength => (tiers.lengths moment).2.1
  | .softLength => (tiers.lengths moment).2.2
  | .cacheSize => tiers.cacheSize
  | .softReferenceSize => tiers.softReferenceSize

/-- Looks a key up without changing the tiers. A lookup that is resolved counts as a call; one that needs a write is
counted when it is repeated as one. -/
def lookup (host : Host World Key Value) (key : Key) (tiers : Tiers Key Value) (world : World) :
    Lookup Value × World :=
  match tiers.pinned.slot? key with
  | some (some value) => (.hit value, host.record .getPinnedHit (host.record .getCall world))
  | some none => (.miss, host.record .getMiss (host.record .getCall world))
  | none =>
      match tiers.primary.peek? key with
      | some value =>
          if tiers.primary.order.isLru then (.needsWrite, world)
          else (.hit value, host.record .getPrimaryHit (host.record .getCall world))
      | none =>
          if tiers.soft.contains (host.moment world) key then (.needsWrite, world)
          else (.miss, host.record .getMiss (host.record .getCall world))

/-- Whether some visible entry has a value, where something may happen at the first comparison. The instant is taken
before the search, the epoch when the search reaches the soft tier. -/
def searchValue [BEq Value] (host : Host World Key Value) (atFirst : World → World) (value : Value)
    (tiers : Tiers Key Value) (world : World) : Bool × World :=
  let instant := host.clock world
  let early := tiers.pinned.toList ++ tiers.primary.toList
  let reached := if early.isEmpty then world else atFirst world
  if early.any fun entry => entry.2 == value then (true, reached)
  else
    let late := tiers.soft.live ⟨instant, host.epoch reached⟩
    (late.any fun entry => entry.2 == value,
      if early.isEmpty && !late.isEmpty then atFirst reached else reached)

def containsValue [BEq Value] (tiers : Tiers Key Value) (moment : Moment) (value : Value) : Bool :=
  (tiers.entries moment).any fun entry => entry.value == value

def audit (tiers : Tiers Key Value) : Except Corruption Unit := do
  tiers.primary.audit
  tiers.soft.audit
  if tiers.pinned.keys.any tiers.primary.contains then throw .pinnedInPrimary
  if tiers.soft.toList.any fun entry =>
      tiers.primary.contains entry.1 || (tiers.pinned.value? entry.1).isSome then
    throw .softElsewhere

/-- The tiers as a record. It counts every pin, with or without a value, and every stored entry of the soft tier, live or
not. -/
def layout (tiers : Tiers Key Value) : Text.Layout :=
  .record "TieredCore" (.ofList [
    ("order", .atom tiers.evictionOrder.name),
    ("pinned", .atom (toString tiers.pinned.registrations)),
    ("primary", .atom (toString tiers.primary.size)),
    ("soft", .atom (toString tiers.soft.storedSize)),
    ("cache_size", .atom (toString tiers.cacheSize)),
    ("soft_reference_size", .atom (toString tiers.softReferenceSize))]) true

end Tiers

end LayeredCache
