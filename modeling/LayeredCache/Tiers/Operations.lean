import LayeredCache.Tiers.Basic

/-!
# Operations on the tiers

A new value goes to the primary tier, unless its key is pinned; what the primary tier gives up goes to the soft tier;
what the soft tier gives up is gone. A value looked up in the soft tier returns to the primary tier. Every operation
tells the host what it counts and which entries it moves.

An operation that moves entries reads the instant once, at its start or after its surplus is determined; the epoch is
read at each acceptance by the soft tier.
-/

set_option autoImplicit false

namespace LayeredCache.Tiers

variable {World Key Value : Type} [DecidableEq Key]

def announceSoftOverflow (host : Host World Key Value) (entry : Key × Value) (world : World) : World :=
  host.notify (.softOverflow entry.1 entry.2) (host.record .softOverflow world)

/-- Passes an entry that the primary tier gave up on to the soft tier, if that has any room. -/
def demote (host : Host World Key Value) (instant : Instant) (entry : Key × Value)
    (tiers : Tiers Key Value) (world : World) : Tiers Key Value × World :=
  let demoted := decide (0 < tiers.soft.capacity)
  let world := host.record (.primaryOverflow demoted) world
  let world := host.notify (.primaryOverflow entry.1 entry.2 demoted) world
  if demoted then
    match tiers.soft.accept ⟨instant, host.epoch world⟩ entry.1 entry.2 with
    | (none, soft) => ({ tiers with soft }, world)
    | (some dropped, soft) => ({ tiers with soft }, announceSoftOverflow host dropped world)
  else (tiers, world)

def demoteAll (host : Host World Key Value) (instant : Instant) :
    List (Key × Value) → Tiers Key Value → World → Tiers Key Value × World
  | [], tiers, world => (tiers, world)
  | entry :: rest, tiers, world =>
      let (tiers, world) := demote host instant entry tiers world
      demoteAll host instant rest tiers world

def insertPrimary (host : Host World Key Value) (instant : Instant) (key : Key) (value : Value)
    (tiers : Tiers Key Value) (world : World) : Option Value × Tiers Key Value × World :=
  let (insertion, primary) := tiers.primary.insert key value
  match insertion.overflow with
  | none => (insertion.previous, { tiers with primary }, world)
  | some entry => (insertion.previous, demote host instant entry { tiers with primary } world)

def get (host : Host World Key Value) (key : Key) (tiers : Tiers Key Value) (world : World) :
    Option Value × Tiers Key Value × World :=
  let world := host.record .getCall world
  match tiers.pinned.slot? key with
  | some (some value) => (some value, tiers, host.record .getPinnedHit world)
  | some none => (none, tiers, host.record .getMiss world)
  | none =>
      match tiers.primary.get key with
      | (some value, primary) => (some value, { tiers with primary }, host.record .getPrimaryHit world)
      | (none, _) =>
          let moment := host.moment world
          match tiers.soft.take moment key with
          | (some value, soft) =>
              let world := host.record .softPromotion (host.record .getSoftHit world)
              (some value, (insertPrimary host moment.instant key value { tiers with soft } world).2)
          | (none, soft) => (none, { tiers with soft }, host.record .getMiss world)

/-- Gives a key a value and returns the value that it had. A pinned key keeps its pin; any other value goes to the
primary tier. -/
def put (host : Host World Key Value) (key : Key) (value : Value) (tiers : Tiers Key Value)
    (world : World) : Option Value × Tiers Key Value × World :=
  let world := host.record .putCall world
  match tiers.pinned.replace? key value with
  | some (previous, pinned) => (previous, { tiers with pinned }, host.record .putPinned world)
  | none =>
      let moment := host.moment world
      let (softPrevious, soft) := tiers.soft.take moment key
      let (primaryPrevious, tiers, world) :=
        insertPrimary host moment.instant key value { tiers with soft } world
      let previous := primaryPrevious.or softPrevious
      (previous, tiers,
        host.record (if previous.isSome then .putUpdate else .putNew) world)

def remove (host : Host World Key Value) (key : Key) (tiers : Tiers Key Value) (world : World) :
    Option Value × Tiers Key Value × World :=
  let world := host.record .removeCall world
  let (slot, pinned) := tiers.pinned.unpin key
  let (primaryValue, primary) := tiers.primary.remove key
  let (softValue, soft) := tiers.soft.take (host.moment world) key
  let removed := (slot.join.or primaryValue).or softValue
  (removed, { pinned, primary, soft },
    if removed.isSome then host.record .removeFound world else world)

/-- Pins a key with the value that it has in another tier, if any, and tells whether it has a value. -/
def pin (host : Host World Key Value) (key : Key) (tiers : Tiers Key Value) (world : World) :
    Bool × Tiers Key Value × World :=
  let world := host.record .pinCall world
  let (found, tiers) : Bool × Tiers Key Value :=
    match tiers.pinned.slot? key with
    | some slot => (slot.isSome, tiers)
    | none =>
        match tiers.primary.remove key with
        | (some value, primary) => (true, { tiers with primary, pinned := tiers.pinned.pin key (some value) })
        | (none, _) =>
            let (value, soft) := tiers.soft.take (host.moment world) key
            (value.isSome, { tiers with soft, pinned := tiers.pinned.pin key value })
  (found, tiers, if found then host.record .pinFound world else world)

/-- Drops the pin of a key, whose value goes to the primary tier, and tells whether it was pinned. -/
def unpin (host : Host World Key Value) (key : Key) (tiers : Tiers Key Value) (world : World) :
    Bool × Tiers Key Value × World :=
  let world := host.record .unpinCall world
  match tiers.pinned.unpin key with
  | (none, _) => (false, tiers, world)
  | (some none, pinned) => (true, { tiers with pinned }, host.record .unpinFound world)
  | (some (some value), pinned) =>
      let (_, tiers, world) :=
        insertPrimary host (host.clock world) key value { tiers with pinned } world
      (true, tiers, host.record .unpinFound world)

/-- Copies one entry, unless its key already has a value that is to be kept. A key that was pinned at its source is
pinned here. -/
def putEntry (host : Host World Key Value) (replaceExisting : Bool) (entry : Entry Key Value)
    (tiers : Tiers Key Value) (world : World) : Tiers Key Value × World :=
  if !replaceExisting && tiers.containsKey (host.moment world) entry.key then (tiers, world)
  else if entry.tier = .pinned then
    let (_, tiers, world) := pin host entry.key tiers world
    (put host entry.key entry.value tiers world).2
  else (put host entry.key entry.value tiers world).2

def putAll (host : Host World Key Value) (replaceExisting : Bool) :
    List (Entry Key Value) → Tiers Key Value → World → Tiers Key Value × World
  | [], tiers, world => (tiers, world)
  | entry :: rest, tiers, world =>
      let (tiers, world) := putEntry host replaceExisting entry tiers world
      putAll host replaceExisting rest tiers world

def clear (host : Host World Key Value) (tiers : Tiers Key Value) (world : World) :
    Tiers Key Value × World :=
  (⟨.empty, tiers.primary.clear, tiers.soft.clear⟩, host.record .clear world)

def setCacheSize (host : Host World Key Value) (capacity : Nat) (tiers : Tiers Key Value)
    (world : World) : Tiers Key Value × World :=
  let (surplus, primary) := tiers.primary.setCapacity capacity
  demoteAll host (host.clock world) surplus { tiers with primary } world

def setSoftReferenceSize (host : Host World Key Value) (capacity : Nat) (tiers : Tiers Key Value)
    (world : World) : Tiers Key Value × World :=
  let (dropped, soft) := tiers.soft.setCapacity capacity
  ({ tiers with soft }, dropped.foldl (fun world entry => announceSoftOverflow host entry world) world)

def purgeSoft (host : Host World Key Value) (tiers : Tiers Key Value) (world : World) :
    Nat × Tiers Key Value × World :=
  let (purged, soft) := tiers.soft.purge (host.moment world)
  if purged.isEmpty then (0, { tiers with soft }, world)
  else
    let world := host.record (.softReclaimed purged.length.toUInt64) world
    (purged.length, { tiers with soft },
      purged.foldl (fun world entry => host.notify (.softReclaimed entry.1) world) world)

end LayeredCache.Tiers
