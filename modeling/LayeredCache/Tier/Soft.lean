import LayeredCache.KeyedQueue.Draining
import LayeredCache.Time

/-!
# The soft tier

A bounded queue of entries given up by the primary tier, in the order of their acceptance. An entry is live as long
as no reclaim has happened since its acceptance and it has not reached the lifetime of the tier. Entries that are no
longer live stay stored until they are purged, displaced or taken, but nobody sees them.
-/

set_option autoImplicit false

namespace LayeredCache

structure Stamped (Value : Type) where
  value : Value
  stamp : Moment
  deriving DecidableEq, Repr

namespace Stamped

variable {Value : Type}

/-- Whether a value accepted at its stamp lives at a moment, given the lifetime. -/
def isLive (ttl : Option Span) (moment : Moment) (stored : Stamped Value) : Bool :=
  stored.stamp.epoch == moment.epoch &&
    match ttl with
    | none => true
    | some ttl => decide (moment.instant - stored.stamp.instant < ttl.nanoseconds)

end Stamped

structure SoftTier (Key Value : Type) [DecidableEq Key] where
  entries : KeyedQueue Key (Stamped Value)
  capacity : Nat
  ttl : Option Span

namespace SoftTier

variable {Key Value : Type} [DecidableEq Key]

def empty (capacity : Nat) (ttl : Option Span) : SoftTier Key Value := ⟨.empty, capacity, ttl⟩

def storedSize (tier : SoftTier Key Value) : Nat := tier.entries.size

/-- The stored entries, live or not, the first accepted first. -/
def toList (tier : SoftTier Key Value) : List (Key × Stamped Value) := tier.entries.toList

def isLive (tier : SoftTier Key Value) (moment : Moment) (entry : Key × Stamped Value) : Bool :=
  entry.2.isLive tier.ttl moment

def live (tier : SoftTier Key Value) (moment : Moment) : List (Key × Value) :=
  (tier.toList.filter (tier.isLive moment)).map fun entry => (entry.1, entry.2.value)

def peek? (tier : SoftTier Key Value) (moment : Moment) (key : Key) : Option Value :=
  match tier.entries.get? key with
  | none => none
  | some stored => if stored.isLive tier.ttl moment then some stored.value else none

def contains (tier : SoftTier Key Value) (moment : Moment) (key : Key) : Bool :=
  (tier.peek? moment key).isSome

/-- Removes a key, live or not, and returns its value if it is live. -/
def take (tier : SoftTier Key Value) (moment : Moment) (key : Key) :
    Option Value × SoftTier Key Value :=
  (tier.peek? moment key, { tier with entries := (tier.entries.remove key).2 })

/-- Accepts an entry at a moment and returns the entry dropped for it: the first accepted when the tier is full,
the new one itself when the tier has no room at all. -/
def accept (tier : SoftTier Key Value) (moment : Moment) (key : Key) (value : Value) :
    Option (Key × Value) × SoftTier Key Value :=
  if tier.capacity = 0 then (some (key, value), tier)
  else
    let entries := ((tier.entries.remove key).2.push key ⟨value, moment⟩).2
    if tier.capacity < entries.size then
      (entries.popFront.1.map fun entry => (entry.1, entry.2.value),
        { tier with entries := entries.popFront.2 })
    else (none, { tier with entries })

/-- Drops the entries at the front that are not live, and returns them. -/
def purge (tier : SoftTier Key Value) (moment : Moment) :
    List (Key × Value) × SoftTier Key Value :=
  let (purged, entries) := tier.entries.drainWhile fun entry => !tier.isLive moment entry
  (purged.map fun entry => (entry.1, entry.2.value), { tier with entries })

def setCapacity (tier : SoftTier Key Value) (capacity : Nat) :
    List (Key × Value) × SoftTier Key Value :=
  let (surplus, entries) := tier.entries.drainSurplus capacity
  (surplus.map fun entry => (entry.1, entry.2.value), { tier with entries, capacity })

def clear (tier : SoftTier Key Value) : SoftTier Key Value := { tier with entries := .empty }

def audit (tier : SoftTier Key Value) : Except Corruption Unit := do
  tier.entries.audit
  if tier.capacity < tier.storedSize then throw (.softOverfull tier.storedSize tier.capacity)

/-! ### What the operations do to the list of entries -/

theorem peek?_eq (tier : SoftTier Key Value) (moment : Moment) (key : Key) :
    tier.peek? moment key = (Bindings.find? key tier.toList).bind fun stored =>
      if stored.isLive tier.ttl moment then some stored.value else none := by
  rw [peek?, KeyedQueue.get?_eq, toList]
  cases Bindings.find? key tier.entries.toList <;> rfl

theorem toList_take (tier : SoftTier Key Value) (moment : Moment) (key : Key) :
    (tier.take moment key).2.toList = Bindings.erase key tier.toList := by
  simp [take, toList]

theorem accept_of_capacity_zero {tier : SoftTier Key Value} (disabled : tier.capacity = 0)
    (moment : Moment) (key : Key) (value : Value) :
    tier.accept moment key value = (some (key, value), tier) := by
  simp [accept, disabled]

theorem accept_eq {tier : SoftTier Key Value} (positive : tier.capacity ≠ 0) (moment : Moment)
    (key : Key) (value : Value) :
    (tier.accept moment key value).1 =
        (if tier.capacity < (Bindings.erase key tier.toList).length + 1 then
          (Bindings.erase key tier.toList ++ [(key, Stamped.mk value moment)]).head?.map fun entry =>
            (entry.1, entry.2.value)
        else none) ∧
      (tier.accept moment key value).2.toList =
        if tier.capacity < (Bindings.erase key tier.toList).length + 1 then
          (Bindings.erase key tier.toList ++ [(key, Stamped.mk value moment)]).tail
        else Bindings.erase key tier.toList ++ [(key, Stamped.mk value moment)] := by
  have absent : Bindings.find? key (tier.entries.remove key).2.toList = none := by
    simp [Bindings.find?_erase]
  have pushed := (KeyedQueue.push_of_absent absent (Stamped.mk value moment)).2
  rw [KeyedQueue.toList_remove] at pushed
  simp only [accept, if_neg positive, KeyedQueue.size_eq, pushed, List.length_append,
    List.length_singleton]
  by_cases full : tier.capacity < (Bindings.erase key tier.entries.toList).length + 1
  · simp [toList, full, KeyedQueue.popFront_fst, pushed]
  · simp [toList, full, pushed]

theorem purge_eq (tier : SoftTier Key Value) (moment : Moment) :
    (tier.purge moment).1 =
        (tier.toList.takeWhile fun entry => !tier.isLive moment entry).map
          (fun entry => (entry.1, entry.2.value)) ∧
      (tier.purge moment).2.toList =
        tier.toList.dropWhile fun entry => !tier.isLive moment entry := by
  obtain ⟨first, second⟩ := tier.entries.drainWhile_eq fun entry => !tier.isLive moment entry
  exact ⟨congrArg (List.map _) first, second⟩

theorem setCapacity_eq (tier : SoftTier Key Value) (capacity : Nat) :
    (tier.setCapacity capacity).1 =
        (tier.toList.take (tier.toList.length - capacity)).map
          (fun entry => (entry.1, entry.2.value)) ∧
      (tier.setCapacity capacity).2.toList =
        tier.toList.drop (tier.toList.length - capacity) := by
  obtain ⟨first, second⟩ := tier.entries.drainSurplus_eq capacity
  exact ⟨congrArg (List.map _) first, second⟩

end SoftTier

end LayeredCache
