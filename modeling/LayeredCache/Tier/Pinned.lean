import LayeredCache.Directory

/-!
# The pinned tier

Keys exempt from eviction. A key may be pinned before it has a value; the value then lands here when it comes.
-/

set_option autoImplicit false

namespace LayeredCache

structure PinnedTier (Key Value : Type) where
  slots : Directory Key (Option Value)

namespace PinnedTier

variable {Key Value : Type}

def empty : PinnedTier Key Value := ⟨.empty⟩

def keys (tier : PinnedTier Key Value) : List Key := tier.slots.keys

def registrations (tier : PinnedTier Key Value) : Nat := tier.slots.size

/-- The pinned keys that hold a value. -/
def toList (tier : PinnedTier Key Value) : List (Key × Value) :=
  tier.slots.entries.filterMap fun binding => binding.2.map fun value => (binding.1, value)

variable [DecidableEq Key]

def slot? (tier : PinnedTier Key Value) (key : Key) : Option (Option Value) := tier.slots.find? key

def isPinned (tier : PinnedTier Key Value) (key : Key) : Bool := tier.slots.contains key

def value? (tier : PinnedTier Key Value) (key : Key) : Option Value := (tier.slot? key).join

/-- Gives a pinned key a value and returns what it held; nothing happens to a key that is not pinned. -/
def replace? (tier : PinnedTier Key Value) (key : Key) (value : Value) :
    Option (Option Value × PinnedTier Key Value) :=
  (tier.slot? key).map fun previous => (previous, ⟨tier.slots.insert key (some value)⟩)

def pin (tier : PinnedTier Key Value) (key : Key) (value : Option Value) : PinnedTier Key Value :=
  ⟨tier.slots.insert key value⟩

def unpin (tier : PinnedTier Key Value) (key : Key) :
    Option (Option Value) × PinnedTier Key Value :=
  (tier.slot? key, ⟨tier.slots.erase key⟩)

theorem slot?_pin (tier : PinnedTier Key Value) (key other : Key) (value : Option Value) :
    (tier.pin key value).slot? other = if other = key then some value else tier.slot? other :=
  tier.slots.find?_insert key other value

theorem slot?_unpin (tier : PinnedTier Key Value) (key other : Key) :
    (tier.unpin key).2.slot? other = if other = key then none else tier.slot? other :=
  tier.slots.find?_erase key other

theorem mem_toList_iff {tier : PinnedTier Key Value} {key : Key} {value : Value} :
    (key, value) ∈ tier.toList ↔ tier.slot? key = some (some value) := by
  rw [slot?, Directory.find?_eq_some_iff, toList, List.mem_filterMap]
  constructor
  · rintro ⟨⟨bound, slot⟩, member, same⟩
    obtain ⟨stored, rfl, equal⟩ := Option.map_eq_some_iff.mp same
    simp only [Prod.mk.injEq] at equal
    exact equal.1 ▸ equal.2 ▸ member
  · intro member
    exact ⟨(key, some value), member, rfl⟩

end PinnedTier

end LayeredCache
