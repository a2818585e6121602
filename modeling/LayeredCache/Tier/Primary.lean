import LayeredCache.KeyedQueue.Draining

/-!
# The primary tier

A bounded queue of entries, of which a full tier gives up the first. Under the order of use, a lookup or a new
value moves an entry to the end; under the order of entry, entries keep their places. A tier of capacity zero gives up
every new entry at once.
-/

set_option autoImplicit false

namespace LayeredCache

/-- Which entry a full primary tier gives up. -/
inductive EvictionOrder where
  | lru
  /-- The first entered first, however often it is used. -/
  | fifo
  deriving DecidableEq, Repr

namespace EvictionOrder

def ofFlag (lru : Bool) : EvictionOrder := if lru then .lru else .fifo

def isLru : EvictionOrder → Bool
  | lru => true
  | fifo => false

def name : EvictionOrder → String
  | lru => "Lru"
  | fifo => "Fifo"

end EvictionOrder

/-- A bounded queue of entries in the order in which they will be given up. -/
structure PrimaryTier (Key Value : Type) [DecidableEq Key] where
  entries : KeyedQueue Key Value
  capacity : Nat
  order : EvictionOrder

structure Insertion (Key Value : Type) where
  previous : Option Value
  overflow : Option (Key × Value)

namespace PrimaryTier

variable {Key Value : Type} [DecidableEq Key]

def empty (capacity : Nat) (order : EvictionOrder) : PrimaryTier Key Value :=
  ⟨.empty, capacity, order⟩

def size (tier : PrimaryTier Key Value) : Nat := tier.entries.size

/-- The entries, the next to be given up first. -/
def toList (tier : PrimaryTier Key Value) : List (Key × Value) := tier.entries.toList

def contains (tier : PrimaryTier Key Value) (key : Key) : Bool := tier.entries.contains key

/-- The value of a key, without counting as a use. -/
def peek? (tier : PrimaryTier Key Value) (key : Key) : Option Value := tier.entries.get? key

def touch (tier : PrimaryTier Key Value) (key : Key) : PrimaryTier Key Value :=
  if tier.order.isLru then { tier with entries := (tier.entries.moveToBack key).2 } else tier

def get (tier : PrimaryTier Key Value) (key : Key) : Option Value × PrimaryTier Key Value :=
  (tier.peek? key, tier.touch key)

/-- Adds an entry, or gives a present key a new value, which counts as a use. -/
def insert (tier : PrimaryTier Key Value) (key : Key) (value : Value) :
    Insertion Key Value × PrimaryTier Key Value :=
  match tier.entries.get? key with
  | some previous =>
      (⟨some previous, none⟩,
        { tier with entries := (tier.entries.assign key value).2 : PrimaryTier Key Value }.touch key)
  | none =>
      if tier.capacity = 0 then (⟨none, some (key, value)⟩, tier)
      else
        let entries := (tier.entries.push key value).2
        if tier.capacity < entries.size then
          (⟨none, entries.popFront.1⟩, { tier with entries := entries.popFront.2 })
        else (⟨none, none⟩, { tier with entries })

def remove (tier : PrimaryTier Key Value) (key : Key) : Option Value × PrimaryTier Key Value :=
  ((tier.entries.remove key).1, { tier with entries := (tier.entries.remove key).2 })

def setCapacity (tier : PrimaryTier Key Value) (capacity : Nat) :
    List (Key × Value) × PrimaryTier Key Value :=
  let (surplus, entries) := tier.entries.drainSurplus capacity
  (surplus, { tier with entries, capacity })

def clear (tier : PrimaryTier Key Value) : PrimaryTier Key Value := { tier with entries := .empty }

def audit (tier : PrimaryTier Key Value) : Except Corruption Unit := do
  tier.entries.audit
  if tier.capacity < tier.size then throw (.primaryOverfull tier.size tier.capacity)

/-! ### What the operations do to the list of entries -/

theorem toList_touch (tier : PrimaryTier Key Value) (key : Key) :
    (tier.touch key).toList =
      if tier.order.isLru then Bindings.moveToBack key tier.toList else tier.toList := by
  unfold touch toList
  split <;> simp

@[simp] theorem capacity_touch (tier : PrimaryTier Key Value) (key : Key) :
    (tier.touch key).capacity = tier.capacity := by
  unfold touch
  split <;> rfl

@[simp] theorem order_touch (tier : PrimaryTier Key Value) (key : Key) :
    (tier.touch key).order = tier.order := by
  unfold touch
  split <;> rfl

theorem peek?_eq (tier : PrimaryTier Key Value) (key : Key) :
    tier.peek? key = Bindings.find? key tier.toList :=
  tier.entries.get?_eq key

theorem insert_of_present {tier : PrimaryTier Key Value} {key : Key} {previous : Value}
    (present : Bindings.find? key tier.toList = some previous) (value : Value) :
    (tier.insert key value).1 = ⟨some previous, none⟩ ∧
      (tier.insert key value).2.toList =
        if tier.order.isLru then
          Bindings.moveToBack key (Bindings.reassign key value tier.toList)
        else Bindings.reassign key value tier.toList := by
  rw [← peek?_eq, peek?] at present
  simp only [insert, present, toList_touch]
  exact ⟨trivial, by simp [toList]⟩

theorem insert_of_capacity_zero {tier : PrimaryTier Key Value} {key : Key}
    (absent : Bindings.find? key tier.toList = none) (disabled : tier.capacity = 0) (value : Value) :
    tier.insert key value = (⟨none, some (key, value)⟩, tier) := by
  rw [← peek?_eq, peek?] at absent
  simp [insert, absent, disabled]

theorem insert_of_absent {tier : PrimaryTier Key Value} {key : Key}
    (absent : Bindings.find? key tier.toList = none) (positive : tier.capacity ≠ 0) (value : Value) :
    (tier.insert key value).1 =
        ⟨none, if tier.capacity < tier.toList.length + 1 then
          (tier.toList ++ [(key, value)]).head? else none⟩ ∧
      (tier.insert key value).2.toList =
        if tier.capacity < tier.toList.length + 1 then (tier.toList ++ [(key, value)]).tail
        else tier.toList ++ [(key, value)] := by
  have pushed := (KeyedQueue.push_of_absent absent value).2
  have missing : tier.entries.get? key = none := by rw [KeyedQueue.get?_eq]; exact absent
  simp only [insert, missing, if_neg positive, KeyedQueue.size_eq, pushed, List.length_append,
    List.length_singleton]
  by_cases full : tier.capacity < tier.entries.toList.length + 1
  · simp [toList, full, KeyedQueue.popFront_fst, pushed]
  · simp [toList, full, pushed]

theorem remove_eq (tier : PrimaryTier Key Value) (key : Key) :
    (tier.remove key).1 = Bindings.find? key tier.toList ∧
      (tier.remove key).2.toList = Bindings.erase key tier.toList := by
  simp [remove, toList, KeyedQueue.remove_fst]

theorem setCapacity_eq (tier : PrimaryTier Key Value) (capacity : Nat) :
    (tier.setCapacity capacity).1 = tier.toList.take (tier.toList.length - capacity) ∧
      (tier.setCapacity capacity).2.toList = tier.toList.drop (tier.toList.length - capacity) :=
  tier.entries.drainSurplus_eq capacity

end PrimaryTier

end LayeredCache
