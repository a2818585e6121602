import LayeredCache.Corruption
import LayeredCache.Directory

/-!
# Slot arenas

An arena stores keyed nodes in numbered slots. The nodes are chained from the oldest to the newest by slot
number, a directory finds the slot of a key, and vacated slots are kept for reuse, the last vacated first.
The type holds any such data, also inconsistent ones; every operation is total on it.

The audit walks the chain from the oldest slot and compares links, index and length. It allows itself one step per
indexed key, so it ends on every arena, also on one whose chain runs in a circle.
-/

set_option autoImplicit false

namespace LayeredCache.KeyedQueue

/-- An entry together with the slots of its neighbours in the chain. -/
structure Node (Key Value : Type) where
  key : Key
  value : Value
  before : Option Nat
  after : Option Nat

structure Arena (Key Value : Type) where
  slots : Array (Option (Node Key Value))
  vacant : List Nat
  index : Directory Key Nat
  oldest : Option Nat
  newest : Option Nat

/-- A reader's place in the chain, and how many entries it still expects. -/
structure Cursor where
  slot : Option Nat
  remaining : Nat
  deriving DecidableEq, Repr

/-- How many entries a reader promises from its place on, at least and at most. -/
def Cursor.bounds (cursor : Cursor) : Nat × Option Nat := (cursor.remaining, some cursor.remaining)

namespace Arena

variable {Key Value : Type}

def empty : Arena Key Value := ⟨#[], [], .empty, none, none⟩

/-- A fresh arena with room set aside for so many nodes. -/
def withCapacity (capacity : Nat) : Arena Key Value :=
  ⟨Array.emptyWithCapacity capacity, [], .empty, none, none⟩

@[simp] theorem withCapacity_eq (capacity : Nat) : (withCapacity capacity : Arena Key Value) = empty := by
  simp [withCapacity, empty]

def size (arena : Arena Key Value) : Nat := arena.index.size

def node? (arena : Arena Key Value) (slot : Nat) : Option (Node Key Value) :=
  arena.slots[slot]?.join

def adjust (arena : Arena Key Value) (slot : Nat) (change : Node Key Value → Node Key Value) :
    Arena Key Value :=
  { arena with slots := arena.slots.modify slot (Option.map change) }

/-- Changes what follows a slot, where no slot stands for the start of the chain. -/
def setAfter (arena : Arena Key Value) (slot : Option Nat) (after : Option Nat) : Arena Key Value :=
  match slot with
  | some slot => arena.adjust slot fun node => { node with after }
  | none => { arena with oldest := after }

def setBefore (arena : Arena Key Value) (slot : Option Nat) (before : Option Nat) : Arena Key Value :=
  match slot with
  | some slot => arena.adjust slot fun node => { node with before }
  | none => { arena with newest := before }

/-- Takes a slot out of the chain; its node stays, without neighbours. -/
def unlink (arena : Arena Key Value) (slot : Nat) : Arena Key Value :=
  match arena.node? slot with
  | none => arena
  | some node =>
      ((arena.setAfter node.before node.after).setBefore node.after node.before).adjust slot
        fun node => { node with before := none, after := none }

def linkNewest (arena : Arena Key Value) (slot : Nat) : Arena Key Value :=
  let last := arena.newest
  { (arena.adjust slot fun node => { node with before := last, after := none }).setAfter
      last (some slot) with newest := some slot }

def release (arena : Arena Key Value) (slot : Nat) : Arena Key Value :=
  match arena.node? slot with
  | none => arena
  | some _ =>
      { arena with slots := arena.slots.setIfInBounds slot none, vacant := slot :: arena.vacant }

/-- Puts a node without neighbours into the slot vacated last, or into a new one. -/
def occupy (arena : Arena Key Value) (key : Key) (value : Value) : Nat × Arena Key Value :=
  let node : Node Key Value := ⟨key, value, none, none⟩
  match arena.vacant with
  | slot :: vacant =>
      (slot, { arena with slots := arena.slots.setIfInBounds slot (some node), vacant })
  | [] => (arena.slots.size, { arena with slots := arena.slots.push (some node) })

def start (arena : Arena Key Value) : Cursor := ⟨arena.oldest, arena.size⟩

def read? (arena : Arena Key Value) (cursor : Cursor) : Option ((Key × Value) × Cursor) :=
  match cursor.slot with
  | none => none
  | some slot =>
      match arena.node? slot with
      | none => none
      | some node => some ((node.key, node.value), ⟨node.after, cursor.remaining - 1⟩)

def readFrom (arena : Arena Key Value) : Nat → Cursor → List (Key × Value)
  | 0, _ => []
  | limit + 1, cursor =>
      match arena.read? cursor with
      | none => []
      | some (entry, next) => entry :: arena.readFrom limit next

def toList (arena : Arena Key Value) : List (Key × Value) :=
  arena.readFrom arena.size arena.start

/-- The expected number of remaining entries before the first entry and after each. -/
def remainingCounts (arena : Arena Key Value) : Nat → Cursor → List Nat
  | 0, cursor => [cursor.remaining]
  | limit + 1, cursor =>
      match arena.read? cursor with
      | none => [cursor.remaining]
      | some (_, next) => cursor.remaining :: arena.remainingCounts limit next

def front? (arena : Arena Key Value) : Option (Key × Value) :=
  (arena.read? arena.start).map Prod.fst

variable [DecidableEq Key]

def contains (arena : Arena Key Value) (key : Key) : Bool := arena.index.contains key

def get? (arena : Arena Key Value) (key : Key) : Option Value :=
  match arena.index.find? key with
  | none => none
  | some slot => (arena.node? slot).map Node.value

def assign (arena : Arena Key Value) (key : Key) (value : Value) : Option Value × Arena Key Value :=
  match arena.index.find? key with
  | none => (none, arena)
  | some slot =>
      ((arena.node? slot).map Node.value, arena.adjust slot fun node => { node with value })

def push (arena : Arena Key Value) (key : Key) (value : Value) : Option Value × Arena Key Value :=
  match arena.get? key with
  | some old => (some old, (arena.assign key value).2)
  | none =>
      let (slot, arena) := arena.occupy key value
      (none, { arena with index := arena.index.insert key slot }.linkNewest slot)

def moveToBack (arena : Arena Key Value) (key : Key) : Bool × Arena Key Value :=
  match arena.index.find? key with
  | none => (false, arena)
  | some slot =>
      if arena.newest = some slot then (true, arena)
      else (true, (arena.unlink slot).linkNewest slot)

def remove (arena : Arena Key Value) (key : Key) : Option Value × Arena Key Value :=
  match arena.index.find? key with
  | none => (none, arena)
  | some slot =>
      ((arena.node? slot).map Node.value,
        { (arena.unlink slot).release slot with index := arena.index.erase key })

def popFront (arena : Arena Key Value) : Option (Key × Value) × Arena Key Value :=
  match arena.oldest with
  | none => (none, arena)
  | some slot =>
      match arena.node? slot with
      | none => (none, arena)
      | some node =>
          (some (node.key, node.value),
            { (arena.unlink slot).release slot with index := arena.index.erase node.key })

/-! ### Auditing -/

/-- The rest of the audit from a slot on, behind a given slot, with so many entries still to come. -/
def auditFrom (arena : Arena Key Value) :
    (remaining : Nat) → (behind slot : Option Nat) → Except Corruption Unit
  | remaining, behind, none =>
      if behind ≠ arena.newest then .error .looseTail
      else if remaining ≠ 0 then .error (.lengthMismatch (arena.size - remaining) arena.size)
      else .ok ()
  | remaining, behind, some slot =>
      match arena.node? slot with
      | none => .error (.danglingSlot slot)
      | some node =>
          if node.before ≠ behind then .error (.brokenBackLink slot)
          else if arena.index.find? node.key ≠ some slot then .error (.unindexedSlot slot)
          else match remaining with
            | 0 => .error .cycle
            | remaining + 1 => arena.auditFrom remaining (some slot) node.after

def audit (arena : Arena Key Value) : Except Corruption Unit :=
  arena.auditFrom arena.size none arena.oldest

end Arena

end LayeredCache.KeyedQueue
