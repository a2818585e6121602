import LayeredCache.KeyedQueue.Arena
import LayeredCache.KeyedQueue.Represents

/-!
# Keyed queues

A keyed queue is a sound arena: entries with distinct keys, found by key in any place and ordered from the oldest
to the newest. Each operation is described by what it does to the list of entries.
-/

set_option autoImplicit false

namespace LayeredCache

open KeyedQueue (Arena Cell Cursor)

/-- An arena whose chain, index and vacant slots agree. -/
structure KeyedQueue (Key Value : Type) [DecidableEq Key] where
  arena : Arena Key Value
  sound : ∃ cells, arena.Represents cells

namespace KeyedQueue

variable {Key Value : Type}

/-- A reader stops behind the last cell, however many more entries it is allowed. -/
theorem Arena.readFrom_linked {arena : Arena Key Value} {cells : List (Cell Key Value)}
    {before : Option Nat} (linked : arena.Linked before cells none) (remaining : Nat) {limit : Nat}
    (within : cells.length ≤ limit) :
    arena.readFrom limit ⟨Cell.first cells, remaining⟩ = cells.map Cell.entry := by
  induction cells generalizing before remaining limit with
  | nil => cases limit <;> rfl
  | cons cell rest ih =>
      cases limit with
      | zero => cases within
      | succ limit =>
          have next := ih linked.2 (remaining - 1) (Nat.le_of_succ_le_succ within)
          simp [Arena.readFrom, Arena.read?, linked.1, next, Cell.entry]

variable [DecidableEq Key]

theorem Arena.Orderly.readFrom_eq {arena : Arena Key Value} {cells : List (Cell Key Value)}
    (orderly : arena.Orderly cells) {limit : Nat} (within : arena.size ≤ limit) :
    arena.readFrom limit arena.start = cells.map Cell.entry := by
  rw [orderly.size_eq] at within
  rw [Arena.start, orderly.oldest]
  exact Arena.readFrom_linked orderly.linked arena.size within

theorem Arena.Represents.toList_eq {arena : Arena Key Value} {cells : List (Cell Key Value)}
    (represents : arena.Represents cells) : arena.toList = cells.map Cell.entry :=
  represents.orderly.readFrom_eq (Nat.le_refl _)

def empty : KeyedQueue Key Value := ⟨.empty, [], .empty⟩

def size (queue : KeyedQueue Key Value) : Nat := queue.arena.size

def contains (queue : KeyedQueue Key Value) (key : Key) : Bool := queue.arena.contains key

def get? (queue : KeyedQueue Key Value) (key : Key) : Option Value := queue.arena.get? key

def front? (queue : KeyedQueue Key Value) : Option (Key × Value) := queue.arena.front?

def toList (queue : KeyedQueue Key Value) : List (Key × Value) := queue.arena.toList

def remainingCounts (queue : KeyedQueue Key Value) : List Nat :=
  queue.arena.remainingCounts queue.size queue.arena.start

def audit (queue : KeyedQueue Key Value) : Except Corruption Unit := queue.arena.audit

private theorem split_of_find? {arena : Arena Key Value} {cells : List (Cell Key Value)} {key : Key}
    {slot : Nat} (represents : arena.Represents cells) (found : arena.index.find? key = some slot) :
    ∃ left cell right, cells = left ++ cell :: right ∧ cell.key = key ∧ cell.slot = slot := by
  obtain ⟨cell, member, sameKey, sameSlot⟩ := (represents.indexed key slot).mp found
  obtain ⟨left, right, split⟩ := List.append_of_mem member
  exact ⟨left, cell, right, split, sameKey, sameSlot⟩

def assign (queue : KeyedQueue Key Value) (key : Key) (value : Value) :
    Option Value × KeyedQueue Key Value :=
  ((queue.arena.assign key value).1, ⟨(queue.arena.assign key value).2,
    queue.sound.elim fun _ represents => ⟨_, represents.assign key value⟩⟩)

def push (queue : KeyedQueue Key Value) (key : Key) (value : Value) :
    Option Value × KeyedQueue Key Value :=
  ((queue.arena.push key value).1, ⟨(queue.arena.push key value).2, by
    obtain ⟨cells, represents⟩ := queue.sound
    by_cases absent : ∀ cell ∈ cells, cell.key ≠ key
    · exact ⟨_, (represents.push_absent value absent).2⟩
    · simp only [ne_eq, Classical.not_forall, Classical.not_not] at absent
      obtain ⟨cell, member, rfl⟩ := absent
      refine ⟨Cell.reassign cell.key value cells, ?_⟩
      rw [Arena.push, represents.get?_of_mem member]
      exact represents.assign cell.key value⟩)

def moveToBack (queue : KeyedQueue Key Value) (key : Key) : Bool × KeyedQueue Key Value :=
  ((queue.arena.moveToBack key).1, ⟨(queue.arena.moveToBack key).2, by
    obtain ⟨cells, represents⟩ := queue.sound
    cases found : queue.arena.index.find? key with
    | none => exact ⟨cells, by simpa [Arena.moveToBack, found] using represents⟩
    | some slot =>
        obtain ⟨left, cell, right, rfl, rfl, rfl⟩ := split_of_find? represents found
        exact ⟨_, represents.moveToBack.2⟩⟩)

def remove (queue : KeyedQueue Key Value) (key : Key) : Option Value × KeyedQueue Key Value :=
  ((queue.arena.remove key).1, ⟨(queue.arena.remove key).2, by
    obtain ⟨cells, represents⟩ := queue.sound
    cases found : queue.arena.index.find? key with
    | none => exact ⟨cells, by simpa [Arena.remove, found] using represents⟩
    | some slot =>
        obtain ⟨left, cell, right, rfl, rfl, rfl⟩ := split_of_find? represents found
        exact ⟨_, represents.remove.2⟩⟩)

def popFront (queue : KeyedQueue Key Value) : Option (Key × Value) × KeyedQueue Key Value :=
  (queue.arena.popFront.1, ⟨queue.arena.popFront.2, by
    obtain ⟨cells, represents⟩ := queue.sound
    cases cells with
    | nil =>
        have start := represents.oldest
        exact ⟨[], by simpa [Arena.popFront, start] using represents⟩
    | cons cell rest => exact ⟨_, represents.popFront.2⟩⟩)

/-! ### What the operations do to the list of entries -/

omit [DecidableEq Key] in
private theorem keys_entries (cells : List (Cell Key Value)) :
    (cells.map Cell.entry).map Prod.fst = cells.map Cell.key := by
  simp [Function.comp_def, Cell.entry]

theorem keysDistinct (queue : KeyedQueue Key Value) : (queue.toList.map Prod.fst).Nodup := by
  obtain ⟨cells, represents⟩ := queue.sound
  rw [toList, represents.toList_eq, keys_entries]
  exact represents.keysDistinct

@[simp] theorem toList_empty : (empty : KeyedQueue Key Value).toList = [] := rfl

theorem size_eq (queue : KeyedQueue Key Value) : queue.size = queue.toList.length := by
  obtain ⟨cells, represents⟩ := queue.sound
  simp [size, toList, represents.size_eq, represents.toList_eq]

theorem get?_eq (queue : KeyedQueue Key Value) (key : Key) :
    queue.get? key = Bindings.find? key queue.toList := by
  obtain ⟨cells, represents⟩ := queue.sound
  have distinct := represents.keysDistinct
  rw [← keys_entries] at distinct
  rw [get?, toList, represents.toList_eq]
  by_cases absent : ∀ cell ∈ cells, cell.key ≠ key
  · rw [represents.get?_eq_none absent, eq_comm, Bindings.find?_eq_none_iff, keys_entries]
    intro member
    obtain ⟨cell, inCells, same⟩ := List.mem_map.mp member
    exact absent cell inCells same
  · simp only [ne_eq, Classical.not_forall, Classical.not_not] at absent
    obtain ⟨cell, member, rfl⟩ := absent
    rw [represents.get?_of_mem member, eq_comm, Bindings.find?_eq_some_iff distinct]
    exact List.mem_map_of_mem member

theorem contains_eq (queue : KeyedQueue Key Value) (key : Key) :
    queue.contains key = (Bindings.find? key queue.toList).isSome := by
  rw [← get?_eq]
  obtain ⟨cells, represents⟩ := queue.sound
  rw [contains, get?, Arena.contains, Directory.contains, Arena.get?]
  cases found : queue.arena.index.find? key with
  | none => rfl
  | some slot =>
      obtain ⟨cell, member, rfl, rfl⟩ := (represents.indexed key slot).mp found
      obtain ⟨before, after, stored⟩ := represents.exists_node member
      simp [stored]

theorem front?_eq (queue : KeyedQueue Key Value) : queue.front? = queue.toList.head? := by
  obtain ⟨cells, represents⟩ := queue.sound
  rw [front?, toList, represents.toList_eq, Arena.front?, Arena.start, represents.oldest]
  cases cells with
  | nil => rfl
  | cons cell rest => simp [Arena.read?, represents.linked.1, Cell.entry]

theorem assign_fst (queue : KeyedQueue Key Value) (key : Key) (value : Value) :
    (queue.assign key value).1 = Bindings.find? key queue.toList := by
  rw [← get?_eq]
  simp only [assign, Arena.assign, get?, Arena.get?]
  split <;> rfl

private theorem map_entry_reassign (key : Key) (value : Value) (cells : List (Cell Key Value)) :
    (Cell.reassign key value cells).map Cell.entry =
      Bindings.reassign key value (cells.map Cell.entry) := by
  simp only [Cell.reassign, Bindings.reassign, List.map_map]
  rfl

@[simp] theorem toList_assign (queue : KeyedQueue Key Value) (key : Key) (value : Value) :
    (queue.assign key value).2.toList = Bindings.reassign key value queue.toList := by
  obtain ⟨cells, represents⟩ := queue.sound
  simp only [toList, assign]
  rw [(represents.assign key value).toList_eq, represents.toList_eq, map_entry_reassign]

theorem push_of_absent {queue : KeyedQueue Key Value} {key : Key}
    (absent : Bindings.find? key queue.toList = none) (value : Value) :
    (queue.push key value).1 = none ∧
      (queue.push key value).2.toList = queue.toList ++ [(key, value)] := by
  obtain ⟨cells, represents⟩ := queue.sound
  rw [Bindings.find?_eq_none_iff, toList, represents.toList_eq, keys_entries] at absent
  have noCell : ∀ cell ∈ cells, cell.key ≠ key := fun cell member same =>
    absent (same ▸ List.mem_map_of_mem member)
  obtain ⟨result, pushed⟩ := represents.push_absent value noCell
  refine ⟨result, ?_⟩
  simp only [toList, push]
  rw [pushed.toList_eq, represents.toList_eq]
  simp [Cell.entry]

theorem push_of_present {queue : KeyedQueue Key Value} {key : Key} {old : Value}
    (present : Bindings.find? key queue.toList = some old) (value : Value) :
    (queue.push key value).1 = some old ∧
      (queue.push key value).2.toList = Bindings.reassign key value queue.toList := by
  rw [← get?_eq] at present
  have stored : queue.arena.get? key = some old := present
  rw [← toList_assign]
  simp [push, assign, toList, Arena.push, stored]

private theorem toList_split {queue : KeyedQueue Key Value} {key : Key} {value : Value}
    (present : Bindings.find? key queue.toList = some value) :
    ∃ left cell right, queue.arena.Represents (left ++ cell :: right) ∧ cell.key = key ∧
      cell.value = value := by
  obtain ⟨cells, represents⟩ := queue.sound
  rw [Bindings.find?_eq_some_iff queue.keysDistinct, toList, represents.toList_eq] at present
  obtain ⟨cell, member, same⟩ := List.mem_map.mp present
  obtain ⟨left, right, rfl⟩ := List.append_of_mem member
  exact ⟨left, cell, right, represents, congrArg Prod.fst same, congrArg Prod.snd same⟩

private theorem erase_cell {arena : Arena Key Value} {left right : List (Cell Key Value)}
    {cell : Cell Key Value} (represents : arena.Represents (left ++ cell :: right)) :
    Bindings.erase cell.key ((left ++ cell :: right).map Cell.entry) =
      (left ++ right).map Cell.entry := by
  have distinct := represents.keysDistinct
  rw [← keys_entries] at distinct
  rw [List.map_append, List.map_cons] at distinct ⊢
  rw [List.map_append]
  exact Bindings.erase_append_cons distinct

theorem remove_fst (queue : KeyedQueue Key Value) (key : Key) :
    (queue.remove key).1 = Bindings.find? key queue.toList := by
  rw [← get?_eq]
  simp only [remove, Arena.remove, get?, Arena.get?]
  split <;> rfl

theorem remove_of_absent {queue : KeyedQueue Key Value} {key : Key}
    (absent : Bindings.find? key queue.toList = none) : queue.remove key = (none, queue) := by
  have unknown := queue.contains_eq key
  rw [absent] at unknown
  have missing : queue.arena.index.find? key = none := by
    simpa [contains, Arena.contains, Directory.contains] using unknown
  simp [remove, Arena.remove, missing]

@[simp] theorem toList_remove (queue : KeyedQueue Key Value) (key : Key) :
    (queue.remove key).2.toList = Bindings.erase key queue.toList := by
  cases found : Bindings.find? key queue.toList with
  | none => rw [Bindings.erase_eq_self (Bindings.find?_eq_none_iff.mp found), remove_of_absent found]
  | some value =>
      obtain ⟨left, cell, right, represents, rfl, rfl⟩ := toList_split found
      simp only [toList, remove]
      rw [represents.remove.2.toList_eq, represents.toList_eq, erase_cell represents]

theorem moveToBack_fst (queue : KeyedQueue Key Value) (key : Key) :
    (queue.moveToBack key).1 = (Bindings.find? key queue.toList).isSome := by
  rw [← contains_eq]
  simp only [moveToBack, Arena.moveToBack, contains, Arena.contains, Directory.contains]
  split
  next missing => simp [missing]
  next slot found =>
    rw [found]
    split <;> rfl

@[simp] theorem toList_moveToBack (queue : KeyedQueue Key Value) (key : Key) :
    (queue.moveToBack key).2.toList = Bindings.moveToBack key queue.toList := by
  cases found : Bindings.find? key queue.toList with
  | none =>
      rw [Bindings.moveToBack, found]
      have absent := queue.contains_eq key
      rw [found] at absent
      have missing : queue.arena.index.find? key = none := by
        simpa [contains, Arena.contains, Directory.contains] using absent
      simp [moveToBack, toList, Arena.moveToBack, missing]
  | some value =>
      rw [Bindings.moveToBack, found]
      obtain ⟨left, cell, right, represents, rfl, rfl⟩ := toList_split found
      simp only [toList, moveToBack]
      rw [represents.moveToBack.2.toList_eq, represents.toList_eq, erase_cell represents]
      simp [Cell.entry]

theorem popFront_fst (queue : KeyedQueue Key Value) : queue.popFront.1 = queue.toList.head? := by
  obtain ⟨cells, represents⟩ := queue.sound
  rw [toList, represents.toList_eq]
  cases cells with
  | nil =>
      have start := represents.oldest
      simp [popFront, Arena.popFront, start]
  | cons cell rest => exact represents.popFront.1

@[simp] theorem toList_popFront (queue : KeyedQueue Key Value) :
    queue.popFront.2.toList = queue.toList.tail := by
  obtain ⟨cells, represents⟩ := queue.sound
  simp only [toList, popFront]
  cases cells with
  | nil =>
      have start := represents.oldest
      rw [Cell.first_nil] at start
      simp [Arena.popFront, start, represents.toList_eq]
  | cons cell rest => simp [represents.popFront.2.toList_eq, represents.toList_eq]

end KeyedQueue

end LayeredCache
