import LayeredCache.Proofs.KeyedQueue.Operation

/-! Slots that operations touch. A checked operation fails at the first slot that is out of bounds, that is vacant where a
node is expected there, or that is occupied where it is to be filled. On sound arenas none of this ever happens, and a
checked operation is the operation itself. -/

set_option autoImplicit false

namespace LayeredCache.KeyedQueue.Arena

variable {Key Value : Type}

namespace Checked

def adjust (arena : Arena Key Value) (slot : Nat) (change : Node Key Value → Node Key Value) :
    Option (Arena Key Value) := do
  let _ ← arena.node? slot
  return arena.adjust slot change

def setAfter (arena : Arena Key Value) (slot after : Option Nat) : Option (Arena Key Value) :=
  match slot with
  | some slot => adjust arena slot fun node => { node with after }
  | none => return { arena with oldest := after }

def setBefore (arena : Arena Key Value) (slot before : Option Nat) : Option (Arena Key Value) :=
  match slot with
  | some slot => adjust arena slot fun node => { node with before }
  | none => return { arena with newest := before }

def unlink (arena : Arena Key Value) (slot : Nat) : Option (Arena Key Value) := do
  let node ← arena.node? slot
  let arena ← setAfter arena node.before node.after
  let arena ← setBefore arena node.after node.before
  adjust arena slot fun node => { node with before := none, after := none }

def linkNewest (arena : Arena Key Value) (slot : Nat) : Option (Arena Key Value) := do
  let last := arena.newest
  let arena ← adjust arena slot fun node => { node with before := last, after := none }
  let arena ← setAfter arena last (some slot)
  return { arena with newest := some slot }

def release (arena : Arena Key Value) (slot : Nat) : Option (Arena Key Value) := do
  let _ ← arena.node? slot
  return arena.release slot

/-- A slot that is used again must be there, and vacant. -/
def occupy (arena : Arena Key Value) (key : Key) (value : Value) : Option (Nat × Arena Key Value) :=
  match arena.vacant with
  | [] => return arena.occupy key value
  | slot :: _ =>
      match arena.slots[slot]? with
      | some none => return arena.occupy key value
      | some (some _) | none => none

def front (arena : Arena Key Value) : Option (Option (Key × Value)) :=
  match arena.oldest with
  | none => return none
  | some slot => do
      let node ← arena.node? slot
      return some (node.key, node.value)

/-- Reads on until no slot follows; there must be an end within the limit. -/
def readFrom (arena : Arena Key Value) : Nat → Cursor → Option (List (Key × Value))
  | limit, cursor =>
      match cursor.slot, limit with
      | none, _ => return []
      | some _, 0 => none
      | some slot, limit + 1 => do
          let node ← arena.node? slot
          let entries ← readFrom arena limit ⟨node.after, cursor.remaining - 1⟩
          return (node.key, node.value) :: entries

/-! ### Elementary changes, where slots are occupied -/

theorem adjust_eq {arena : Arena Key Value} {slot : Nat} (occupied : arena.occupancy[slot]? = some true)
    (change : Node Key Value → Node Key Value) :
    adjust arena slot change = some (arena.adjust slot change) := by
  obtain ⟨node, found⟩ := occupancy_eq_true_iff.mp occupied
  simp [adjust, found]

theorem setAfter_eq {arena : Arena Key Value} {slot : Option Nat}
    (occupied : ∀ other ∈ slot, arena.occupancy[other]? = some true) (after : Option Nat) :
    setAfter arena slot after = some (arena.setAfter slot after) := by
  cases slot with
  | none => rfl
  | some slot => exact adjust_eq (occupied slot rfl) _

theorem setBefore_eq {arena : Arena Key Value} {slot : Option Nat}
    (occupied : ∀ other ∈ slot, arena.occupancy[other]? = some true) (before : Option Nat) :
    setBefore arena slot before = some (arena.setBefore slot before) := by
  cases slot with
  | none => rfl
  | some slot => exact adjust_eq (occupied slot rfl) _

theorem unlink_eq {arena : Arena Key Value} {slot : Nat} {node : Node Key Value}
    (found : arena.node? slot = some node)
    (before : ∀ other ∈ node.before, arena.occupancy[other]? = some true)
    (after : ∀ other ∈ node.after, arena.occupancy[other]? = some true) :
    unlink arena slot = some (arena.unlink slot) := by
  have here : arena.occupancy[slot]? = some true := occupancy_eq_true_iff.mpr ⟨node, found⟩
  have first := setAfter_eq before node.after
  have second : setBefore (arena.setAfter node.before node.after) node.after node.before = some _ :=
    setBefore_eq (by rw [occupancy_setAfter]; exact after) node.before
  have third : adjust ((arena.setAfter node.before node.after).setBefore node.after node.before) slot
      (fun node => { node with before := none, after := none }) = some _ :=
    adjust_eq (by rw [occupancy_setBefore, occupancy_setAfter]; exact here) _
  simp [unlink, Arena.unlink, found, first, second, third]

theorem linkNewest_eq {arena : Arena Key Value} {slot : Nat} (occupied : arena.occupancy[slot]? = some true)
    (newest : ∀ other ∈ arena.newest, arena.occupancy[other]? = some true) :
    linkNewest arena slot = some (arena.linkNewest slot) := by
  have first := adjust_eq occupied fun node => { node with before := arena.newest, after := none }
  have second : setAfter (arena.adjust slot fun node => { node with before := arena.newest, after := none })
      arena.newest (some slot) = some _ :=
    setAfter_eq (by rw [occupancy_adjust]; exact newest) (some slot)
  simp [linkNewest, Arena.linkNewest, first, second]

theorem readFrom_linked {arena : Arena Key Value} {cells : List (Cell Key Value)} {before : Option Nat}
    (linked : arena.Linked before cells none) (remaining : Nat) :
    readFrom arena cells.length ⟨Cell.first cells, remaining⟩ = some (cells.map Cell.entry) := by
  induction cells generalizing before remaining with
  | nil => rfl
  | cons cell rest ih =>
      have next := ih linked.2 (remaining - 1)
      simp [readFrom, linked.1, next, Cell.entry]

/-! ### Operations -/

variable [DecidableEq Key]

def get (arena : Arena Key Value) (key : Key) : Option (Option Value) :=
  match arena.index.find? key with
  | none => return none
  | some slot => do
      let node ← arena.node? slot
      return some node.value

def assign (arena : Arena Key Value) (key : Key) (value : Value) :
    Option (Option Value × Arena Key Value) :=
  match arena.index.find? key with
  | none => return (none, arena)
  | some slot => do
      let node ← arena.node? slot
      let arena ← adjust arena slot fun node => { node with value }
      return (some node.value, arena)

def push (arena : Arena Key Value) (key : Key) (value : Value) :
    Option (Option Value × Arena Key Value) := do
  match ← get arena key with
  | some _ => assign arena key value
  | none =>
      let (slot, arena) ← occupy arena key value
      let arena ← linkNewest { arena with index := arena.index.insert key slot } slot
      return (none, arena)

def moveToBack (arena : Arena Key Value) (key : Key) : Option (Bool × Arena Key Value) :=
  match arena.index.find? key with
  | none => return (false, arena)
  | some slot =>
      if arena.newest = some slot then return (true, arena)
      else do
        let arena ← unlink arena slot
        let arena ← linkNewest arena slot
        return (true, arena)

/-- Takes a node out of the chain and vacates its slot. -/
def discard (arena : Arena Key Value) (slot : Nat) : Option (Node Key Value × Arena Key Value) := do
  let node ← arena.node? slot
  let arena ← unlink arena slot
  let arena ← release arena slot
  return (node, { arena with index := arena.index.erase node.key })

def remove (arena : Arena Key Value) (key : Key) : Option (Option Value × Arena Key Value) :=
  match arena.index.find? key with
  | none => return (none, arena)
  | some slot => do
      let (node, arena) ← discard arena slot
      return (some node.value, arena)

def popFront (arena : Arena Key Value) : Option (Option (Key × Value) × Arena Key Value) :=
  match arena.oldest with
  | none => return (none, arena)
  | some slot => do
      let (node, arena) ← discard arena slot
      return (some (node.key, node.value), arena)

def perform (operation : Operation Key Value) (arena : Arena Key Value) :
    Option (Answer Key Value × Arena Key Value) :=
  match operation with
  | .push key value => (push arena key value).map (Prod.map .value id)
  | .assign key value => (assign arena key value).map (Prod.map .value id)
  | .get key => (get arena key).map fun value => (.value value, arena)
  | .contains key => return (.flag (arena.contains key), arena)
  | .moveToBack key => (moveToBack arena key).map (Prod.map .flag id)
  | .remove key => (remove arena key).map (Prod.map .value id)
  | .popFront => (popFront arena).map (Prod.map .entry id)
  | .front => (front arena).map fun entry => (.entry entry, arena)
  | .size => return (.number arena.size, arena)
  | .isEmpty => return (.flag (arena.size == 0), arena)
  | .iterate =>
      (readFrom arena arena.size arena.start).map fun entries =>
        (.entries entries (arena.remainingCounts arena.size arena.start), arena)
  | .clear => return (.done, .empty)

def run : List (Operation Key Value) → Arena Key Value → Option (List (Answer Key Value) × Arena Key Value)
  | [], arena => return ([], arena)
  | operation :: rest, arena => do
      let (answer, next) ← perform operation arena
      let (answers, last) ← run rest next
      return (answer :: answers, last)

/-! ### Operations on arenas that represent a list -/

variable {arena : Arena Key Value} {cells left right : List (Cell Key Value)} {cell : Cell Key Value}

theorem occupied_last (represents : arena.Represents cells) :
    ∀ slot ∈ Cell.last cells, arena.occupancy[slot]? = some true :=
  fun _ isLast => represents.occupancy_of_mem (last_eq_some isLast)

theorem unlink_cell (represents : arena.Represents (left ++ cell :: right)) :
    unlink arena cell.slot = some (arena.unlink cell.slot) := by
  have found := represents.linked.node?
  rw [Option.or_none, Option.or_none] at found
  refine unlink_eq found (fun other isLast => ?_) fun other isFirst => ?_
  · refine represents.occupancy_of_mem ?_
    rw [List.map_append]
    exact List.mem_append_left _ (last_eq_some isLast)
  · refine represents.occupancy_of_mem ?_
    rw [List.map_append, List.map_cons]
    exact List.mem_append_right _ (List.mem_cons_of_mem _ (first_eq_some isFirst))

theorem occupy_eq (represents : arena.Represents cells) (key : Key) (value : Value) :
    occupy arena key value = some (arena.occupy key value) := by
  cases vacancy : arena.vacant with
  | nil => simp [occupy, vacancy]
  | cons slot vacant =>
      have unoccupied : arena.slots[slot]? = some none :=
        occupancy_eq_false_iff.mp ((represents.vacant_iff slot).mp (vacancy ▸ List.mem_cons_self))
      simp [occupy, vacancy, unoccupied]

theorem get_eq (represents : arena.Represents cells) (key : Key) :
    get arena key = some (arena.get? key) := by
  cases found : arena.index.find? key with
  | none => simp [get, get?, found]
  | some slot =>
      obtain ⟨cell, member, rfl, rfl⟩ := (represents.indexed key slot).mp found
      obtain ⟨before, after, stored⟩ := represents.exists_node member
      simp [get, get?, found, stored]

theorem assign_eq (represents : arena.Represents cells) (key : Key) (value : Value) :
    assign arena key value = some (arena.assign key value) := by
  cases found : arena.index.find? key with
  | none => simp [assign, Arena.assign, found]
  | some slot =>
      obtain ⟨cell, member, rfl, rfl⟩ := (represents.indexed key slot).mp found
      obtain ⟨before, after, stored⟩ := represents.exists_node member
      have adjusted := adjust_eq (represents.occupancy_of_mem (List.mem_map_of_mem member))
        fun node => { node with value }
      simp [assign, Arena.assign, found, stored, adjusted]

theorem push_eq (represents : arena.Represents cells) (key : Key) (value : Value) :
    push arena key value = some (arena.push key value) := by
  cases present : arena.get? key with
  | some old =>
      have answer : (arena.assign key value).1 = some old := by
        rw [← present]
        simp only [Arena.assign, get?]
        split <;> rfl
      have assigned : arena.assign key value = (some old, (arena.assign key value).2) := by rw [← answer]
      simp [push, Arena.push, get_eq represents, present, assign_eq represents, ← assigned]
  | none =>
      have occupies := represents.occupy key value
      have occupied : (arena.occupy key value).2.occupancy[(arena.occupy key value).1]? = some true :=
        occupancy_eq_true_iff.mpr ⟨_, occupies.stored⟩
      have linked : linkNewest { (arena.occupy key value).2 with
          index := (arena.occupy key value).2.index.insert key (arena.occupy key value).1 }
            (arena.occupy key value).1 = some _ := linkNewest_eq occupied ?_
      · simp [push, Arena.push, get_eq represents, present, occupy_eq represents, linked]
      · intro other isNewest
        have isLast : other ∈ Cell.last cells := by
          rw [← represents.newest, ← occupies.newest]
          exact isNewest
        have differs : other ≠ (arena.occupy key value).1 := fun same =>
          occupies.fresh (same ▸ last_eq_some isLast)
        change (arena.occupy key value).2.occupancy[other]? = some true
        rw [occupies.occupancies other differs]
        exact occupied_last represents other isLast

theorem moveToBack_eq (represents : arena.Represents cells) (key : Key) :
    moveToBack arena key = some (arena.moveToBack key) := by
  cases found : arena.index.find? key with
  | none => simp [moveToBack, Arena.moveToBack, found]
  | some slot =>
      obtain ⟨cell, member, rfl, rfl⟩ := (represents.indexed key slot).mp found
      obtain ⟨left, right, rfl⟩ := List.append_of_mem member
      by_cases atEnd : arena.newest = some cell.slot
      · simp [moveToBack, Arena.moveToBack, found, atEnd]
      · have unlinked := unlink_cell represents
        have linked : linkNewest (arena.unlink cell.slot) cell.slot = some _ := linkNewest_eq
          (by rw [occupancy_unlink]; exact represents.occupancy_of_mem (List.mem_map_of_mem member)) ?_
        · simp [moveToBack, Arena.moveToBack, found, atEnd, unlinked, linked]
        · rw [occupancy_unlink, represents.toChained.unlink.1.newest]
          intro other isLast
          refine represents.occupancy_of_mem ?_
          have member := last_eq_some isLast
          rw [List.map_append, List.mem_append] at member
          rw [List.map_append, List.map_cons, List.mem_append]
          exact member.imp_right (List.mem_cons_of_mem _)

/-- A cell that is discarded gives up its node, and its slot and key are no longer in use. -/
theorem discard_eq (represents : arena.Represents (left ++ cell :: right)) :
    ∃ node, arena.node? cell.slot = some node ∧ node.key = cell.key ∧
      discard arena cell.slot = some (node, { (arena.unlink cell.slot).release cell.slot with
        index := arena.index.erase node.key }) := by
  have found := represents.linked.node?
  have stored := represents.toChained.unlink.2
  have released : (Arena.release (arena.unlink cell.slot) cell.slot).index = arena.index := by
    simp only [Arena.release, stored]
    exact index_unlink arena cell.slot
  refine ⟨_, found, rfl, ?_⟩
  simp [discard, found, unlink_cell represents, release, stored, released]

theorem remove_eq (represents : arena.Represents cells) (key : Key) :
    remove arena key = some (arena.remove key) := by
  cases found : arena.index.find? key with
  | none => simp [remove, Arena.remove, found]
  | some slot =>
      obtain ⟨cell, member, rfl, rfl⟩ := (represents.indexed key slot).mp found
      obtain ⟨left, right, rfl⟩ := List.append_of_mem member
      obtain ⟨node, stored, sameKey, discarded⟩ := discard_eq represents
      simp [remove, Arena.remove, found, stored, sameKey, discarded]

theorem popFront_eq (represents : arena.Represents cells) : popFront arena = some arena.popFront := by
  have first := represents.oldest
  cases cells with
  | nil => simp [popFront, Arena.popFront, first]
  | cons cell right =>
      rw [Cell.first_cons] at first
      obtain ⟨node, stored, -, discarded⟩ :=
        discard_eq (show arena.Represents ([] ++ cell :: right) from represents)
      simp [popFront, Arena.popFront, first, stored, discarded]

theorem front_eq (represents : arena.Represents cells) : front arena = some arena.front? := by
  have first := represents.oldest
  cases cells with
  | nil => simp [front, front?, read?, start, first]
  | cons cell right =>
      have stored := represents.linked.1
      rw [Cell.first_cons] at first
      simp [front, front?, read?, start, first, stored]

theorem readFrom_start (represents : arena.Represents cells) :
    readFrom arena arena.size arena.start = some arena.toList := by
  rw [represents.toList_eq, start, represents.size_eq, represents.oldest]
  exact readFrom_linked represents.linked cells.length

/-- On a sound arena every slot that an operation touches is there and holds a node, or is vacant where it is filled. -/
theorem perform_eq (queue : KeyedQueue Key Value) (operation : Operation Key Value) :
    perform operation queue.arena = some (Arena.perform operation queue.arena) := by
  obtain ⟨cells, represents⟩ := queue.sound
  cases operation with
  | push key value => simp [perform, Arena.perform, push_eq represents]
  | assign key value => simp [perform, Arena.perform, assign_eq represents]
  | get key => simp [perform, Arena.perform, get_eq represents]
  | moveToBack key => simp [perform, Arena.perform, moveToBack_eq represents]
  | remove key => simp [perform, Arena.perform, remove_eq represents]
  | popFront => simp [perform, Arena.perform, popFront_eq represents]
  | front => simp [perform, Arena.perform, front_eq represents]
  | iterate => simp [perform, Arena.perform, readFrom_start represents]
  | contains key => rfl
  | size => rfl
  | isEmpty => rfl
  | clear => rfl

end Checked

end LayeredCache.KeyedQueue.Arena
