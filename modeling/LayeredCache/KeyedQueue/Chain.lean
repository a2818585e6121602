import LayeredCache.KeyedQueue.Arena

/-!
# Chains in an arena

A list of cells says which slots a chain runs through and what they hold. The statements say what the
elementary changes of links do to that list: taking a slot out drops its cell, linking a slot as the newest
appends its cell.
-/

set_option autoImplicit false

namespace LayeredCache.KeyedQueue

structure Cell (Key Value : Type) where
  slot : Nat
  key : Key
  value : Value

namespace Cell

variable {Key Value : Type}

def entry (cell : Cell Key Value) : Key × Value := (cell.key, cell.value)

def first (cells : List (Cell Key Value)) : Option Nat := cells.head?.map Cell.slot

def last (cells : List (Cell Key Value)) : Option Nat := cells.getLast?.map Cell.slot

@[simp] theorem first_nil : first ([] : List (Cell Key Value)) = none := rfl

@[simp] theorem last_nil : last ([] : List (Cell Key Value)) = none := rfl

@[simp] theorem first_cons (cell : Cell Key Value) (rest : List (Cell Key Value)) :
    first (cell :: rest) = some cell.slot := rfl

@[simp] theorem last_concat (leading : List (Cell Key Value)) (cell : Cell Key Value) :
    last (leading ++ [cell]) = some cell.slot := by simp [last]

theorem first_append (left right : List (Cell Key Value)) :
    first (left ++ right) = (first left).or (first right) := by
  cases left <;> simp [first]

theorem last_append (left right : List (Cell Key Value)) :
    last (left ++ right) = (last right).or (last left) := by
  simp only [last, List.getLast?_append]
  cases right.getLast? <;> simp

theorem last_cons (cell : Cell Key Value) (rest : List (Cell Key Value)) :
    last (cell :: rest) = (last rest).or (some cell.slot) := by
  rw [← List.singleton_append, last_append]
  rfl

def reassign [DecidableEq Key] (key : Key) (value : Value) (cells : List (Cell Key Value)) :
    List (Cell Key Value) :=
  cells.map fun cell => { cell with value := if cell.key = key then value else cell.value }

section

variable [DecidableEq Key]

@[simp] theorem slots_reassign (key : Key) (value : Value) (cells : List (Cell Key Value)) :
    (reassign key value cells).map slot = cells.map slot := by
  simp [reassign, Function.comp_def]

@[simp] theorem first_reassign (key : Key) (value : Value) (cells : List (Cell Key Value)) :
    first (reassign key value cells) = first cells := by
  cases cells <;> rfl

@[simp] theorem last_reassign (key : Key) (value : Value) (cells : List (Cell Key Value)) :
    last (reassign key value cells) = last cells := by
  simp [last, reassign, List.getLast?_map, Option.map_map, Function.comp_def]

theorem reassign_eq_self {key : Key} {value : Value} {cells : List (Cell Key Value)}
    (absent : ∀ cell ∈ cells, cell.key ≠ key) : reassign key value cells = cells := by
  conv => rhs; rw [← List.map_id cells]
  exact List.map_congr_left fun cell member => by simp [absent cell member]

end

end Cell

namespace Arena

variable {Key Value : Type}

theorem node?_adjust (arena : Arena Key Value) (slot other : Nat)
    (change : Node Key Value → Node Key Value) :
    (arena.adjust slot change).node? other =
      if slot = other then (arena.node? other).map change else arena.node? other := by
  simp only [node?, adjust, Array.getElem?_modify]
  split
  · cases arena.slots[other]? with
    | none => rfl
    | some stored => cases stored <;> rfl
  · rfl

/-- The neighbours and contents along a run of cells, between a slot before it and a slot after it. -/
def Linked (arena : Arena Key Value) : Option Nat → List (Cell Key Value) → Option Nat → Prop
  | _, [], _ => True
  | before, cell :: rest, after =>
      arena.node? cell.slot = some ⟨cell.key, cell.value, before, (Cell.first rest).or after⟩ ∧
        arena.Linked (some cell.slot) rest after

theorem Linked.congr {arena other : Arena Key Value} {before after : Option Nat}
    {cells : List (Cell Key Value)} (linked : arena.Linked before cells after)
    (same : ∀ cell ∈ cells, other.node? cell.slot = arena.node? cell.slot) :
    other.Linked before cells after := by
  induction cells generalizing before with
  | nil => trivial
  | cons cell rest ih =>
      exact ⟨by rw [same cell (by simp)]; exact linked.1,
        ih linked.2 fun cell member => same cell (by simp [member])⟩

/-- A run of cells is linked exactly when its parts are, each next to the other. -/
theorem linked_append {arena : Arena Key Value} {before after : Option Nat}
    {left right : List (Cell Key Value)} :
    arena.Linked before (left ++ right) after ↔
      arena.Linked before left ((Cell.first right).or after) ∧
        arena.Linked ((Cell.last left).or before) right after := by
  induction left generalizing before with
  | nil => simp [Linked]
  | cons cell rest ih =>
      simp only [List.cons_append, Linked, ih, Cell.first_append, Option.or_assoc, Cell.last_cons,
        Option.some_or, and_assoc]

theorem Linked.node? {arena : Arena Key Value} {before after : Option Nat}
    {left right : List (Cell Key Value)} {cell : Cell Key Value}
    (linked : arena.Linked before (left ++ cell :: right) after) :
    arena.node? cell.slot =
      some ⟨cell.key, cell.value, (Cell.last left).or before, (Cell.first right).or after⟩ :=
  (linked_append.mp linked).2.1

theorem Linked.exists_node {arena : Arena Key Value} {before after : Option Nat}
    {cells : List (Cell Key Value)} {cell : Cell Key Value}
    (linked : arena.Linked before cells after) (member : cell ∈ cells) :
    ∃ previous next, arena.node? cell.slot = some ⟨cell.key, cell.value, previous, next⟩ := by
  obtain ⟨left, right, rfl⟩ := List.append_of_mem member
  exact ⟨_, _, linked.node?⟩

/-- The nodes are chained as the cells say, from the oldest slot to the newest. -/
structure Chained (arena : Arena Key Value) (cells : List (Cell Key Value)) : Prop where
  linked : arena.Linked none cells none
  oldest : arena.oldest = Cell.first cells
  newest : arena.newest = Cell.last cells
  distinct : (cells.map Cell.slot).Nodup

theorem node?_setAfter (arena : Arena Key Value) (slot after : Option Nat) (other : Nat) :
    (arena.setAfter slot after).node? other =
      if slot = some other then (arena.node? other).map fun node => { node with after }
      else arena.node? other := by
  cases slot with
  | none => rfl
  | some slot => simp [setAfter, node?_adjust]

theorem node?_setBefore (arena : Arena Key Value) (slot before : Option Nat) (other : Nat) :
    (arena.setBefore slot before).node? other =
      if slot = some other then (arena.node? other).map fun node => { node with before }
      else arena.node? other := by
  cases slot with
  | none => rfl
  | some slot => simp [setBefore, node?_adjust]

theorem Linked.setAfter {arena : Arena Key Value} {before after : Option Nat}
    {cells : List (Cell Key Value)} (linked : arena.Linked before cells after)
    (distinct : (cells.map Cell.slot).Nodup) (next : Option Nat) :
    (arena.setAfter (Cell.last cells) next).Linked before cells next := by
  rcases List.eq_nil_or_concat cells with rfl | ⟨leading, cell, rfl⟩
  · trivial
  · rw [List.concat_eq_append] at linked distinct ⊢
    rw [linked_append] at linked ⊢
    rw [List.map_append, List.nodup_append] at distinct
    refine ⟨linked.1.congr fun other member => ?_, ?_, trivial⟩
    · have differs : cell.slot ≠ other.slot := fun equal =>
        distinct.2.2 _ (List.mem_map_of_mem member) _ (by simp) equal.symm
      simp [node?_setAfter, differs]
    · simp [node?_setAfter, linked.2.1]

theorem Linked.setBefore {arena : Arena Key Value} {before after : Option Nat}
    {cells : List (Cell Key Value)} (linked : arena.Linked before cells after)
    (distinct : (cells.map Cell.slot).Nodup) (previous : Option Nat) :
    (arena.setBefore (Cell.first cells) previous).Linked previous cells after := by
  cases cells with
  | nil => trivial
  | cons cell rest =>
      refine ⟨?_, linked.2.congr fun other member => ?_⟩
      · simp [node?_setBefore, linked.1]
      · have differs : cell.slot ≠ other.slot := fun equal =>
          (List.nodup_cons.mp distinct).1 (equal ▸ List.mem_map_of_mem member)
        simp [node?_setBefore, differs]

theorem oldest_setAfter (arena : Arena Key Value) (slot after : Option Nat) :
    (arena.setAfter slot after).oldest = if slot = none then after else arena.oldest := by
  cases slot <;> rfl

theorem newest_setAfter (arena : Arena Key Value) (slot after : Option Nat) :
    (arena.setAfter slot after).newest = arena.newest := by
  cases slot <;> rfl

theorem oldest_setBefore (arena : Arena Key Value) (slot before : Option Nat) :
    (arena.setBefore slot before).oldest = arena.oldest := by
  cases slot <;> rfl

theorem newest_setBefore (arena : Arena Key Value) (slot before : Option Nat) :
    (arena.setBefore slot before).newest = if slot = none then before else arena.newest := by
  cases slot <;> rfl

theorem last_eq_some {cells : List (Cell Key Value)} {slot : Nat}
    (isLast : Cell.last cells = some slot) : slot ∈ cells.map Cell.slot := by
  obtain ⟨cell, found, rfl⟩ := Option.map_eq_some_iff.mp isLast
  exact List.mem_map_of_mem (List.mem_of_getLast? found)

theorem first_eq_some {cells : List (Cell Key Value)} {slot : Nat}
    (isFirst : Cell.first cells = some slot) : slot ∈ cells.map Cell.slot := by
  obtain ⟨cell, found, rfl⟩ := Option.map_eq_some_iff.mp isFirst
  exact List.mem_map_of_mem (List.mem_of_head? found)

theorem Chained.unlink {arena : Arena Key Value} {left right : List (Cell Key Value)}
    {cell : Cell Key Value} (chained : arena.Chained (left ++ cell :: right)) :
    (arena.unlink cell.slot).Chained (left ++ right) ∧
      (arena.unlink cell.slot).node? cell.slot = some ⟨cell.key, cell.value, none, none⟩ := by
  have found := chained.linked.node?
  have parts := linked_append.mp chained.linked
  have distinct := chained.distinct
  rw [List.map_append, List.map_cons, List.nodup_append, List.nodup_cons] at distinct
  obtain ⟨leftDistinct, ⟨cellFresh, rightDistinct⟩, apart⟩ := distinct
  have leftApart : ∀ slot ∈ left.map Cell.slot, slot ≠ cell.slot := fun slot member =>
    apart slot member cell.slot (by simp)
  have leftRight : ∀ slot ∈ left.map Cell.slot, slot ∉ right.map Cell.slot :=
    fun slot member inRight => apart slot member slot (by simp [inRight]) rfl
  simp only [Option.or_none] at found
  have unlinked : arena.unlink cell.slot =
      ((arena.setAfter (Cell.last left) (Cell.first right)).setBefore (Cell.first right)
        (Cell.last left)).adjust cell.slot fun node => { node with before := none, after := none } := by
    simp [Arena.unlink, found]
  have linkedLeft : ((arena.setAfter (Cell.last left) (Cell.first right)).setBefore
      (Cell.first right) (Cell.last left)).Linked none left (Cell.first right) := by
    refine (parts.1.setAfter leftDistinct (Cell.first right)).congr fun other member => ?_
    rw [node?_setBefore, if_neg]
    exact fun isFirst => leftRight _ (List.mem_map_of_mem member) (first_eq_some isFirst)
  have linkedRight : ((arena.setAfter (Cell.last left) (Cell.first right)).setBefore
      (Cell.first right) (Cell.last left)).Linked (Cell.last left) right none := by
    have linked : (arena.setAfter (Cell.last left) (Cell.first right)).Linked (some cell.slot)
        right none := by
      refine parts.2.2.congr fun other member => ?_
      rw [node?_setAfter, if_neg]
      exact fun isLast => leftRight _ (last_eq_some isLast) (List.mem_map_of_mem member)
    exact linked.setBefore rightDistinct (Cell.last left)
  refine ⟨⟨?_, ?_, ?_, ?_⟩, ?_⟩
  · rw [unlinked, linked_append]
    refine ⟨(by simpa using linkedLeft : Linked _ _ _ _).congr fun other member => ?_,
      (by simpa using linkedRight : Linked _ _ _ _).congr fun other member => ?_⟩
    · rw [node?_adjust, if_neg (leftApart _ (List.mem_map_of_mem member)).symm]
    · rw [node?_adjust, if_neg]
      exact fun equal => cellFresh (equal ▸ List.mem_map_of_mem member)
  · have start := chained.oldest
    rw [unlinked]
    change ((arena.setAfter _ _).setBefore _ _).oldest = _
    rw [oldest_setBefore, oldest_setAfter, Cell.first_append, start]
    cases left <;> simp [Cell.last_cons]
  · have finish := chained.newest
    rw [unlinked]
    change ((arena.setAfter _ _).setBefore _ _).newest = _
    rw [newest_setBefore, newest_setAfter, Cell.last_append, finish, Cell.last_append, Cell.last_cons]
    cases right with
    | nil => simp
    | cons next rest => simp [Cell.last_cons]
  · rw [List.map_append, List.nodup_append]
    exact ⟨leftDistinct, rightDistinct, fun slot inLeft other inRight equal =>
      leftRight slot inLeft (equal ▸ inRight)⟩
  · have notLast : Cell.last left ≠ some cell.slot := fun isLast =>
      leftApart _ (last_eq_some isLast) rfl
    have notFirst : Cell.first right ≠ some cell.slot := fun isFirst => cellFresh (first_eq_some isFirst)
    rw [unlinked, node?_adjust, node?_setBefore, node?_setAfter]
    simp [notLast, notFirst, found]

theorem Chained.linkNewest {arena : Arena Key Value} {cells : List (Cell Key Value)}
    {cell : Cell Key Value} {before after : Option Nat} (chained : arena.Chained cells)
    (stored : arena.node? cell.slot = some ⟨cell.key, cell.value, before, after⟩)
    (fresh : cell.slot ∉ cells.map Cell.slot) :
    (arena.linkNewest cell.slot).Chained (cells ++ [cell]) := by
  have notLast : Cell.last cells ≠ some cell.slot := fun isLast => fresh (last_eq_some isLast)
  refine ⟨?_, ?_, ?_, ?_⟩
  · rw [linked_append]
    refine ⟨?_, ?_, trivial⟩
    · have linked : (arena.adjust cell.slot fun node =>
          { node with before := arena.newest, after := none }).Linked none cells none := by
        refine chained.linked.congr fun other member => ?_
        rw [node?_adjust, if_neg]
        exact fun equal => fresh (equal ▸ List.mem_map_of_mem member)
      have relinked := linked.setAfter chained.distinct (some cell.slot)
      rw [← chained.newest] at relinked
      exact relinked.congr fun _ _ => rfl
    · change ((arena.adjust _ _).setAfter _ _).node? _ = _
      rw [node?_setAfter, node?_adjust, chained.newest, if_neg notLast]
      simp [stored]
  · change ((arena.adjust _ _).setAfter _ _).oldest = _
    rw [oldest_setAfter, Cell.first_append, chained.newest]
    change (if _ then _ else arena.oldest) = _
    rw [chained.oldest]
    cases cells <;> simp [Cell.last_cons]
  · simp [Arena.linkNewest]
  · rw [List.map_append, List.nodup_append]
    refine ⟨chained.distinct, by simp, ?_⟩
    intro slot member other isCell equal
    simp only [List.map_cons, List.map_nil, List.mem_singleton] at isCell
    exact fresh (isCell ▸ equal ▸ member)

end Arena

end LayeredCache.KeyedQueue
