import LayeredCache.KeyedQueue.Chain

/-!
# Sound arenas

An arena is orderly along a list of cells when its chain runs through exactly these cells and its index leads to
exactly their slots. It represents the list when also its vacant slots are exactly the unoccupied ones, each kept
once. Every operation takes an arena that represents a list to one that represents the list the operation is named
for.
-/

set_option autoImplicit false

namespace LayeredCache.KeyedQueue.Arena

variable {Key Value : Type}

def occupancy (arena : Arena Key Value) : Array Bool := arena.slots.map Option.isSome

theorem occupancy_eq_true_iff {arena : Arena Key Value} {slot : Nat} :
    arena.occupancy[slot]? = some true ↔ ∃ node, arena.node? slot = some node := by
  simp only [occupancy, node?, Array.getElem?_map]
  rcases arena.slots[slot]? with - | - | node <;> simp

theorem occupancy_eq_false_iff {arena : Arena Key Value} {slot : Nat} :
    arena.occupancy[slot]? = some false ↔ arena.slots[slot]? = some none := by
  simp only [occupancy, Array.getElem?_map]
  rcases arena.slots[slot]? with - | - | node <;> simp

theorem occupancy_adjust (arena : Arena Key Value) (slot : Nat)
    (change : Node Key Value → Node Key Value) :
    (arena.adjust slot change).occupancy = arena.occupancy := by
  apply Array.ext_getElem?
  intro other
  simp only [occupancy, adjust, Array.getElem?_map, Array.getElem?_modify]
  split
  · rcases arena.slots[other]? with - | - | node <;> simp
  · rfl

theorem occupancy_setAfter (arena : Arena Key Value) (slot after : Option Nat) :
    (arena.setAfter slot after).occupancy = arena.occupancy := by
  cases slot with
  | none => rfl
  | some slot => exact arena.occupancy_adjust slot _

theorem occupancy_setBefore (arena : Arena Key Value) (slot before : Option Nat) :
    (arena.setBefore slot before).occupancy = arena.occupancy := by
  cases slot with
  | none => rfl
  | some slot => exact arena.occupancy_adjust slot _

theorem occupancy_unlink (arena : Arena Key Value) (slot : Nat) :
    (arena.unlink slot).occupancy = arena.occupancy := by
  unfold unlink
  split
  · rfl
  · rw [occupancy_adjust, occupancy_setBefore, occupancy_setAfter]

theorem occupancy_linkNewest (arena : Arena Key Value) (slot : Nat) :
    (arena.linkNewest slot).occupancy = arena.occupancy := by
  change ((arena.adjust _ _).setAfter _ _).occupancy = _
  rw [occupancy_setAfter, occupancy_adjust]

theorem index_setAfter (arena : Arena Key Value) (slot after : Option Nat) :
    (arena.setAfter slot after).index = arena.index := by cases slot <;> rfl

theorem index_setBefore (arena : Arena Key Value) (slot before : Option Nat) :
    (arena.setBefore slot before).index = arena.index := by cases slot <;> rfl

theorem index_unlink (arena : Arena Key Value) (slot : Nat) :
    (arena.unlink slot).index = arena.index := by
  unfold unlink
  split
  · rfl
  · exact (index_setBefore _ _ _).trans (index_setAfter _ _ _)

theorem index_linkNewest (arena : Arena Key Value) (slot : Nat) :
    (arena.linkNewest slot).index = arena.index :=
  index_setAfter _ _ _

theorem vacant_setAfter (arena : Arena Key Value) (slot after : Option Nat) :
    (arena.setAfter slot after).vacant = arena.vacant := by cases slot <;> rfl

theorem vacant_setBefore (arena : Arena Key Value) (slot before : Option Nat) :
    (arena.setBefore slot before).vacant = arena.vacant := by cases slot <;> rfl

theorem vacant_unlink (arena : Arena Key Value) (slot : Nat) :
    (arena.unlink slot).vacant = arena.vacant := by
  unfold unlink
  split
  · rfl
  · exact (vacant_setBefore _ _ _).trans (vacant_setAfter _ _ _)

theorem vacant_linkNewest (arena : Arena Key Value) (slot : Nat) :
    (arena.linkNewest slot).vacant = arena.vacant :=
  vacant_setAfter _ _ _

variable [DecidableEq Key]

/-- The chain runs through the cells, and the index leads to exactly their slots. -/
structure Orderly (arena : Arena Key Value) (cells : List (Cell Key Value)) : Prop
    extends arena.Chained cells where
  indexed : ∀ key slot,
    arena.index.find? key = some slot ↔ ∃ cell ∈ cells, cell.key = key ∧ cell.slot = slot

namespace Orderly

variable {arena : Arena Key Value} {cells : List (Cell Key Value)} {cell : Cell Key Value}

theorem eq_of_slot_eq (orderly : arena.Orderly cells) {other : Cell Key Value}
    (member : cell ∈ cells) (otherMember : other ∈ cells) (same : cell.slot = other.slot) :
    cell = other := by
  have distinct := orderly.distinct
  obtain ⟨left, right, rfl⟩ := List.append_of_mem member
  grind

theorem find?_of_mem (orderly : arena.Orderly cells) (member : cell ∈ cells) :
    arena.index.find? cell.key = some cell.slot :=
  (orderly.indexed _ _).mpr ⟨cell, member, rfl, rfl⟩

theorem eq_of_key_eq (orderly : arena.Orderly cells) {other : Cell Key Value}
    (member : cell ∈ cells) (otherMember : other ∈ cells) (same : cell.key = other.key) :
    cell = other := by
  refine orderly.eq_of_slot_eq member otherMember ?_
  have found := orderly.find?_of_mem member
  rw [same, orderly.find?_of_mem otherMember] at found
  exact (Option.some.inj found).symm

theorem keysDistinct (orderly : arena.Orderly cells) : (cells.map Cell.key).Nodup := by
  have distinct := orderly.distinct
  rw [List.Nodup, List.pairwise_map] at distinct ⊢
  refine List.Pairwise.imp_of_mem ?_ distinct
  intro cell other member otherMember slotsDiffer sameKey
  exact slotsDiffer (congrArg Cell.slot (orderly.eq_of_key_eq member otherMember sameKey))

theorem keys_perm (orderly : arena.Orderly cells) : (cells.map Cell.key).Perm arena.index.keys := by
  refine (List.perm_ext_iff_of_nodup orderly.keysDistinct arena.index.distinct).mpr fun key => ?_
  change _ ↔ key ∈ arena.index.keys
  rw [← Directory.contains_iff_mem_keys, Directory.contains, Option.isSome_iff_exists]
  simp only [orderly.indexed, List.mem_map]
  grind

theorem size_eq (orderly : arena.Orderly cells) : arena.size = cells.length := by
  have lengths := orderly.keys_perm.length_eq
  simpa [Directory.keys, size, Directory.size] using lengths.symm

end Orderly

/-- Chain, index and vacant slots all agree with a list of cells. -/
structure Represents (arena : Arena Key Value) (cells : List (Cell Key Value)) : Prop
    extends arena.Chained cells where
  indexed : ∀ key slot,
    arena.index.find? key = some slot ↔ ∃ cell ∈ cells, cell.key = key ∧ cell.slot = slot
  occupied : ∀ slot, arena.occupancy[slot]? = some true → slot ∈ cells.map Cell.slot
  vacantDistinct : arena.vacant.Nodup
  vacant_iff : ∀ slot, slot ∈ arena.vacant ↔ arena.occupancy[slot]? = some false

namespace Represents

variable {arena : Arena Key Value} {cells left right : List (Cell Key Value)} {cell : Cell Key Value}

theorem orderly (represents : arena.Represents cells) : arena.Orderly cells :=
  ⟨represents.toChained, represents.indexed⟩

theorem find?_of_mem (represents : arena.Represents cells) (member : cell ∈ cells) :
    arena.index.find? cell.key = some cell.slot :=
  represents.orderly.find?_of_mem member

theorem eq_of_key_eq (represents : arena.Represents cells) {other : Cell Key Value}
    (member : cell ∈ cells) (otherMember : other ∈ cells) (same : cell.key = other.key) :
    cell = other :=
  represents.orderly.eq_of_key_eq member otherMember same

theorem find?_eq_none_iff (represents : arena.Represents cells) {key : Key} :
    arena.index.find? key = none ↔ ∀ cell ∈ cells, cell.key ≠ key := by
  constructor
  · intro missing cell member same
    rw [← same, represents.find?_of_mem member] at missing
    cases missing
  · intro absent
    cases found : arena.index.find? key with
    | none => rfl
    | some slot =>
        obtain ⟨cell, member, same, -⟩ := (represents.indexed key slot).mp found
        exact absurd same (absent cell member)

theorem keysDistinct (represents : arena.Represents cells) : (cells.map Cell.key).Nodup :=
  represents.orderly.keysDistinct

theorem size_eq (represents : arena.Represents cells) : arena.size = cells.length :=
  represents.orderly.size_eq

theorem exists_node (represents : arena.Represents cells) (member : cell ∈ cells) :
    ∃ before after, arena.node? cell.slot = some ⟨cell.key, cell.value, before, after⟩ :=
  represents.linked.exists_node member

theorem occupancy_of_mem (represents : arena.Represents cells) {slot : Nat}
    (member : slot ∈ cells.map Cell.slot) : arena.occupancy[slot]? = some true := by
  obtain ⟨cell, inCells, rfl⟩ := List.mem_map.mp member
  obtain ⟨before, after, found⟩ := represents.exists_node inCells
  exact occupancy_eq_true_iff.mpr ⟨_, found⟩

theorem get?_of_mem (represents : arena.Represents cells) (member : cell ∈ cells) :
    arena.get? cell.key = some cell.value := by
  obtain ⟨before, after, found⟩ := represents.exists_node member
  simp [get?, represents.find?_of_mem member, found]

theorem get?_eq_none (represents : arena.Represents cells) {key : Key}
    (absent : ∀ cell ∈ cells, cell.key ≠ key) : arena.get? key = none := by
  simp [get?, represents.find?_eq_none_iff.mpr absent]

theorem empty : (Arena.empty : Arena Key Value).Represents [] where
  linked := trivial
  oldest := rfl
  newest := rfl
  distinct := by simp
  indexed := by simp [Arena.empty]
  occupied := by simp [Arena.empty, occupancy]
  vacantDistinct := by simp [Arena.empty]
  vacant_iff := by simp [Arena.empty, occupancy]

theorem slot_fresh (represents : arena.Represents (left ++ cell :: right)) :
    cell.slot ∉ (left ++ right).map Cell.slot := by
  have distinct := represents.distinct
  rw [List.map_append, List.map_cons, List.nodup_append, List.nodup_cons] at distinct
  rw [List.map_append, List.mem_append]
  rintro (inLeft | inRight)
  · exact distinct.2.2 _ inLeft _ List.mem_cons_self rfl
  · exact distinct.2.1.1 inRight

theorem linked_reassign (represents : arena.Represents cells) {target : Cell Key Value}
    (targetMember : target ∈ cells) (value : Value) (before : Option Nat) {run : List (Cell Key Value)}
    (within : ∀ cell ∈ run, cell ∈ cells) (linked : arena.Linked before run none) :
    (arena.adjust target.slot fun node => { node with value }).Linked before
      (Cell.reassign target.key value run) none := by
  induction run generalizing before with
  | nil => trivial
  | cons cell rest ih =>
      have here := within cell List.mem_cons_self
      refine ⟨?_, ih _ (fun cell member => within cell (List.mem_cons_of_mem _ member)) linked.2⟩
      have rejoined := Cell.first_reassign target.key value rest
      simp only [Cell.reassign] at rejoined
      change (arena.adjust _ _).node? cell.slot = _
      rw [node?_adjust, linked.1, rejoined]
      by_cases same : cell.key = target.key
      · have equal := represents.eq_of_key_eq here targetMember same
        simp [equal]
      · have differs : target.slot ≠ cell.slot := fun equal =>
          same (congrArg Cell.key (represents.orderly.eq_of_slot_eq targetMember here equal)).symm
        simp [same, differs]

theorem assign (represents : arena.Represents cells) (key : Key) (value : Value) :
    (arena.assign key value).2.Represents (Cell.reassign key value cells) := by
  cases found : arena.index.find? key with
  | none =>
      rw [Cell.reassign_eq_self (represents.find?_eq_none_iff.mp found)]
      simpa [Arena.assign, found] using represents
  | some slot =>
      obtain ⟨target, targetMember, rfl, rfl⟩ := (represents.indexed key slot).mp found
      have linked := represents.linked_reassign targetMember value none (fun _ member => member) represents.linked
      simp only [Arena.assign, found]
      refine ⟨⟨linked, ?_, ?_, ?_⟩, ?_, ?_, ?_, ?_⟩
      · rw [Cell.first_reassign]; exact represents.oldest
      · rw [Cell.last_reassign]; exact represents.newest
      · rw [Cell.slots_reassign]; exact represents.distinct
      · intro other otherSlot
        refine (represents.indexed other otherSlot).trans ⟨?_, ?_⟩
        · rintro ⟨cell, member, sameKey, sameSlot⟩
          exact ⟨_, List.mem_map_of_mem member, sameKey, sameSlot⟩
        · rintro ⟨changed, member, sameKey, sameSlot⟩
          obtain ⟨cell, inCells, rfl⟩ := List.mem_map.mp member
          exact ⟨cell, inCells, sameKey, sameSlot⟩
      · rw [occupancy_adjust, Cell.slots_reassign]; exact represents.occupied
      · exact represents.vacantDistinct
      · rw [occupancy_adjust]; exact represents.vacant_iff

private theorem getElem?_setIfInBounds_of_some {occupancy : Array Bool} {slot : Nat} {stored : Bool}
    (present : occupancy[slot]? = some stored) (other : Nat) (value : Bool) :
    (occupancy.setIfInBounds slot value)[other]? =
      if other = slot then some value else occupancy[other]? := by
  rw [Array.getElem?_setIfInBounds]
  by_cases same : other = slot
  · subst same
    have bound : other < occupancy.size := (Array.getElem?_eq_some_iff.mp present).1
    simp [bound]
  · simp [same, Ne.symm same]

/-- One more slot of an arena is occupied, by a node that is not in the chain yet. -/
structure Occupies (arena : Arena Key Value) (cells : List (Cell Key Value)) (key : Key) (value : Value)
    (slot : Nat) (next : Arena Key Value) : Prop where
  index : next.index = arena.index
  oldest : next.oldest = arena.oldest
  newest : next.newest = arena.newest
  fresh : slot ∉ cells.map Cell.slot
  stored : next.node? slot = some ⟨key, value, none, none⟩
  nodes : ∀ other, other ≠ slot → next.node? other = arena.node? other
  occupancies : ∀ other, other ≠ slot → next.occupancy[other]? = arena.occupancy[other]?
  vacancies : ∀ other, other ∈ next.vacant ↔ other ∈ arena.vacant ∧ other ≠ slot
  vacantDistinct : next.vacant.Nodup

theorem occupy (represents : arena.Represents cells) (key : Key) (value : Value) :
    Occupies arena cells key value (arena.occupy key value).1 (arena.occupy key value).2 := by
  have vacantDistinct := represents.vacantDistinct
  have vacant_iff := represents.vacant_iff
  cases vacancy : arena.vacant with
  | cons slot vacant =>
      rw [vacancy] at vacantDistinct vacant_iff
      obtain ⟨reused, rest⟩ := List.nodup_cons.mp vacantDistinct
      have unoccupied : arena.occupancy[slot]? = some false := (vacant_iff slot).mp List.mem_cons_self
      have inBounds : slot < arena.slots.size := by
        have := (Array.getElem?_eq_some_iff.mp unoccupied).1
        simpa [occupancy] using this
      simp only [Arena.occupy, vacancy]
      refine ⟨rfl, rfl, rfl, ?_, ?_, ?_, ?_, ?_, rest⟩
      · intro member
        have := represents.occupancy_of_mem member
        rw [unoccupied] at this
        cases this
      · simp [node?, inBounds]
      · intro other differs
        simp [node?, Ne.symm differs]
      · intro other differs
        simp [occupancy, Ne.symm differs]
      · intro other
        rw [vacancy, List.mem_cons]
        constructor
        · intro member
          exact ⟨.inr member, fun same => reused (same ▸ member)⟩
        · rintro ⟨same | member, differs⟩
          · exact absurd same differs
          · exact member
  | nil =>
      simp only [Arena.occupy, vacancy]
      have beyond : ∀ slot, arena.occupancy[slot]? = some true → slot < arena.slots.size := by
        intro slot present
        have := (Array.getElem?_eq_some_iff.mp present).1
        simpa [occupancy] using this
      refine ⟨rfl, rfl, rfl, ?_, ?_, ?_, ?_, by simp [vacancy], .nil⟩
      · intro member
        exact Nat.lt_irrefl _ (beyond _ (represents.occupancy_of_mem member))
      · simp [node?]
      · intro other differs
        simp [node?, Array.getElem?_push, differs]
      · intro other differs
        simp [occupancy, Array.getElem?_push, differs]

theorem Occupies.linkNewest {next : Arena Key Value} {key : Key} {value : Value} {slot : Nat}
    (occupies : Occupies arena cells key value slot next) (represents : arena.Represents cells)
    (absent : ∀ cell ∈ cells, cell.key ≠ key) :
    (({ next with index := next.index.insert key slot } : Arena Key Value).linkNewest slot).Represents
      (cells ++ [⟨slot, key, value⟩]) := by
  have chained : ({ next with index := next.index.insert key slot } : Arena Key Value).Chained cells := by
    refine ⟨represents.linked.congr ?_, occupies.oldest.trans represents.oldest,
      occupies.newest.trans represents.newest, represents.distinct⟩
    intro cell member
    exact occupies.nodes cell.slot fun equal => occupies.fresh (equal ▸ List.mem_map_of_mem member)
  have linked := Chained.linkNewest chained
    (show Arena.node? _ (Cell.mk slot key value).slot = _ from occupies.stored) occupies.fresh
  refine ⟨linked, ?_, ?_, ?_, ?_⟩
  · intro other otherSlot
    rw [index_linkNewest]
    change (next.index.insert key slot).find? other = _ ↔ _
    rw [Directory.find?_insert, occupies.index]
    by_cases same : other = key
    · subst same
      simp only [if_true, Option.some.injEq, List.mem_append, List.mem_singleton]
      constructor
      · intro equal
        exact ⟨_, Or.inr rfl, rfl, equal⟩
      · rintro ⟨cell, member | rfl, sameKey, sameSlot⟩
        · exact absurd sameKey (absent cell member)
        · exact sameSlot
    · rw [if_neg same, represents.indexed]
      simp only [List.mem_append, List.mem_singleton]
      constructor
      · rintro ⟨cell, member, sameKey, sameSlot⟩
        exact ⟨cell, Or.inl member, sameKey, sameSlot⟩
      · rintro ⟨cell, member | rfl, sameKey, sameSlot⟩
        · exact ⟨cell, member, sameKey, sameSlot⟩
        · exact absurd sameKey.symm same
  · intro other
    rw [occupancy_linkNewest]
    change next.occupancy[other]? = _ → _
    by_cases same : other = slot
    · subst same
      simp
    · rw [occupies.occupancies other same]
      intro present
      rw [List.map_append, List.mem_append]
      exact Or.inl (represents.occupied other present)
  · rw [vacant_linkNewest]
    exact occupies.vacantDistinct
  · intro other
    rw [vacant_linkNewest, occupancy_linkNewest]
    change other ∈ next.vacant ↔ next.occupancy[other]? = some false
    rw [occupies.vacancies, represents.vacant_iff]
    by_cases same : other = slot
    · subst same
      have present : next.occupancy[other]? = some true := occupancy_eq_true_iff.mpr ⟨_, occupies.stored⟩
      simp [present]
    · rw [occupies.occupancies other same]
      simp [same]

theorem push_absent (represents : arena.Represents cells) {key : Key} (value : Value)
    (absent : ∀ cell ∈ cells, cell.key ≠ key) :
    (arena.push key value).1 = none ∧
      (arena.push key value).2.Represents
        (cells ++ [⟨(arena.occupy key value).1, key, value⟩]) := by
  simp only [push, represents.get?_eq_none absent, true_and]
  exact (represents.occupy key value).linkNewest represents absent

theorem eq_nil_of_newest (represents : arena.Represents (left ++ cell :: right))
    (atEnd : arena.newest = some cell.slot) : right = [] := by
  rcases List.eq_nil_or_concat right with rfl | ⟨leading, other, rfl⟩
  · rfl
  · have finish := represents.newest
    have distinct := represents.distinct
    rw [atEnd, Cell.last_append, Cell.last_cons, List.concat_eq_append, Cell.last_concat, Option.some_or,
      Option.some_or, Option.some.injEq] at finish
    rw [List.concat_eq_append, List.map_append, List.map_cons, List.nodup_append, List.nodup_cons] at distinct
    have member : other.slot ∈ (leading ++ [other]).map Cell.slot :=
      List.mem_map_of_mem (List.mem_append_right _ (List.mem_singleton_self _))
    exact absurd (finish ▸ member) distinct.2.1.1

theorem moveToBack (represents : arena.Represents (left ++ cell :: right)) :
    (arena.moveToBack cell.key).1 = true ∧
      (arena.moveToBack cell.key).2.Represents (left ++ right ++ [cell]) := by
  have found := represents.find?_of_mem (List.mem_append_right left List.mem_cons_self)
  have members : ∀ other, other ∈ left ++ right ++ [cell] ↔ other ∈ left ++ cell :: right := by
    intro other
    simp only [List.mem_append, List.mem_cons, List.not_mem_nil, or_false]
    grind
  by_cases atEnd : arena.newest = some cell.slot
  · have isLast := represents.eq_nil_of_newest atEnd
    subst isLast
    simpa [Arena.moveToBack, found, atEnd] using represents
  · simp only [Arena.moveToBack, found, if_neg atEnd, true_and]
    obtain ⟨chained, stored⟩ := represents.toChained.unlink
    refine ⟨chained.linkNewest stored represents.slot_fresh, ?_, ?_, ?_, ?_⟩
    · intro key slot
      rw [index_linkNewest, index_unlink, represents.indexed]
      simp only [members]
    · intro slot
      rw [occupancy_linkNewest, occupancy_unlink]
      intro present
      obtain ⟨other, member, sameSlot⟩ := List.mem_map.mp (represents.occupied slot present)
      exact List.mem_map.mpr ⟨other, (members other).mpr member, sameSlot⟩
    · rw [vacant_linkNewest, vacant_unlink]
      exact represents.vacantDistinct
    · intro slot
      rw [vacant_linkNewest, vacant_unlink, occupancy_linkNewest, occupancy_unlink]
      exact represents.vacant_iff slot

/-- Taking a cell out of the chain, its slot and its key out of use. -/
theorem discard (represents : arena.Represents (left ++ cell :: right)) :
    ({ (arena.unlink cell.slot).release cell.slot with
      index := arena.index.erase cell.key } : Arena Key Value).Represents (left ++ right) := by
  obtain ⟨chained, stored⟩ := represents.toChained.unlink
  have fresh := represents.slot_fresh
  have inUse : arena.occupancy[cell.slot]? = some true :=
    represents.occupancy_of_mem (by simp)
  have released : (arena.unlink cell.slot).release cell.slot =
      { arena.unlink cell.slot with
        slots := (arena.unlink cell.slot).slots.setIfInBounds cell.slot none,
        vacant := cell.slot :: (arena.unlink cell.slot).vacant } := by
    simp [release, stored]
  rw [released]
  have occupancies : ∀ slot, ({ arena.unlink cell.slot with
        slots := (arena.unlink cell.slot).slots.setIfInBounds cell.slot none,
        vacant := cell.slot :: (arena.unlink cell.slot).vacant,
        index := arena.index.erase cell.key } : Arena Key Value).occupancy[slot]? =
      if slot = cell.slot then some false else arena.occupancy[slot]? := by
    intro slot
    have unlinked := occupancy_unlink arena cell.slot
    rw [← unlinked] at inUse
    rw [← unlinked]
    simp only [occupancy, Array.map_setIfInBounds]
    exact getElem?_setIfInBounds_of_some inUse slot false
  refine ⟨⟨?_, chained.oldest, chained.newest, chained.distinct⟩, ?_, ?_, ?_, ?_⟩
  · refine chained.linked.congr fun other member => ?_
    have differs : cell.slot ≠ other.slot := fun equal =>
      fresh (equal ▸ List.mem_map_of_mem member)
    simp [node?, differs]
  · intro key slot
    change (arena.index.erase cell.key).find? key = _ ↔ _
    rw [Directory.find?_erase]
    by_cases same : key = cell.key
    · subst same
      simp only [if_true, reduceCtorEq, false_iff]
      rintro ⟨other, member, sameKey, -⟩
      have inWhole : other ∈ left ++ cell :: right := by
        simp only [List.mem_append, List.mem_cons] at member ⊢
        grind
      have equal := represents.eq_of_key_eq inWhole (by simp) sameKey
      exact fresh (equal ▸ List.mem_map_of_mem member)
    · rw [if_neg same, represents.indexed]
      constructor
      · rintro ⟨other, member, sameKey, sameSlot⟩
        refine ⟨other, ?_, sameKey, sameSlot⟩
        simp only [List.mem_append, List.mem_cons] at member ⊢
        grind
      · rintro ⟨other, member, sameKey, sameSlot⟩
        refine ⟨other, ?_, sameKey, sameSlot⟩
        simp only [List.mem_append, List.mem_cons] at member ⊢
        grind
  · intro slot
    rw [occupancies]
    split
    · simp
    next differs =>
      intro present
      have member := represents.occupied slot present
      simp only [List.map_append, List.map_cons, List.mem_append, List.mem_cons] at member ⊢
      grind
  · change (cell.slot :: (arena.unlink cell.slot).vacant).Nodup
    rw [vacant_unlink, List.nodup_cons]
    refine ⟨fun member => ?_, represents.vacantDistinct⟩
    rw [represents.vacant_iff, inUse] at member
    cases member
  · intro slot
    rw [occupancies]
    change slot ∈ cell.slot :: (arena.unlink cell.slot).vacant ↔ _
    rw [vacant_unlink, List.mem_cons, represents.vacant_iff]
    by_cases same : slot = cell.slot <;> simp [same]

theorem remove (represents : arena.Represents (left ++ cell :: right)) :
    (arena.remove cell.key).1 = some cell.value ∧
      (arena.remove cell.key).2.Represents (left ++ right) := by
  have found := represents.find?_of_mem (List.mem_append_right left List.mem_cons_self)
  obtain ⟨before, after, stored⟩ :=
    represents.exists_node (List.mem_append_right left List.mem_cons_self)
  simp only [Arena.remove, found, stored]
  exact ⟨rfl, represents.discard⟩

theorem popFront (represents : arena.Represents (cell :: right)) :
    arena.popFront.1 = some cell.entry ∧ arena.popFront.2.Represents right := by
  have first := represents.oldest
  obtain ⟨before, after, stored⟩ := represents.exists_node List.mem_cons_self
  rw [Cell.first_cons] at first
  have discarded := Represents.discard (show arena.Represents ([] ++ cell :: right) from represents)
  simp only [Arena.popFront, first, stored]
  exact ⟨rfl, discarded⟩

end Represents

end LayeredCache.KeyedQueue.Arena
