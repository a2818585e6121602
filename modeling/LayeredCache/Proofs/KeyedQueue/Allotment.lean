import LayeredCache.Proofs.KeyedQueue.Refinement
import Mathlib.Data.List.Induction
import Mathlib.Order.Bounds.Basic

/-! How many slots an arena takes up. Every slot is allotted to one indexed key or kept for reuse. No operation but a
clearing gives slots up, and one opens a new slot only where none is kept for reuse, so where every slot is in use. There
are as many slots, therefore, as there were entries at the time when there were most. -/

set_option autoImplicit false

namespace LayeredCache.KeyedQueue.Arena

variable {Key Value : Type}

/-! ### Slots that operations open -/

theorem slots_size_of_occupancy {arena other : Arena Key Value} (same : other.occupancy = arena.occupancy) :
    other.slots.size = arena.slots.size := by
  have sizes := congrArg Array.size same
  simpa [occupancy] using sizes

theorem slots_size_unlink (arena : Arena Key Value) (slot : Nat) :
    (arena.unlink slot).slots.size = arena.slots.size :=
  slots_size_of_occupancy (occupancy_unlink arena slot)

theorem slots_size_linkNewest (arena : Arena Key Value) (slot : Nat) :
    (arena.linkNewest slot).slots.size = arena.slots.size :=
  slots_size_of_occupancy (occupancy_linkNewest arena slot)

theorem slots_size_release (arena : Arena Key Value) (slot : Nat) :
    (arena.release slot).slots.size = arena.slots.size := by
  unfold release
  split <;> simp

/-- The slots stay as many as they were, or there is one more and none of them is vacant. -/
def Grows (arena next : Arena Key Value) : Prop :=
  next.slots.size = arena.slots.size ∨ next.slots.size = arena.slots.size + 1 ∧ next.vacant = []

theorem grows_occupy (arena : Arena Key Value) (key : Key) (value : Value) :
    arena.Grows (arena.occupy key value).2 := by
  unfold Grows occupy
  cases arena.vacant with
  | nil => simp
  | cons slot vacant => simp

variable [DecidableEq Key]

theorem slots_size_assign (arena : Arena Key Value) (key : Key) (value : Value) :
    (arena.assign key value).2.slots.size = arena.slots.size := by
  unfold assign
  split
  · rfl
  · exact slots_size_of_occupancy (occupancy_adjust arena _ _)

theorem slots_size_moveToBack (arena : Arena Key Value) (key : Key) :
    (arena.moveToBack key).2.slots.size = arena.slots.size := by
  unfold moveToBack
  split
  · rfl
  · split <;> simp [slots_size_linkNewest, slots_size_unlink]

theorem slots_size_remove (arena : Arena Key Value) (key : Key) :
    (arena.remove key).2.slots.size = arena.slots.size := by
  unfold remove
  split <;> simp [slots_size_release, slots_size_unlink]

theorem slots_size_popFront (arena : Arena Key Value) : arena.popFront.2.slots.size = arena.slots.size := by
  unfold popFront
  split
  · rfl
  · split <;> simp [slots_size_release, slots_size_unlink]

theorem grows_push (arena : Arena Key Value) (key : Key) (value : Value) :
    arena.Grows (arena.push key value).2 := by
  unfold push
  split
  · exact .inl (arena.slots_size_assign key value)
  · simpa [Grows, slots_size_linkNewest, vacant_linkNewest] using arena.grows_occupy key value

theorem grows_perform {operation : Operation Key Value} (keeps : operation ≠ .clear) (arena : Arena Key Value) :
    arena.Grows (perform operation arena).2 := by
  cases operation with
  | push key value => exact arena.grows_push key value
  | assign key value => exact .inl (arena.slots_size_assign key value)
  | moveToBack key => exact .inl (arena.slots_size_moveToBack key)
  | remove key => exact .inl (arena.slots_size_remove key)
  | popFront => exact .inl arena.slots_size_popFront
  | clear => contradiction
  | _ => exact .inl rfl

/-! ### Slots of sound arenas -/

/-- Every slot is allotted to one indexed key, whose node it holds, or it is empty and kept for reuse, once. -/
structure Allotted (arena : Arena Key Value) : Prop where
  vacantDistinct : arena.vacant.Nodup
  vacant_iff : ∀ slot, slot ∈ arena.vacant ↔ arena.slots[slot]? = some none
  indexed_iff : ∀ key slot,
    arena.index.find? key = some slot ↔ ∃ node, arena.node? slot = some node ∧ node.key = key
  injective : ∀ key other slot,
    arena.index.find? key = some slot → arena.index.find? other = some slot → key = other
  apart : ∀ key slot, arena.index.find? key = some slot → slot ∉ arena.vacant
  slots_size : arena.slots.size = arena.vacant.length + arena.size

namespace Represents

variable {arena : Arena Key Value} {cells : List (Cell Key Value)}

theorem not_vacant (represents : arena.Represents cells) {slot : Nat} (member : slot ∈ cells.map Cell.slot) :
    slot ∉ arena.vacant := by
  rw [represents.vacant_iff, represents.occupancy_of_mem member]
  simp

/-- The slots are those kept for reuse and those of the cells, each once. -/
theorem slots_perm (represents : arena.Represents cells) :
    (List.range arena.slots.size).Perm (arena.vacant ++ cells.map Cell.slot) := by
  have distinct : (arena.vacant ++ cells.map Cell.slot).Nodup := by
    refine List.nodup_append.mpr ⟨represents.vacantDistinct, represents.distinct, ?_⟩
    intro slot kept other member same
    exact represents.not_vacant member (same ▸ kept)
  refine (List.perm_ext_iff_of_nodup List.nodup_range distinct).mpr fun slot => ?_
  have sizes : arena.occupancy.size = arena.slots.size := by simp [occupancy]
  rw [List.mem_range, List.mem_append, ← sizes]
  constructor
  · intro within
    cases present : arena.occupancy[slot] with
    | false => exact .inl ((represents.vacant_iff slot).mpr (Array.getElem?_eq_some_iff.mpr ⟨within, present⟩))
    | true => exact .inr (represents.occupied slot (Array.getElem?_eq_some_iff.mpr ⟨within, present⟩))
  · intro either
    cases either with
    | inl kept => exact (Array.getElem?_eq_some_iff.mp ((represents.vacant_iff slot).mp kept)).1
    | inr member => exact (Array.getElem?_eq_some_iff.mp (represents.occupancy_of_mem member)).1

theorem slots_size (represents : arena.Represents cells) :
    arena.slots.size = arena.vacant.length + arena.size := by
  have lengths := represents.slots_perm.length_eq
  simpa [represents.size_eq] using lengths

theorem indexed_iff (represents : arena.Represents cells) (key : Key) (slot : Nat) :
    arena.index.find? key = some slot ↔ ∃ node, arena.node? slot = some node ∧ node.key = key := by
  constructor
  · intro found
    obtain ⟨cell, member, rfl, rfl⟩ := (represents.indexed key slot).mp found
    obtain ⟨before, after, stored⟩ := represents.exists_node member
    exact ⟨_, stored, rfl⟩
  · rintro ⟨node, stored, rfl⟩
    have member := represents.occupied slot (occupancy_eq_true_iff.mpr ⟨node, stored⟩)
    obtain ⟨cell, inCells, rfl⟩ := List.mem_map.mp member
    obtain ⟨before, after, same⟩ := represents.exists_node inCells
    cases stored.symm.trans same
    exact represents.find?_of_mem inCells

theorem allotted (represents : arena.Represents cells) : arena.Allotted where
  vacantDistinct := represents.vacantDistinct
  vacant_iff slot := (represents.vacant_iff slot).trans occupancy_eq_false_iff
  indexed_iff := represents.indexed_iff
  injective key other slot found again := by
    obtain ⟨node, stored, rfl⟩ := (represents.indexed_iff key slot).mp found
    obtain ⟨same, restored, rfl⟩ := (represents.indexed_iff other slot).mp again
    cases stored.symm.trans restored
    rfl
  apart key slot found := by
    obtain ⟨cell, member, rfl, rfl⟩ := (represents.indexed key slot).mp found
    exact represents.not_vacant (List.mem_map_of_mem member)
  slots_size := represents.slots_size

end Represents

/-- An operation other than a clearing opens a slot only for an entry that those there are have no room for. -/
theorem slots_size_perform {operation : Operation Key Value} (keeps : operation ≠ .clear)
    (queue : KeyedQueue Key Value) :
    (perform operation queue.arena).2.slots.size =
      max (perform operation queue.arena).2.size queue.arena.slots.size := by
  obtain ⟨next, performed, -⟩ := perform_onList queue operation
  obtain ⟨cells, represents⟩ := next.sound
  have grows := grows_perform keeps queue.arena
  have shared := represents.slots_size
  rw [performed] at grows ⊢
  cases grows with
  | inl same =>
      simp only at same ⊢
      omega
  | inr opened =>
      -- With no slot vacant there are as many entries as slots, so these are more entries than there was room for.
      obtain ⟨larger, full⟩ := opened
      simp only at larger full ⊢
      simp only [full, List.length_nil, Nat.zero_add] at shared
      omega

/-! ### Slots after any operations -/

/-- The arena that operations lead to, one after another. -/
def performAll (operations : List (Operation Key Value)) (arena : Arena Key Value) : Arena Key Value :=
  (runWith perform operations arena).2

@[simp] theorem performAll_nil (arena : Arena Key Value) : performAll [] arena = arena := rfl

@[simp] theorem performAll_cons (operation : Operation Key Value) (rest : List (Operation Key Value))
    (arena : Arena Key Value) :
    performAll (operation :: rest) arena = performAll rest (perform operation arena).2 := rfl

theorem performAll_append (earlier later : List (Operation Key Value)) (arena : Arena Key Value) :
    performAll (earlier ++ later) arena = performAll later (performAll earlier arena) := by
  induction earlier generalizing arena with
  | nil => rfl
  | cons operation rest ih => simp [ih]

theorem performAll_sound (operations : List (Operation Key Value)) :
    ∃ queue : KeyedQueue Key Value, performAll operations .empty = queue.arena := by
  obtain ⟨queue, performed, -⟩ := run_onList operations (.empty : KeyedQueue Key Value)
  exact ⟨queue, congrArg Prod.snd performed⟩

/-- The numbers of entries held at one time or another: at the start or else after the last clearing, and after every
operation from there on. -/
def held (operations : List (Operation Key Value)) (arena : Arena Key Value) : Set Nat :=
  {count | ∃ earlier later, operations = earlier ++ later ∧ .clear ∉ later ∧ (performAll earlier arena).size = count}

theorem held_nil (arena : Arena Key Value) : held [] arena = {arena.size} := by
  ext count
  simp [held, eq_comm]

/-- The last of several elements ends the later of two parts, or the earlier one if the later has none. -/
private theorem concat_eq_append_iff {Element : Type} {elements earlier later : List Element} {last : Element} :
    elements ++ [last] = earlier ++ later ↔
      later = [] ∧ earlier = elements ++ [last] ∨ ∃ leading, later = leading ++ [last] ∧ elements = earlier ++ leading := by
  constructor
  · intro same
    cases List.eq_nil_or_concat later with
    | inl nothing => exact .inl ⟨nothing, by simpa [nothing] using same.symm⟩
    | inr something =>
        obtain ⟨leading, final, rfl⟩ := something
        rw [List.concat_eq_append, ← List.append_assoc, List.append_singleton_inj] at same
        exact .inr ⟨leading, by rw [same.2, List.concat_eq_append], same.1⟩
  · intro either
    cases either with
    | inl whole => simp [whole]
    | inr shorter =>
        obtain ⟨leading, rfl, rfl⟩ := shorter
        simp

theorem held_clear (operations : List (Operation Key Value)) (arena : Arena Key Value) :
    held (operations ++ [.clear]) arena = {0} := by
  ext count
  simp only [held, Set.mem_ofPred_eq, Set.mem_singleton_iff, concat_eq_append_iff]
  constructor
  · rintro ⟨earlier, later, ⟨rfl, rfl⟩ | ⟨leading, rfl, -⟩, unbroken, rfl⟩
    · rw [performAll_append]
      rfl
    · simp at unbroken
  · rintro rfl
    exact ⟨_, [], .inl ⟨rfl, rfl⟩, by simp, by rw [performAll_append]; rfl⟩

theorem held_concat {operation : Operation Key Value} (keeps : operation ≠ .clear)
    (operations : List (Operation Key Value)) (arena : Arena Key Value) :
    held (operations ++ [operation]) arena =
      insert (performAll (operations ++ [operation]) arena).size (held operations arena) := by
  ext count
  simp only [held, Set.mem_ofPred_eq, Set.mem_insert_iff, concat_eq_append_iff]
  constructor
  · rintro ⟨earlier, later, ⟨rfl, rfl⟩ | ⟨leading, rfl, rfl⟩, unbroken, rfl⟩
    · exact .inl rfl
    · exact .inr ⟨earlier, leading, rfl, by simp_all, rfl⟩
  · rintro (rfl | ⟨earlier, later, rfl, unbroken, rfl⟩)
    · exact ⟨_, [], .inl ⟨rfl, rfl⟩, by simp, rfl⟩
    · exact ⟨earlier, later ++ [operation], .inr ⟨later, rfl, rfl⟩, by simp [unbroken, keeps.symm], rfl⟩

/-- There are as many slots as there were entries when there were most of them. -/
theorem slots_size_isGreatest (operations : List (Operation Key Value)) :
    IsGreatest (held operations .empty) (performAll operations (.empty : Arena Key Value)).slots.size := by
  induction operations using List.reverseRecOn with
  | nil =>
      rw [held_nil]
      exact isGreatest_singleton
  | append_singleton operations operation ih =>
      by_cases clears : operation = .clear
      · subst clears
        rw [held_clear, performAll_append]
        exact isGreatest_singleton
      · obtain ⟨queue, reached⟩ := performAll_sound operations
        have peak := slots_size_perform clears queue
        rw [held_concat clears, performAll_append]
        rw [reached] at ih ⊢
        simp only [performAll_cons, performAll_nil]
        rw [peak]
        exact ih.insert _

/-- What has been held at one time or another after more operations, was held during these or before. -/
theorem held_append (operations churn : List (Operation Key Value)) (arena : Arena Key Value) :
    held (operations ++ churn) arena ⊆ held operations arena ∪ held churn (performAll operations arena) := by
  rintro count ⟨earlier, later, split, unbroken, rfl⟩
  cases List.append_eq_append_iff.mp split with
  | inl during =>
      obtain ⟨past, rfl, rfl⟩ := during
      exact .inr ⟨past, later, rfl, unbroken, by rw [performAll_append]⟩
  | inr before =>
      obtain ⟨rest, rfl, rfl⟩ := before
      exact .inl ⟨earlier, rest, rfl, by simp_all, rfl⟩

/-- After any operations on a fresh arena, every slot is allotted to one key or kept for reuse, and there are as many slots
as the most entries that were held at once since the start or the last clearing. So further operations, however long they
go on, open no slot beyond these as long as no more entries than these are held. -/
theorem slots_are_allotted_up_to_the_peak (capacity : Nat) (operations : List (Operation Key Value)) :
    (performAll operations (withCapacity capacity : Arena Key Value)).Allotted ∧
      IsGreatest (held operations (withCapacity capacity : Arena Key Value))
        (performAll operations (withCapacity capacity : Arena Key Value)).slots.size ∧
      ∀ churn, ∀ bound ∈ upperBounds (held churn (performAll operations (withCapacity capacity))),
        (performAll churn (performAll operations (withCapacity capacity : Arena Key Value))).slots.size ≤
          max (performAll operations (withCapacity capacity : Arena Key Value)).slots.size bound := by
  rw [withCapacity_eq]
  have peak := slots_size_isGreatest operations
  refine ⟨?_, peak, fun churn bound within => ?_⟩
  · obtain ⟨queue, reached⟩ := performAll_sound operations
    obtain ⟨cells, represents⟩ := queue.sound
    rw [reached]
    exact represents.allotted
  · have later := (slots_size_isGreatest (operations ++ churn)).1
    rw [performAll_append] at later
    cases held_append operations churn .empty later with
    | inl before => exact Nat.le_trans (peak.2 before) (Nat.le_max_left _ _)
    | inr during => exact Nat.le_trans (within during) (Nat.le_max_right _ _)

example : (performAll [.push 1 (), .push 2 (), .remove 1, .popFront, .push 3 ()]
    (.empty : Arena Nat Unit)).slots.size = 2 := rfl

end LayeredCache.KeyedQueue.Arena
