import LayeredCache.Proofs.KeyedQueue.Access
import LayeredCache.Proofs.KeyedQueue.Audit

/-! Arenas refine lists of entries. An arena that operations have led to, from a fresh one, answers each operation as the
list does, and whoever reads it meets the entries of the list, the oldest first. -/

set_option autoImplicit false

namespace LayeredCache.KeyedQueue.Arena

variable {Key Value : Type}

/-- What is read from a cursor on, promised exactly before every entry and at the end. -/
inductive Reads (arena : Arena Key Value) : Cursor → List (Key × Value) → Prop where
  | stop {cursor : Cursor} (ended : arena.read? cursor = none) (bounds : cursor.bounds = (0, some 0)) :
      Reads arena cursor []
  | next {cursor after : Cursor} {entry : Key × Value} {rest : List (Key × Value)}
      (read : arena.read? cursor = some (entry, after))
      (bounds : cursor.bounds = (rest.length + 1, some (rest.length + 1))) (later : Reads arena after rest) :
      Reads arena cursor (entry :: rest)

theorem Linked.reads {arena : Arena Key Value} {cells : List (Cell Key Value)} {before : Option Nat}
    (linked : arena.Linked before cells none) :
    arena.Reads ⟨Cell.first cells, cells.length⟩ (cells.map Cell.entry) := by
  induction cells generalizing before with
  | nil => exact .stop rfl rfl
  | cons cell rest ih =>
      have later := ih linked.2
      have read : arena.read? ⟨Cell.first (cell :: rest), (cell :: rest).length⟩ =
          some (cell.entry, ⟨Cell.first rest, rest.length⟩) := by
        simp [read?, linked.1, Cell.entry]
      exact .next read (by simp [Cursor.bounds]) later

variable [DecidableEq Key]

/-- An arena stands for a list of entries: no key is there twice, reading yields the list, and the audit finds nothing. -/
structure Lists (arena : Arena Key Value) (entries : List (Key × Value)) : Prop where
  distinct : (entries.map Prod.fst).Nodup
  reads : arena.Reads arena.start entries
  audit : arena.audit = .ok ()

theorem lists (queue : KeyedQueue Key Value) : queue.arena.Lists queue.toList where
  distinct := queue.keysDistinct
  reads := by
    obtain ⟨cells, represents⟩ := queue.sound
    rw [KeyedQueue.toList, represents.toList_eq, start, represents.size_eq, represents.oldest]
    exact represents.linked.reads
  audit := queue.audit_eq_ok

/-- Operations one after another on a sound arena, beside the same operations on the list of its entries. -/
theorem run_onList (operations : List (Operation Key Value)) (queue : KeyedQueue Key Value) :
    ∃ last : KeyedQueue Key Value,
      runWith perform operations queue.arena =
          ((runWith Operation.onList operations queue.toList).1, last.arena) ∧
        Checked.run operations queue.arena = some (runWith perform operations queue.arena) ∧
          last.toList = (runWith Operation.onList operations queue.toList).2 := by
  induction operations generalizing queue with
  | nil => exact ⟨queue, rfl, rfl, rfl⟩
  | cons operation rest ih =>
      obtain ⟨after, performed, entries⟩ := perform_onList queue operation
      obtain ⟨last, answers, checked, final⟩ := ih after
      rw [entries] at answers final
      rw [answers] at checked
      refine ⟨last, ?_, ?_, ?_⟩
      · rw [runWith_cons, runWith_cons, performed, answers]
      · rw [Checked.run, Checked.perform_eq, runWith_cons, performed, answers]
        simp [checked]
      · rw [runWith_cons, final]

/-- From a fresh arena on, any operations answer as on a list of entries that is empty at first. They touch no slot that is
out of bounds or that holds no node, and leave an arena that stands for the list that the operations leave. -/
theorem refines_list (capacity : Nat) (operations : List (Operation Key Value)) :
    ∃ arena : Arena Key Value,
      runWith perform operations (withCapacity capacity) =
          ((runWith Operation.onList operations []).1, arena) ∧
        Checked.run operations (withCapacity capacity) =
            some (runWith perform operations (withCapacity capacity)) ∧
          arena.Lists (runWith Operation.onList operations []).2 := by
  obtain ⟨last, answers, checked, entries⟩ := run_onList operations (.empty : KeyedQueue Key Value)
  rw [withCapacity_eq]
  exact ⟨last.arena, answers, checked, entries ▸ lists last⟩

end LayeredCache.KeyedQueue.Arena
