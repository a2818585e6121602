import LayeredCache.KeyedQueue.Basic

/-! Orderly arenas pass their audit, sound ones among them. The walk is followed cell by cell: behind it lies a part
of the cells, before it the rest, and as many entries are still expected as the rest has cells. -/

set_option autoImplicit false

namespace LayeredCache.KeyedQueue

variable {Key Value : Type} [DecidableEq Key]

private theorem auditFrom_suffix {arena : Arena Key Value} {passed rest : List (Cell Key Value)}
    (orderly : arena.Orderly (passed ++ rest)) :
    arena.auditFrom rest.length (Cell.last passed) (Cell.first rest) = .ok () := by
  induction rest generalizing passed with
  | nil =>
      have ending := orderly.newest
      rw [List.append_nil] at ending
      simp [Arena.auditFrom, ending]
  | cons cell rest ih =>
      have stored : arena.node? cell.slot =
          some ⟨cell.key, cell.value, Cell.last passed, Cell.first rest⟩ := by
        have linked := (Arena.linked_append.mp orderly.linked).2.1
        simpa using linked
      have indexed : arena.index.find? cell.key = some cell.slot :=
        orderly.find?_of_mem (by simp)
      have next : arena.Orderly ((passed ++ [cell]) ++ rest) := by
        rw [List.append_assoc]
        exact orderly
      have remaining := ih next
      rw [Cell.last_concat] at remaining
      simp only [List.length_cons, Cell.first_cons, Arena.auditFrom, stored, indexed, ne_eq,
        not_true_eq_false, ↓reduceIte]
      exact remaining

/-- An arena whose chain and index agree has nothing to report, whatever its vacant slots. -/
theorem Arena.Orderly.audit_eq_ok {arena : Arena Key Value} {cells : List (Cell Key Value)}
    (orderly : arena.Orderly cells) : arena.audit = .ok () := by
  have walked := @auditFrom_suffix Key Value _ arena [] cells orderly
  rw [Cell.last_nil] at walked
  rw [Arena.audit, orderly.size_eq, orderly.oldest]
  exact walked

theorem audit_eq_ok (queue : KeyedQueue Key Value) : queue.audit = .ok () := by
  obtain ⟨cells, represents⟩ := queue.sound
  exact represents.orderly.audit_eq_ok

end LayeredCache.KeyedQueue
