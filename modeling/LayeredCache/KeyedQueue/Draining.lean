import LayeredCache.KeyedQueue.Basic

/-!
# Draining keyed queues

Removing several of the oldest entries at once: so many of them, or as long as they satisfy a condition.
-/

set_option autoImplicit false

namespace LayeredCache.KeyedQueue

variable {Key Value : Type} [DecidableEq Key]

def drain (queue : KeyedQueue Key Value) : Nat → List (Key × Value) × KeyedQueue Key Value
  | 0 => ([], queue)
  | count + 1 =>
      match queue.popFront with
      | (none, queue) => ([], queue)
      | (some entry, queue) =>
          let (entries, queue) := queue.drain count
          (entry :: entries, queue)

/-- Removes and returns the oldest entries up to the first that does not satisfy a condition. -/
def drainWhile (queue : KeyedQueue Key Value) (condition : Key × Value → Bool) :
    List (Key × Value) × KeyedQueue Key Value :=
  queue.drain (queue.toList.takeWhile condition).length

def drainSurplus (queue : KeyedQueue Key Value) (capacity : Nat) :
    List (Key × Value) × KeyedQueue Key Value :=
  queue.drain (queue.size - capacity)

theorem drain_eq (queue : KeyedQueue Key Value) (count : Nat) :
    (queue.drain count).1 = queue.toList.take count ∧
      (queue.drain count).2.toList = queue.toList.drop count := by
  induction count generalizing queue with
  | zero => simp [drain]
  | succ count ih =>
      have popped := queue.popFront_fst
      have rest := queue.toList_popFront
      rw [drain]
      cases entries : queue.toList with
      | nil =>
          rw [entries] at popped rest
          split
          next next outcome =>
            rw [outcome] at rest
            exact ⟨by simp, by simpa using rest⟩
          next entry next outcome =>
            rw [outcome] at popped
            cases popped
      | cons entry others =>
          rw [entries] at popped rest
          split
          next next outcome =>
            rw [outcome] at popped
            cases popped
          next found next outcome =>
            rw [outcome] at popped rest
            simp only [List.head?_cons, Option.some.injEq] at popped
            simp only [List.tail_cons] at rest
            subst popped
            obtain ⟨first, second⟩ := ih next
            rw [rest] at first second
            simp [first, second]

theorem Arena.popFront_of_none {arena : Arena Key Value} (nothing : arena.popFront.1 = none) :
    arena.popFront.2 = arena := by
  unfold Arena.popFront at nothing ⊢
  split
  · rfl
  next slot first =>
    cases stored : arena.node? slot with
    | none => rfl
    | some node => simp [first, stored] at nothing

/-- A queue with nothing to remove stays as it is. -/
theorem popFront_of_none {queue : KeyedQueue Key Value} (nothing : queue.popFront.1 = none) :
    queue.popFront.2 = queue := by
  have same : queue.popFront.2.arena = queue.arena := Arena.popFront_of_none nothing
  generalize queue.popFront.2 = next at same
  cases next
  cases queue
  cases same
  rfl

theorem drain_of_none {queue : KeyedQueue Key Value} (nothing : queue.popFront.1 = none) (count : Nat) :
    queue.drain count = ([], queue) := by
  cases count with
  | zero => rfl
  | succ count =>
      have same := popFront_of_none nothing
      rw [drain]
      split
      next next outcome =>
        rw [outcome] at same
        exact congrArg (Prod.mk []) same
      next entry next outcome =>
        rw [outcome] at nothing
        cases nothing

/-- Draining in two goes is draining once. -/
theorem drain_add (queue : KeyedQueue Key Value) (first second : Nat) :
    queue.drain (first + second) =
      ((queue.drain first).1 ++ ((queue.drain first).2.drain second).1, ((queue.drain first).2.drain second).2) := by
  induction first generalizing queue with
  | zero => simp [drain]
  | succ first ih =>
      cases popped : queue.popFront.1 with
      | none => simp [drain_of_none popped]
      | some entry =>
          have outcome : queue.popFront = (some entry, queue.popFront.2) := Prod.ext popped rfl
          rw [Nat.add_right_comm, drain, drain, outcome]
          simp only [ih, List.cons_append]

private theorem split_at_takeWhile {Entry : Type} (condition : Entry → Bool) (entries : List Entry) :
    entries.take (entries.takeWhile condition).length = entries.takeWhile condition ∧
      entries.drop (entries.takeWhile condition).length = entries.dropWhile condition := by
  induction entries with
  | nil => simp
  | cons entry rest ih =>
      by_cases holds : condition entry
      · simp [holds, ih.1, ih.2]
      · simp [holds]

theorem drainWhile_eq (queue : KeyedQueue Key Value) (condition : Key × Value → Bool) :
    (queue.drainWhile condition).1 = queue.toList.takeWhile condition ∧
      (queue.drainWhile condition).2.toList = queue.toList.dropWhile condition := by
  have outcome := queue.drain_eq (queue.toList.takeWhile condition).length
  rw [(split_at_takeWhile condition queue.toList).1, (split_at_takeWhile condition queue.toList).2]
    at outcome
  exact outcome

theorem drainSurplus_eq (queue : KeyedQueue Key Value) (capacity : Nat) :
    (queue.drainSurplus capacity).1 = queue.toList.take (queue.toList.length - capacity) ∧
      (queue.drainSurplus capacity).2.toList =
        queue.toList.drop (queue.toList.length - capacity) := by
  have outcome := queue.drain_eq (queue.size - capacity)
  rw [size_eq] at outcome
  exact ⟨by rw [drainSurplus, size_eq]; exact outcome.1, by rw [drainSurplus, size_eq]; exact outcome.2⟩

/-- On the way down to a capacity, a stop at a larger one makes no difference. -/
theorem drainSurplus_of_le (queue : KeyedQueue Key Value) {smaller larger : Nat} (within : smaller ≤ larger) :
    queue.drainSurplus smaller =
      ((queue.drainSurplus larger).1 ++ ((queue.drainSurplus larger).2.drainSurplus smaller).1,
        ((queue.drainSurplus larger).2.drainSurplus smaller).2) := by
  have left : (queue.drainSurplus larger).2.size = queue.size - (queue.size - larger) := by
    rw [size_eq, (queue.drainSurplus_eq larger).2, List.length_drop, size_eq]
  have total : queue.size - smaller =
      (queue.size - larger) + ((queue.drainSurplus larger).2.size - smaller) := by
    rw [left]
    omega
  rw [drainSurplus, total]
  exact queue.drain_add _ _

end LayeredCache.KeyedQueue
