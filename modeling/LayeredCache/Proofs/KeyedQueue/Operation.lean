import LayeredCache.KeyedQueue.Basic

/-! The operations on arenas as data, beside what they are on a plain list of entries. -/

set_option autoImplicit false

namespace LayeredCache.KeyedQueue

variable {Key Value State : Type}

inductive Arena.Operation (Key Value : Type) where
  | push (key : Key) (value : Value)
  | assign (key : Key) (value : Value)
  | get (key : Key)
  | contains (key : Key)
  | moveToBack (key : Key)
  | remove (key : Key)
  | popFront
  | front
  | size
  | isEmpty
  | iterate
  | clear

inductive Arena.Answer (Key Value : Type) where
  | value (value : Option Value)
  | entry (entry : Option (Key × Value))
  | flag (flag : Bool)
  | number (number : Nat)
  /-- The entries read, and how many were promised before the first and after each. -/
  | entries (entries : List (Key × Value)) (promised : List Nat)
  | done

namespace Arena

/-- The answers to operations one after another, and the state that they lead to. -/
def runWith (step : Operation Key Value → State → Answer Key Value × State) :
    List (Operation Key Value) → State → List (Answer Key Value) × State
  | [], state => ([], state)
  | operation :: rest, state =>
      let (answer, next) := step operation state
      let (answers, last) := runWith step rest next
      (answer :: answers, last)

theorem runWith_cons (step : Operation Key Value → State → Answer Key Value × State)
    (operation : Operation Key Value) (rest : List (Operation Key Value)) (state : State) :
    runWith step (operation :: rest) state =
      ((step operation state).1 :: (runWith step rest (step operation state).2).1,
        (runWith step rest (step operation state).2).2) := rfl

theorem remainingCounts_linked {arena : Arena Key Value} {cells : List (Cell Key Value)}
    {before : Option Nat} (linked : arena.Linked before cells none) :
    arena.remainingCounts cells.length ⟨Cell.first cells, cells.length⟩ =
      (List.range (cells.length + 1)).reverse := by
  induction cells generalizing before with
  | nil => rfl
  | cons cell rest ih =>
      have later := ih linked.2
      rw [List.length_cons, List.range_succ, List.reverse_concat, ← later]
      simp [remainingCounts, read?, linked.1]

variable [DecidableEq Key]

def perform (operation : Operation Key Value) (arena : Arena Key Value) :
    Answer Key Value × Arena Key Value :=
  match operation with
  | .push key value => (arena.push key value).map .value id
  | .assign key value => (arena.assign key value).map .value id
  | .get key => (.value (arena.get? key), arena)
  | .contains key => (.flag (arena.contains key), arena)
  | .moveToBack key => (arena.moveToBack key).map .flag id
  | .remove key => (arena.remove key).map .value id
  | .popFront => arena.popFront.map .entry id
  | .front => (.entry arena.front?, arena)
  | .size => (.number arena.size, arena)
  | .isEmpty => (.flag (arena.size == 0), arena)
  | .iterate => (.entries arena.toList (arena.remainingCounts arena.size arena.start), arena)
  | .clear => (.done, .empty)

/-- An operation on a list of entries, the oldest first. -/
def Operation.onList (operation : Operation Key Value) (entries : List (Key × Value)) :
    Answer Key Value × List (Key × Value) :=
  match operation with
  | .push key value =>
      match Bindings.find? key entries with
      | some old => (.value (some old), Bindings.reassign key value entries)
      | none => (.value none, entries ++ [(key, value)])
  | .assign key value => (.value (Bindings.find? key entries), Bindings.reassign key value entries)
  | .get key => (.value (Bindings.find? key entries), entries)
  | .contains key => (.flag (Bindings.find? key entries).isSome, entries)
  | .moveToBack key => (.flag (Bindings.find? key entries).isSome, Bindings.moveToBack key entries)
  | .remove key => (.value (Bindings.find? key entries), Bindings.erase key entries)
  | .popFront => (.entry entries.head?, entries.tail)
  | .front => (.entry entries.head?, entries)
  | .size => (.number entries.length, entries)
  | .isEmpty => (.flag entries.isEmpty, entries)
  | .iterate => (.entries entries (List.range (entries.length + 1)).reverse, entries)
  | .clear => (.done, [])

theorem Represents.remainingCounts {arena : Arena Key Value} {cells : List (Cell Key Value)}
    (represents : arena.Represents cells) :
    arena.remainingCounts arena.size arena.start = (List.range (cells.length + 1)).reverse := by
  rw [start, represents.size_eq, represents.oldest]
  exact remainingCounts_linked represents.linked

/-- An operation on a sound arena is the operation on the list of its entries. -/
theorem perform_onList (queue : KeyedQueue Key Value) (operation : Operation Key Value) :
    ∃ after : KeyedQueue Key Value,
      perform operation queue.arena = ((operation.onList queue.toList).1, after.arena) ∧
        after.toList = (operation.onList queue.toList).2 := by
  cases operation with
  | push key value =>
      refine ⟨(queue.push key value).2, ?_⟩
      cases found : Bindings.find? key queue.toList with
      | none =>
          obtain ⟨answer, line⟩ := push_of_absent found value
          simp only [Operation.onList, found]
          exact ⟨congrArg (fun answer => (Answer.value answer, (queue.push key value).2.arena)) answer, line⟩
      | some old =>
          obtain ⟨answer, line⟩ := push_of_present found value
          simp only [Operation.onList, found]
          exact ⟨congrArg (fun answer => (Answer.value answer, (queue.push key value).2.arena)) answer, line⟩
  | assign key value =>
      refine ⟨(queue.assign key value).2, ?_, queue.toList_assign key value⟩
      rw [Operation.onList, ← queue.assign_fst key value]
      rfl
  | get key =>
      refine ⟨queue, ?_, rfl⟩
      rw [Operation.onList, ← queue.get?_eq]
      rfl
  | contains key =>
      refine ⟨queue, ?_, rfl⟩
      rw [Operation.onList, ← queue.contains_eq]
      rfl
  | moveToBack key =>
      refine ⟨(queue.moveToBack key).2, ?_, queue.toList_moveToBack key⟩
      rw [Operation.onList, ← queue.moveToBack_fst key]
      rfl
  | remove key =>
      refine ⟨(queue.remove key).2, ?_, queue.toList_remove key⟩
      rw [Operation.onList, ← queue.remove_fst key]
      rfl
  | popFront =>
      refine ⟨queue.popFront.2, ?_, queue.toList_popFront⟩
      rw [Operation.onList, ← queue.popFront_fst]
      rfl
  | front =>
      refine ⟨queue, ?_, rfl⟩
      rw [Operation.onList, ← queue.front?_eq]
      rfl
  | size =>
      refine ⟨queue, ?_, rfl⟩
      rw [Operation.onList, ← queue.size_eq]
      rfl
  | isEmpty =>
      refine ⟨queue, ?_, rfl⟩
      have empty : (queue.arena.size == 0) = queue.toList.isEmpty := by
        have size := queue.size_eq
        rw [KeyedQueue.size] at size
        rw [size]
        cases queue.toList <;> rfl
      rw [Operation.onList, ← empty]
      rfl
  | iterate =>
      refine ⟨queue, ?_, rfl⟩
      obtain ⟨cells, represents⟩ := queue.sound
      have length : cells.length = queue.toList.length := by
        rw [KeyedQueue.toList, represents.toList_eq, List.length_map]
      rw [perform, represents.remainingCounts, length]
      rfl
  | clear => exact ⟨.empty, rfl, rfl⟩

end Arena

end LayeredCache.KeyedQueue
