import LayeredCache.Proofs.KeyedQueue.Audit
import Mathlib.Data.List.Induction
import Mathlib.Data.List.Perm.Subperm

/-!
# The audit as a validator

The audit is compared with the loop it stands for, which follows the chain of any arena at all, without a bound of
its own: each round either reaches a verdict or goes one slot on. The loop ends on every arena, since it never
passes more slots than there are indexed keys, and its verdict is the audit's.

The verdict is good exactly for the arenas that are orderly along some list of cells. Local comparisons are enough
for that. No slot can come twice in a chain whose back-links agree, because a slot met again would have to be
reached from the one before it both times, back to the start. No indexed key can be left out, because distinct keys
of the chain that are as many as the indexed ones are all of them.
-/

set_option autoImplicit false

namespace LayeredCache.KeyedQueue

variable {Key Value : Type}

/-- Where the loop over a chain stands: how many slots it has passed, the last of them, and the slot it is at. -/
structure Walk where
  passed : Nat
  behind : Option Nat
  slot : Option Nat

namespace Arena

/-- A slot linked behind a chain is none of the chain's: its node would have to name what comes before it there. -/
theorem Linked.fresh {arena : Arena Key Value} {cells : List (Cell Key Value)} {cell : Cell Key Value}
    {after next : Option Nat} (linked : arena.Linked none cells after)
    (distinct : (cells.map Cell.slot).Nodup)
    (stored : arena.node? cell.slot = some ⟨cell.key, cell.value, Cell.last cells, next⟩) :
    cell.slot ∉ cells.map Cell.slot := by
  intro inCells
  obtain ⟨other, member, same⟩ := List.mem_map.mp inCells
  obtain ⟨left, right, rfl⟩ := List.append_of_mem member
  have inside := linked.node?
  rw [same, stored] at inside
  have sameBefore : Cell.last (left ++ other :: right) = Cell.last left := by
    have nodes := congrArg Node.before (Option.some.inj inside)
    simpa using nodes
  -- One slot precedes it both times, once from its own first place on and once before that.
  obtain ⟨slot, isLast⟩ : ∃ slot, Cell.last (other :: right) = some slot := by
    rw [Cell.last_cons]
    cases Cell.last right <;> simp
  have inLeft : slot ∈ left.map Cell.slot := by
    apply last_eq_some
    rw [← sameBefore, Cell.last_append, isLast, Option.some_or]
  rw [List.map_append, List.nodup_append] at distinct
  exact distinct.2.2 slot inLeft slot (last_eq_some isLast) rfl

/-- Back-links that agree with the chain keep it from meeting a slot twice. -/
theorem Linked.nodup {arena : Arena Key Value} {cells : List (Cell Key Value)} {after : Option Nat}
    (linked : arena.Linked none cells after) : (cells.map Cell.slot).Nodup := by
  induction cells using List.reverseRecOn generalizing after with
  | nil => exact .nil
  | append_singleton leading cell ih =>
      obtain ⟨ahead, stored, -⟩ := linked_append.mp linked
      have distinct := ih ahead
      have fresh := ahead.fresh distinct (by simpa using stored)
      rw [List.map_append, List.nodup_append]
      refine ⟨distinct, by simp, ?_⟩
      intro slot inLeading other isCell same
      have isOther : other = cell.slot := by simpa using isCell
      exact fresh (isOther ▸ same ▸ inLeading)

variable [DecidableEq Key]

/-- One round of the loop: a verdict, or the place one slot further on. -/
def round (arena : Arena Key Value) (walk : Walk) : Except Corruption Unit ⊕ Walk :=
  match walk.slot with
  | none =>
      if walk.behind ≠ arena.newest then .inl (.error .looseTail)
      else if walk.passed ≠ arena.size then .inl (.error (.lengthMismatch walk.passed arena.size))
      else .inl (.ok ())
  | some slot =>
      match arena.node? slot with
      | none => .inl (.error (.danglingSlot slot))
      | some node =>
          if node.before ≠ walk.behind then .inl (.error (.brokenBackLink slot))
          else if arena.index.find? node.key ≠ some slot then .inl (.error (.unindexedSlot slot))
          else if arena.size < walk.passed + 1 then .inl (.error .cycle)
          else .inr ⟨walk.passed + 1, some slot, node.after⟩

/-- The loop, run from a place on, stops after so many rounds with a verdict. -/
inductive Stops (arena : Arena Key Value) : Nat → Walk → Except Corruption Unit → Prop where
  | here {walk : Walk} {verdict : Except Corruption Unit} :
      arena.round walk = .inl verdict → Stops arena 1 walk verdict
  | later {rounds : Nat} {walk next : Walk} {verdict : Except Corruption Unit} :
      arena.round walk = .inr next → Stops arena rounds next verdict → Stops arena (rounds + 1) walk verdict

theorem Stops.unique {arena : Arena Key Value} {rounds others : Nat} {walk : Walk}
    {verdict other : Except Corruption Unit} (stops : arena.Stops rounds walk verdict)
    (again : arena.Stops others walk other) : others = rounds ∧ other = verdict := by
  induction stops generalizing others with
  | here ended =>
      cases again with
      | here same => exact ⟨rfl, Sum.inl.inj (same.symm.trans ended)⟩
      | later gone _ => cases gone.symm.trans ended
  | later gone _ ih =>
      cases again with
      | here ended => cases ended.symm.trans gone
      | later same rest =>
          cases Sum.inr.inj (same.symm.trans gone)
          obtain ⟨sameRounds, sameVerdict⟩ := ih rest
          exact ⟨congrArg (· + 1) sameRounds, sameVerdict⟩

/-- Each slot passed is one of the entries still expected, so as many rounds are left at most, and one to end. -/
theorem stops_auditFrom (arena : Arena Key Value) {remaining passed : Nat} (behind slot : Option Nat)
    (counted : passed + remaining = arena.size) :
    ∃ rounds ≤ remaining + 1,
      arena.Stops rounds ⟨passed, behind, slot⟩ (arena.auditFrom remaining behind slot) := by
  induction remaining generalizing passed behind slot with
  | zero =>
      refine ⟨1, Nat.le_refl _, .here ?_⟩
      unfold round auditFrom
      grind
  | succ remaining ih =>
      cases slot with
      | none =>
          refine ⟨1, by omega, .here ?_⟩
          unfold round auditFrom
          grind
      | some slot =>
          cases stored : arena.node? slot with
          | none => exact ⟨1, by omega, .here (by simp [round, auditFrom, stored])⟩
          | some node =>
              by_cases linked : node.before = behind
              · by_cases indexed : arena.index.find? node.key = some slot
                · obtain ⟨rounds, within, stops⟩ :=
                    ih (some slot) node.after (show passed + 1 + remaining = arena.size by omega)
                  refine ⟨rounds + 1, by omega, .later ?_ (by simpa [auditFrom, stored, linked, indexed] using stops)⟩
                  have room : ¬ arena.size < passed + 1 := by omega
                  simp [round, stored, linked, indexed, room]
                · exact ⟨1, by omega, .here (by simp [round, auditFrom, stored, linked, indexed])⟩
              · exact ⟨1, by omega, .here (by simp [round, auditFrom, stored, linked])⟩

/-- What a good verdict says of the rest of the chain. -/
theorem auditFrom_eq_ok {arena : Arena Key Value} {remaining : Nat} {behind slot : Option Nat}
    (passes : arena.auditFrom remaining behind slot = .ok ()) :
    ∃ cells, arena.Linked behind cells none ∧ slot = Cell.first cells ∧
      arena.newest = (Cell.last cells).or behind ∧ cells.length = remaining ∧
      ∀ cell ∈ cells, arena.index.find? cell.key = some cell.slot := by
  induction remaining generalizing behind slot with
  | zero =>
      cases slot with
      | none =>
          have ending : behind = arena.newest := by
            unfold auditFrom at passes
            grind
          exact ⟨[], trivial, rfl, ending.symm, rfl, by simp⟩
      | some slot =>
          unfold auditFrom at passes
          grind
  | succ remaining ih =>
      cases slot with
      | none =>
          unfold auditFrom at passes
          grind
      | some slot =>
          cases stored : arena.node? slot with
          | none => simp [auditFrom, stored] at passes
          | some node =>
              obtain ⟨linked, indexed, rest⟩ : node.before = behind ∧ arena.index.find? node.key = some slot ∧
                  arena.auditFrom remaining (some slot) node.after = .ok () := by
                unfold auditFrom at passes
                grind
              obtain ⟨cells, follows, first, newest, counted, found⟩ := ih rest
              refine ⟨⟨slot, node.key, node.value⟩ :: cells, ⟨?_, follows⟩, rfl, ?_, ?_, ?_⟩
              · rw [Option.or_none, ← first, ← linked]
                exact stored
              · rw [newest, Cell.last_cons, Option.or_assoc, Option.some_or]
              · simp [counted]
              · intro cell member
                rcases List.mem_cons.mp member with rfl | member
                · exact indexed
                · exact found cell member

/-- The keys of a chain that the index leads to are as many different ones of the index. -/
theorem Linked.keys_subperm {arena : Arena Key Value} {cells : List (Cell Key Value)} {after : Option Nat}
    (linked : arena.Linked none cells after)
    (found : ∀ cell ∈ cells, arena.index.find? cell.key = some cell.slot) :
    (cells.map Cell.key).Subperm arena.index.keys := by
  have keysDistinct : (cells.map Cell.key).Nodup := by
    have distinct := linked.nodup
    rw [List.Nodup, List.pairwise_map] at distinct ⊢
    refine List.Pairwise.imp_of_mem ?_ distinct
    intro cell other member otherMember slotsDiffer sameKey
    have sameSlot := found other otherMember
    rw [← sameKey, found cell member] at sameSlot
    exact slotsDiffer (Option.some.inj sameSlot)
  apply keysDistinct.subperm
  intro key inCells
  obtain ⟨cell, member, rfl⟩ := List.mem_map.mp inCells
  rw [← Directory.contains_iff_mem_keys, Directory.contains, found cell member]
  rfl

theorem orderly_of_audit {arena : Arena Key Value} (passes : arena.audit = .ok ()) :
    ∃ cells, arena.Orderly cells := by
  obtain ⟨cells, linked, oldest, newest, counted, found⟩ := auditFrom_eq_ok passes
  -- Distinct keys that are as many as the indexed ones leave none of these out.
  have all : (cells.map Cell.key).Perm arena.index.keys := by
    apply (linked.keys_subperm found).perm_of_length_le
    simp [Directory.keys, counted, size, Directory.size]
  refine ⟨cells, ⟨linked, oldest, by simpa using newest, linked.nodup⟩, fun key slot => ⟨fun indexed => ?_, ?_⟩⟩
  · have inIndex : key ∈ arena.index.keys := by
      rw [← Directory.contains_iff_mem_keys, Directory.contains, indexed]
      rfl
    obtain ⟨cell, member, rfl⟩ := List.mem_map.mp (all.mem_iff.mpr inIndex)
    exact ⟨cell, member, rfl, Option.some.inj ((found cell member).symm.trans indexed)⟩
  · rintro ⟨cell, member, rfl, rfl⟩
    exact found cell member

private theorem auditFrom_ne_cycle {arena : Arena Key Value} {remaining : Nat} {passed : List (Cell Key Value)}
    {slot : Option Nat} (linked : arena.Linked none passed slot)
    (found : ∀ cell ∈ passed, arena.index.find? cell.key = some cell.slot)
    (counted : passed.length + remaining = arena.size) :
    arena.auditFrom remaining (Cell.last passed) slot ≠ .error .cycle := by
  intro circular
  cases slot with
  | none =>
      unfold auditFrom at circular
      grind
  | some slot =>
      obtain ⟨node, stored, before, indexed⟩ : ∃ node, arena.node? slot = some node ∧
          node.before = Cell.last passed ∧ arena.index.find? node.key = some slot := by
        unfold auditFrom at circular
        grind
      let cell : Cell Key Value := ⟨slot, node.key, node.value⟩
      have longer : arena.Linked none (passed ++ [cell]) node.after := by
        rw [linked_append]
        refine ⟨linked, ?_, trivial⟩
        rw [Option.or_none, ← before]
        exact stored
      have foundAll : ∀ other ∈ passed ++ [cell], arena.index.find? other.key = some other.slot := by
        intro other member
        rcases List.mem_append.mp member with member | isCell
        · exact found other member
        · rw [List.mem_singleton.mp isCell]
          exact indexed
      have fits := (longer.keys_subperm foundAll).length_le
      simp only [List.length_map, List.length_append, List.length_cons, List.length_nil, Directory.keys] at fits
      cases remaining with
      | zero =>
          change passed.length + 0 = arena.index.entries.length at counted
          omega
      | succ remaining =>
          have rest := auditFrom_ne_cycle longer foundAll
            (show (passed ++ [cell]).length + remaining = arena.size by simp; omega)
          apply rest
          rw [Cell.last_concat]
          simpa [auditFrom, stored, before, indexed] using circular

/-- A circle is never found by counting: the slot at which it closes names another one before it. -/
theorem audit_ne_cycle (arena : Arena Key Value) : arena.audit ≠ .error .cycle :=
  @auditFrom_ne_cycle Key Value _ arena arena.size [] arena.oldest trivial (by simp) (by simp)

/-- On any arena whatever, consistent or not, the loop from the oldest slot stops, after no more rounds than one for
each indexed key and one to end, and with no other verdict than the audit's. The verdict is good exactly if chain
and index agree on some list of cells, and then a reader gets every indexed key once, however far it reads. -/
theorem audit_stops_sound_and_complete (arena : Arena Key Value) :
    (∃ rounds ≤ arena.size + 1, ∀ others verdict,
      arena.Stops others ⟨0, none, arena.oldest⟩ verdict ↔ others = rounds ∧ verdict = arena.audit) ∧
    (arena.audit = .ok () ↔ ∃ cells, arena.Orderly cells) ∧
    (arena.audit = .ok () → ∀ limit ≥ arena.size,
      ((arena.readFrom limit arena.start).map Prod.fst).Perm arena.index.keys) := by
  refine ⟨?_, ⟨orderly_of_audit, fun ⟨_, orderly⟩ => orderly.audit_eq_ok⟩, fun passes limit within => ?_⟩
  · obtain ⟨rounds, within, stops⟩ :=
      arena.stops_auditFrom none arena.oldest (Nat.zero_add arena.size)
    refine ⟨rounds, within, fun others verdict => ⟨stops.unique, ?_⟩⟩
    rintro ⟨rfl, rfl⟩
    exact stops
  · obtain ⟨cells, orderly⟩ := orderly_of_audit passes
    rw [orderly.readFrom_eq within, List.map_map]
    exact orderly.keys_perm

/-- A circle is told by its broken link back. -/
example : (⟨#[some ⟨1, (), none, some 1⟩, some ⟨2, (), some 0, some 0⟩], [], ⟨[(1, 0), (2, 1)], by decide⟩,
    some 0, some 1⟩ : Arena Nat Unit).audit = .error (.brokenBackLink 0) := rfl

end Arena

end LayeredCache.KeyedQueue
