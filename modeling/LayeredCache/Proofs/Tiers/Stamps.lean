import LayeredCache.Proofs.Tiers.Victims
import Mathlib.Data.List.DropRight

/-! Who leaves first, read off the history alone. The last deed that made a key the newest is its stamp. The line of stored
keys is in the order of stamps, and so whoever leaves from its front has the smallest. -/

set_option autoImplicit false

namespace LayeredCache.Tiers

variable {Key Value : Type} [DecidableEq Key] {deeds past future : List (Deed Key Value)} {done : Deed Key Value}
  {key : Key} {line kept : List Key} {start after : Tiers Key Value}

/-- The number, counted from one, of the last deed that made a key the newest; zero if none did. -/
def stamp (deeds : List (Deed Key Value)) (key : Key) : Nat :=
  (deeds.rdropWhile fun deed => deed.renewed? ≠ some key).length

theorem stamp_le (deeds : List (Deed Key Value)) (key : Key) : stamp deeds key ≤ deeds.length :=
  (List.rdropWhile_prefix _ _).length_le

theorem stamp_of_renewed (renewed : done.renewed? = some key) : stamp (deeds ++ [done]) key = deeds.length + 1 := by
  rw [stamp, List.rdropWhile_concat_neg _ _ _ (by simp [renewed]), List.length_append, List.length_singleton]

theorem stamp_of_other (other : done.renewed? ≠ some key) : stamp (deeds ++ [done]) key = stamp deeds key := by
  rw [stamp, List.rdropWhile_concat_pos _ _ _ (by simp [other]), stamp]

/-- A line of keys in the order of their stamps, all of which have one. -/
structure Chronological (deeds : List (Deed Key Value)) (line : List Key) : Prop where
  ordered : line.Pairwise fun older newer => stamp deeds older < stamp deeds newer
  stamped : ∀ key ∈ line, 0 < stamp deeds key

namespace Chronological

theorem sublist (chronological : Chronological deeds line) (fewer : kept.Sublist line) : Chronological deeds kept :=
  ⟨chronological.ordered.sublist fewer, fun key listed => chronological.stamped key (fewer.subset listed)⟩

/-- A deed keeps the line in order that has the key that it renews at the end. -/
theorem renew (chronological : Chronological deeds line) (done : Deed Key Value) :
    Chronological (deeds ++ [done]) (LayeredCache.renew done.renewed? line) := by
  cases renewed : done.renewed? with
  | none =>
      have same (key : Key) : stamp (deeds ++ [done]) key = stamp deeds key :=
        stamp_of_other (by rw [renewed]; exact nofun)
      refine ⟨chronological.ordered.imp ?_, ?_⟩
      · intro older newer before
        rwa [same, same]
      · intro key listed
        rw [same]
        exact chronological.stamped key listed
  | some newest =>
      have same {key : Key} (apart : key ≠ newest) : stamp (deeds ++ [done]) key = stamp deeds key := by
        refine stamp_of_other ?_
        rw [renewed]
        exact fun equal => apart (Option.some.inj equal).symm
      have latest : stamp (deeds ++ [done]) newest = deeds.length + 1 := stamp_of_renewed renewed
      have rest : ∀ key ∈ line.filter (fun other => other ≠ newest), key ∈ line ∧ key ≠ newest := by
        intro key listed
        obtain ⟨stored, apart⟩ := List.mem_filter.mp listed
        exact ⟨stored, of_decide_eq_true apart⟩
      constructor
      · rw [LayeredCache.renew, List.pairwise_append]
        refine ⟨?_, List.pairwise_singleton _ _, ?_⟩
        · refine (chronological.ordered.sublist List.filter_sublist).imp_of_mem ?_
          intro older newer first second before
          rwa [same (rest older first).2, same (rest newer second).2]
        · intro key listed other only
          obtain rfl := List.mem_singleton.mp only
          rw [same (rest key listed).2, latest]
          exact Nat.lt_succ_of_le (stamp_le deeds key)
      · intro key listed
        rcases List.mem_append.mp listed with older | only
        · rw [same (rest key older).2]
          exact chronological.stamped key (rest key older).1
        · rw [List.mem_singleton.mp only, latest]
          exact Nat.succ_pos _

/-- Whatever comes before a key in the line has a smaller stamp, and so has what comes after a greater one. -/
theorem smallest {earlier rest : List Key} {victim : Key} (chronological : Chronological deeds line)
    (split : line = earlier ++ victim :: rest) (listed : key ∈ line) (left : key ∉ earlier) (apart : key ≠ victim) :
    stamp deeds victim < stamp deeds key := by
  rw [split] at listed
  have ordered := chronological.ordered
  rw [split, List.pairwise_append, List.pairwise_cons] at ordered
  rcases List.mem_append.mp listed with first | others
  · exact absurd first left
  · rcases List.mem_cons.mp others with same | later
    · exact absurd same apart
    · exact ordered.2.1.1 key later

end Chronological

theorem mem_renew {used : Option Key} (listed : key ∈ line ∨ used = some key) : key ∈ renew used line := by
  cases used with
  | none =>
      rcases listed with stored | none
      · exact stored
      · cases none
  | some newest =>
      rw [renew, List.mem_append, List.mem_singleton]
      by_cases same : key = newest
      · exact .inr same
      · left
        refine List.mem_filter.mpr ⟨?_, decide_eq_true same⟩
        rcases listed with stored | equal
        · exact stored
        · exact absurd (Option.some.inj equal).symm same

/-- Each event of a deed by which an entry leaves takes the one with the smallest stamp: of all unpinned entries where it
leaves the cache, of those in the primary tier where it leaves that. -/
structure OldestFirst (stamp : Key → Nat) (done : Deed Key Value) : Prop where
  dropped : ∀ {earlier event later entry}, done.events = earlier ++ event :: later → event.dropped? = some entry →
    ∀ key, key ∈ done.before.lineKeys ∨ done.renewed? = some key →
      key ∉ (earlier.filterMap Event.dropped?).map Prod.fst → key ≠ entry.1 → stamp entry.1 < stamp key
  ejected : ∀ {earlier event later victim}, done.events = earlier ++ event :: later → event.ejected? = some victim →
    ∀ key, key ∈ done.before.primaryKeys ∨ done.renewed? = some key →
      key ∉ earlier.filterMap Event.ejected? → key ≠ victim → stamp victim < stamp key

/-- From empty tiers, stored keys are in the order of their stamps. -/
theorem Course.chronological (course : Course start deeds after) (valid : start.Valid) (fresh : start.lineKeys = []) :
    Chronological deeds after.lineKeys := by
  induction course with
  | start =>
      rw [fresh]
      exact ⟨.nil, List.forall_mem_nil _⟩
  | @step _ past tiers before host operation elementary world ih =>
      obtain ⟨kept, split, left⟩ := (inOrder_deed (before.valid valid) host elementary world).dropped
      have renewed := ih.renew (Tiers.deed host operation tiers world)
      have line : renew (Tiers.deed host operation tiers world).renewed? tiers.lineKeys = _ := split
      rw [line] at renewed
      exact renewed.sublist (left.trans (List.sublist_append_right _ _))

/-- Whatever a deed tells of is what leaves from the front of the line. -/
theorem Course.inOrder (course : Course start deeds after) (valid : start.Valid)
    (split : deeds = past ++ done :: future) : InOrder done := by
  obtain ⟨before, elementary, World, host, world, made⟩ := course.split split
  rw [made]
  exact inOrder_deed (before.valid valid) host elementary world

/-- From empty tiers, whatever leaves in the course of a deed has the smallest stamp, that deed included. -/
theorem Course.oldestFirst (course : Course start deeds after) (valid : start.Valid) (fresh : start.lineKeys = [])
    (split : deeds = past ++ done :: future) : OldestFirst (stamp (past ++ [done])) done := by
  obtain ⟨before, -⟩ := course.split split
  have inOrder := course.inOrder valid split
  have chronological := before.chronological valid fresh
  constructor
  · intro earlier event later entry events gone key stored left apart
    obtain ⟨kept, line, -⟩ := inOrder.dropped
    rw [Deed.dropped, events, List.filterMap_append, List.filterMap_cons_some gone, List.map_append, List.map_cons,
      List.append_assoc, List.cons_append] at line
    exact (chronological.renew done).smallest line (mem_renew stored) left apart
  · intro earlier event later victim events gone key stored left apart
    obtain ⟨kept, line, -⟩ := inOrder.ejected
    have primary : Chronological past done.before.primaryKeys :=
      chronological.sublist (List.sublist_append_right _ _)
    rw [Deed.ejected, events, List.filterMap_append, List.filterMap_cons_some gone, List.append_assoc,
      List.cons_append] at line
    exact (primary.renew done).smallest line (mem_renew stored) left apart

end LayeredCache.Tiers
