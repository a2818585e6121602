import LayeredCache.Metrics.Tally
import Mathlib.Algebra.BigOperators.Group.List.Basic
import Mathlib.Algebra.Ring.Nat

/-! What recordings add up to. A tally that is given recordings holds, counter by counter, what it held before and their
total, up to the range of a count; in which order they come does not matter. -/

set_option autoImplicit false

namespace LayeredCache.Metrics

/-- How much a change adds to a count that it does not reset. -/
def Count.Change.amount : Count.Change → Nat
  | increment => 1
  | add amount => amount.toNat
  | reset => 0

/-- How much a recording adds to a counter. -/
def Recording.amount (counter : Counter) (recording : Recording) : Nat :=
  ((recording.contributions.filter fun part => part.1 = counter).map fun part => part.2.amount).sum

/-- How much recordings add to a counter together. -/
def total (counter : Counter) (recordings : List Recording) : Nat :=
  (recordings.map (Recording.amount counter)).sum

/-- Recordings that come to the same in every tally. -/
def Congruent (some others : List Recording) : Prop :=
  ∀ counter, (total counter some).toUInt64 = (total counter others).toUInt64

theorem Count.apply_eq {change : Count.Change} (adds : change ≠ .reset) (count : Count) :
    count.apply change = count + change.amount.toUInt64 := by
  cases change with
  | increment => rfl
  | add amount =>
      have same : amount.toNat.toUInt64 = amount := UInt64.ofNat_toNat
      rw [apply, Change.amount, same]
  | reset => exact absurd rfl adds

/-- What is recorded takes nothing back. -/
theorem Recording.adds (recording : Recording) : ∀ part ∈ recording.contributions, part.2 ≠ .reset := by
  cases recording with
  | softReclaimed count => simp [contributions]
  | primaryOverflow demoted => cases demoted <;> decide
  | _ => decide

variable {some others more : List Recording}

@[simp] theorem total_nil (counter : Counter) : total counter [] = 0 := rfl

@[simp] theorem total_cons (counter : Counter) (recording : Recording) (rest : List Recording) :
    total counter (recording :: rest) = recording.amount counter + total counter rest := rfl

@[simp] theorem total_append (counter : Counter) (some others : List Recording) :
    total counter (some ++ others) = total counter some + total counter others := by
  rw [total, List.map_append, List.sum_append]
  rfl

theorem total_replicate (counter : Counter) (times : Nat) (recording : Recording) :
    total counter (List.replicate times recording) = times * recording.amount counter := by
  rw [total, List.map_replicate, List.sum_replicate_nat]

theorem total_perm (same : some.Perm others) (counter : Counter) : total counter some = total counter others :=
  (same.map _).sum_eq

theorem Congruent.refl (recordings : List Recording) : Congruent recordings recordings := fun _ => rfl

theorem congruent_of_eq (same : some = others) : Congruent some others := same ▸ .refl some

theorem congruent_of_perm (same : some.Perm others) : Congruent some others :=
  fun counter => congrArg Nat.toUInt64 (total_perm same counter)

theorem toUInt64_add (some others : Nat) : (some + others).toUInt64 = some.toUInt64 + others.toUInt64 :=
  UInt64.ofNat_add some others

theorem toNat_toUInt64 {amount : Nat} (fits : amount < 2 ^ 64) : amount.toUInt64.toNat = amount :=
  UInt64.toNat_ofNat_of_lt' fits

theorem Congruent.trans (first : Congruent some others) (second : Congruent others more) : Congruent some more :=
  fun counter => (first counter).trans (second counter)

theorem Congruent.append {next also : List Recording} (first : Congruent some others) (second : Congruent next also) :
    Congruent (some ++ next) (others ++ also) := by
  intro counter
  rw [total_append, total_append, toUInt64_add, toUInt64_add, first counter, second counter]

/-- Entries that are reclaimed are counted together, which comes to the same as one by one. -/
theorem congruent_softReclaimed (count : Nat) :
    Congruent [.softReclaimed count.toUInt64] (List.replicate count (.softReclaimed 1)) := by
  intro counter
  have amount (amount : Count) : (Recording.softReclaimed amount).amount counter =
      if Counter.softReclaimed = counter then amount.toNat else 0 := by
    by_cases here : Counter.softReclaimed = counter
    · simp only [Recording.amount, Recording.contributions, here, decide_true, List.filter_cons_of_pos, List.filter_nil,
        List.map_cons, List.map_nil, List.sum_cons, List.sum_nil, Nat.add_zero, Count.Change.amount, ↓reduceIte]
    · simp only [Recording.amount, Recording.contributions, here, decide_false, Bool.false_eq_true, not_false_eq_true,
        List.filter_cons_of_neg, List.filter_nil, List.map_nil, List.sum_nil, ↓reduceIte]
  rw [total_replicate, total_cons, total_nil, Nat.add_zero, amount, amount]
  split
  · exact UInt64.ofNat_toNat.trans (congrArg Nat.toUInt64 (Nat.mul_one count).symm)
  · rw [Nat.mul_zero]

namespace Tally

theorem count_record (tally : Tally) (recording : Recording) (counter : Counter) :
    (tally.record recording).count counter = tally.count counter + (recording.amount counter).toUInt64 := by
  have adds := recording.adds
  rw [record, Recording.amount]
  generalize recording.contributions = parts at adds ⊢
  induction parts generalizing tally with
  | nil => exact (UInt64.add_zero _).symm
  | cons part rest ih =>
      obtain ⟨first, others⟩ := List.forall_mem_cons.mp adds
      rw [List.foldl_cons, ih _ others, count_change]
      by_cases here : part.1 = counter
      · simp only [here, ↓reduceIte, decide_true, List.filter_cons_of_pos, List.map_cons, List.sum_cons]
        rw [Count.apply_eq first, toUInt64_add, UInt64.add_assoc]
      · have apart : ¬counter = part.1 := fun same => here same.symm
        simp only [here, apart, ↓reduceIte, decide_false, Bool.false_eq_true, not_false_eq_true, List.filter_cons_of_neg]

theorem count_recordAll (tally : Tally) (recordings : List Recording) (counter : Counter) :
    (tally.recordAll recordings).count counter = tally.count counter + (total counter recordings).toUInt64 := by
  rw [recordAll]
  induction recordings generalizing tally with
  | nil => exact (UInt64.add_zero _).symm
  | cons recording rest ih =>
      rw [List.foldl_cons, ih, count_record, total_cons, toUInt64_add, UInt64.add_assoc]

theorem count_recordAll_zero (recordings : List Recording) (counter : Counter) :
    (zero.recordAll recordings).count counter = (total counter recordings).toUInt64 := by
  rw [count_recordAll, count_zero]
  exact UInt64.zero_add _

theorem recordAll_append (tally : Tally) (some others : List Recording) :
    tally.recordAll (some ++ others) = (tally.recordAll some).recordAll others :=
  List.foldl_append

theorem recordAll_congr (same : Congruent some others) (tally : Tally) :
    tally.recordAll some = tally.recordAll others := by
  apply eq_of_count_eq
  intro counter
  rw [count_recordAll, count_recordAll, same counter]

end Tally

end LayeredCache.Metrics
