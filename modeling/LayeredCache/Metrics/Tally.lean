import LayeredCache.Metrics.Metric

/-!
# Tallies

A tally holds one count for each counter. A count is a word of 64 bits: adding to it wraps around at the end of its
range. What a cache reports about its operations is recorded as contributions to the counters concerned; every other
counter stays as it is. A reset goes through the counters one after the other.
-/

set_option autoImplicit false

namespace LayeredCache.Metrics

abbrev Count := UInt64

inductive Count.Change where
  | increment
  | add (amount : Count)
  | reset
  deriving DecidableEq, Repr

def Count.apply (count : Count) : Change → Count
  | .increment => count + 1
  | .add amount => count + amount
  | .reset => 0

/-- A count for each counter, in the order of their listing. -/
structure Tally where
  counts : Vector Count Counter.all.length

namespace Tally

def count (tally : Tally) (counter : Counter) : Count :=
  getElem tally.counts counter.place.val counter.place.isLt

def ofCounts (count : Counter → Count) : Tally := ⟨Vector.ofFn fun place => count (Counter.all.get place)⟩

def zero : Tally := ofCounts fun _ => 0

/-- Changes one count and leaves the others alone. -/
def change (tally : Tally) (counter : Counter) (change : Count.Change) : Tally :=
  ⟨tally.counts.set counter.place ((tally.count counter).apply change) counter.place.isLt⟩

/-- The counters in the order in which a reset goes through them. -/
def resetOrder : List Counter :=
  [.getCalls, .getPinnedHits, .getPrimaryHits, .getSoftHits, .getMisses,
    .putCalls, .putNew, .putUpdates, .putPinned,
    .removeCalls, .removeFound,
    .pinCalls, .pinFound, .unpinCalls, .unpinFound,
    .primaryOverflows, .softDemotions, .softOverflows, .softPromotions, .softReclaimed,
    .lockTimeouts, .clears]

def resetEach (counters : List Counter) (tally : Tally) : Tally :=
  counters.foldl (fun tally counter => tally.change counter .reset) tally

@[irreducible]
def reset (tally : Tally) : Tally := tally.resetEach resetOrder

@[simp] theorem count_ofCounts (counts : Counter → Count) (counter : Counter) :
    (ofCounts counts).count counter = counts counter := by
  simp only [count, ofCounts, Vector.getElem_ofFn]
  exact congrArg counts counter.all_place

@[simp] theorem count_zero (counter : Counter) : zero.count counter = 0 := by
  simp [zero]

theorem count_change (tally : Tally) (counter other : Counter) (change : Count.Change) :
    (tally.change counter change).count other =
      if other = counter then (tally.count other).apply change else tally.count other := by
  simp only [count, Tally.change, Vector.getElem_set]
  by_cases same : other = counter
  · simp [same]
  · have apart : ¬counter.place.val = other.place.val := fun equal =>
      same (Counter.place_inj.mp (Fin.ext equal)).symm
    simp [same, apart]

theorem count_resetEach (counters : List Counter) (tally : Tally) (counter : Counter) :
    (tally.resetEach counters).count counter = if counter ∈ counters then 0 else tally.count counter := by
  rw [resetEach]
  induction counters generalizing tally with
  | nil => rfl
  | cons first rest ih =>
      rw [List.foldl_cons, ih, count_change]
      by_cases here : counter = first
      · simp [here, Count.apply]
      · simp [here]

theorem eq_of_count_eq {left right : Tally}
    (same : ∀ counter, left.count counter = right.count counter) : left = right := by
  obtain ⟨leftCounts⟩ := left
  obtain ⟨rightCounts⟩ := right
  congr 1
  apply Vector.ext
  intro index bound
  have here := same Counter.all[index]
  have place : Counter.all[index].place = ⟨index, bound⟩ := Counter.place_all ⟨index, bound⟩
  simpa only [count, place] using here

/-- A reset leaves no counter out. -/
@[simp] theorem reset_eq_zero (tally : Tally) : tally.reset = zero := by
  apply eq_of_count_eq
  intro counter
  have listed : counter ∈ resetOrder := by
    cases counter <;> decide
  rw [reset, count_resetEach, if_pos listed, count_zero]

end Tally

inductive Recording where
  | getCall | getPinnedHit | getPrimaryHit | getSoftHit | getMiss
  | putCall | putNew | putUpdate | putPinned
  | removeCall | removeFound
  | pinCall | pinFound | unpinCall | unpinFound
  | primaryOverflow (demoted : Bool) | softOverflow | softPromotion | softReclaimed (count : Count)
  | lockTimeout | clear
  deriving DecidableEq, Repr

def Recording.contributions : Recording → List (Counter × Count.Change)
  | getCall => [(.getCalls, .increment)]
  | getPinnedHit => [(.getPinnedHits, .increment)]
  | getPrimaryHit => [(.getPrimaryHits, .increment)]
  | getSoftHit => [(.getSoftHits, .increment)]
  | getMiss => [(.getMisses, .increment)]
  | putCall => [(.putCalls, .increment)]
  | putNew => [(.putNew, .increment)]
  | putUpdate => [(.putUpdates, .increment)]
  | putPinned => [(.putPinned, .increment)]
  | removeCall => [(.removeCalls, .increment)]
  | removeFound => [(.removeFound, .increment)]
  | pinCall => [(.pinCalls, .increment)]
  | pinFound => [(.pinFound, .increment)]
  | unpinCall => [(.unpinCalls, .increment)]
  | unpinFound => [(.unpinFound, .increment)]
  | primaryOverflow demoted =>
      (.primaryOverflows, .increment) :: if demoted then [(.softDemotions, .increment)] else []
  | softOverflow => [(.softOverflows, .increment)]
  | softPromotion => [(.softPromotions, .increment)]
  | softReclaimed count => [(.softReclaimed, .add count)]
  | lockTimeout => [(.lockTimeouts, .increment)]
  | clear => [(.clears, .increment)]

def Tally.record (tally : Tally) (recording : Recording) : Tally :=
  recording.contributions.foldl (fun tally part => tally.change part.1 part.2) tally

/-- Every counter is kept for itself. -/
theorem Tally.count_record_congr {left right : Tally} {counter : Counter}
    (same : left.count counter = right.count counter) (recording : Recording) :
    (left.record recording).count counter = (right.record recording).count counter := by
  rw [record, record]
  induction recording.contributions generalizing left right with
  | nil => exact same
  | cons part rest ih =>
      apply ih
      rw [count_change, count_change, same]

def Tally.recordAll (tally : Tally) (recordings : List Recording) : Tally :=
  recordings.foldl record tally

/-- What a tally is told: something to count, or to start anew. -/
inductive Posting where
  | recorded (recording : Recording)
  | reset
  deriving DecidableEq, Repr

def Tally.post (tally : Tally) : Posting → Tally
  | .recorded recording => tally.record recording
  | .reset => tally.reset

def Tally.postAll (tally : Tally) (postings : List Posting) : Tally :=
  postings.foldl post tally

end LayeredCache.Metrics
