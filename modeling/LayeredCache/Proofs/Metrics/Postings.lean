import LayeredCache.Metrics.Snapshot
import LayeredCache.Proofs.Metrics.Totals
import Mathlib.Data.List.DropRight

/-! What a tally shows of all that was posted to it. A recording is named for one counter and adds its weight there, and
an overflow that was demoted adds one to the demotions as well; a reset starts every counter anew. What was posted before
the last reset is forgotten, and in which order the rest came does not matter. -/

set_option autoImplicit false

namespace LayeredCache.Metrics

/-- The counter that a recording is named for. -/
def Recording.counter : Recording → Counter
  | getCall => .getCalls
  | getPinnedHit => .getPinnedHits
  | getPrimaryHit => .getPrimaryHits
  | getSoftHit => .getSoftHits
  | getMiss => .getMisses
  | putCall => .putCalls
  | putNew => .putNew
  | putUpdate => .putUpdates
  | putPinned => .putPinned
  | removeCall => .removeCalls
  | removeFound => .removeFound
  | pinCall => .pinCalls
  | pinFound => .pinFound
  | unpinCall => .unpinCalls
  | unpinFound => .unpinFound
  | primaryOverflow _ => .primaryOverflows
  | softOverflow => .softOverflows
  | softPromotion => .softPromotions
  | softReclaimed _ => .softReclaimed
  | lockTimeout => .lockTimeouts
  | clear => .clears

def Recording.weight : Recording → Nat
  | softReclaimed count => count.toNat
  | _ => 1

/-- What a recording is to add to a counter. -/
def Recording.share (counter : Counter) (recording : Recording) : Nat :=
  (if recording.counter = counter then recording.weight else 0) +
    if recording = .primaryOverflow true ∧ counter = .softDemotions then 1 else 0

def Posting.recording? : Posting → Option Recording
  | recorded recording => some recording
  | reset => none

/-- What has been recorded since the last reset. -/
def sinceReset (postings : List Posting) : List Recording :=
  (postings.rtakeWhile fun posting => posting ≠ .reset).filterMap Posting.recording?

theorem Recording.amount_eq_sum (counter : Counter) (recording : Recording) : recording.amount counter =
    (recording.contributions.map fun part => if part.1 = counter then part.2.amount else 0).sum := by
  rw [amount]
  induction recording.contributions with
  | nil => rfl
  | cons part rest ih =>
      rw [List.map_cons, List.sum_cons, ← ih]
      by_cases here : part.1 = counter
      · simp only [here, decide_true, List.filter_cons_of_pos, List.map_cons, List.sum_cons, ↓reduceIte]
      · simp only [here, decide_false, Bool.false_eq_true, not_false_eq_true, List.filter_cons_of_neg, ↓reduceIte,
          Nat.zero_add]

theorem Recording.amount_eq_share (counter : Counter) (recording : Recording) :
    recording.amount counter = recording.share counter := by
  rw [amount_eq_sum, share]
  cases recording with
  | primaryOverflow demoted =>
      cases demoted with
      | false => rfl
      | true => simp [contributions, Recording.counter, weight, Count.Change.amount, eq_comm]
  | _ => rfl

theorem sinceReset_recorded (postings : List Posting) (recording : Recording) :
    sinceReset (postings ++ [.recorded recording]) = sinceReset postings ++ [recording] := by
  rw [sinceReset, List.rtakeWhile_concat_pos _ _ _ (by simp), List.filterMap_append]
  rfl

theorem sinceReset_reset (postings : List Posting) : sinceReset (postings ++ [.reset]) = [] := by
  rw [sinceReset, List.rtakeWhile_concat_neg _ _ _ (by simp)]
  rfl

theorem sinceReset_of_not_mem {postings : List Posting} (unbroken : .reset ∉ postings) :
    sinceReset postings = postings.filterMap Posting.recording? := by
  rw [sinceReset, List.rtakeWhile_eq_self_iff.mpr]
  intro posting posted
  exact decide_eq_true fun same => unbroken (same ▸ posted)

namespace Tally

theorem postAll_concat (tally : Tally) (postings : List Posting) (posting : Posting) :
    tally.postAll (postings ++ [posting]) = (tally.postAll postings).post posting :=
  List.foldl_concat _ _ _ _

/-- A tally holds what has been recorded since the last reset, on top of what it held before if there was none. -/
theorem postAll_eq (tally : Tally) (postings : List Posting) :
    tally.postAll postings = (if .reset ∈ postings then zero else tally).recordAll (sinceReset postings) := by
  induction postings using List.reverseRecOn with
  | nil => rfl
  | append_singleton postings posting ih =>
      rw [postAll_concat, ih]
      cases posting with
      | recorded recording =>
          rw [sinceReset_recorded, recordAll_append]
          simp [post, recordAll]
      | reset =>
          rw [sinceReset_reset]
          simp [post, recordAll]

theorem postAll_zero (postings : List Posting) : zero.postAll postings = zero.recordAll (sinceReset postings) := by
  rw [postAll_eq, ite_self]

theorem count_post_recorded (tally : Tally) (recording : Recording) (counter : Counter) :
    (tally.post (.recorded recording)).count counter = tally.count counter + (recording.share counter).toUInt64 := by
  rw [post, count_record, recording.amount_eq_share]

end Tally

theorem total_eq_sum_share (counter : Counter) (recordings : List Recording) :
    total counter recordings = (recordings.map (Recording.share counter)).sum :=
  congrArg (fun amount => (recordings.map amount).sum) (funext (Recording.amount_eq_share counter))

/-- A snapshot shows of each counter what has been posted to it since the last reset, up to the range of a count, and no
gauges; whatever is posted leaves the other counters alone, a reset clears them all, and postings without a reset may come
in any order. -/
theorem counts_are_sums_since_reset :
    (∀ postings : List Posting,
      let snapshot := Snapshot.ofTally (Tally.zero.postAll postings)
      (∀ counter, snapshot.value (.counter counter) =
        ((sinceReset postings).map (Recording.share counter)).sum % 2 ^ 64) ∧
      ∀ gauge, snapshot.value (.gauge gauge) = 0) ∧
    (∀ (tally : Tally) (recording : Recording) (counter : Counter),
      (tally.post (.recorded recording)).count counter = tally.count counter + (recording.share counter).toUInt64 ∧
      (recording.share counter = 0 → (tally.post (.recorded recording)).count counter = tally.count counter)) ∧
    (∀ (tally : Tally) (counter : Counter), (tally.post .reset).count counter = 0) ∧
    ∀ postings others : List Posting, .reset ∉ postings → postings.Perm others →
      Snapshot.ofTally (Tally.zero.postAll postings) = Snapshot.ofTally (Tally.zero.postAll others) := by
  refine ⟨?_, ?_, ?_, ?_⟩
  · intro postings snapshot
    refine ⟨?_, fun _ => rfl⟩
    intro counter
    dsimp only [snapshot]
    rw [Snapshot.ofTally_eq, Snapshot.value, Tally.postAll_zero, Tally.count_recordAll_zero, total_eq_sum_share]
    rfl
  · intro tally recording counter
    refine ⟨tally.count_post_recorded recording counter, ?_⟩
    intro nothing
    rw [Tally.count_post_recorded, nothing]
    exact UInt64.add_zero _
  · intro tally counter
    rw [Tally.post, Tally.reset_eq_zero, Tally.count_zero]
  · intro postings others unbroken same
    rw [Tally.postAll_zero, Tally.postAll_zero, sinceReset_of_not_mem unbroken,
      sinceReset_of_not_mem fun reset => unbroken (same.mem_iff.mpr reset)]
    exact congrArg Snapshot.ofTally (Tally.recordAll_congr (congruent_of_perm (same.filterMap _)) _)

/-- Reclaims that leave the range of a count, after a reset and in either order. -/
theorem reclaims_wrap_in_any_order :
    let before : List Posting := [.recorded .getCall, .recorded (.softReclaimed 5), .reset]
    let postings : List Posting :=
      [.recorded (.softReclaimed 18446744073709551615), .recorded (.primaryOverflow true), .recorded (.softReclaimed 3)]
    let others : List Posting :=
      [.recorded (.primaryOverflow true), .recorded (.softReclaimed 3), .recorded (.softReclaimed 18446744073709551615)]
    (∀ counter, (Snapshot.ofTally (Tally.zero.postAll (before ++ postings))).value (.counter counter) =
      if counter = .softReclaimed then 2
      else if counter = .primaryOverflows ∨ counter = .softDemotions then 1 else 0) ∧
    (Recording.share .getCalls (.softReclaimed 3) = 0 ∧
      (Tally.zero.post (.recorded (.softReclaimed 3))).count .getCalls = Tally.zero.count .getCalls) ∧
    .reset ∉ postings ∧ postings.Perm others ∧
    Snapshot.ofTally (Tally.zero.postAll postings) = Snapshot.ofTally (Tally.zero.postAll others) := by
  intro before postings others
  obtain ⟨sums, steps, -, orders⟩ := counts_are_sums_since_reset
  have alone : Recording.share .getCalls (.softReclaimed 3) = 0 := by decide
  have unbroken : .reset ∉ postings := by decide
  have same : postings.Perm others := by decide
  refine ⟨?_, ⟨alone, (steps _ _ _).2 alone⟩, unbroken, same, orders postings others unbroken same⟩
  intro counter
  rw [(sums (before ++ postings)).1 counter]
  cases counter <;> decide

end LayeredCache.Metrics
