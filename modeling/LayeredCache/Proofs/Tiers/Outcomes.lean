import LayeredCache.Proofs.Metrics.Outcomes
import LayeredCache.Proofs.Tiers.Recordings

/-! Calls and their outcomes, as operations have them counted. Every deed counts its call together with what came of it,
and events count nothing that belongs to another call; a value that is got is counted as got in one place, or as
missed. -/

set_option autoImplicit false

namespace LayeredCache

open Metrics (Counter Recording Consistent total)

variable {World Key Value : Type}

/-- The counters of what has come of values that were asked for. -/
def Metrics.Counter.getOutcomes : List Counter := [.getPinnedHits, .getPrimaryHits, .getSoftHits, .getMisses]

/-- The counters of values that were asked for. -/
def Metrics.Counter.gets : List Counter := .getCalls :: getOutcomes

theorem Event.consistent (event : Event Key Value) : Consistent [event.recording] := by
  cases event with
  | primaryOverflow key value demoted =>
      have each : ∀ demoted, Consistent [.primaryOverflow demoted] := by decide
      exact each demoted
  | softOverflow key value =>
      show Consistent [.softOverflow]
      decide
  | softReclaimed key =>
      show Consistent [.softReclaimed 1]
      decide

theorem consistent_events (events : List (Event Key Value)) : Consistent (events.map Event.recording) := by
  rw [← List.flatMap_singleton' (events.map Event.recording), List.flatMap_map]
  exact Metrics.consistent_flatMap fun event _ => event.consistent

/-- No event is counted as a value that was asked for. -/
theorem total_events_gets {counter : Counter} (asked : counter ∈ Counter.gets) (events : List (Event Key Value)) :
    total counter (events.map Event.recording) = 0 := by
  rw [total_events, List.countP_eq_zero]
  intro event _
  have none : ∀ counter ∈ Counter.gets, counter ≠ .primaryOverflows ∧ counter ≠ .softDemotions ∧
      counter ≠ .softOverflows ∧ counter ≠ .softReclaimed := by
    decide
  obtain ⟨primary, demoted, soft, reclaimed⟩ := none counter asked
  cases event <;> simp [Event.counts, primary, demoted, soft, reclaimed]

/-- Recordings of one value that is got: once as got, and once as found in some place or missed. -/
def GotOnce (recordings : List Recording) (found : Bool) : Prop :=
  ∃ outcome ∈ Counter.getOutcomes, (outcome = .getMisses ↔ found = false) ∧
    ∀ counter ∈ Counter.gets, total counter recordings = if counter = .getCalls ∨ counter = outcome then 1 else 0

/-- What does not count values makes no difference. -/
theorem GotOnce.of_total {recordings others : List Recording} {found : Bool} (once : GotOnce recordings found)
    (same : ∀ counter ∈ Counter.gets, total counter others = total counter recordings) : GotOnce others found := by
  obtain ⟨outcome, listed, missed, counts⟩ := once
  exact ⟨outcome, listed, missed, fun counter asked => (same counter asked).trans (counts counter asked)⟩

variable [DecidableEq Key]

theorem Tiers.consistent_getRecordings (tiers : Tiers Key Value) (key : Key) (found : Bool) :
    Consistent (tiers.getRecordings key found) := by
  rw [getRecordings]
  split
  · decide
  · split
    · decide
    · split <;> decide

/-- A value that is got is counted once, and its outcome is. -/
theorem Tiers.gotOnce_getRecordings (tiers : Tiers Key Value) (key : Key) (found : Bool) :
    GotOnce (tiers.getRecordings key found) found := by
  rw [getRecordings]
  cases found with
  | false =>
      refine ⟨.getMisses, by decide, by decide, ?_⟩
      show ∀ counter ∈ Counter.gets, total counter [.getCall, .getMiss] = _
      decide
  | true =>
      simp only [Bool.not_true, Bool.false_eq_true, ↓reduceIte]
      split
      · exact ⟨.getPinnedHits, by decide, by decide, by decide⟩
      · split
        · exact ⟨.getPrimaryHits, by decide, by decide, by decide⟩
        · exact ⟨.getSoftHits, by decide, by decide, by decide⟩

/-- A writer that gets a value has counted it once, whatever is purged before and demoted in its course. -/
theorem Tiers.gotOnce_held (host : Host World Key Value) (key : Key) (tiers : Tiers Key Value) (world : World) :
    ∃ found, (operateHeld host (.get key) tiers world).1 = .value found ∧
      GotOnce ((deedsHeld host (.get key) tiers world).flatMap Deed.recordings) found.isSome := by
  let purged := purgeSoft host tiers world
  let purge := deed host .purgeSoft tiers world
  let got := deed host (.get key) purged.2.1 purged.2.2
  let value := (get host key purged.2.1 purged.2.2).1
  have told : (operateHeld host (.get key) tiers world).1 = .value value := rfl
  have answered : got.answer = .value value := rfl
  have recordings : (deedsHeld host (.get key) tiers world).flatMap Deed.recordings =
      purge.recordings ++ (got.recordings ++ []) := rfl
  have purging : purge.callRecordings = [] := rfl
  have getting : got.callRecordings = purged.2.1.getRecordings key got.answer.found := rfl
  have counted : ∀ counter ∈ Counter.gets,
      total counter ((deedsHeld host (.get key) tiers world).flatMap Deed.recordings) =
        total counter (purged.2.1.getRecordings key value.isSome) := by
    intro counter asked
    rw [recordings, List.append_nil, Metrics.total_append, Deed.recordings, Metrics.total_append, total_events_gets asked,
      Deed.recordings, Metrics.total_append, total_events_gets asked, purging, getting, answered, Metrics.total_nil,
      Nat.add_zero, Nat.add_zero, Nat.zero_add, Answer.found]
  exact ⟨value, told, (purged.2.1.gotOnce_getRecordings key value.isSome).of_total counted⟩

/-- What a deed has counted is consistent. -/
theorem Deed.consistent (done : Deed Key Value) : Consistent done.recordings := by
  have call : Consistent done.callRecordings := by
    rw [callRecordings]
    split
    · split
      · decide
      · split <;> decide
    · exact done.before.consistent_getRecordings _ _
    · split <;> decide
    · split <;> decide
    · split <;> decide
    all_goals decide
  exact call.append (consistent_events done.events)

end LayeredCache
