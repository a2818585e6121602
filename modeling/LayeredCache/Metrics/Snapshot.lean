import LayeredCache.Metrics.Tally

/-!
# Snapshots

The counts of a cache together with its gauges at one moment, and the share of lookups that found a value.
-/

set_option autoImplicit false

namespace LayeredCache.Metrics

structure Snapshot where
  tally : Tally
  gauge : Gauge → Nat

namespace Snapshot

/-- What a snapshot takes over from a tally for each counter. -/
def reading (tally : Tally) : Counter → Count
  | .getCalls => tally.count .getCalls
  | .getPinnedHits => tally.count .getPinnedHits
  | .getPrimaryHits => tally.count .getPrimaryHits
  | .getSoftHits => tally.count .getSoftHits
  | .getMisses => tally.count .getMisses
  | .putCalls => tally.count .putCalls
  | .putNew => tally.count .putNew
  | .putUpdates => tally.count .putUpdates
  | .putPinned => tally.count .putPinned
  | .removeCalls => tally.count .removeCalls
  | .removeFound => tally.count .removeFound
  | .pinCalls => tally.count .pinCalls
  | .pinFound => tally.count .pinFound
  | .unpinCalls => tally.count .unpinCalls
  | .unpinFound => tally.count .unpinFound
  | .primaryOverflows => tally.count .primaryOverflows
  | .softDemotions => tally.count .softDemotions
  | .softOverflows => tally.count .softOverflows
  | .softPromotions => tally.count .softPromotions
  | .softReclaimed => tally.count .softReclaimed
  | .lockTimeouts => tally.count .lockTimeouts
  | .clears => tally.count .clears

/-- A tally without a cache behind it: every gauge is zero. -/
def ofTally (tally : Tally) : Snapshot := ⟨.ofCounts (reading tally), fun _ => 0⟩

/-- A snapshot takes every count over, each for its own counter. -/
@[simp] theorem ofTally_eq (tally : Tally) : ofTally tally = ⟨tally, fun _ => 0⟩ := by
  refine congrArg (Snapshot.mk · _) (Tally.eq_of_count_eq fun counter => ?_)
  rw [Tally.count_ofCounts]
  cases counter <;> rfl

def value (snapshot : Snapshot) : Metric → Nat
  | .counter counter => (snapshot.tally.count counter).toNat
  | .gauge gauge => snapshot.gauge gauge

/-- The snapshot with the given readings; a counter keeps what fits its range. -/
def ofValues (value : Metric → Nat) : Snapshot :=
  ⟨.ofCounts fun counter => (value (.counter counter)).toUInt64, fun gauge => value (.gauge gauge)⟩

def isZero (snapshot : Snapshot) : Bool := Metric.all.all fun metric => snapshot.value metric == 0

def hits (snapshot : Snapshot) : Count :=
  snapshot.tally.count .getPinnedHits + snapshot.tally.count .getPrimaryHits +
    snapshot.tally.count .getSoftHits

/-- The share of lookups that found a value, zero before the first lookup. -/
def hitRatio (snapshot : Snapshot) : Float :=
  let lookups := snapshot.hits + snapshot.tally.count .getMisses
  if lookups = 0 then 0 else snapshot.hits.toFloat / lookups.toFloat

end Snapshot

end LayeredCache.Metrics
