/-!
# Metrics

The counters that a cache keeps, the gauges read off it, their names and the order in which they are listed.
-/

set_option autoImplicit false

namespace LayeredCache.Metrics

inductive Counter where
  | getCalls | getPinnedHits | getPrimaryHits | getSoftHits | getMisses
  | putCalls | putNew | putUpdates | putPinned
  | removeCalls | removeFound
  | pinCalls | pinFound | unpinCalls | unpinFound
  | primaryOverflows | softDemotions | softOverflows | softPromotions | softReclaimed
  | lockTimeouts | clears
  deriving DecidableEq, Repr

inductive Gauge where
  | pinnedLength | primaryLength | softLength | cacheSize | softReferenceSize
  deriving DecidableEq, Repr

inductive Metric where
  | counter (counter : Counter)
  | gauge (gauge : Gauge)
  deriving DecidableEq, Repr

namespace Counter

def all : List Counter :=
  [getCalls, getPinnedHits, getPrimaryHits, getSoftHits, getMisses,
    putCalls, putNew, putUpdates, putPinned,
    removeCalls, removeFound,
    pinCalls, pinFound, unpinCalls, unpinFound,
    primaryOverflows, softDemotions, softOverflows, softPromotions, softReclaimed,
    lockTimeouts, clears]

def name : Counter → String
  | getCalls => "get_calls"
  | getPinnedHits => "get_pinned_hits"
  | getPrimaryHits => "get_primary_hits"
  | getSoftHits => "get_soft_hits"
  | getMisses => "get_misses"
  | putCalls => "put_calls"
  | putNew => "put_new"
  | putUpdates => "put_updates"
  | putPinned => "put_pinned"
  | removeCalls => "remove_calls"
  | removeFound => "remove_found"
  | pinCalls => "pin_calls"
  | pinFound => "pin_found"
  | unpinCalls => "unpin_calls"
  | unpinFound => "unpin_found"
  | primaryOverflows => "primary_overflows"
  | softDemotions => "soft_demotions"
  | softOverflows => "soft_overflows"
  | softPromotions => "soft_promotions"
  | softReclaimed => "soft_reclaimed"
  | lockTimeouts => "lock_timeouts"
  | clears => "clears"

theorem mem_all (counter : Counter) : counter ∈ all := by
  cases counter <;> decide

theorem nodup_all : all.Nodup := by decide

def place (counter : Counter) : Fin all.length :=
  ⟨all.idxOf counter, List.idxOf_lt_length_of_mem counter.mem_all⟩

theorem all_place (counter : Counter) : all[counter.place] = counter :=
  List.getElem_idxOf (List.idxOf_lt_length_of_mem counter.mem_all)

theorem place_inj {left right : Counter} : left.place = right.place ↔ left = right := by
  constructor
  · intro same
    exact (all_place left).symm.trans ((congrArg (all[·]) same).trans (all_place right))
  · intro same
    rw [same]

theorem place_all (place : Fin all.length) : all[place].place = place :=
  Fin.ext (nodup_all.idxOf_getElem place.val place.isLt)

end Counter

namespace Gauge

def all : List Gauge := [pinnedLength, primaryLength, softLength, cacheSize, softReferenceSize]

def name : Gauge → String
  | pinnedLength => "pinned_len"
  | primaryLength => "primary_len"
  | softLength => "soft_len"
  | cacheSize => "cache_size"
  | softReferenceSize => "soft_reference_size"

theorem mem_all (gauge : Gauge) : gauge ∈ all := by
  cases gauge <;> decide

end Gauge

namespace Metric

def all : List Metric := Counter.all.map .counter ++ Gauge.all.map .gauge

def name : Metric → String
  | .counter which => which.name
  | .gauge which => which.name

theorem mem_all (metric : Metric) : metric ∈ all := by
  cases metric with
  | counter which => simp [all, which.mem_all]
  | gauge which => simp [all, which.mem_all]

end Metric

end LayeredCache.Metrics
