import LayeredCache.Proofs.Metrics.Totals

/-! Calls and their outcomes, as counted. Recordings are consistent if every call that they count comes with as many
outcomes as it has, and nothing is found, promoted or demoted without the call or the move that it comes with. A tally of
consistent recordings shows it: equations hold up to the range of a count, inequalities as long as no count has left
it. -/

set_option autoImplicit false

namespace LayeredCache.Metrics

/-- What is counted of values got has one outcome each, and so has what is put; whatever is got from the soft tier is
promoted; and there are no more finds and demotions than calls and overflows. -/
structure Consistent (recordings : List Recording) : Prop where
  gets : total .getCalls recordings = total .getPinnedHits recordings + total .getPrimaryHits recordings +
    total .getSoftHits recordings + total .getMisses recordings
  puts : total .putCalls recordings =
    total .putNew recordings + total .putUpdates recordings + total .putPinned recordings
  promotions : total .softPromotions recordings = total .getSoftHits recordings
  removes : total .removeFound recordings ≤ total .removeCalls recordings
  pins : total .pinFound recordings ≤ total .pinCalls recordings
  unpins : total .unpinFound recordings ≤ total .unpinCalls recordings
  demotions : total .softDemotions recordings ≤ total .primaryOverflows recordings

instance (recordings : List Recording) : Decidable (Consistent recordings) :=
  decidable_of_iff
    (total .getCalls recordings = total .getPinnedHits recordings + total .getPrimaryHits recordings +
        total .getSoftHits recordings + total .getMisses recordings ∧
      total .putCalls recordings =
        total .putNew recordings + total .putUpdates recordings + total .putPinned recordings ∧
      total .softPromotions recordings = total .getSoftHits recordings ∧
      total .removeFound recordings ≤ total .removeCalls recordings ∧
      total .pinFound recordings ≤ total .pinCalls recordings ∧
      total .unpinFound recordings ≤ total .unpinCalls recordings ∧
      total .softDemotions recordings ≤ total .primaryOverflows recordings)
    ⟨fun ⟨gets, puts, promotions, removes, pins, unpins, demotions⟩ =>
        ⟨gets, puts, promotions, removes, pins, unpins, demotions⟩,
      fun ⟨gets, puts, promotions, removes, pins, unpins, demotions⟩ =>
        ⟨gets, puts, promotions, removes, pins, unpins, demotions⟩⟩

variable {recordings some others : List Recording}

theorem consistent_nil : Consistent [] := by decide

theorem Consistent.append (first : Consistent some) (second : Consistent others) : Consistent (some ++ others) := by
  constructor <;> simp only [total_append]
  · rw [first.gets, second.gets]
    omega
  · rw [first.puts, second.puts]
    omega
  · rw [first.promotions, second.promotions]
  · exact Nat.add_le_add first.removes second.removes
  · exact Nat.add_le_add first.pins second.pins
  · exact Nat.add_le_add first.unpins second.unpins
  · exact Nat.add_le_add first.demotions second.demotions

theorem consistent_flatMap {Item : Type} {items : List Item} {counted : Item → List Recording}
    (each : ∀ item ∈ items, Consistent (counted item)) : Consistent (items.flatMap counted) := by
  induction items with
  | nil => exact consistent_nil
  | cons item rest ih =>
      obtain ⟨first, others⟩ := List.forall_mem_cons.mp each
      rw [List.flatMap_cons]
      exact first.append (ih others)

namespace Tally

/-- Counts of calls that come with their outcomes, up to the range of a count. -/
structure Partitioned (tally : Tally) : Prop where
  gets : tally.count .getCalls =
    tally.count .getPinnedHits + tally.count .getPrimaryHits + tally.count .getSoftHits + tally.count .getMisses
  puts : tally.count .putCalls = tally.count .putNew + tally.count .putUpdates + tally.count .putPinned
  promotions : tally.count .softPromotions = tally.count .getSoftHits

/-- Counts of finds and demotions that do not exceed those of what they come with. -/
structure Bounded (tally : Tally) : Prop where
  removes : tally.count .removeFound ≤ tally.count .removeCalls
  pins : tally.count .pinFound ≤ tally.count .pinCalls
  unpins : tally.count .unpinFound ≤ tally.count .unpinCalls
  demotions : tally.count .softDemotions ≤ tally.count .primaryOverflows

theorem partitioned_of_consistent (consistent : Consistent recordings) : (zero.recordAll recordings).Partitioned := by
  constructor <;> simp only [count_recordAll_zero]
  · rw [consistent.gets, toUInt64_add, toUInt64_add, toUInt64_add]
  · rw [consistent.puts, toUInt64_add, toUInt64_add]
  · rw [consistent.promotions]

theorem toUInt64_le {least most : Nat} (below : least ≤ most) (fits : most < 2 ^ 64) :
    least.toUInt64 ≤ most.toUInt64 := by
  rw [UInt64.le_iff_toNat_le, toNat_toUInt64 fits, toNat_toUInt64 (Nat.lt_of_le_of_lt below fits)]
  exact below

theorem bounded_of_consistent (consistent : Consistent recordings)
    (fits : ∀ counter, total counter recordings < 2 ^ 64) : (zero.recordAll recordings).Bounded := by
  constructor <;> simp only [count_recordAll_zero]
  · exact toUInt64_le consistent.removes (fits _)
  · exact toUInt64_le consistent.pins (fits _)
  · exact toUInt64_le consistent.unpins (fits _)
  · exact toUInt64_le consistent.demotions (fits _)

end Tally

end LayeredCache.Metrics
