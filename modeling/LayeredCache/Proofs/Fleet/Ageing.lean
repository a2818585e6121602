import LayeredCache.Proofs.Fleet.Passing

/-! The entries of a soft tier die from the front. Stamps are in order whatever happens, so that what is dead at a
moment comes first and a purge drops exactly that; and a writer whose callbacks let no time pass leaves nothing dead
behind. -/

set_option autoImplicit false

namespace LayeredCache.Fleet

variable {Key Value : Type} [DecidableEq Key] {fleet start now later : Fleet Key Value} {number : Nat}
  {cache : Cache Key Value} {react : Reaction Key Value} {listener : Option (Listener Key Value)}

/-- No time has passed for a cache, and the reclaims are few enough to tell. -/
structure Unchanged (start now : Fleet Key Value) (number : Nat) : Prop where
  few : now.reclaims < 2 ^ 64
  clock : now.clock = start.clock
  epoch : now.epochOf number = start.epochOf number

/-- Where no time has passed in the end, none had passed before. -/
theorem Unchanged.earlier (unchanged : Unchanged start later number) (dated : start.Dated)
    (before : Passed start now) (after : Passed now later) : Unchanged start now number := by
  have few := after.reclaims.trans_lt unchanged.few
  have grown := before.epoch_le dated few number
  have regrown := after.epoch_le (before.dated dated) unchanged.few number
  constructor
  · exact few
  · exact Nat.le_antisymm (unchanged.clock ▸ after.clock) before.clock
  · exact UInt64.le_antisymm (unchanged.epoch ▸ regrown) grown

/-- As long as no time has passed for a cache, entries are live that outlive the moment of their acceptance. -/
def StaysLive (start : Fleet Key Value) (number : Nat) (read now : Fleet Key Value) (ttl : Option Span)
    (line : List (Key × Stamped Value)) : Prop :=
  (∀ lifetime ∈ ttl, 0 < lifetime.nanoseconds) ∧ Passed start now ∧
    (Unchanged start now number → read.clock = start.clock ∧
      ∀ entry ∈ line, entry.2.isLive ttl ⟨start.clock, start.epochOf number⟩ = true)

theorem staysLive_later {read : Fleet Key Value} {ttl : Option Span} {line : List (Key × Stamped Value)}
    (dated : start.Dated) (passed : Passed now later) (stays : StaysLive start number read now ttl line) :
    StaysLive start number read later ttl line := by
  obtain ⟨lasting, since, live⟩ := stays
  exact ⟨lasting, since.trans passed, fun unchanged => live (unchanged.earlier dated since passed)⟩

theorem staysLive_law (dated : start.Dated) (moves : (host react number listener).Moves Passed) :
    Law (host react number listener) (StaysLive start number) where
  sublist stays included := by
    obtain ⟨lasting, since, live⟩ := stays
    refine ⟨lasting, since, fun unchanged => ⟨(live unchanged).1, ?_⟩⟩
    intro entry member
    exact (live unchanged).2 entry (included.subset member)
  record recording stays := staysLive_later dated (moves.record recording _) stays
  notify event stays := staysLive_later dated (moves.notify event _) stays
  reread stays := by
    obtain ⟨lasting, since, live⟩ := stays
    exact ⟨lasting, since, fun unchanged => ⟨unchanged.clock, (live unchanged).2⟩⟩
  accepted {read now ttl line} key value stays := by
    obtain ⟨lasting, since, live⟩ := stays
    refine ⟨lasting, since, fun unchanged => ⟨(live unchanged).1, ?_⟩⟩
    intro entry member
    rcases List.mem_append.mp member with old | new
    · exact (live unchanged).2 entry old
    · rw [List.mem_singleton.mp new]
      refine Stamped.isLive_iff.mpr ⟨unchanged.epoch, ?_⟩
      intro lifetime given
      have read : (host react number listener).clock read = start.clock := (live unchanged).1
      rw [read, Nat.sub_self]
      exact lasting lifetime given

/-- A writer purges first and accepts at the present moment, so that it leaves live entries behind. -/
theorem work_live (dated : fleet.Dated) (found : fleet.caches[number]? = some cache)
    (moves : (host react number cache.listener).Moves Passed)
    (lasting : ∀ lifetime ∈ cache.tiers.soft.ttl, 0 < lifetime.nanoseconds) (operation : Operation Key Value)
    (unchanged : Unchanged fleet (work react number cache operation fleet).2 number) :
    ∀ settled, (work react number cache operation fleet).2.caches[number]? = some settled →
      ∀ entry ∈ settled.tiers.soft.toList,
        entry.2.isLive settled.tiers.soft.ttl ⟨fleet.clock, fleet.epochOf number⟩ = true := by
  let worker := host react number cache.listener
  let held := fleet.hold number .exclusive
  have holding : Passed fleet held := Passed.adjust (fun _ => rfl) fun _ => rfl
  have epoch : held.epochOf number = fleet.epochOf number := by
    apply epochOf_adjust
    exact fun _ => rfl
  have start := holding.dated dated
  have law : Law worker (StaysLive held number) := staysLive_law start moves
  let purged := Tiers.purgeSoft worker cache.tiers held
  have passed : Passed held purged.2.2 :=
    (Tiers.operate_simulates (moves.keeps Passed.trans held).simulates .purgeSoft cache.tiers
      ⟨rfl, Passed.refl held⟩).2.2.2
  have begun : Tiers.Obeys (StaysLive held number) purged.2.2 purged.2 := by
    have line : purged.2.1 = { cache.tiers with soft := (cache.tiers.soft.purge (worker.moment held)).2 } :=
      Tiers.purgeSoft_snd worker cache.tiers held
    rw [Tiers.Obeys, line]
    refine ⟨lasting, passed, fun unchanged => ⟨unchanged.clock, ?_⟩⟩
    have moment : worker.moment held = ⟨held.clock, held.epochOf number⟩ := rfl
    have few := passed.reclaims.trans_lt unchanged.few
    have aged : Aged (worker.moment held) cache.tiers.soft.toList := by
      have before := dated.aged few number cache found
      rw [moment, epoch, epochOf, found]
      exact before
    intro entry member
    rw [SoftTier.toList_purge aged] at member
    exact (List.mem_filter.mp member).2
  let worked := Tiers.operateHeld worker operation cache.tiers held
  have stays : Tiers.Obeys (StaysLive held number) worked.2.2 worked.2 := by
    rcases Tiers.operateHeld_cases worker operation cache.tiers held with ⟨-, purges⟩ | operates
    · rw [show worked = _ from purges]
      exact begun
    · rw [show worked = _ from operates, Tiers.operatePurged]
      exact begun.operate law operation
  have still : Unchanged held worked.2.2 number := by
    obtain ⟨few, clock, grown⟩ := unchanged
    refine ⟨few, clock, ?_⟩
    have released : (work react number cache operation fleet).2.epochOf number = worked.2.2.epochOf number := by
      apply epochOf_adjust
      exact fun _ => rfl
    rw [epoch, ← grown, released]
  intro settled present entry member
  rw [caches_work, if_pos rfl] at present
  obtain ⟨stored, -, rfl⟩ := Option.map_eq_some_iff.mp present
  rw [← epoch]
  exact (stays.2.2 still).2 entry member

/-- A call that takes its cache for itself leaves only live entries there, if no time passes meanwhile. -/
theorem perform_live [BEq Value] {depth handle : Nat} {action : Action Key Value} (dated : fleet.Dated)
    (located : fleet.find? handle = some (number, cache))
    (lasting : ∀ lifetime ∈ cache.tiers.soft.ttl, 0 < lifetime.nanoseconds)
    (taken : ∃ acquisition ∈ action.acquisitions fleet number cache, acquisition.mode = .exclusive)
    (granted : fleet.refusal? (.mk handle action) = none)
    (unchanged : Unchanged fleet (perform (reactTo depth) (.mk handle action) fleet).2 number) :
    ∀ settled, (perform (reactTo depth) (.mk handle action) fleet).2.caches[number]? = some settled →
      ∀ entry ∈ settled.tiers.soft.toList, entry.2.isLive settled.tiers.soft.ttl
        ((perform (reactTo depth) (.mk handle action) fleet).2.moment settled) = true := by
  have found := (find?_eq_some_iff.mp located).2
  have moves : (host (reactTo depth) number cache.listener).Moves Passed :=
    host_moves passed_closed (reactTo_related passed_closed depth) number cache.listener
  have reached := @perform_outcome Key Value _ fleet number cache (reactTo depth) _ handle action located
    (granted_of_not_refused located granted)
  have writes : action.writes fleet number cache = true := by simpa [Action.writes] using taken
  obtain ⟨-, operation, -, -, outcome⟩ := reached.worked_of_writes found writes
  revert unchanged
  generalize (perform (reactTo depth) (.mk handle action) fleet).2 = after at outcome ⊢
  intro unchanged settled present
  have moment : after.moment settled = ⟨fleet.clock, fleet.epochOf number⟩ := by
    have epoch := unchanged.epoch
    rw [epochOf, present] at epoch
    rw [moment, unchanged.clock, ← epoch]
    rfl
  rw [moment]
  have live := work_live dated found moves lasting operation
  subst outcome
  rw [caches_adjust, if_pos rfl] at present
  obtain ⟨stored, beneath, rfl⟩ := Option.map_eq_some_iff.mp present
  rw [(beside_install action).tiers]
  refine live ⟨unchanged.few, unchanged.clock, ?_⟩ stored beneath
  refine Eq.trans (Eq.symm ?_) unchanged.epoch
  exact epochOf_adjust (beside_install action).epoch _ number number

/-- The lifetime of valid settings is positive. -/
theorem lifetime_pos {chosen : Settings} (valid : chosen.validate = .ok ()) :
    ∀ lifetime ∈ chosen.softTtlSpan, 0 < lifetime.nanoseconds := by
  intro lifetime given
  obtain ⟨milliseconds, chose, rfl⟩ := Option.map_eq_some_iff.mp given
  have positive : milliseconds ≠ 0 := by
    rintro rfl
    rw [Settings.validate, chose] at valid
    split at valid
    · cases valid
    · cases valid
  have toNat : milliseconds.toNat ≠ 0 := fun zero => positive (UInt64.toNat_inj.mp zero)
  exact Nat.mul_pos (Nat.pos_of_ne_zero toNat) (by decide)

/-- Dead entries come first in every soft tier, in the order of their acceptance, so that a purge drops exactly them, now
and at any later moment; and a call that takes its cache for itself leaves only live entries there, unless it is refused
or time passes in its callbacks. -/
theorem dead_entries_come_first [BEq Value] :
    (∀ (tiers : Tiers Key Value) (moment : Moment), tiers.Lived moment →
      Aged moment tiers.soft.toList ∧
        ∀ later : Moment, moment.Before later → tiers.soft.PurgesExactly later) ∧
    ∀ (settings : List Settings) (requests : List (Call Key Value)),
      let fleet := (ofSettings settings).converse requests
      fleet.reclaims < 2 ^ 64 →
      (∀ (number : Nat) (cache : Cache Key Value), fleet.caches[number]? = some cache →
        Aged (fleet.moment cache) cache.tiers.soft.toList ∧
          ∀ later : Moment, (fleet.moment cache).Before later → cache.tiers.soft.PurgesExactly later) ∧
      ∀ (handle number : Nat) (cache : Cache Key Value) (action : Action Key Value),
        (∀ chosen ∈ settings, chosen.validate = .ok ()) → fleet.find? handle = some (number, cache) →
        (∃ acquisition ∈ action.acquisitions fleet number cache, acquisition.mode = .exclusive) →
        (∀ timeout, (fleet.call (.mk handle action)).1 ≠ .refused timeout) →
        Unchanged fleet (fleet.call (.mk handle action)).2 number →
        ∀ settled, (fleet.call (.mk handle action)).2.caches[number]? = some settled →
          ∀ entry ∈ settled.tiers.soft.toList,
            entry.2.isLive settled.tiers.soft.ttl ((fleet.call (.mk handle action)).2.moment settled) = true := by
  constructor
  · intro tiers moment lived
    have aged := lived.aged
    exact ⟨aged, fun later order => SoftTier.purgesExactly (aged.mono order)⟩
  · intro settings requests fleet few
    have passed : Passed (ofSettings settings) fleet := converse_related passed_closed _ requests
    have dated := passed.dated (ofSettings_dated settings)
    constructor
    · intro number cache found
      have aged := dated.aged few number cache found
      exact ⟨aged, fun later order => SoftTier.purgesExactly (aged.mono order)⟩
    · intro handle number cache action valid located taken answered unchanged
      have found := (find?_eq_some_iff.mp located).2
      have lasting : ∀ lifetime ∈ cache.tiers.soft.ttl, 0 < lifetime.nanoseconds := by
        have same := passed.lifetimes number
        rw [ttlOf?, found] at same
        obtain ⟨fresh, started, ttl⟩ := Option.map_eq_some_iff.mp same.symm
        obtain ⟨chosen, listed, rfl⟩ := cache_ofSettings started
        have kept : chosen.softTtlSpan = cache.tiers.soft.ttl := ttl
        rw [← kept]
        exact lifetime_pos (valid chosen listed)
      cases refused : fleet.refusal? (.mk handle action) with
      | some acquisition =>
          have reported := congrArg Prod.fst (@perform_refused Key Value _ fleet
            (reactTo fleet.caches.size) _ _ _ refused)
          exact absurd reported (answered acquisition.timeout)
      | none => exact perform_live dated located lasting taken refused unchanged

/-- Reclaimed entries are purged by the next put, which leaves what it demotes. -/
theorem put_after_reclaim_leaves_live :
    let settings : Settings := { cacheSize := 1, softReferenceSize := 2, softTtl := some 5 }
    let fleet : Fleet Nat Nat := (ofSettings [settings]).converse
      [.mk 0 (.put 1 10), .mk 0 (.put 2 20), .mk 0 (.put 3 30), .mk 0 .reclaim]
    ∀ settled, (fleet.call (.mk 0 (.put 4 40))).2.caches[0]? = some settled →
      ∀ entry ∈ settled.tiers.soft.toList, entry.2.isLive settled.tiers.soft.ttl
        ((fleet.call (.mk 0 (.put 4 40))).2.moment settled) = true := by
  intro settings fleet
  have few : fleet.reclaims < 2 ^ 64 := by decide +kernel
  have numbered : (fleet.find? 0).map Prod.fst = some 0 := by decide +kernel
  have granted : (fleet.refusal? (.mk 0 (.put 4 40))).isNone = true := by decide +kernel
  have unchanged : Unchanged fleet (fleet.call (.mk 0 (.put 4 40))).2 0 :=
    ⟨by decide +kernel, by decide +kernel, by decide +kernel⟩
  have answered : ∀ timeout, (fleet.call (.mk 0 (.put 4 40))).1 ≠ .refused timeout := by
    unfold call
    exact perform_granted (Option.isNone_iff_eq_none.mp granted)
  obtain ⟨⟨number, cache⟩, located, rfl⟩ := Option.map_eq_some_iff.mp numbered
  have session : fleet = (ofSettings [settings]).converse _ := rfl
  clear_value fleet
  subst session
  exact ((@dead_entries_come_first Nat Nat _ _).2 [settings] _ few).2 0 0 cache (.put 4 40)
    (by decide) located ⟨_, List.mem_cons_self, rfl⟩ answered unchanged

end LayeredCache.Fleet
