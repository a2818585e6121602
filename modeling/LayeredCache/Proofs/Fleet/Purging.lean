import LayeredCache.Proofs.Fleet.Twin

/-! Nobody can tell when soft tiers are purged, but for the text for debugging, which counts what is stored and not what is
live. The bound on reclaims that this takes is the least. -/

set_option autoImplicit false

namespace LayeredCache.Twin

variable {Key Value : Type} [DecidableEq Key] {twin : Twin Key Value} {remaining : List (Step Key Value)}
  {number : Nat} {cache : Cache Key Value} {bare : BareCache Key Value}

/-- What a cache and the tiers of its number show at their present moments. The counts of soft entries dropped for
want of room or life are those of the side that drops them. -/
structure ShownAlike (twin : Twin Key Value) (cache : Cache Key Value) (bare : BareCache Key Value) :
    Prop where
  pinned : cache.tiers.pinned = bare.tiers.pinned
  primary : cache.tiers.primary = bare.tiers.primary
  soft : cache.tiers.soft.live (twin.fleet.moment cache) = bare.tiers.soft.live (twin.bench.moment bare)
  gauges : cache.tiers.gauge (twin.fleet.moment cache) = bare.tiers.gauge (twin.bench.moment bare)
  tally : cache.tally.Alike bare.tally

theorem Paired.shownAlike (paired : Paired remaining twin number cache bare)
    (clock : twin.bench.clock = twin.fleet.clock) : ShownAlike twin cache bare where
  pinned := paired.tiers.pinned
  primary := paired.tiers.primary
  soft := by
    rw [paired.moment clock, SoftTier.live_eq_visible, SoftTier.live_eq_visible, paired.tiers.visible]
  gauges := by
    funext gauge
    have lengths := paired.tiers.lengths
    rw [paired.moment clock]
    cases gauge with
    | pinnedLength => exact congrArg (fun lengths => lengths.1) lengths
    | primaryLength => exact congrArg (fun lengths => lengths.2.1) lengths
    | softLength => exact congrArg (fun lengths => lengths.2.2) lengths
    | cacheSize => exact congrArg PrimaryTier.capacity paired.tiers.primary
    | softReferenceSize => exact paired.tiers.softReferenceSize
  tally := paired.tally

variable [BEq Value]

/-- Purging cannot be observed: whatever the settings, and whenever either side is purged, both sides reply the same
throughout a history and show the same after it, as long as no epoch comes back. -/
theorem purging_unobservable (settings : List Settings) (steps : List (Step Key Value))
    (few : ∀ number, reclaims number steps < 2 ^ 64) :
    (∀ replies ∈ ((start settings).run steps).1, replies.1 = replies.2) ∧
      ∀ number < settings.length, ∃ cache bare,
        ((start settings).run steps).2.fleet.caches[number]? = some cache ∧
          ((start settings).run steps).2.bench.caches[number]? = some bare ∧
          ShownAlike ((start settings).run steps).2 cache bare := by
  obtain ⟨same, lockstep⟩ := (start_lockstep settings few).run
  refine ⟨same, ?_⟩
  intro number inside
  obtain ⟨cache, bare, located, bared, paired⟩ := lockstep.present inside
  exact ⟨cache, bare, (Fleet.find?_eq_some_iff.mp located).2, bared, paired.shownAlike lockstep.clock⟩

/-- A dead entry that only one side has dropped, an old key and a new one. -/
theorem unobserved_after_reclaim :
    let steps : List (Step Nat Nat) :=
      [.ask 0 (.put 1 10), .ask 0 (.put 2 20), .reclaim 0, .ask 0 (.put 3 30), .ask 0 (.get 1), .ask 0 .entries]
    (∀ number, reclaims number steps < 2 ^ 64) ∧
      ∀ replies ∈ ((start [{ cacheSize := 1 }]).run steps).1, replies.1 = replies.2 := by
  intro steps
  have few : ∀ number, reclaims number steps < 2 ^ 64 := by
    intro number
    simp only [steps, reclaims, Step.reclaims, List.map_cons, List.map_nil, List.sum_cons, List.sum_nil]
    split <;> decide
  exact ⟨few, (purging_unobservable [{ cacheSize := 1 }] steps few).1⟩

theorem run_append (twin : Twin Key Value) (first second : List (Step Key Value)) :
    twin.run (first ++ second) =
      ((twin.run first).1 ++ ((twin.run first).2.run second).1, ((twin.run first).2.run second).2) := by
  induction first generalizing twin with
  | nil => rfl
  | cons next rest ih =>
      rw [List.cons_append, run, run, ih, List.append_assoc]

/-- Both sides when one number has been reclaimed so many times. -/
def reclaimed (twin : Twin Key Value) (number count : Nat) : Twin Key Value where
  fleet := twin.fleet.adjust number fun cache => { cache with epoch := cache.epoch + UInt64.ofNat count }
  bench := { twin.bench with
    epochs := twin.bench.epochs.modify (Workbench.sharedHandles + number) fun epoch => epoch + UInt64.ofNat count }

theorem run_reclaims (located : twin.fleet.find? number = some (number, cache))
    (bared : twin.bench.caches[number]? = some bare) (count : Nat) :
    twin.run (List.replicate (count + 1) (.reclaim number)) = ([], twin.reclaimed number (count + 1)) := by
  obtain ⟨handled, found⟩ := Fleet.find?_eq_some_iff.mp located
  induction count with
  | zero =>
      simp only [List.replicate, run, step, Fleet.call_reclaim located, Workbench.perform_reclaim bared]
      rfl
  | succ count ih =>
      have relocated : (twin.reclaimed number (count + 1)).fleet.find? number =
          some (number, { cache with epoch := cache.epoch + UInt64.ofNat (count + 1) }) := by
        refine Fleet.find?_eq_some_iff.mpr ⟨handled, ?_⟩
        rw [reclaimed, Fleet.caches_adjust, if_pos rfl, found]
        rfl
      have rebared : (twin.reclaimed number (count + 1)).bench.caches[number]? = some bare := bared
      have next : ∀ epoch : Epoch, epoch + UInt64.ofNat (count + 1) + 1 = epoch + UInt64.ofNat (count + 1 + 1) := by
        intro epoch
        rw [UInt64.ofNat_add (count + 1), UInt64.add_assoc]
        rfl
      rw [List.replicate_succ', run_append, ih]
      simp only [run, step, Fleet.call_reclaim relocated, Workbench.perform_reclaim rebared]
      simp only [reclaimed, Fleet.adjust_adjust, Workbench.reclaim, Fleet.modify_modify, next, Option.toList_none,
        List.append_nil]

/-- One side purges an entry of an earlier epoch, the other does not. -/
def purgedOnce : List (Step Nat Nat) := [.ask 0 (.put 1 10), .reclaim 0, .ask 0 (.unpin 2)]

theorem get_in_returned_epoch :
    ((((start [{ cacheSize := 0 }]).run purgedOnce).2.reclaimed 0 (2 ^ 64 - 1)).step (.ask 0 (.get 1))).1 =
      some (.value none, .value (some 10)) := by
  rfl

theorem few_of_purgedOnce (number : Nat) : reclaims number purgedOnce < 2 ^ 64 := by
  simp only [purgedOnce, reclaims, Step.reclaims, List.map_cons, List.map_nil, List.sum_cons, List.sum_nil]
  split <;> decide

/-- The same, and a get after so many reclaims more. -/
def gotAfter (count : Nat) : List (Step Nat Nat) :=
  purgedOnce ++ (List.replicate count (.reclaim 0) ++ [.ask 0 (.get 1)])

theorem reclaims_gotAfter (count : Nat) : reclaims 0 (gotAfter count) = count + 1 := by
  simp [gotAfter, purgedOnce, reclaims, Step.reclaims, Nat.add_comm]

/-- When as many reclaims as there are epochs follow a demotion, the entry is live again where nothing has purged it. -/
theorem got_in_returned_epoch {count : Nat} (whole : count + 1 = 2 ^ 64 - 1) :
    (.value none, .value (some 10)) ∈ ((start [{ cacheSize := 0 }]).run (gotAfter (count + 1))).1 := by
  have returned := get_in_returned_epoch
  rw [← whole] at returned
  have lockstep := (start_lockstep [{ cacheSize := 0 }] few_of_purgedOnce).run.2
  obtain ⟨cache, bare, located, bared, -⟩ := lockstep.present Nat.zero_lt_one
  rw [gotAfter, run_append, run_append, run_reclaims located bared count, run, returned]
  exact List.mem_append_right _ (List.mem_singleton_self _)

def textOf? : Reply Key Value → Option String
  | .text text => some text
  | _ => none

/-- What does tell whether a soft tier was purged: the text for debugging, which counts the dead entries that are still
stored, and a value whose epoch comes back. -/
theorem purging_shows_at_last :
    let once := ((start [{ cacheSize := 0 }]).run purgedOnce).2
    textOf? (once.fleet.call (.mk 0 .debug)).1 =
        some ("CacheMap \x7b order: Fifo, lock_timeout: 1s, core: TieredCore \x7b order: Fifo, pinned: 0, " ++
          "primary: 0, soft: 0, cache_size: 0, soft_reference_size: 1000, .. \x7d, .. \x7d") ∧
      textOf? (once.bench.perform 0 .debug).1 =
        some ("TieredCore \x7b order: Fifo, pinned: 0, " ++
          "primary: 0, soft: 1, cache_size: 0, soft_reference_size: 1000, .. \x7d") ∧
      reclaims 0 (gotAfter (2 ^ 64 - 1)) = 2 ^ 64 ∧
      (.value none, .value (some 10)) ∈ ((start [{ cacheSize := 0 }]).run (gotAfter (2 ^ 64 - 1))).1 := by
  intro once
  obtain ⟨count, whole⟩ : ∃ count, count + 1 = 2 ^ 64 - 1 := ⟨2 ^ 64 - 2, by omega⟩
  refine ⟨by decide +kernel, by decide +kernel, ?_, ?_⟩
  · rw [reclaims_gotAfter]
    omega
  · rw [← whole]
    exact got_in_returned_epoch whole

end LayeredCache.Twin
