import LayeredCache.Proofs.Fleet.Deeds
import LayeredCache.Proofs.Tiers.Pins

/-! Pins in a fleet. Whatever is called, by users or by listeners, a pinned value is served until its key is named, and
the keys pinned are those that calls have pinned and not unpinned since. -/

set_option autoImplicit false

namespace LayeredCache.Fleet

variable {Key Value : Type} [DecidableEq Key] [BEq Value]

/-- A cache that has a value for a key under a pin, and tells so whoever asks, if readers are let in at all. -/
structure ServesPinned (number : Nat) (key : Key) (value : Value) (fleet : Fleet Key Value) : Prop where
  held : ∃ tiers, fleet.tiers? number = some tiers ∧ tiers.pinned.slot? key = some (some value)
  told : ∀ {handle cache}, fleet.find? handle = some (number, cache) → cache.hold.admits .shared = true →
    ∀ react, (perform react (.mk handle (.isPinned key)) fleet).1 = .flag true ∧
      (perform react (.mk handle (.get key)) fleet).1 = .value (some value)

variable {fleet : Fleet Key Value} {number : Nat} {tiers : Tiers Key Value} {key : Key} {value : Value}

theorem servesPinned (stored : fleet.tiers? number = some tiers)
    (held : tiers.pinned.slot? key = some (some value)) : fleet.ServesPinned number key value := by
  refine ⟨⟨tiers, stored, held⟩, ?_⟩
  intro handle cache located shared react
  have found := (find?_eq_some_iff.mp located).2
  have same : cache.tiers = tiers := by
    rw [tiers?, found] at stored
    exact Option.some.inj stored
  subst same
  constructor
  · have pinned : cache.tiers.isPinned key = true :=
      PinnedTier.isPinned_iff.mpr (by rw [held]; exact Option.some_ne_none _)
    simp only [perform, located, read, shared, ↓reduceIte, reply, pinned]
  · have hit : (cache.tiers.lookup (host react number cache.listener) key fleet).1 = .hit value := by
      simp only [Tiers.lookup, held]
    simp only [perform, located, get, shared, ↓reduceIte]
    revert hit
    generalize cache.tiers.lookup (host react number cache.listener) key fleet = looked
    obtain ⟨found, after⟩ := looked
    rintro rfl
    rfl

/-- Pinned values last, in whatever way a cache is used: until its key is named, a value is served wherever it can be
seen. The keys registered are those pinned and not unpinned since, to which no put adds or takes away. -/
theorem pins_last {requests : List (Call Key Value)} {trace : List (Frame Key Value)}
    (carried : CarriedOut [⟨[], requests, fleet, fleet.converse requests⟩] trace) (number : Nat) {tiers : Tiers Key Value}
    (stored : fleet.tiers? number = some tiers) :
    ∀ deeds now, Shown number trace (fleet.converse requests) deeds now →
      (∀ key value, tiers.pinned.slot? key = some (some value) →
        (∀ deed ∈ deeds, deed.operation.spares key = true) → now.ServesPinned number key value) ∧
      (∃ later, now.tiers? number = some later ∧ ∀ key, later.isPinned key = true ↔
        Tiers.PinnedBy deeds key ∨
          tiers.isPinned key = true ∧ ∀ deed ∈ deeds, deed.operation.unpins key = false) ∧
      ∀ deed ∈ deeds, ∀ key value, deed.operation = .put key value → deed.before.isPinned key = true →
        deed.after = { deed.before with pinned := deed.before.pinned.pin key (some value) } ∧
          deed.after.pinnedKeys = deed.before.pinnedKeys ∧ deed.after.pinned.slot? key = some (some value) := by
  intro deeds now shown
  obtain ⟨later, found, course⟩ := shown.course carried stored
  refine ⟨?_, ⟨later, found, fun key => course.isPinned_iff⟩, ?_⟩
  · intro key value held spared
    exact servesPinned found (course.holds spared held)
  · intro deed listed key value asked pinned
    exact course.fills listed asked pinned

/-- A pinned value outlasts a put elsewhere and a cache without any room. -/
theorem pin_outlasts_room :
    let settings : Settings := { cacheSize := 1, softReferenceSize := 1 }
    let fleet : Fleet Nat Nat := (ofSettings [settings]).converse [.mk 0 (.put 1 10), .mk 0 (.pin 1)]
    let requests : List (Call Nat Nat) :=
      [.mk 0 (.put 2 20), .mk 0 (.put 3 30), .mk 0 .reclaim, .mk 0 (.setCacheSize 0), .mk 0 (.setSoftReferenceSize 0)]
    (fleet.converse requests).ServesPinned 0 1 10 := by
  intro settings fleet requests
  have each : (begun (reactTo fleet.caches.size) [] requests fleet).all (alone (reactTo fleet.caches.size)) = true := by
    decide +kernel
  have spared : ((begun (reactTo fleet.caches.size) [] requests fleet).flatMap (Frame.deedsOn 0)).all
      (fun deed => deed.operation.spares 1) = true := by
    decide +kernel
  have pinned : (fleet.tiers? 0).map (fun tiers => tiers.pinned.slot? 1) = some (some (some 10)) := by decide +kernel
  obtain ⟨tiers, stored, held⟩ := Option.map_eq_some_iff.mp pinned
  clear_value fleet requests
  have carried := converse_begun fleet each
  exact (pins_last carried 0 stored _ _ .ended).1 1 10 held (List.all_eq_true.mp spared)

end LayeredCache.Fleet
