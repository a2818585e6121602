import LayeredCache.Proofs.Fleet.Deeds
import LayeredCache.Proofs.Fleet.Passing
import LayeredCache.Proofs.Tiers.Readings

/-! What readers of a cache are told between the operations of its writers. Nobody but a search lets anything happen while
it reads, and a value is looked up a second time only after a purge; where neither takes any time, all of them tell of the
same entries. -/

set_option autoImplicit false

namespace LayeredCache

variable {World Key Value : Type} [DecidableEq Key]

/-- A search tells what the entries of its moment tell, if no epoch begins in its course. -/
theorem Tiers.searchValue_fst [BEq Value] {host : Host World Key Value} {atFirst : World → World} {value : Value}
    {tiers : Tiers Key Value} {world : World}
    (same : host.epoch (tiers.searchValue host atFirst value world).2 = host.epoch world) :
    (tiers.searchValue host atFirst value world).1 = tiers.containsValue (host.moment world) value := by
  have split : tiers.containsValue (host.moment world) value =
      ((tiers.pinned.toList ++ tiers.primary.toList).any (fun entry => entry.2 == value) ||
        (tiers.soft.live (host.moment world)).any fun entry => entry.2 == value) := by
    simp only [containsValue, entries, List.any_append, List.any_map]
    rfl
  revert same
  rw [split, searchValue]
  cases found : (tiers.pinned.toList ++ tiers.primary.toList).any fun entry => entry.2 == value with
  | true => exact fun _ => rfl
  | false =>
      cases early : (tiers.pinned.toList ++ tiers.primary.toList).isEmpty with
      | true => exact fun _ => rfl
      | false =>
          intro same
          have epoch : host.epoch (atFirst world) = host.epoch world := same
          simp only [Bool.false_eq_true, ↓reduceIte, epoch, Bool.false_or]
          rfl

theorem Tiers.operateHeld_get (host : Host World Key Value) (key : Key) (tiers : Tiers Key Value) (world : World) :
    (operateHeld host (.get key) tiers world).1 =
      .value (get host key (purgeSoft host tiers world).2.1 (purgeSoft host tiers world).2.2).1 :=
  rfl

namespace Fleet

variable {fleet before between after : Fleet Key Value} {number : Nat} {cache : Cache Key Value}
  {react : Reaction Key Value} {handle : Nat}

/-- Neither has time passed from one fleet to the next, nor was any cache reclaimed. -/
structure Paused (before after : Fleet Key Value) : Prop where
  clock : after.clock = before.clock
  reclaims : after.reclaims = before.reclaims

/-- No change of a cache takes any time. -/
theorem Paused.within {change restore : Cache Key Value → Cache Key Value}
    (paused : Paused before (after.adjust number restore)) : Paused (before.adjust number change) after :=
  ⟨paused.clock, paused.reclaims⟩

theorem Paused.adjust (paused : Paused before after) (number : Nat) (change : Cache Key Value → Cache Key Value) :
    Paused before (after.adjust number change) :=
  ⟨paused.clock, paused.reclaims⟩

/-- Where no time has passed in the end, none has passed before. -/
theorem Elapsed.paused (start : Elapsed before between) (rest : Elapsed between after) (paused : Paused before after) :
    Paused before between where
  clock := Nat.le_antisymm (paused.clock ▸ rest.clock) start.clock
  reclaims := Nat.le_antisymm (paused.reclaims ▸ rest.reclaims) start.reclaims

theorem Elapsed.epochOf_eq (elapsed : Elapsed before after) (paused : Paused before after) (number : Nat) :
    after.epochOf number = before.epochOf number := by
  obtain ⟨more, counted, grown⟩ := elapsed.epochs number
  obtain rfl : more = 0 := by
    have same := paused.reclaims
    omega
  exact grown.trans (UInt64.add_zero _)

theorem admits_shared (found : fleet.caches[number]? = some cache) (idle : ¬fleet.Busy number) :
    cache.hold.admits .shared = true := by
  cases held : cache.hold with
  | free => rfl
  | held mode =>
      cases mode with
      | shared => rfl
      | exclusive => exact absurd ⟨cache, found, held⟩ idle

/-- What a cache sees of a fleet that holds it is what the fleet was before, as long as no time passes. -/
theorem moment_worked (found : fleet.caches[number]? = some cache) {mode : LockMode}
    {listener : Option (Listener Key Value)} {world : Fleet Key Value} (elapsed : Elapsed (fleet.hold number mode) world)
    (paused : Paused (fleet.hold number mode) world) :
    (host react number listener).moment world = fleet.moment cache := by
  have held : (fleet.hold number mode).epochOf number = fleet.epochOf number :=
    @epochOf_adjust Key Value _ (fun cache => { cache with hold := .held mode }) (fun _ => rfl) fleet number number
  have epoch := (elapsed.epochOf_eq paused number).trans held
  rw [epochOf, epochOf, found] at epoch
  exact congrArg₂ Moment.mk paused.clock epoch

/-- A writer that looks a key up gives it the value that it showed before, if no time passes meanwhile. -/
theorem work_get (found : fleet.caches[number]? = some cache) (valid : cache.tiers.Valid) (key : Key)
    (moves : (host react number cache.listener).Moves Elapsed)
    (paused : Paused fleet (work react number cache (.get key) fleet).2) :
    (work react number cache (.get key) fleet).1 = .value (cache.tiers.value? (fleet.moment cache) key) := by
  obtain ⟨before, rest⟩ := Tiers.operateHeld_moves moves Elapsed.refl Elapsed.trans (.get key) cache.tiers
    (fleet.hold number .exclusive)
  have shown := Tiers.value?_purgeSoft (host react number cache.listener) cache.tiers (fleet.hold number .exclusive) key
  have purged := valid.purgeSoft (host react number cache.listener) (fleet.hold number .exclusive)
  rw [work] at paused ⊢
  dsimp only at paused ⊢
  rw [Tiers.operateHeld_get]
  have still := (before.paused rest paused.within).adjust number (Cache.record .getCall)
  have moment := @moment_worked Key Value _ fleet number cache react found .exclusive cache.listener _
    (before.trans (moves.record .getCall _)) still
  rw [moment_hold found] at shown
  rw [Tiers.get_fst purged, moment, shown]

/-- Nobody who gets a value is refused a cache that is free. -/
theorem refusal_get_of_free (located : fleet.find? handle = some (number, cache)) (free : cache.hold = .free) (key : Key) :
    fleet.refusal? (.mk handle (.get key)) = none := by
  have same : ∀ acquisition ∈ (Action.get key).acquisitions fleet number cache, acquisition.cache = cache := by
    rw [Action.acquisitions]
    cases (cache.tiers.lookup (.still (fleet.moment cache)) key cache.tally).1 with
    | hit | miss => exact List.forall_mem_singleton.mpr rfl
    | needsWrite => exact List.forall_mem_cons.mpr ⟨rfl, List.forall_mem_singleton.mpr rfl⟩
  rw [refusal?, acquisitions, Call.handle, located, List.find?_eq_none]
  intro acquisition taken
  rw [Acquisition.granted, same acquisition taken, free]
  exact Bool.false_ne_true

variable [BEq Value]

/-- A reader is told what it asks for, where no writer holds the cache. -/
theorem perform_report (located : fleet.find? handle = some (number, cache)) (shared : cache.hold.admits .shared = true)
    {action : Action Key Value} (plain : ∀ value calls, action ≠ .containsValue value calls) {reply : Reply Key Value}
    (reported : cache.report? fleet.clock action = some reply) (react : Reaction Key Value) :
    perform react (.mk handle action) fleet = (reply, fleet) := by
  rw [perform, located]
  cases action with
  | containsValue value calls => exact absurd rfl (plain value calls)
  | containsKey | isPinned | size | isEmpty | cacheSize | softReferenceSize | pinnedKeys | keys
  | entries | audit | metrics | exposition =>
      obtain rfl := Option.some.inj reported
      simp only [read, shared, ↓reduceIte]
      rfl
  | concurrencyLevel | isLru | evictionOrder | lockTimeout | epoch | debug | debugIndented =>
      obtain rfl := Option.some.inj reported
      rfl
  | _ => cases reported

theorem host_elapses (depth number : Nat) (listener : Option (Listener Key Value)) :
    (host (reactTo depth) number listener).Moves (@Elapsed Key Value _) :=
  (host_moves passed_closed (reactTo_related passed_closed depth) number listener).imp Passed.toElapsed

/-- A search in the course of which no time passes tells what the entries tell. -/
theorem reply_containsValue (located : fleet.find? handle = some (number, cache))
    (shared : cache.hold.admits .shared = true) (value : Value) (during : List (Call Key Value))
    (paused : Paused fleet (fleet.call (.mk handle (.containsValue value during))).2) :
    (fleet.call (.mk handle (.containsValue value during))).1 =
      .flag (cache.tiers.containsValue (fleet.moment cache) value) := by
  have found := (find?_eq_some_iff.mp located).2
  have moves : ∀ world : Fleet Key Value, Elapsed world (performEach (reactTo fleet.caches.size) during world) :=
    fun world => (performEach_related passed_closed (reactTo_related passed_closed _) during world).toElapsed
  rw [call, perform, located] at paused ⊢
  simp only [searchValue, shared, ↓reduceIte] at paused ⊢
  let searched := cache.tiers.searchValue (host (reactTo fleet.caches.size) number cache.listener)
    (performEach (reactTo fleet.caches.size) during) value (fleet.hold number .shared)
  have elapsed : Elapsed (fleet.hold number .shared) searched.2 := by
    rw [searchValue_snd]
    split
    · exact .refl _
    · exact moves _
  have still : Paused (fleet.hold number .shared) searched.2 := paused.within
  have told : searched.1 = _ := Tiers.searchValue_fst (elapsed.epochOf_eq still number)
  rw [moment_hold found] at told
  exact congrArg Reply.flag told

/-- A value that is got without any time passing is the one that the key shows. -/
theorem reply_get (located : fleet.find? handle = some (number, cache)) (valid : cache.tiers.Valid) (key : Key)
    (paused : Paused fleet (fleet.call (.mk handle (.get key))).2)
    (granted : fleet.refusal? (.mk handle (.get key)) = none) :
    (fleet.call (.mk handle (.get key))).1 = .value (cache.tiers.value? (fleet.moment cache) key) := by
  have found := (find?_eq_some_iff.mp located).2
  have reached : Outcome (reactTo fleet.caches.size) fleet number cache (.get key) (fleet.call (.mk handle (.get key))) :=
    perform_outcome located (granted_of_not_refused located granted)
  have moment : (host (reactTo fleet.caches.size) number cache.listener).moment fleet = fleet.moment cache :=
    moment_host found _
  generalize fleet.call (.mk handle (.get key)) = outcome at paused reached
  cases reached with
  | told reported => cases reported
  | hit looked =>
      have shown := Tiers.value?_of_hit valid (congrArg Prod.fst looked)
      rw [moment] at shown
      exact congrArg Reply.value shown.symm
  | miss looked =>
      have shown := (Tiers.value?_of_miss valid).mp (congrArg Prod.fst looked)
      rw [moment] at shown
      exact congrArg Reply.value shown.symm
  | worked asked free =>
      obtain rfl := Option.some.inj asked
      have got := work_get found valid key (host_elapses fleet.caches.size number cache.listener) paused
      rw [got]
      rfl

/-- Every reader of a cache is told of the same entries and of the same pins. Who searches or gets a value may let time
pass, and is told of these entries as well if none passes; only a search that is under way keeps a value from being got. -/
structure Tells (fleet : Fleet Key Value) (handle : Nat) (shown : List (Entry Key Value)) (pinned : List Key) :
    Prop where
  entries : (fleet.call (.mk handle .entries)).1 = .entries shown
  keys : (fleet.call (.mk handle .keys)).1 = .keys (shown.map fun entry => (entry.key, entry.tier))
  size : (fleet.call (.mk handle .size)).1 = .number shown.length
  isEmpty : (fleet.call (.mk handle .isEmpty)).1 = .flag shown.isEmpty
  metrics : ∃ snapshot, (fleet.call (.mk handle .metrics)).1 = .snapshot snapshot ∧
    shown.map Entry.tier =
      List.replicate (snapshot.gauge .pinnedLength) .pinned ++ List.replicate (snapshot.gauge .primaryLength) .primary ++
        List.replicate (snapshot.gauge .softLength) .soft
  containsKey : ∀ key, (fleet.call (.mk handle (.containsKey key))).1 = .flag (decide (key ∈ shown.map Entry.key))
  containsValue : ∀ value during, let answered := fleet.call (.mk handle (.containsValue value during))
    fleet.Paused answered.2 → answered.1 = .flag (shown.any fun entry => entry.value == value)
  get : ∀ key, let answered := fleet.call (.mk handle (.get key))
    fleet.Paused answered.2 → answered.1 = .value (Bindings.find? key (shown.map Entry.binding)) ∨
      (∃ timeout, answered.1 = .refused timeout) ∧
        ∃ number cache, fleet.find? handle = some (number, cache) ∧ cache.hold = .held .shared
  pinnedKeys : (fleet.call (.mk handle .pinnedKeys)).1 = .pinnedKeys pinned
  isPinned : ∀ key, (fleet.call (.mk handle (.isPinned key))).1 = .flag (decide (key ∈ pinned))

theorem tells_of_valid (located : fleet.find? handle = some (number, cache)) (valid : cache.tiers.Valid)
    (idle : ¬fleet.Busy number) :
    fleet.Tells handle (cache.tiers.entries (fleet.moment cache)) cache.tiers.pinnedKeys := by
  have shared := admits_shared (find?_eq_some_iff.mp located).2 idle
  have shows := valid.shows (fleet.moment cache)
  have reports : ∀ (action : Action Key Value) {reply : Reply Key Value},
      (∀ value calls, action ≠ .containsValue value calls) → cache.report? fleet.clock action = some reply →
        (fleet.call (.mk handle action)).1 = reply := by
    intro action reply plain reported
    rw [call, perform_report located shared plain reported]
  constructor
  · exact reports .entries (by rintro _ _ ⟨⟩) rfl
  · exact reports .keys (by rintro _ _ ⟨⟩) rfl
  · rw [← shows.size]
    exact reports .size (by rintro _ _ ⟨⟩) rfl
  · refine (reports .isEmpty (by rintro _ _ ⟨⟩) rfl).trans (congrArg Reply.flag ?_)
    rw [Bool.eq_iff_iff, List.isEmpty_iff_length_eq_zero, ← shows.size, beq_iff_eq]
    rfl
  · exact ⟨_, reports .metrics (by rintro _ _ ⟨⟩) rfl, shows.order⟩
  · intro key
    refine (reports (.containsKey key) (by rintro _ _ ⟨⟩) rfl).trans (congrArg Reply.flag ?_)
    rw [Bool.eq_iff_iff, decide_eq_true_iff]
    exact shows.containsKey key
  · exact fun value during paused => reply_containsValue located shared value during paused
  · intro key answered paused
    rw [Tiers.find?_entries]
    cases held : cache.hold with
    | free => exact .inl (reply_get located valid key paused (refusal_get_of_free located held key))
    | held mode =>
        cases mode with
        | exclusive => exact absurd ⟨cache, (find?_eq_some_iff.mp located).2, held⟩ idle
        | shared =>
            cases refused : fleet.refusal? (.mk handle (.get key)) with
            | none => exact .inl (reply_get located valid key paused refused)
            | some acquisition =>
                refine .inr ⟨⟨acquisition.timeout, ?_⟩, number, cache, located, held⟩
                exact congrArg Prod.fst (perform_refused refused)
  · exact reports .pinnedKeys (by rintro _ _ ⟨⟩) rfl
  · intro key
    refine (reports (.isPinned key) (by rintro _ _ ⟨⟩) rfl).trans (congrArg Reply.flag ?_)
    rw [Bool.eq_iff_iff, decide_eq_true_iff]
    exact shows.isPinned key

/-- In every state that operations lead to, the readers of tiers tell of one list of entries. So do the readers of a cache
whenever no writer holds it, be it between calls from outside or in the middle of the calls that others make. -/
theorem readers_agree :
    (∀ tiers : Tiers Key Value, tiers.Reachable → ∀ moment, tiers.Shows moment (tiers.entries moment)) ∧
      ∀ {settings : List Settings} {requests : List (Call Key Value)} {trace : List (Frame Key Value)},
        CarriedOut [⟨[], requests, ofSettings settings, (ofSettings settings).converse requests⟩] trace →
          ∀ {number deeds now}, number < settings.length →
            Shown number trace ((ofSettings settings).converse requests) deeds now →
              ∀ {handle cache}, now.find? handle = some (number, cache) →
                cache.tiers.Reachable ∧
                  now.Tells handle (cache.tiers.entries (now.moment cache)) cache.tiers.pinnedKeys := by
  refine ⟨fun tiers reachable => reachable.valid.shows, ?_⟩
  intro settings requests trace carried number deeds now listed shown handle cache located
  have found := (find?_eq_some_iff.mp located).2
  have stored : (ofSettings settings : Fleet Key Value).tiers? number = some (Cache.ofSettings settings[number]).tiers := by
    rw [tiers?, ofSettings, List.getElem?_toArray, List.getElem?_map, List.getElem?_eq_getElem listed]
    rfl
  obtain ⟨tiers, here, course⟩ := shown.course carried stored
  obtain rfl : cache.tiers = tiers := by
    rw [tiers?, found] at here
    exact Option.some.inj here
  have reachable : cache.tiers.Reachable := course.reachable (.fresh _ _ _ _)
  refine ⟨reachable, tells_of_valid located reachable.valid ?_⟩
  cases shown with
  | begun _ idle => exact idle
  | ended =>
      have holds := (carried.leaves (coursed_coherent number)).holds
      intro busy
      rw [busy_iff, holds, ← busy_iff] at busy
      obtain ⟨cache, present, held⟩ := busy
      rw [(ofSettings_quiet settings number cache present).2] at held
      cases held

/-- One entry in each tier, and a pin that holds none. -/
theorem every_tier_is_read :
    let settings : Settings := { lru := true, cacheSize := 1, softReferenceSize := 1 }
    let requests : List (Call Nat Nat) :=
      [.mk 0 (.pin 3), .mk 0 (.pin 4), .mk 0 (.put 4 40), .mk 0 (.put 1 10), .mk 0 (.put 2 20)]
    ((ofSettings [settings]).converse requests).Tells 0 [⟨4, 40, .pinned⟩, ⟨2, 20, .primary⟩, ⟨1, 10, .soft⟩]
      [3, 4] := by
  intro settings requests
  let fleet : Fleet Nat Nat := .ofSettings [settings]
  let settled := fleet.converse requests
  have each : (begun (reactTo fleet.caches.size) [] requests fleet).all (alone (reactTo fleet.caches.size)) = true := by
    decide +kernel
  have shown : (settled.find? 0).map (fun place => (place.1, place.2.tiers.entries (settled.moment place.2))) =
      some (0, [⟨4, 40, .pinned⟩, ⟨2, 20, .primary⟩, ⟨1, 10, .soft⟩]) := by
    decide +kernel
  have pinned : (settled.find? 0).map (fun place => place.2.tiers.pinnedKeys) = some [3, 4] := by decide +kernel
  obtain ⟨⟨number, cache⟩, located, same⟩ := Option.map_eq_some_iff.mp shown
  obtain ⟨rfl, entries⟩ := Prod.mk.inj same
  rw [located] at pinned
  have keys : cache.tiers.pinnedKeys = [3, 4] := Option.some.inj pinned
  have told := (readers_agree.2 (converse_begun fleet each) Nat.zero_lt_one .ended located).2
  rwa [entries, keys] at told

end Fleet

end LayeredCache
