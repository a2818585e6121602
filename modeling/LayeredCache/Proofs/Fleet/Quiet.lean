import LayeredCache.Proofs.Fleet.Access
import LayeredCache.Proofs.Tiers.Serving

/-! A fleet that nobody listens to and nobody holds. A call from outside then does to the tiers of its cache what
operations do that meet a still host, whose world is the tally of the cache alone. -/

set_option autoImplicit false

namespace LayeredCache

variable {World Key Value Result : Type} [DecidableEq Key]

/-- The reply that gives an answer. -/
def Answer.reply (answer : Answer Value) : Reply Key Value :=
  match answer with
  | .value found => .value found
  | .flag found => .flag found
  | .count purged => .number purged
  | .done => .done

namespace Tiers

/-- A search that nothing happens in finds what the entries of the moment tell. -/
theorem searchValue_id [BEq Value] (host : Host World Key Value) (value : Value)
    (tiers : Tiers Key Value) (world : World) :
    tiers.searchValue host id value world = (tiers.containsValue (host.moment world) value, world) := by
  have split : tiers.containsValue (host.moment world) value =
      ((tiers.pinned.toList ++ tiers.primary.toList).any (fun entry => entry.2 == value) ||
        (tiers.soft.live (host.moment world)).any fun entry => entry.2 == value) := by
    simp only [containsValue, entries, List.any_append, List.any_map]
    rfl
  rw [split, searchValue]
  simp only [id, ite_self]
  split
  next early => rw [early, Bool.true_or]
  next early =>
    rw [Bool.not_eq_true] at early
    rw [early, Bool.false_or]
    rfl

end Tiers

/-- The operation on tiers that an action asks for. -/
def Action.operation? (fleet : Fleet Key Value) : Action Key Value → Option (Operation Key Value)
  | .put key value | .putShared key value => some (.put key value)
  | .get key => some (.get key)
  | .remove key => some (.remove key)
  | .pin key => some (.pin key)
  | .unpin key => some (.unpin key)
  | .putAll source replaceExisting => (fleet.find? source).map fun located =>
      .putAll (located.2.tiers.entries (fleet.moment located.2)) replaceExisting
  | .clear => some .clear
  | .setCacheSize capacity => some (.setCacheSize capacity)
  | .setSoftReferenceSize capacity => some (.setSoftReferenceSize capacity)
  | .purgeSoft => some .purgeSoft
  | _ => none

/-- An action that installs no listener and does nothing beside what it asks for. -/
def Action.plain : Action Key Value → Bool
  | .setListener _ => false
  | .containsValue _ during => during.isEmpty
  | _ => true

/-- A cache with other tiers and counts. -/
def Cache.settle (tiers : Tiers Key Value) (tally : Metrics.Tally) (cache : Cache Key Value) :
    Cache Key Value :=
  { cache with tiers, tally }

/-- What a reader of a cache that no writer holds is told. -/
def Cache.report? [BEq Value] (cache : Cache Key Value) (instant : Instant) :
    Action Key Value → Option (Reply Key Value)
  | .containsKey key => some (.flag (cache.tiers.containsKey ⟨instant, cache.epoch⟩ key))
  | .isPinned key => some (.flag (cache.tiers.isPinned key))
  | .containsValue value _ => some (.flag (cache.tiers.containsValue ⟨instant, cache.epoch⟩ value))
  | .size => some (.number (cache.tiers.size ⟨instant, cache.epoch⟩))
  | .isEmpty => some (.flag (cache.tiers.size ⟨instant, cache.epoch⟩ == 0))
  | .cacheSize => some (.number cache.tiers.cacheSize)
  | .softReferenceSize => some (.number cache.tiers.softReferenceSize)
  | .concurrencyLevel => some (.number cache.concurrencyLevel.toNat)
  | .isLru => some (.flag cache.order.isLru)
  | .evictionOrder => some (.order cache.order)
  | .lockTimeout => some (.span cache.lockTimeout)
  | .pinnedKeys => some (.pinnedKeys cache.tiers.pinnedKeys)
  | .keys => some (.keys ((cache.tiers.entries ⟨instant, cache.epoch⟩).map fun entry =>
      (entry.key, entry.tier)))
  | .entries => some (.entries (cache.tiers.entries ⟨instant, cache.epoch⟩))
  | .audit => some (.audit cache.tiers.audit)
  | .epoch => some (.number cache.epoch.toNat)
  | .metrics => some (.snapshot (cache.snapshot instant))
  | .exposition label => some (.text (Metrics.Exposition.text label (cache.snapshot instant)))
  | .debug => some (.text cache.layout.oneLine)
  | .debugIndented => some (.text (cache.layout.lines 0))
  | _ => none

namespace Fleet

variable {fleet : Fleet Key Value} {number : Nat} {cache : Cache Key Value} {react : Reaction Key Value}

/-- Nobody listens to a cache, and nobody holds one. -/
def Quiet (fleet : Fleet Key Value) : Prop :=
  ∀ (number : Nat) (cache : Cache Key Value), fleet.caches[number]? = some cache →
    cache.listener = none ∧ cache.hold = .free

theorem adjust_congr (found : fleet.caches[number]? = some cache)
    {first second : Cache Key Value → Cache Key Value} (same : first cache = second cache) :
    fleet.adjust number first = fleet.adjust number second := by
  have caches : fleet.caches.modify number first = fleet.caches.modify number second := by
    apply Array.ext_getElem?
    intro other
    simp only [Array.getElem?_modify]
    split
    next here => rw [← here, found, Option.map_some, Option.map_some, same]
    next => rfl
  simp only [adjust, caches]

theorem adjust_self (found : fleet.caches[number]? = some cache)
    {change : Cache Key Value → Cache Key Value} (same : change cache = cache) :
    fleet.adjust number change = fleet := by
  have caches : fleet.caches.modify number change = fleet.caches := by
    apply Array.ext_getElem?
    intro other
    rw [Array.getElem?_modify]
    split
    next here => rw [← here, found, Option.map_some, same]
    next => rfl
  simp only [adjust, caches]

/-- The fleet while an operation of one cache is at work that has counted so far as a tally says. -/
def Working (fleet : Fleet Key Value) (number : Nat) (hold : Hold) (world : Fleet Key Value)
    (tally : Metrics.Tally) : Prop :=
  world = fleet.adjust number fun cache => { cache with hold, tally }

theorem host_simulates_still (found : fleet.caches[number]? = some cache) (hold : Hold) :
    (host react number none).Simulates (Host.still (fleet.moment cache)) (Working fleet number hold) where
  clock := by
    rintro world tally rfl
    rfl
  epoch := by
    rintro world tally rfl
    simp only [host, caches_adjust, ↓reduceIte, found]
    rfl
  record := by
    rintro recording world tally rfl
    exact adjust_adjust fleet number _ _
  notify _ _ _ working := working

theorem working_start (found : fleet.caches[number]? = some cache) (hold : Hold) :
    Working fleet number hold (fleet.adjust number fun cache => { cache with hold }) cache.tally :=
  adjust_congr found rfl

/-- A body that does in the fleet what is done before a still host leaves nothing else behind. -/
theorem exclusively_quiet (found : fleet.caches[number]? = some cache) (quiet : cache.listener = none)
    (free : cache.hold = .free) {render : Result → Reply Key Value} {wrap : Result → Answer Value}
    (rendered : ∀ result, render result = (wrap result).reply)
    {body : Host (Fleet Key Value) Key Value → Tiers Key Value → Fleet Key Value →
      Result × Tiers Key Value × Fleet Key Value}
    {image : Answer Value × Tiers Key Value × Metrics.Tally}
    (same : Tiers.SameOutcome (Working fleet number (.held .exclusive))
      ((body (host react number none) cache.tiers
        (fleet.adjust number fun cache => { cache with hold := .held .exclusive })).map wrap id) image)
    (operation : String) :
    reply render (exclusively react number cache operation body fleet) =
      (image.1.reply, fleet.adjust number (Cache.settle image.2.1 image.2.2)) := by
  rw [exclusively, free, quiet]
  simp only [Hold.admits, ↓reduceIte]
  revert same
  generalize body (host react number none) cache.tiers _ = outcome
  obtain ⟨result, tiers, after⟩ := outcome
  obtain ⟨answer, settled, tally⟩ := image
  rintro ⟨answered, same, working⟩
  obtain rfl : tiers = settled := same
  obtain rfl : after = _ := working
  simp only [reply, rendered, show wrap result = answer from answered, adjust_adjust]
  rw [adjust_congr found]
  rw [Cache.settle, ← free]

theorem operate_quiet (found : fleet.caches[number]? = some cache) (quiet : cache.listener = none)
    (free : cache.hold = .free) {render : Result → Reply Key Value} {wrap : Result → Answer Value}
    (rendered : ∀ result, render result = (wrap result).reply) {operation : Operation Key Value}
    {body : Host (Fleet Key Value) Key Value → Tiers Key Value → Fleet Key Value →
      Result × Tiers Key Value × Fleet Key Value}
    (carries : CarriesOut operation wrap body) (name : String) :
    let outcome := Tiers.operate (.still (fleet.moment cache)) operation cache.tiers cache.tally
    reply render (exclusively react number cache name body fleet) =
      (outcome.1.reply, fleet.adjust number (Cache.settle outcome.2.1 outcome.2.2)) := by
  refine exclusively_quiet found quiet free rendered ?_ name
  rw [← carries]
  exact Tiers.operate_simulates (host_simulates_still found _) operation _ (working_start found _)

theorem write_quiet (found : fleet.caches[number]? = some cache) (quiet : cache.listener = none)
    (free : cache.hold = .free) {render : Result → Reply Key Value} {wrap : Result → Answer Value}
    (rendered : ∀ result, render result = (wrap result).reply) {operation : Operation Key Value}
    {body : Host (Fleet Key Value) Key Value → Tiers Key Value → Fleet Key Value →
      Result × Tiers Key Value × Fleet Key Value}
    (carries : CarriesOut operation wrap body) (name : String) :
    let outcome := Tiers.operatePurged (.still (fleet.moment cache)) operation cache.tiers cache.tally
    reply render (write react number cache name body fleet) =
      (outcome.1.reply, fleet.adjust number (Cache.settle outcome.2.1 outcome.2.2)) := by
  refine exclusively_quiet found quiet free rendered ?_ name
  have simulates := @host_simulates_still Key Value _ fleet number cache react found (.held .exclusive)
  obtain ⟨-, same, working⟩ :=
    Tiers.purgeSoft_simulates simulates cache.tiers (working_start found (.held .exclusive))
  simp only [purgingFirst, same]
  rw [← carries]
  exact Tiers.operate_simulates simulates operation _ working

theorem get_quiet (found : fleet.caches[number]? = some cache) (quiet : cache.listener = none)
    (free : cache.hold = .free) (key : Key) :
    let outcome := Tiers.serve (.still (fleet.moment cache)) (.get key) cache.tiers cache.tally
    reply .value (get react number cache key fleet) =
      (outcome.1.reply, fleet.adjust number (Cache.settle outcome.2.1 outcome.2.2)) := by
  have start : Working fleet number .free fleet cache.tally := by
    refine (adjust_self found ?_).symm
    rw [← free]
  have simulates := @host_simulates_still Key Value _ fleet number cache react found .free
  obtain ⟨same, working⟩ := Tiers.lookup_simulates simulates key cache.tiers start
  have settled : ∀ {world tally}, Working fleet number .free world tally →
      world = fleet.adjust number (Cache.settle cache.tiers tally) := by
    rintro world tally rfl
    refine adjust_congr found ?_
    rw [Cache.settle, ← free]
  rw [get, free, quiet]
  simp only [Hold.admits, ↓reduceIte, Tiers.serve]
  cases stilled : Tiers.lookup (Host.still (fleet.moment cache)) key cache.tiers cache.tally with
  | mk answer tally =>
      cases looked : Tiers.lookup (host react number none) key cache.tiers fleet with
      | mk outcome after =>
          rw [looked, stilled] at same working
          obtain rfl : outcome = answer := same
          cases outcome with
          | hit value => exact Prod.ext rfl (settled working)
          | miss => exact Prod.ext rfl (settled working)
          | needsWrite =>
              rw [Tiers.lookup_of_needsWrite (congrArg Prod.fst looked)] at looked
              rw [Tiers.lookup_of_needsWrite (congrArg Prod.fst stilled)] at stilled
              obtain ⟨-, rfl⟩ := Prod.mk.inj looked
              obtain ⟨-, rfl⟩ := Prod.mk.inj stilled
              exact write_quiet found quiet free (fun _ => rfl)
                (@fun _ _ _ => rfl : CarriesOut (.get key) .value _) "get"

theorem Quiet.adjust (quiet : Quiet fleet) (number : Nat) {change : Cache Key Value → Cache Key Value}
    (silent : ∀ cache, (change cache).listener = cache.listener)
    (held : ∀ cache, (change cache).hold = cache.hold) : Quiet (fleet.adjust number change) := by
  intro other cache found
  rw [caches_adjust] at found
  split at found
  · obtain ⟨stored, present, rfl⟩ := Option.map_eq_some_iff.mp found
    rw [silent, held]
    exact quiet other stored present
  · exact quiet other cache found

theorem ofSettings_quiet (settings : List Settings) : Quiet (ofSettings settings : Fleet Key Value) := by
  intro number cache found
  rw [ofSettings, List.getElem?_toArray, List.getElem?_map] at found
  obtain ⟨chosen, -, rfl⟩ := Option.map_eq_some_iff.mp found
  exact ⟨rfl, rfl⟩

theorem searchValue_quiet [BEq Value] (found : fleet.caches[number]? = some cache)
    (free : cache.hold = .free) (value : Value) {atFirst : Fleet Key Value → Fleet Key Value}
    (idle : ∀ fleet, atFirst fleet = fleet) :
    searchValue react number cache value atFirst fleet =
      (.ok (cache.tiers.containsValue (fleet.moment cache) value), fleet) := by
  have same : atFirst = id := funext idle
  rw [searchValue, free]
  simp only [Hold.admits, ↓reduceIte, same, Tiers.searchValue_id]
  have moment : (host react number cache.listener).moment
      (fleet.adjust number fun cache => { cache with hold := .held .shared }) = fleet.moment cache := by
    simp only [Host.moment, host, caches_adjust, ↓reduceIte, found]
    rfl
  rw [moment, adjust_adjust, adjust_self found]
  rw [← free]

variable [BEq Value]

theorem call_unknown {handle : Nat} {action : Action Key Value} (missing : fleet.find? handle = none) :
    fleet.call (.mk handle action) = (.unknownHandle handle, fleet) := by
  rw [call, perform, missing]

theorem call_reclaim {handle : Nat} (located : fleet.find? handle = some (number, cache)) :
    fleet.call (.mk handle .reclaim) =
      (.done, fleet.adjust number fun cache => { cache with epoch := cache.epoch + 1 }) := by
  rw [call, perform, located]

theorem call_advance {handle : Nat} (located : fleet.find? handle = some (number, cache))
    (nanoseconds : Nat) :
    fleet.call (.mk handle (.advance nanoseconds)) =
      (.done, { fleet with clock := fleet.clock + nanoseconds }) := by
  rw [call, perform, located]

/-- A call for an operation serves it from the tiers of its cache and changes nothing else. -/
theorem call_operation (quiet : Quiet fleet) {handle : Nat} {action : Action Key Value}
    {operation : Operation Key Value} (located : fleet.find? handle = some (number, cache))
    (asked : action.operation? fleet = some operation) :
    let outcome := Tiers.serve (.still (fleet.moment cache)) operation cache.tiers cache.tally
    fleet.call (.mk handle action) =
      (outcome.1.reply, fleet.adjust number (Cache.settle outcome.2.1 outcome.2.2)) := by
  have found := (find?_eq_some_iff.mp located).2
  obtain ⟨silent, free⟩ := quiet number cache found
  rw [call, perform, located]
  cases action with
  | put key value | putShared key value =>
      obtain rfl := Option.some.inj asked
      exact write_quiet found silent free (fun _ => rfl)
        (@fun _ _ _ => rfl : CarriesOut (.put key value) .value _) "put"
  | get key =>
      obtain rfl := Option.some.inj asked
      exact get_quiet found silent free key
  | remove key =>
      obtain rfl := Option.some.inj asked
      exact write_quiet found silent free (fun _ => rfl)
        (@fun _ _ _ => rfl : CarriesOut (.remove key) .value _) "remove"
  | pin key =>
      obtain rfl := Option.some.inj asked
      exact write_quiet found silent free (fun _ => rfl)
        (@fun _ _ _ => rfl : CarriesOut (.pin key) .flag _) "pin"
  | unpin key =>
      obtain rfl := Option.some.inj asked
      exact write_quiet found silent free (fun _ => rfl)
        (@fun _ _ _ => rfl : CarriesOut (.unpin key) .flag _) "unpin"
  | putAll source replaceExisting =>
      obtain ⟨⟨sourceNumber, origin⟩, sourced, rfl⟩ := Option.map_eq_some_iff.mp asked
      obtain ⟨-, sourceFree⟩ := quiet sourceNumber origin (find?_eq_some_iff.mp sourced).2
      dsimp only
      rw [sourced]
      dsimp only
      rw [putAll, sourceFree]
      exact write_quiet found silent free (fun _ => rfl)
        (@fun _ _ _ => rfl : CarriesOut (.putAll _ replaceExisting) (fun _ => .done) _) "put_all"
  | clear =>
      obtain rfl := Option.some.inj asked
      exact write_quiet found silent free (fun _ => rfl)
        (@fun _ _ _ => rfl : CarriesOut .clear (fun _ => .done) _) "clear"
  | setCacheSize capacity =>
      obtain rfl := Option.some.inj asked
      exact write_quiet found silent free (fun _ => rfl)
        (@fun _ _ _ => rfl : CarriesOut (.setCacheSize capacity) (fun _ => .done) _) "set_cache_size"
  | setSoftReferenceSize capacity =>
      obtain rfl := Option.some.inj asked
      exact write_quiet found silent free (fun _ => rfl)
        (@fun _ _ _ => rfl : CarriesOut (.setSoftReferenceSize capacity) (fun _ => .done) _)
        "set_soft_reference_size"
  | purgeSoft =>
      obtain rfl := Option.some.inj asked
      exact operate_quiet found silent free (fun _ => rfl)
        (@fun _ _ _ => rfl : CarriesOut .purgeSoft .count _) "purge_soft"
  | _ => cases asked

/-- A reader is told what it asked for and changes nothing. -/
theorem call_report (quiet : Quiet fleet) {handle : Nat} {action : Action Key Value}
    {reply : Reply Key Value} (located : fleet.find? handle = some (number, cache))
    (plain : action.plain = true) (reported : cache.report? fleet.clock action = some reply) :
    fleet.call (.mk handle action) = (reply, fleet) := by
  have found := (find?_eq_some_iff.mp located).2
  obtain ⟨-, free⟩ := quiet number cache found
  rw [call, perform, located]
  cases action with
  | containsValue value during =>
      obtain rfl := Option.some.inj reported
      obtain rfl : during = [] := List.isEmpty_iff.mp plain
      dsimp only
      rw [searchValue_quiet found free value (fun _ => by rw [performEach])]
      rfl
  | containsKey | isPinned | size | isEmpty | cacheSize | softReferenceSize | pinnedKeys | keys
  | entries | audit | metrics | exposition =>
      obtain rfl := Option.some.inj reported
      simp only [read, free, Hold.admits, ↓reduceIte]
      rfl
  | concurrencyLevel | isLru | evictionOrder | lockTimeout | epoch | debug | debugIndented =>
      obtain rfl := Option.some.inj reported
      rfl
  | _ => cases reported

/-- Whatever else a plain call does, it hands out no value and leaves the tiers of every cache alone. -/
theorem call_aside (quiet : Quiet fleet) {handle : Nat} {action : Action Key Value}
    (plain : action.plain = true)
    (aside : fleet.find? handle = none ∨ action.operation? fleet = none) :
    Quiet (fleet.call (.mk handle action)).2 ∧
      (∀ number : Nat, (fleet.call (.mk handle action)).2.caches[number]?.map Cache.tiers =
        fleet.caches[number]?.map Cache.tiers) ∧
      ∀ value, (fleet.call (.mk handle action)).1 ≠ .value value := by
  have adjusted : ∀ (number : Nat) (change : Cache Key Value → Cache Key Value),
      (∀ cache, (change cache).tiers = cache.tiers) → ∀ other : Nat,
      (fleet.adjust number change).caches[other]?.map Cache.tiers = fleet.caches[other]?.map Cache.tiers := by
    intro number change same other
    rw [caches_adjust]
    split
    · rw [Option.map_map]
      exact congrArg (Option.map · _) (funext same)
    · rfl
  cases located : fleet.find? handle with
  | none =>
      rw [call_unknown located]
      exact ⟨quiet, fun _ => rfl, nofun⟩
  | some place =>
      obtain ⟨number, cache⟩ := place
      have asked : action.operation? fleet = none := by
        rcases aside with missing | asked
        · rw [located] at missing
          cases missing
        · exact asked
      cases reported : cache.report? fleet.clock action with
      | some reply =>
          rw [call_report quiet located plain reported]
          refine ⟨quiet, fun _ => rfl, ?_⟩
          rintro value rfl
          cases action <;> cases reported
      | none =>
          rw [call, perform, located]
          cases action with
          | putAll source replaceExisting =>
              dsimp only
              rw [Option.map_eq_none_iff.mp asked]
              exact ⟨quiet, fun _ => rfl, nofun⟩
          | reclaim | resetMetrics =>
              exact ⟨quiet.adjust number (fun _ => rfl) fun _ => rfl,
                adjusted number _ fun _ => rfl, nofun⟩
          | clone => exact ⟨quiet, fun _ => rfl, nofun⟩
          | advance nanoseconds => exact ⟨quiet, fun _ => rfl, nofun⟩
          | setListener => cases plain
          | put | putShared | get | remove | pin | unpin | clear | setCacheSize | setSoftReferenceSize
          | purgeSoft => cases asked
          | _ => cases reported

end Fleet

end LayeredCache
