import Mathlib.Data.List.Forall2
import LayeredCache.Proofs.Fleet.Closure
import LayeredCache.Proofs.Tiers.Inclusion

/-! More room never costs a hit, in a fleet as on tiers by themselves. A cache that nobody listens to is looked up first
and purged before it is written to, which makes no difference where nothing ever dies. -/

set_option autoImplicit false

namespace LayeredCache

variable {Key Value : Type} [DecidableEq Key]

/-- What an action uses a cache for, if it leaves its pins and its room alone. -/
def Action.use? : Action Key Value → Option (Use Key Value)
  | .put key value | .putShared key value => some (.put key value)
  | .get key => some (.get key)
  | .remove key => some (.remove key)
  | .containsKey key => some (.containsKey key)
  | .clear => some .clear
  | _ => none

/-- Whether an action uses a cache, or lets time pass. -/
def Action.uses : Action Key Value → Bool
  | .advance _ => true
  | action => action.use?.isSome

omit [DecidableEq Key] in
theorem Action.eq_advance {action : Action Key Value} (uses : action.uses = true) (meant : action.use? = none) :
    ∃ nanoseconds, action = .advance nanoseconds := by
  unfold Action.uses at uses
  split at uses
  · exact ⟨_, rfl⟩
  · rw [meant] at uses
    cases uses

/-- The value that a reply brings. -/
def Reply.value? : Reply Key Value → Option Value
  | .value found => found
  | _ => none

omit [DecidableEq Key] in
theorem Reply.eq_value_some {reply : Reply Key Value} {value : Value} (brought : reply.value? = some value) :
    reply = .value (some value) := by
  cases reply with
  | value found =>
      obtain rfl : found = some value := brought
      rfl
  | _ => cases brought

namespace Fleet

variable {fleet : Fleet Key Value} {handle number : Nat} {cache : Cache Key Value}
  {cacheSize softReferenceSize : Nat} {past : List (Use Key Value × Answer Value)}

omit [DecidableEq Key] in
theorem still_keeps_epoch (moment : Moment) :
    (Host.still moment : Host Metrics.Tally Key Value).Keeps fun tally =>
      (Host.still moment : Host Metrics.Tally Key Value).epoch tally = moment.epoch :=
  ⟨fun _ _ same => same, fun _ _ same => same⟩

variable [BEq Value]

/-- A call that uses a cache replies with the answer of its tiers. -/
theorem call_use (quiet : fleet.Quiet) (located : fleet.find? handle = some (number, cache))
    (used : Tiers.Uses cacheSize softReferenceSize cache.epoch past cache.tiers) {action : Action Key Value}
    {use : Use Key Value} (meant : action.use? = some use) :
    ∃ answer tiers tally,
      fleet.call (.mk handle action) = (answer.reply, fleet.adjust number (Cache.settle tiers tally)) ∧
        Tiers.Uses cacheSize softReferenceSize cache.epoch (past ++ [(use, answer)]) tiers := by
  have serves : ∀ operation, action.operation? fleet = some operation → use.operation? = some operation →
      ∃ answer tiers tally,
        fleet.call (.mk handle action) = (answer.reply, fleet.adjust number (Cache.settle tiers tally)) ∧
          Tiers.Uses cacheSize softReferenceSize cache.epoch (past ++ [(use, answer)]) tiers := by
    intro operation asked also
    have keeps := @still_keeps_epoch Key Value (fleet.moment cache)
    have here : (Host.still (fleet.moment cache) : Host Metrics.Tally Key Value).epoch cache.tally = cache.epoch := rfl
    exact ⟨_, _, _, call_operation quiet located asked, used.serve also keeps here⟩
  cases action with
  | put key value | putShared key value | get key | remove key | clear =>
      obtain rfl := Option.some.inj meant
      exact serves _ rfl rfl
  | containsKey key =>
      obtain rfl := Option.some.inj meant
      have told : fleet.call (.mk handle (.containsKey key)) =
          (.flag (cache.tiers.containsKey (fleet.moment cache) key), fleet) := call_report quiet located rfl rfl
      have same : fleet.adjust number (Cache.settle cache.tiers cache.tally) = fleet :=
        adjust_self (find?_eq_some_iff.mp located).2 rfl
      refine ⟨.flag (cache.tiers.containsKey (fleet.moment cache) key), cache.tiers, cache.tally, ?_, used.asked key rfl⟩
      rw [told, same]
      rfl
  | _ => cases meant

/-- A fleet that nobody listens to, whose first cache has been used so far as told. -/
structure Used (cacheSize softReferenceSize : Nat) (past : List (Use Key Value × Answer Value)) (fleet : Fleet Key Value) :
    Prop where
  quiet : fleet.Quiet
  uses : ∃ cache, fleet.find? 0 = some (0, cache) ∧
    Tiers.Uses cacheSize softReferenceSize cache.epoch past cache.tiers

omit [BEq Value] in
theorem Used.settle (quiet : fleet.Quiet) (located : fleet.find? 0 = some (0, cache)) {tiers : Tiers Key Value}
    (uses : Tiers.Uses cacheSize softReferenceSize cache.epoch past tiers) (tally : Metrics.Tally) :
    Used cacheSize softReferenceSize past (fleet.adjust 0 (Cache.settle tiers tally)) := by
  obtain ⟨handled, found⟩ := find?_eq_some_iff.mp located
  refine ⟨quiet.adjust 0 (fun _ => rfl) fun _ => rfl, Cache.settle tiers tally cache, ?_, uses⟩
  rw [find?_eq_some_iff, caches_adjust, if_pos rfl, found]
  exact ⟨handled, rfl⟩

/-- A call that uses the first cache is a use that it has an answer to. -/
theorem Used.call (used : Used cacheSize softReferenceSize past fleet) {action : Action Key Value}
    {use : Use Key Value} (meant : action.use? = some use) :
    ∃ answer : Answer Value, (fleet.call (.mk 0 action)).1 = answer.reply ∧
      Used cacheSize softReferenceSize (past ++ [(use, answer)]) (fleet.call (.mk 0 action)).2 := by
  obtain ⟨cache, located, uses⟩ := used.uses
  obtain ⟨answer, tiers, tally, called, later⟩ := call_use used.quiet located uses meant
  rw [called]
  exact ⟨answer, rfl, .settle used.quiet located later tally⟩

theorem Used.advance (used : Used cacheSize softReferenceSize past fleet) (nanoseconds : Nat) :
    Used cacheSize softReferenceSize past (fleet.call (.mk 0 (.advance nanoseconds))).2 := by
  obtain ⟨cache, located, uses⟩ := used.uses
  rw [call_advance located]
  exact ⟨used.quiet, cache, located, uses⟩

/-- What a listener's journal keeps of a call makes no difference. -/
theorem Used.answered {request : Call Key Value} (used : Used cacheSize softReferenceSize past (fleet.call request).2) :
    Used cacheSize softReferenceSize past (answer (reactTo fleet.caches.size) request fleet) :=
  ⟨used.quiet, used.uses⟩

theorem Used.converse (used : Used cacheSize softReferenceSize past fleet) {requests : List (Call Key Value)}
    (plain : ∀ request ∈ requests, request.handle = 0 ∧ request.action.uses = true) :
    ∃ more : List (Use Key Value × Answer Value),
      more.map Prod.fst = (requests.map Call.action).filterMap Action.use? ∧
        Used cacheSize softReferenceSize (past ++ more) (fleet.converse requests) := by
  induction requests generalizing fleet past with
  | nil => exact ⟨[], rfl, by rwa [List.append_nil]⟩
  | cons request rest ih =>
      obtain ⟨handle, action⟩ := request
      obtain ⟨⟨rfl, uses⟩, later⟩ := List.forall_mem_cons.mp plain
      cases meant : action.use? with
      | some use =>
          obtain ⟨answer, -, called⟩ := used.call meant
          obtain ⟨more, after, done⟩ := ih called.answered later
          refine ⟨(use, answer) :: more, ?_, ?_⟩
          · rw [List.map_cons, after]
            exact (List.filterMap_cons_some meant).symm
          · rw [List.append_cons]
            exact done
      | none =>
          obtain ⟨nanoseconds, rfl⟩ := Action.eq_advance uses meant
          obtain ⟨more, after, done⟩ := ih (used.advance nanoseconds).answered later
          exact ⟨more, after.trans (List.filterMap_cons_none meant).symm, done⟩

omit [BEq Value] in
theorem used_ofSettings {settings : Settings} (order : settings.lru = true) (lasting : settings.softTtl = none) :
    Used settings.cacheSize.toNat settings.softReferenceSize.toNat []
      (ofSettings [settings] : Fleet Key Value) := by
  refine ⟨ofSettings_quiet _, .ofSettings settings, rfl, ?_⟩
  rw [Cache.ofSettings, Settings.evictionOrder, order, Settings.softTtlSpan, lasting]
  exact .fresh

/-- Used alike, a cache with more room in all shows whatever one with less shows, with the same values, and every value got
from the smaller one is got from the larger one, however either room is divided between the tiers. So it is with tiers
used by themselves. -/
theorem larger_cache_keeps_every_hit :
    (∀ {cacheSize softReferenceSize largerCacheSize largerSoftReferenceSize : Nat} {epoch later : Epoch}
        {first second : List (Use Key Value × Answer Value)} {small large : Tiers Key Value},
        cacheSize + softReferenceSize ≤ largerCacheSize + largerSoftReferenceSize →
        Tiers.Uses cacheSize softReferenceSize epoch first small →
        Tiers.Uses largerCacheSize largerSoftReferenceSize later second large →
        first.map Prod.fst = second.map Prod.fst →
          List.Forall₂ (fun smaller larger => smaller.found = true → larger = smaller)
              (first.map Prod.snd) (second.map Prod.snd) ∧
            ∀ {here there : Moment}, here.epoch = epoch → there.epoch = later →
              (small.entries here).map Entry.binding ⊆ (large.entries there).map Entry.binding) ∧
      ∀ {smaller larger : Settings}, smaller.lru = true → larger.lru = true → smaller.softTtl = none →
        larger.softTtl = none → smaller.cacheSize.toNat + smaller.softReferenceSize.toNat ≤
          larger.cacheSize.toNat + larger.softReferenceSize.toNat →
        ∀ {requests : List (Call Key Value)},
          (∀ request ∈ requests, request.handle = 0 ∧ request.action.uses = true) →
            let small := (ofSettings [smaller]).converse requests
            let large := (ofSettings [larger]).converse requests
            (∃ shown others, (small.call (.mk 0 .entries)).1 = .entries shown ∧
                (large.call (.mk 0 .entries)).1 = .entries others ∧
                shown.map Entry.binding ⊆ others.map Entry.binding) ∧
              ∀ key value, (small.call (.mk 0 (.get key))).1 = .value (some value) →
                (large.call (.mk 0 (.get key))).1 = .value (some value) := by
  refine ⟨fun room uses others alike => uses.within room others alike, ?_⟩
  intro smaller larger order also lasting too room requests plain small large
  obtain ⟨first, meant, used⟩ := (used_ofSettings order lasting).converse plain
  obtain ⟨second, alike, others⟩ := (used_ofSettings also too).converse plain
  rw [List.nil_append] at used others
  constructor
  · obtain ⟨cache, located, uses⟩ := used.uses
    obtain ⟨other, place, otherUses⟩ := others.uses
    refine ⟨_, _, congrArg Prod.fst (call_report used.quiet located rfl rfl),
      congrArg Prod.fst (call_report others.quiet place rfl rfl), ?_⟩
    exact (uses.within room otherUses (meant.trans alike.symm)).2 rfl rfl
  · intro key value got
    obtain ⟨answer, replied, uses⟩ := used.call (show (Action.get key).use? = some (.get key) from rfl)
    obtain ⟨answer', replied', otherUses⟩ := others.call (show (Action.get key).use? = some (.get key) from rfl)
    obtain ⟨cache, -, uses⟩ := uses.uses
    obtain ⟨other, -, otherUses⟩ := otherUses.uses
    have used : (first ++ [(Use.get key, answer)]).map Prod.fst = (second ++ [(Use.get key, answer')]).map Prod.fst := by
      rw [List.map_append, List.map_append, meant, alike]
      rfl
    have same := List.forall₂_reverse_iff.mpr (uses.within room otherUses used).1
    rw [List.map_append, List.map_append, List.reverse_append, List.reverse_append] at same
    obtain ⟨last, -⟩ := List.forall₂_cons.mp same
    rw [got] at replied
    cases answer with
    | value found =>
        obtain rfl := Reply.value.inj replied
        obtain rfl : answer' = .value (some value) := last rfl
        exact replied'
    | _ => cases replied

/-- A key that the smaller of two caches moved to its soft tier and found there again. -/
theorem larger_cache_keeps_a_demoted_key :
    let smaller : Settings := { lru := true, cacheSize := 1, softReferenceSize := 1 }
    let larger : Settings := { lru := true, cacheSize := 0, softReferenceSize := 3 }
    let requests : List (Call Nat Nat) := [.mk 0 (.put 1 10), .mk 0 (.put 2 20), .mk 0 (.get 1)]
    (((ofSettings [smaller]).converse requests).call (.mk 0 (.get 2))).1 = .value (some 20) ∧
      (((ofSettings [larger]).converse requests).call (.mk 0 (.get 2))).1 = .value (some 20) := by
  intro smaller larger requests
  have got : (((ofSettings [smaller]).converse requests).call (.mk 0 (.get 2))).1 = .value (some 20) :=
    Reply.eq_value_some (by decide +kernel)
  have plain : ∀ request ∈ requests, request.handle = 0 ∧ request.action.uses = true := by
    intro request listed
    simp only [requests, List.mem_cons, List.not_mem_nil, or_false] at listed
    obtain rfl | rfl | rfl := listed <;> exact ⟨rfl, rfl⟩
  exact ⟨got, (larger_cache_keeps_every_hit.2 rfl rfl rfl rfl (by decide) plain).2 2 20 got⟩

end Fleet

end LayeredCache
