import LayeredCache.Proofs.Fleet.Quiet

/-! Which holds a call takes, in order, and what it does when one of them is refused. A refused call reports the first
hold that it could not take, counts one timeout where it was refused, and does nothing else. -/

set_option autoImplicit false

namespace LayeredCache

variable {World Key Value : Type} [DecidableEq Key]

/-- A hold that an operation takes of a cache. -/
structure Acquisition (Key Value : Type) [DecidableEq Key] where
  number : Nat
  cache : Cache Key Value
  operation : String
  mode : LockMode

namespace Acquisition

def granted (acquisition : Acquisition Key Value) : Bool :=
  acquisition.cache.hold.admits acquisition.mode

/-- What is reported when the hold cannot be had in time. -/
def timeout (acquisition : Acquisition Key Value) : LockTimeout :=
  ⟨acquisition.operation, acquisition.mode, acquisition.cache.lockTimeout⟩

end Acquisition

/-- The holds that an action on a cache takes. A reader that finds out that it has to write takes another one, and a
copy reads its source before it writes. -/
def Action.acquisitions (fleet : Fleet Key Value) (number : Nat) (cache : Cache Key Value) :
    Action Key Value → List (Acquisition Key Value)
  | .put _ _ | .putShared _ _ => [⟨number, cache, "put", .exclusive⟩]
  | .get key =>
      ⟨number, cache, "get", .shared⟩ ::
        match (cache.tiers.lookup (.still (fleet.moment cache)) key cache.tally).1 with
        | .needsWrite => [⟨number, cache, "get", .exclusive⟩]
        | .hit _ | .miss => []
  | .remove _ => [⟨number, cache, "remove", .exclusive⟩]
  | .pin _ => [⟨number, cache, "pin", .exclusive⟩]
  | .unpin _ => [⟨number, cache, "unpin", .exclusive⟩]
  | .containsKey _ => [⟨number, cache, "contains_key", .shared⟩]
  | .isPinned _ => [⟨number, cache, "is_pinned", .shared⟩]
  | .containsValue _ _ => [⟨number, cache, "contains_value", .shared⟩]
  | .putAll source _ =>
      match fleet.find? source with
      | none => []
      | some (sourceNumber, sourceCache) =>
          [⟨sourceNumber, sourceCache, "put_all", .shared⟩, ⟨number, cache, "put_all", .exclusive⟩]
  | .clear => [⟨number, cache, "clear", .exclusive⟩]
  | .setCacheSize _ => [⟨number, cache, "set_cache_size", .exclusive⟩]
  | .setSoftReferenceSize _ => [⟨number, cache, "set_soft_reference_size", .exclusive⟩]
  | .size | .isEmpty => [⟨number, cache, "len", .shared⟩]
  | .cacheSize => [⟨number, cache, "cache_size", .shared⟩]
  | .softReferenceSize => [⟨number, cache, "soft_reference_size", .shared⟩]
  | .pinnedKeys => [⟨number, cache, "pinned_keys", .shared⟩]
  | .keys => [⟨number, cache, "keys", .shared⟩]
  | .entries => [⟨number, cache, "entries", .shared⟩]
  | .audit => [⟨number, cache, "check_invariants", .shared⟩]
  | .setListener _ => [⟨number, cache, "set_listener", .exclusive⟩]
  | .purgeSoft => [⟨number, cache, "purge_soft", .exclusive⟩]
  | .metrics | .exposition _ => [⟨number, cache, "metrics_snapshot", .shared⟩]
  | .concurrencyLevel | .isLru | .evictionOrder | .lockTimeout | .reclaim | .epoch | .resetMetrics
  | .debug | .debugIndented | .clone | .advance _ => []

/-- Whether an action takes its cache for itself. -/
def Action.writes (fleet : Fleet Key Value) (number : Nat) (cache : Cache Key Value) (action : Action Key Value) : Bool :=
  (action.acquisitions fleet number cache).any fun acquisition => acquisition.mode = .exclusive

/-- The answer of a lookup depends on its host by the moment alone. -/
theorem Tiers.lookup_fst (host : Host World Key Value) (key : Key) (tiers : Tiers Key Value)
    (world : World) (tally : Metrics.Tally) :
    (tiers.lookup host key world).1 = (tiers.lookup (.still (host.moment world)) key tally).1 := by
  simp only [lookup]
  cases tiers.pinned.slot? key with
  | some slot => cases slot <;> rfl
  | none =>
      cases tiers.primary.peek? key with
      | some value => cases tiers.primary.order.isLru <;> rfl
      | none =>
          have moment : (Host.still (host.moment world) : Host _ Key Value).moment tally = host.moment world :=
            rfl
          simp only [moment]
          cases tiers.soft.contains (host.moment world) key <;> rfl

namespace Fleet

variable {Result : Type} {fleet : Fleet Key Value} {number : Nat} {cache : Cache Key Value}
  {react : Reaction Key Value}

/-- The holds that a call takes. -/
def acquisitions (fleet : Fleet Key Value) (request : Call Key Value) : List (Acquisition Key Value) :=
  match fleet.find? request.handle with
  | none => []
  | some (number, cache) => request.action.acquisitions fleet number cache

def refusal? (fleet : Fleet Key Value) (request : Call Key Value) : Option (Acquisition Key Value) :=
  (fleet.acquisitions request).find? fun acquisition => !acquisition.granted

/-- What a call does that cannot take a hold. -/
def refusedBy (fleet : Fleet Key Value) (acquisition : Acquisition Key Value) :
    Reply Key Value × Fleet Key Value :=
  (.refused acquisition.timeout, fleet.adjust acquisition.number (Cache.record .lockTimeout))

theorem moment_host (found : fleet.caches[number]? = some cache)
    (listener : Option (Listener Key Value)) :
    (host react number listener).moment fleet = fleet.moment cache := by
  simp only [Host.moment, host, found]
  rfl

theorem lookup_host (found : fleet.caches[number]? = some cache) (key : Key) :
    (cache.tiers.lookup (host react number cache.listener) key fleet).1 =
      (cache.tiers.lookup (.still (fleet.moment cache)) key cache.tally).1 := by
  rw [Tiers.lookup_fst _ key cache.tiers fleet cache.tally, moment_host found]

theorem exclusively_refused {operation : String}
    (refused : (⟨number, cache, operation, .exclusive⟩ : Acquisition Key Value).granted = false)
    (body : Host (Fleet Key Value) Key Value → Tiers Key Value → Fleet Key Value →
      Result × Tiers Key Value × Fleet Key Value) :
    exclusively react number cache operation body fleet =
      refuse number cache operation .exclusive fleet := by
  have unavailable : cache.hold.admits .exclusive = false := refused
  rw [exclusively, unavailable]
  rfl

theorem read_refused {operation : String}
    (refused : (⟨number, cache, operation, .shared⟩ : Acquisition Key Value).granted = false)
    (render : Result → Reply Key Value) (result : Result) :
    reply render (read number cache operation result fleet) =
      fleet.refusedBy ⟨number, cache, operation, .shared⟩ := by
  have unavailable : cache.hold.admits .shared = false := refused
  rw [read, unavailable]
  rfl

theorem reply_exclusively_refused {operation : String}
    (refused : (⟨number, cache, operation, .exclusive⟩ : Acquisition Key Value).granted = false)
    (render : Result → Reply Key Value)
    (body : Host (Fleet Key Value) Key Value → Tiers Key Value → Fleet Key Value →
      Result × Tiers Key Value × Fleet Key Value) :
    reply render (exclusively react number cache operation body fleet) =
      fleet.refusedBy ⟨number, cache, operation, .exclusive⟩ := by
  rw [exclusively_refused refused body]
  rfl

/-- Either the first hold of several is refused, or a later one is. -/
theorem refused_of_cons {taken acquisition : Acquisition Key Value} {rest : List (Acquisition Key Value)}
    (first : (taken :: rest).find? (fun acquisition => !acquisition.granted) = some acquisition) :
    (taken.granted = false ∧ taken = acquisition) ∨
      (taken.granted = true ∧ rest.find? (fun acquisition => !acquisition.granted) = some acquisition) := by
  cases granted : taken.granted with
  | false =>
      rw [List.find?_cons_of_pos (by rw [granted]; rfl)] at first
      exact .inl ⟨rfl, Option.some.inj first⟩
  | true =>
      rw [List.find?_cons_of_neg (by rw [granted]; decide)] at first
      exact .inr ⟨rfl, first⟩

theorem refused_of_single {taken acquisition : Acquisition Key Value}
    (only : [taken].find? (fun acquisition => !acquisition.granted) = some acquisition) :
    taken.granted = false ∧ taken = acquisition := by
  rcases refused_of_cons only with refused | ⟨-, none⟩
  · exact refused
  · cases none

theorem get_refused (found : fleet.caches[number]? = some cache) {key : Key}
    {acquisition : Acquisition Key Value}
    (refused : ((Action.get key).acquisitions fleet number cache).find?
      (fun acquisition => !acquisition.granted) = some acquisition) :
    reply .value (get react number cache key fleet) = fleet.refusedBy acquisition := by
  rcases refused_of_cons refused with ⟨unavailable, rfl⟩ | ⟨available, later⟩
  · have shared : cache.hold.admits .shared = false := unavailable
    rw [get, shared]
    rfl
  · have shared : cache.hold.admits .shared = true := available
    rw [get, shared]
    simp only [↓reduceIte]
    have answered := @lookup_host Key Value _ fleet number cache react found key
    cases looked : cache.tiers.lookup (host react number cache.listener) key fleet with
    | mk answer after =>
        rw [looked] at answered
        rw [← answered] at later
        cases answer with
        | hit value => cases later
        | miss => cases later
        | needsWrite =>
            obtain ⟨unavailable, rfl⟩ := refused_of_single later
            obtain ⟨-, rfl⟩ :=
              Prod.mk.inj ((Tiers.lookup_of_needsWrite (congrArg Prod.fst looked)).symm.trans looked)
            exact reply_exclusively_refused unavailable _ _

theorem putAll_refused {source sourceNumber : Nat} {sourceCache : Cache Key Value}
    (sourced : fleet.find? source = some (sourceNumber, sourceCache)) {replaceExisting : Bool}
    {acquisition : Acquisition Key Value}
    (refused : ((Action.putAll source replaceExisting).acquisitions fleet number cache).find?
      (fun acquisition => !acquisition.granted) = some acquisition) :
    reply (fun _ => .done) (putAll react number cache sourceNumber sourceCache replaceExisting fleet) =
      fleet.refusedBy acquisition := by
  rw [Action.acquisitions, sourced] at refused
  rcases refused_of_cons refused with ⟨unavailable, rfl⟩ | ⟨available, later⟩
  · have shared : sourceCache.hold.admits .shared = false := unavailable
    rw [putAll, shared]
    rfl
  · obtain ⟨unavailable, rfl⟩ := refused_of_single later
    have shared : sourceCache.hold.admits .shared = true := available
    rw [putAll, shared]
    simp only [↓reduceIte]
    exact reply_exclusively_refused unavailable _ _

theorem granted_of_not_refused {handle : Nat} {action : Action Key Value}
    (located : fleet.find? handle = some (number, cache)) (granted : fleet.refusal? (.mk handle action) = none) :
    ∀ acquisition ∈ action.acquisitions fleet number cache, acquisition.granted = true := by
  rw [refusal?, acquisitions, Call.handle, List.find?_eq_none, located] at granted
  intro acquisition taken
  simpa using granted acquisition taken

/-- A call that cannot take a hold reports the first such hold, counts a timeout where it was refused, and does nothing
else. -/
theorem perform_refused [BEq Value] {request : Call Key Value} {acquisition : Acquisition Key Value}
    (refused : fleet.refusal? request = some acquisition) :
    perform react request fleet = fleet.refusedBy acquisition := by
  obtain ⟨handle, action⟩ := request
  rw [refusal?, acquisitions, Call.handle] at refused
  cases located : fleet.find? handle with
  | none =>
      rw [located] at refused
      cases refused
  | some place =>
      obtain ⟨number, cache⟩ := place
      have found := (find?_eq_some_iff.mp located).2
      rw [located] at refused
      dsimp only [Call.action] at refused
      rw [perform, located]
      cases action with
      | put | putShared | remove | pin | unpin | clear | setCacheSize | setSoftReferenceSize | purgeSoft =>
          obtain ⟨unavailable, rfl⟩ := refused_of_single refused
          exact reply_exclusively_refused unavailable _ _
      | setListener listener =>
          obtain ⟨unavailable, rfl⟩ := refused_of_single refused
          dsimp only
          rw [write, exclusively_refused unavailable]
          rfl
      | get key => exact get_refused found refused
      | putAll source replaceExisting =>
          cases sourced : fleet.find? source with
          | none =>
              rw [Action.acquisitions, sourced] at refused
              cases refused
          | some origin =>
              dsimp only
              rw [sourced]
              exact putAll_refused sourced refused
      | containsKey | isPinned | size | isEmpty | cacheSize | softReferenceSize | pinnedKeys | keys
      | entries | audit | metrics | exposition =>
          obtain ⟨unavailable, rfl⟩ := refused_of_single refused
          exact read_refused unavailable _ _
      | containsValue value during =>
          obtain ⟨unavailable, rfl⟩ := refused_of_single refused
          have shared : cache.hold.admits .shared = false := unavailable
          dsimp only
          rw [searchValue, shared]
          rfl
      | concurrencyLevel | isLru | evictionOrder | lockTimeout | reclaim | epoch | resetMetrics | debug
      | debugIndented | clone | advance => cases refused

end Fleet

end LayeredCache
