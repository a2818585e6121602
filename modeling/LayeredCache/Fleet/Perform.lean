import LayeredCache.Fleet.Basic

/-!
# Performing calls

An operation holds the lock of its cache, shared or exclusively, and gives up when it cannot. A writer purges the soft
tier before anything else. While a writer is at work, the cache it holds is out of reach for the calls of listeners, so
an event can only lead to writes on caches that nobody holds: callbacks nest no deeper than there are caches.

Time passes only where a call asks for it. An operation that gives up has waited as long as it may, but the clock stands
as it did when it began: on one thread nobody can do anything in between, and what comes after may advance the clock by as
much as the wait took.
-/

set_option autoImplicit false

namespace LayeredCache.Fleet

variable {Key Value Result : Type} [DecidableEq Key]

abbrev Reaction (Key Value : Type) [DecidableEq Key] :=
  List (Call Key Value) → Fleet Key Value → Fleet Key Value

/-- What a cache of the fleet sees of it while a writer is at work. -/
def host (react : Reaction Key Value) (number : Nat) (listener : Option (Listener Key Value)) :
    Host (Fleet Key Value) Key Value where
  clock fleet := fleet.clock
  epoch fleet := (fleet.caches[number]?).elim 0 Cache.epoch
  record recording fleet := fleet.adjust number (Cache.record recording)
  notify event fleet :=
    match listener with
    | none => fleet
    | some listener =>
        react (listener.reacts fleet.heard event)
          (if listener.journals event then fleet.note (.event number event) else fleet)

def refuse (number : Nat) (cache : Cache Key Value) (operation : String) (mode : LockMode)
    (fleet : Fleet Key Value) : Except LockTimeout Result × Fleet Key Value :=
  (.error ⟨operation, mode, cache.lockTimeout⟩, fleet.adjust number (Cache.record .lockTimeout))

def exclusively (react : Reaction Key Value) (number : Nat) (cache : Cache Key Value)
    (operation : String)
    (body : Host (Fleet Key Value) Key Value → Tiers Key Value → Fleet Key Value →
      Result × Tiers Key Value × Fleet Key Value)
    (fleet : Fleet Key Value) : Except LockTimeout Result × Fleet Key Value :=
  if cache.hold.admits .exclusive then
    let held := fleet.adjust number fun cache => { cache with hold := .held .exclusive }
    let (result, tiers, after) := body (host react number cache.listener) cache.tiers held
    (.ok result, after.adjust number fun cache => { cache with tiers, hold := .free })
  else refuse number cache operation .exclusive fleet

def purgingFirst
    (body : Host (Fleet Key Value) Key Value → Tiers Key Value → Fleet Key Value →
      Result × Tiers Key Value × Fleet Key Value)
    (host : Host (Fleet Key Value) Key Value) (tiers : Tiers Key Value) (fleet : Fleet Key Value) :
    Result × Tiers Key Value × Fleet Key Value :=
  let (_, tiers, fleet) := tiers.purgeSoft host fleet
  body host tiers fleet

def write (react : Reaction Key Value) (number : Nat) (cache : Cache Key Value) (operation : String)
    (body : Host (Fleet Key Value) Key Value → Tiers Key Value → Fleet Key Value →
      Result × Tiers Key Value × Fleet Key Value) :
    Fleet Key Value → Except LockTimeout Result × Fleet Key Value :=
  exclusively react number cache operation (purgingFirst body)

def read (number : Nat) (cache : Cache Key Value) (operation : String) (result : Result)
    (fleet : Fleet Key Value) : Except LockTimeout Result × Fleet Key Value :=
  if cache.hold.admits .shared then (.ok result, fleet)
  else refuse number cache operation .shared fleet

/-- Looks a key up as a reader, and as a writer when that takes a write. -/
def get (react : Reaction Key Value) (number : Nat) (cache : Cache Key Value) (key : Key)
    (fleet : Fleet Key Value) : Except LockTimeout (Option Value) × Fleet Key Value :=
  if cache.hold.admits .shared then
    match cache.tiers.lookup (host react number cache.listener) key fleet with
    | (.hit value, fleet) => (.ok (some value), fleet)
    | (.miss, fleet) => (.ok none, fleet)
    | (.needsWrite, fleet) =>
        write react number cache "get" (fun host tiers => tiers.get host key) fleet
  else refuse number cache "get" .shared fleet

def putAll (react : Reaction Key Value) (number : Nat) (cache : Cache Key Value) (sourceNumber : Nat)
    (source : Cache Key Value) (replaceExisting : Bool) (fleet : Fleet Key Value) :
    Except LockTimeout Unit × Fleet Key Value :=
  if source.hold.admits .shared then
    let entries := source.tiers.entries (fleet.moment source)
    write react number cache "put_all"
      (fun host tiers fleet => ((), tiers.putAll host replaceExisting entries fleet)) fleet
  else refuse sourceNumber source "put_all" .shared fleet

/-- Searches for a value as a reader, where something may happen at the first comparison. -/
def searchValue [BEq Value] (react : Reaction Key Value) (number : Nat) (cache : Cache Key Value)
    (value : Value) (atFirst : Fleet Key Value → Fleet Key Value) (fleet : Fleet Key Value) :
    Except LockTimeout Bool × Fleet Key Value :=
  if cache.hold.admits .shared then
    let held := fleet.adjust number fun cache => { cache with hold := .held .shared }
    let (found, after) := cache.tiers.searchValue (host react number cache.listener) atFirst value held
    (.ok found, after.adjust number fun other => { other with hold := cache.hold })
  else refuse number cache "contains_value" .shared fleet

def reply (wrap : Result → Reply Key Value) (outcome : Except LockTimeout Result × Fleet Key Value) :
    Reply Key Value × Fleet Key Value :=
  match outcome with
  | (.ok result, fleet) => (wrap result, fleet)
  | (.error timeout, fleet) => (.refused timeout, fleet)

mutual

def perform [BEq Value] (react : Reaction Key Value) :
    Call Key Value → Fleet Key Value → Reply Key Value × Fleet Key Value
  | .mk handle action, fleet =>
      match fleet.find? handle with
      | none => (.unknownHandle handle, fleet)
      | some (number, cache) =>
          let moment := fleet.moment cache
          match action with
          | .put key value | .putShared key value =>
              reply .value (write react number cache "put"
                (fun host tiers => tiers.put host key value) fleet)
          | .get key => reply .value (get react number cache key fleet)
          | .remove key =>
              reply .value (write react number cache "remove"
                (fun host tiers => tiers.remove host key) fleet)
          | .pin key =>
              reply .flag (write react number cache "pin"
                (fun host tiers => tiers.pin host key) fleet)
          | .unpin key =>
              reply .flag (write react number cache "unpin"
                (fun host tiers => tiers.unpin host key) fleet)
          | .containsKey key =>
              reply .flag (read number cache "contains_key" (cache.tiers.containsKey moment key) fleet)
          | .isPinned key =>
              reply .flag (read number cache "is_pinned" (cache.tiers.isPinned key) fleet)
          | .containsValue value during =>
              reply .flag (searchValue react number cache value (performEach react during) fleet)
          | .putAll source replaceExisting =>
              match fleet.find? source with
              | none => (.unknownHandle source, fleet)
              | some (sourceNumber, sourceCache) =>
                  reply (fun _ => .done)
                    (putAll react number cache sourceNumber sourceCache replaceExisting fleet)
          | .clear =>
              reply (fun _ => .done) (write react number cache "clear"
                (fun host tiers fleet => ((), tiers.clear host fleet)) fleet)
          | .setCacheSize capacity =>
              reply (fun _ => .done) (write react number cache "set_cache_size"
                (fun host tiers fleet => ((), tiers.setCacheSize host capacity fleet)) fleet)
          | .setSoftReferenceSize capacity =>
              reply (fun _ => .done) (write react number cache "set_soft_reference_size"
                (fun host tiers fleet => ((), tiers.setSoftReferenceSize host capacity fleet)) fleet)
          | .size => reply .number (read number cache "len" (cache.tiers.size moment) fleet)
          | .isEmpty => reply .flag (read number cache "len" (cache.tiers.size moment == 0) fleet)
          | .cacheSize => reply .number (read number cache "cache_size" cache.tiers.cacheSize fleet)
          | .softReferenceSize =>
              reply .number
                (read number cache "soft_reference_size" cache.tiers.softReferenceSize fleet)
          | .concurrencyLevel => (.number cache.concurrencyLevel.toNat, fleet)
          | .isLru => (.flag cache.order.isLru, fleet)
          | .evictionOrder => (.order cache.order, fleet)
          | .lockTimeout => (.span cache.lockTimeout, fleet)
          | .pinnedKeys =>
              reply .pinnedKeys (read number cache "pinned_keys" cache.tiers.pinnedKeys fleet)
          | .keys =>
              reply .keys (read number cache "keys"
                ((cache.tiers.entries moment).map fun entry => (entry.key, entry.tier)) fleet)
          | .entries => reply .entries (read number cache "entries" (cache.tiers.entries moment) fleet)
          | .audit => reply .audit (read number cache "check_invariants" cache.tiers.audit fleet)
          | .setListener listener =>
              reply (fun _ => .done) <|
                match write react number cache "set_listener"
                    (fun _ tiers fleet => ((), tiers, fleet)) fleet with
                | (.ok _, fleet) =>
                    (.ok (), fleet.adjust number fun cache => { cache with listener })
                | refused => refused
          | .reclaim =>
              (.done, fleet.adjust number fun cache => { cache with epoch := cache.epoch + 1 })
          | .epoch => (.number cache.epoch.toNat, fleet)
          | .purgeSoft =>
              reply .number (exclusively react number cache "purge_soft"
                (fun host tiers => tiers.purgeSoft host) fleet)
          | .metrics =>
              reply .snapshot (read number cache "metrics_snapshot" (cache.snapshot fleet.clock) fleet)
          | .exposition label =>
              reply .text (read number cache "metrics_snapshot"
                (Metrics.Exposition.text label (cache.snapshot fleet.clock)) fleet)
          | .resetMetrics => (.done, fleet.adjust number Cache.resetMetrics)
          | .debug => (.text cache.layout.oneLine, fleet)
          | .debugIndented => (.text (cache.layout.lines 0), fleet)
          | .clone =>
              (.number fleet.handles.length, { fleet with handles := fleet.handles ++ [number] })
          | .advance nanoseconds => (.done, { fleet with clock := fleet.clock + nanoseconds })

def performEach [BEq Value] (react : Reaction Key Value) :
    List (Call Key Value) → Fleet Key Value → Fleet Key Value
  | [], fleet => fleet
  | call :: rest, fleet =>
      let (reply, fleet) := perform react call fleet
      performEach react rest (fleet.note (.answered call reply))

end

/-- Carries out the calls that answer an event, in callbacks that nest to a given depth at most. -/
def reactTo [BEq Value] : Nat → Reaction Key Value
  | 0 => fun _ fleet => fleet
  | depth + 1 => performEach (reactTo depth)

/-- Carries out a call from outside. Callbacks may nest as deep as there are caches, which is as deep as they can. -/
def call [BEq Value] (fleet : Fleet Key Value) (request : Call Key Value) :
    Reply Key Value × Fleet Key Value :=
  perform (reactTo fleet.caches.size) request fleet

end LayeredCache.Fleet
