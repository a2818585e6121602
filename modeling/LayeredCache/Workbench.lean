import LayeredCache.Fleet.Basic

/-!
# Tiers without locks

A workbench holds tiers that are used directly, without a lock, a listener or any purge that was not asked for. Tiers
may share the epoch of a reclaim handle. All share one clock.
-/

set_option autoImplicit false

namespace LayeredCache

structure BareCache (Key Value : Type) [DecidableEq Key] where
  tiers : Tiers Key Value
  tally : Metrics.Tally
  reclaimHandle : Nat

structure Workbench (Key Value : Type) [DecidableEq Key] where
  caches : Array (BareCache Key Value)
  epochs : Array Epoch
  clock : Instant

namespace Workbench

inductive Action (Key Value : Type) where
  | put (key : Key) (value : Value)
  | get (key : Key)
  | lookup (key : Key)
  | remove (key : Key)
  | pin (key : Key)
  | unpin (key : Key)
  | containsKey (key : Key)
  | containsValue (value : Value)
  | isPinned (key : Key)
  | pinnedKeys
  | entries
  | lengths
  | size
  | isEmpty
  | clear
  | evictionOrder
  | cacheSize
  | softReferenceSize
  | setCacheSize (capacity : Nat)
  | setSoftReferenceSize (capacity : Nat)
  | purgeSoft
  | putEntries (entries : List (Entry Key Value)) (replaceExisting : Bool)
  | putAll (source : Nat) (replaceExisting : Bool)
  | audit
  | debug
  | debugIndented
  | reclaim (handle : Nat)
  | epoch (handle : Nat)
  | advance (nanoseconds : Nat)

variable {Key Value Result : Type} [DecidableEq Key]

/-- How many reclaim handles can be shared; every set of tiers has one of its own besides. -/
def sharedHandles : Nat := 4

structure Options where
  order : EvictionOrder := .fifo
  cacheSize : Nat := 1000
  softReferenceSize : Nat := 1000
  softTtl : Option Span := none
  /-- For how many entries a tier is given room from the start, if it may come to hold as many. -/
  roomHint : Nat := 1024
  /-- The shared reclaim handle to use, if any. -/
  reclaimHandle : Option Nat := none

/-- Tiers of given parameters, the number of which tells their own reclaim handle. -/
def build (options : Options) (number : Nat) : BareCache Key Value where
  tiers := .empty options.order options.cacheSize options.softReferenceSize options.softTtl
  tally := .zero
  reclaimHandle := options.reclaimHandle.getD (sharedHandles + number)

def ofOptions (options : List Options) : Workbench Key Value where
  caches := (options.zipIdx.map fun each => build each.1 each.2).toArray
  epochs := Array.replicate (sharedHandles + options.length) 0
  clock := 0

/-- Builds tiers for all of which there is room. -/
def build? (room : Room) (options : List Options) : Except BuildFault (Workbench Key Value) :=
  if options.all fun each => room.admits each.cacheSize each.softReferenceSize each.roomHint then
    .ok (ofOptions options)
  else .error .overflow

def epochOf (bench : Workbench Key Value) (handle : Nat) : Epoch := bench.epochs[handle]?.getD 0

def moment (bench : Workbench Key Value) (cache : BareCache Key Value) : Moment :=
  ⟨bench.clock, bench.epochOf cache.reclaimHandle⟩

def operate (bench : Workbench Key Value) (number : Nat) (cache : BareCache Key Value)
    (wrap : Result → Reply Key Value)
    (body : Host Metrics.Tally Key Value → Tiers Key Value → Metrics.Tally →
      Result × Tiers Key Value × Metrics.Tally) :
    Reply Key Value × Workbench Key Value :=
  let (result, tiers, tally) := body (.still (bench.moment cache)) cache.tiers cache.tally
  (wrap result, { bench with caches := bench.caches.setIfInBounds number { cache with tiers, tally } })

def perform [BEq Value] (bench : Workbench Key Value) (number : Nat) (action : Action Key Value) :
    Reply Key Value × Workbench Key Value :=
  match bench.caches[number]? with
  | none => (.unknownHandle number, bench)
  | some cache =>
      let moment := bench.moment cache
      match action with
      | .put key value => bench.operate number cache .value fun host tiers => tiers.put host key value
      | .get key => bench.operate number cache .value fun host tiers => tiers.get host key
      | .lookup key =>
          bench.operate number cache .lookup fun host tiers tally =>
            let (outcome, tally) := tiers.lookup host key tally
            (outcome, tiers, tally)
      | .remove key => bench.operate number cache .value fun host tiers => tiers.remove host key
      | .pin key => bench.operate number cache .flag fun host tiers => tiers.pin host key
      | .unpin key => bench.operate number cache .flag fun host tiers => tiers.unpin host key
      | .containsKey key => (.flag (cache.tiers.containsKey moment key), bench)
      | .containsValue value => (.flag (cache.tiers.containsValue moment value), bench)
      | .isPinned key => (.flag (cache.tiers.isPinned key), bench)
      | .pinnedKeys => (.pinnedKeys cache.tiers.pinnedKeys, bench)
      | .entries => (.entries (cache.tiers.entries moment), bench)
      | .lengths =>
          let (pinned, primary, soft) := cache.tiers.lengths moment
          (.lengths pinned primary soft, bench)
      | .size => (.number (cache.tiers.size moment), bench)
      | .isEmpty => (.flag (cache.tiers.size moment == 0), bench)
      | .clear =>
          bench.operate number cache (fun _ => .done) fun host tiers tally => ((), tiers.clear host tally)
      | .evictionOrder => (.order cache.tiers.evictionOrder, bench)
      | .cacheSize => (.number cache.tiers.cacheSize, bench)
      | .softReferenceSize => (.number cache.tiers.softReferenceSize, bench)
      | .setCacheSize capacity =>
          bench.operate number cache (fun _ => .done) fun host tiers tally =>
            ((), tiers.setCacheSize host capacity tally)
      | .setSoftReferenceSize capacity =>
          bench.operate number cache (fun _ => .done) fun host tiers tally =>
            ((), tiers.setSoftReferenceSize host capacity tally)
      | .purgeSoft => bench.operate number cache .number fun host tiers => tiers.purgeSoft host
      | .putEntries entries replaceExisting =>
          bench.operate number cache (fun _ => .done) fun host tiers tally =>
            ((), tiers.putAll host replaceExisting entries tally)
      | .putAll source replaceExisting =>
          match bench.caches[source]? with
          | none => (.unknownHandle source, bench)
          | some other =>
              let entries := other.tiers.entries (bench.moment other)
              bench.operate number cache (fun _ => .done) fun host tiers tally =>
                ((), tiers.putAll host replaceExisting entries tally)
      | .audit => (.audit cache.tiers.audit, bench)
      | .debug => (.text cache.tiers.layout.oneLine, bench)
      | .debugIndented => (.text (cache.tiers.layout.lines 0), bench)
      | .reclaim handle =>
          (.done, { bench with epochs := bench.epochs.modify handle fun epoch => epoch + 1 })
      | .epoch handle => (.number (bench.epochOf handle).toNat, bench)
      | .advance nanoseconds => (.done, { bench with clock := bench.clock + nanoseconds })

end Workbench

end LayeredCache
