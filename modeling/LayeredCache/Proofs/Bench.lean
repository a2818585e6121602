import LayeredCache.Proofs.Fleet.Quiet
import LayeredCache.Workbench

/-! What is asked of tiers that are used directly is an operation before a still host, or is read off them. -/

set_option autoImplicit false

namespace LayeredCache

variable {Key Value : Type} [DecidableEq Key]

namespace Workbench

variable {bench : Workbench Key Value} {number : Nat} {cache : BareCache Key Value}

/-- The operation on tiers that an action asks for. -/
def Action.operation? (bench : Workbench Key Value) : Action Key Value → Option (Operation Key Value)
  | .put key value => some (.put key value)
  | .get key => some (.get key)
  | .remove key => some (.remove key)
  | .pin key => some (.pin key)
  | .unpin key => some (.unpin key)
  | .putEntries given replaceExisting => some (.putAll given replaceExisting)
  | .putAll source replaceExisting => (bench.caches[source]?).map fun other =>
      .putAll (other.tiers.entries (bench.moment other)) replaceExisting
  | .clear => some .clear
  | .setCacheSize capacity => some (.setCacheSize capacity)
  | .setSoftReferenceSize capacity => some (.setSoftReferenceSize capacity)
  | .purgeSoft => some .purgeSoft
  | _ => none

/-- A workbench on which one of the caches has other tiers and counts. -/
def settle (bench : Workbench Key Value) (number : Nat) (cache : BareCache Key Value)
    (tiers : Tiers Key Value) (tally : Metrics.Tally) : Workbench Key Value :=
  { bench with caches := bench.caches.setIfInBounds number { cache with tiers, tally } }

theorem settle_self (found : bench.caches[number]? = some cache) :
    bench.settle number cache cache.tiers cache.tally = bench := by
  have caches : bench.caches.setIfInBounds number cache = bench.caches := by
    apply Array.ext_getElem?
    intro other
    rw [Array.getElem?_setIfInBounds]
    split
    next here => rw [← here, if_pos (Array.getElem?_eq_some_iff.mp found).1, found]
    next => rfl
  simp only [settle, caches]

theorem perform_unknown [BEq Value] {action : Action Key Value} (missing : bench.caches[number]? = none) :
    bench.perform number action = (.unknownHandle number, bench) := by
  rw [perform, missing]

/-- A workbench in the next epoch of a reclaim handle. -/
def reclaim (bench : Workbench Key Value) (handle : Nat) : Workbench Key Value :=
  { bench with epochs := bench.epochs.modify handle fun epoch => epoch + 1 }

theorem epochOf_reclaim_self {handle : Nat} (stored : handle < bench.epochs.size) :
    (bench.reclaim handle).epochOf handle = bench.epochOf handle + 1 := by
  rw [epochOf, epochOf, reclaim, Array.getElem?_modify, if_pos rfl, Array.getElem?_eq_getElem stored]
  rfl

theorem epochOf_reclaim_of_ne {handle other : Nat} (different : handle ≠ other) :
    (bench.reclaim handle).epochOf other = bench.epochOf other := by
  rw [epochOf, epochOf, reclaim, Array.getElem?_modify, if_neg different]

theorem perform_reclaim [BEq Value] (found : bench.caches[number]? = some cache) (handle : Nat) :
    bench.perform number (.reclaim handle) = (.done, bench.reclaim handle) := by
  rw [perform, found]
  rfl

theorem perform_advance [BEq Value] (found : bench.caches[number]? = some cache) (nanoseconds : Nat) :
    bench.perform number (.advance nanoseconds) =
      (.done, { bench with clock := bench.clock + nanoseconds }) := by
  rw [perform, found]

theorem perform_operation [BEq Value] {action : Action Key Value} {operation : Operation Key Value}
    (found : bench.caches[number]? = some cache) (asked : action.operation? bench = some operation) :
    let outcome := Tiers.operate (.still (bench.moment cache)) operation cache.tiers cache.tally
    bench.perform number action = (outcome.1.reply, bench.settle number cache outcome.2.1 outcome.2.2) := by
  rw [perform, found]
  cases action with
  | putAll source replaceExisting =>
      obtain ⟨other, sourced, rfl⟩ := Option.map_eq_some_iff.mp asked
      dsimp only
      rw [sourced]
      rfl
  | put _ _ | get _ | remove _ | pin _ | unpin _ | putEntries _ _ | clear | setCacheSize _
  | setSoftReferenceSize _ | purgeSoft =>
      obtain rfl := Option.some.inj asked
      rfl
  | _ => cases asked

/-- What can be read off tiers at a moment. -/
def report? [BEq Value] (tiers : Tiers Key Value) (moment : Moment) :
    Action Key Value → Option (Reply Key Value)
  | .containsKey key => some (.flag (tiers.containsKey moment key))
  | .containsValue value => some (.flag (tiers.containsValue moment value))
  | .isPinned key => some (.flag (tiers.isPinned key))
  | .pinnedKeys => some (.pinnedKeys tiers.pinnedKeys)
  | .entries => some (.entries (tiers.entries moment))
  | .size => some (.number (tiers.size moment))
  | .isEmpty => some (.flag (tiers.size moment == 0))
  | .evictionOrder => some (.order tiers.evictionOrder)
  | .cacheSize => some (.number tiers.cacheSize)
  | .softReferenceSize => some (.number tiers.softReferenceSize)
  | .audit => some (.audit tiers.audit)
  | _ => none

theorem perform_report [BEq Value] {action : Action Key Value} {reply : Reply Key Value}
    (found : bench.caches[number]? = some cache)
    (reported : report? cache.tiers (bench.moment cache) action = some reply) :
    bench.perform number action = (reply, bench) := by
  rw [perform, found]
  cases action with
  | containsKey | containsValue | isPinned | pinnedKeys | entries | size | isEmpty | evictionOrder
  | cacheSize | softReferenceSize | audit =>
      obtain rfl := Option.some.inj reported
      rfl
  | _ => cases reported

end Workbench

end LayeredCache
