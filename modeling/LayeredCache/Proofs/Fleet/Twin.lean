import LayeredCache.Proofs.Bench
import LayeredCache.Proofs.Tiers.Matching
import Mathlib.Algebra.Ring.Nat

/-! One history lived twice. Every cache of a fleet purges its soft tier before it writes, the tiers of the same number on
a workbench only when they are asked to. Both stay in lockstep as long as no epoch comes back. -/

set_option autoImplicit false

namespace LayeredCache

variable {Key Value : Type}

/-- The keys and the tiers of entries. -/
def Reply.asKeys : Reply Key Value → Reply Key Value
  | .entries shown => .keys (shown.map fun entry => (entry.key, entry.tier))
  | other => other

/-- Whether an order is that of the least recently used entry. -/
def Reply.asFlag : Reply Key Value → Reply Key Value
  | .order chosen => .flag chosen.isLru
  | other => other

/-- What to ask of tiers in place of a cache, and how their reply reads as one of the cache. -/
def Action.counterpart? :
    Action Key Value → Option (Workbench.Action Key Value × (Reply Key Value → Reply Key Value))
  | .put key value | .putShared key value => some (.put key value, id)
  | .get key => some (.get key, id)
  | .remove key => some (.remove key, id)
  | .pin key => some (.pin key, id)
  | .unpin key => some (.unpin key, id)
  | .putAll source replaceExisting => some (.putAll source replaceExisting, id)
  | .clear => some (.clear, id)
  | .setCacheSize capacity => some (.setCacheSize capacity, id)
  | .setSoftReferenceSize capacity => some (.setSoftReferenceSize capacity, id)
  | .containsKey key => some (.containsKey key, id)
  | .containsValue value [] => some (.containsValue value, id)
  | .isPinned key => some (.isPinned key, id)
  | .pinnedKeys => some (.pinnedKeys, id)
  | .keys => some (.entries, Reply.asKeys)
  | .entries => some (.entries, id)
  | .size => some (.size, id)
  | .isEmpty => some (.isEmpty, id)
  | .cacheSize => some (.cacheSize, id)
  | .softReferenceSize => some (.softReferenceSize, id)
  | .evictionOrder => some (.evictionOrder, id)
  | .isLru => some (.evictionOrder, Reply.asFlag)
  | .audit => some (.audit, id)
  | _ => none

theorem Action.counterpart_unknown {action : Action Key Value} {counterpart : Workbench.Action Key Value}
    {read : Reply Key Value → Reply Key Value} (known : action.counterpart? = some (counterpart, read))
    (number : Nat) : read (.unknownHandle number) = .unknownHandle number := by
  cases action with
  | containsValue value during =>
      cases during with
      | nil =>
          cases known
          rfl
      | cons => cases known
  | put | putShared | get | remove | pin | unpin | putAll | clear | setCacheSize | setSoftReferenceSize
  | containsKey | isPinned | pinnedKeys | keys | entries | size | isEmpty | cacheSize | softReferenceSize
  | evictionOrder | isLru | audit =>
      cases known
      rfl
  | _ => cases known

/-- The parameters of tiers that are those of a cache. -/
def Settings.options (settings : Settings) : Workbench.Options where
  order := settings.evictionOrder
  cacheSize := settings.cacheSize.toNat
  softReferenceSize := settings.softReferenceSize.toNat
  softTtl := settings.softTtlSpan
  roomHint := settings.roomHint

variable [DecidableEq Key]

/-- A fleet, and the same tiers on a workbench. -/
structure Twin (Key Value : Type) [DecidableEq Key] where
  fleet : Fleet Key Value
  bench : Workbench Key Value

namespace Twin

inductive Step (Key Value : Type) where
  /-- Asks the same of both sides, unless one of them does not know the action. -/
  | ask (number : Nat) (action : Action Key Value)
  | purgeCache (number : Nat)
  | purgeTiers (number : Nat)
  | reclaim (number : Nat)
  | advance (number nanoseconds : Nat)

def Step.reclaims (number : Nat) : Step Key Value → Nat
  | .reclaim other => if other = number then 1 else 0
  | _ => 0

/-- How often the soft entries of one number are reclaimed in a history. -/
def reclaims (number : Nat) (steps : List (Step Key Value)) : Nat :=
  (steps.map (Step.reclaims number)).sum

def start (settings : List Settings) : Twin Key Value where
  fleet := .ofSettings settings
  bench := .ofOptions (settings.map Settings.options)

/-- The replies of both sides, when they are asked the same, and what they are afterwards. -/
def step [BEq Value] (twin : Twin Key Value) :
    Step Key Value → Option (Reply Key Value × Reply Key Value) × Twin Key Value
  | .ask number action =>
      match action.counterpart? with
      | none => (none, twin)
      | some (counterpart, read) =>
          let first := twin.fleet.call (.mk number action)
          let second := twin.bench.perform number counterpart
          (some (first.1, read second.1), ⟨first.2, second.2⟩)
  | .purgeCache number => (none, { twin with fleet := (twin.fleet.call (.mk number .purgeSoft)).2 })
  | .purgeTiers number => (none, { twin with bench := (twin.bench.perform number .purgeSoft).2 })
  | .reclaim number =>
      (none, ⟨(twin.fleet.call (.mk number .reclaim)).2,
        (twin.bench.perform number (.reclaim (Workbench.sharedHandles + number))).2⟩)
  | .advance number nanoseconds =>
      (none, ⟨(twin.fleet.call (.mk number (.advance nanoseconds))).2,
        (twin.bench.perform number (.advance nanoseconds)).2⟩)

/-- The replies of a whole history and what both sides are in the end. -/
def run [BEq Value] (twin : Twin Key Value) :
    List (Step Key Value) → List (Reply Key Value × Reply Key Value) × Twin Key Value
  | [] => ([], twin)
  | step :: rest =>
      let stepped := twin.step step
      let ran := stepped.2.run rest
      (stepped.1.toList ++ ran.1, ran.2)

variable {twin : Twin Key Value} {remaining rest : List (Step Key Value)} {next : Step Key Value}
  {count number : Nat} {cache : Cache Key Value} {bare : BareCache Key Value}

/-- What holds of a cache and the tiers of its number before the rest of a history. -/
structure Paired (remaining : List (Step Key Value)) (twin : Twin Key Value) (number : Nat)
    (cache : Cache Key Value) (bare : BareCache Key Value) : Prop where
  handle : bare.reclaimHandle = Workbench.sharedHandles + number
  epoch : twin.bench.epochOf bare.reclaimHandle = cache.epoch
  room : cache.epoch.toNat + reclaims number remaining < 2 ^ 64
  order : bare.tiers.primary.order = cache.order
  cacheValid : cache.tiers.Valid
  tiersValid : bare.tiers.Valid
  tiers : Tiers.Matches (twin.fleet.moment cache) cache.tiers bare.tiers
  tally : cache.tally.Alike bare.tally

structure Lockstep (count : Nat) (remaining : List (Step Key Value)) (twin : Twin Key Value) : Prop where
  quiet : twin.fleet.Quiet
  handles : twin.fleet.handles = List.range count
  caches : twin.fleet.caches.size = count
  tiers : twin.bench.caches.size = count
  epochs : twin.bench.epochs.size = Workbench.sharedHandles + count
  clock : twin.bench.clock = twin.fleet.clock
  paired : ∀ (number : Nat) (cache : Cache Key Value) (bare : BareCache Key Value),
    twin.fleet.caches[number]? = some cache → twin.bench.caches[number]? = some bare →
      Paired remaining twin number cache bare

theorem Paired.moment (paired : Paired remaining twin number cache bare)
    (clock : twin.bench.clock = twin.fleet.clock) : twin.bench.moment bare = twin.fleet.moment cache := by
  rw [Workbench.moment, Fleet.moment, clock, paired.epoch]

theorem Paired.later (paired : Paired (next :: rest) twin number cache bare) :
    Paired rest twin number cache bare := by
  have room := paired.room
  rw [reclaims, List.map_cons, List.sum_cons] at room
  exact { paired with room := by rw [reclaims]; omega }

theorem Paired.reclaim (paired : Paired (.reclaim number :: rest) twin number cache bare)
    (stored : Workbench.sharedHandles + number < twin.bench.epochs.size) :
    Paired rest ⟨twin.fleet.adjust number fun cache => { cache with epoch := cache.epoch + 1 },
      twin.bench.reclaim (Workbench.sharedHandles + number)⟩ number { cache with epoch := cache.epoch + 1 } bare := by
  have room := paired.room
  rw [reclaims, List.map_cons, List.sum_cons, Step.reclaims, if_pos rfl, ← reclaims] at room
  have next : (cache.epoch + 1).toNat = cache.epoch.toNat + 1 := by
    rw [UInt64.toNat_add, UInt64.toNat_one]
    exact Nat.mod_eq_of_lt (by omega)
  have order : (twin.fleet.moment cache).Before ⟨twin.fleet.clock, cache.epoch + 1⟩ := by
    refine ⟨Nat.le_refl _, UInt64.le_iff_toNat_le.mpr ?_⟩
    rw [next]
    exact Nat.le_succ _
  have epoch : (twin.bench.reclaim (Workbench.sharedHandles + number)).epochOf bare.reclaimHandle =
      cache.epoch + 1 := by
    rw [← paired.epoch, paired.handle, Workbench.epochOf_reclaim_self stored]
  have left : (cache.epoch + 1).toNat + reclaims number rest < 2 ^ 64 := by
    rw [next]
    omega
  exact { paired with
    epoch := epoch
    room := left
    tiers := paired.tiers.later order }

theorem Lockstep.later (lockstep : Lockstep count (next :: rest) twin) : Lockstep count rest twin :=
  { lockstep with
    paired := fun number cache bare found bared => (lockstep.paired number cache bare found bared).later }

theorem Lockstep.present (lockstep : Lockstep count remaining twin) (inside : number < count) :
    ∃ cache bare, twin.fleet.find? number = some (number, cache) ∧
      twin.bench.caches[number]? = some bare ∧ Paired remaining twin number cache bare := by
  obtain ⟨cache, found⟩ : ∃ cache, twin.fleet.caches[number]? = some cache :=
    ⟨_, Array.getElem?_eq_getElem (lockstep.caches.symm ▸ inside)⟩
  obtain ⟨bare, bared⟩ : ∃ bare, twin.bench.caches[number]? = some bare :=
    ⟨_, Array.getElem?_eq_getElem (lockstep.tiers.symm ▸ inside)⟩
  have handled : twin.fleet.handles[number]? = some number := by
    rw [lockstep.handles, List.getElem?_range inside]
  exact ⟨cache, bare, Fleet.find?_eq_some_iff.mpr ⟨handled, found⟩, bared,
    lockstep.paired number cache bare found bared⟩

/-- Either side has a number, or neither has. -/
theorem Lockstep.either (lockstep : Lockstep count remaining twin) (number : Nat) :
    (twin.fleet.find? number = none ∧ twin.bench.caches[number]? = none) ∨
      ∃ cache bare, twin.fleet.find? number = some (number, cache) ∧
        twin.bench.caches[number]? = some bare ∧ Paired remaining twin number cache bare := by
  rcases Nat.lt_or_ge number count with inside | outside
  · exact .inr (lockstep.present inside)
  · left
    have handled : twin.fleet.handles[number]? = none := by
      rw [lockstep.handles, List.getElem?_eq_none_iff, List.length_range]
      exact outside
    constructor
    · simp only [Fleet.find?, handled, Option.bind_eq_bind, Option.bind_none]
    · rw [Array.getElem?_eq_none_iff, lockstep.tiers]
      exact outside

/-- Tiers and counts of one number change, and nothing else does. -/
theorem Lockstep.settle (lockstep : Lockstep count remaining twin)
    (found : twin.fleet.caches[number]? = some cache) (bared : twin.bench.caches[number]? = some bare)
    {tiers bareTiers : Tiers Key Value} {tally bareTally : Metrics.Tally}
    (order : bareTiers.primary.order = bare.tiers.primary.order) (cacheValid : tiers.Valid)
    (tiersValid : bareTiers.Valid) (matched : Tiers.Matches (twin.fleet.moment cache) tiers bareTiers)
    (alike : tally.Alike bareTally) :
    Lockstep count remaining ⟨twin.fleet.adjust number (Cache.settle tiers tally),
      twin.bench.settle number bare bareTiers bareTally⟩ where
  quiet := lockstep.quiet.adjust number (fun _ => rfl) fun _ => rfl
  handles := lockstep.handles
  caches := by
    rw [Fleet.adjust, Array.size_modify]
    exact lockstep.caches
  tiers := by
    rw [Workbench.settle, Array.size_setIfInBounds]
    exact lockstep.tiers
  epochs := lockstep.epochs
  clock := lockstep.clock
  paired := by
    intro other otherCache otherBare otherFound otherBared
    dsimp only at otherFound otherBared
    rw [Fleet.caches_adjust] at otherFound
    rw [Workbench.settle, Array.getElem?_setIfInBounds] at otherBared
    by_cases here : number = other
    · subst here
      have paired := lockstep.paired number cache bare found bared
      rw [if_pos rfl, found] at otherFound
      obtain rfl := Option.some.inj otherFound
      rw [if_pos rfl, if_pos (Array.getElem?_eq_some_iff.mp bared).1] at otherBared
      obtain rfl := Option.some.inj otherBared
      exact { paired with
        order := order.trans paired.order
        cacheValid := cacheValid
        tiersValid := tiersValid
        tiers := matched
        tally := alike }
    · rw [if_neg here] at otherFound otherBared
      exact { lockstep.paired other otherCache otherBare otherFound otherBared with }

theorem start_lockstep (settings : List Settings) {steps : List (Step Key Value)}
    (few : ∀ number, reclaims number steps < 2 ^ 64) : Lockstep settings.length steps (start settings) where
  quiet := Fleet.ofSettings_quiet settings
  handles := rfl
  caches := by
    simp only [start, Fleet.ofSettings, List.size_toArray, List.length_map]
  tiers := by
    simp only [start, Workbench.ofOptions, List.size_toArray, List.length_map, List.length_zipIdx]
  epochs := by
    simp only [start, Workbench.ofOptions, Array.size_replicate, List.length_map]
  clock := rfl
  paired := by
    intro number cache bare found bared
    simp only [start, Fleet.ofSettings, List.getElem?_toArray, List.getElem?_map] at found
    obtain ⟨chosen, present, rfl⟩ := Option.map_eq_some_iff.mp found
    simp only [start, Workbench.ofOptions, List.getElem?_toArray, List.getElem?_map, List.getElem?_zipIdx,
      present, Option.map_some, Option.some.injEq, Nat.zero_add] at bared
    subst bared
    exact {
      handle := rfl
      epoch := by
        simp only [start, Workbench.epochOf, Workbench.ofOptions, Array.getElem?_replicate]
        split <;> rfl
      room := by
        have bound := few number
        simpa [Cache.ofSettings] using bound
      order := rfl
      cacheValid := .empty _ _ _ _
      tiersValid := .empty _ _ _ _
      tiers := ⟨rfl, rfl, rfl, rfl, ⟨.nil, List.forall_mem_nil _⟩, ⟨.nil, List.forall_mem_nil _⟩, rfl⟩
      tally := fun _ _ _ => rfl }

variable [BEq Value]

theorem Lockstep.purgeCache (lockstep : Lockstep count remaining twin) (number : Nat) :
    Lockstep count remaining { twin with fleet := (twin.fleet.call (.mk number .purgeSoft)).2 } := by
  rcases lockstep.either number with ⟨missing, -⟩ | ⟨cache, bare, located, bared, paired⟩
  · rw [Fleet.call_unknown missing]
    exact lockstep
  · have found := (Fleet.find?_eq_some_iff.mp located).2
    have matched : Tiers.Matches (twin.fleet.moment cache)
        (Tiers.purgeSoft (.still (twin.fleet.moment cache)) cache.tiers cache.tally).2.1 bare.tiers := by
      rw [Tiers.purgeSoft_snd]
      exact paired.tiers.purge
    have counted := Tiers.purgeSoft_alike paired.tally cache.tiers (twin.fleet.moment cache)
    have settled := lockstep.settle found bared rfl (paired.cacheValid.purgeSoft _ _) paired.tiersValid matched
      counted
    rw [Workbench.settle_self bared] at settled
    have asked : Action.operation? twin.fleet .purgeSoft = some .purgeSoft := rfl
    rw [Fleet.call_operation lockstep.quiet located asked]
    exact settled

theorem Lockstep.purgeTiers (lockstep : Lockstep count remaining twin) (number : Nat) :
    Lockstep count remaining { twin with bench := (twin.bench.perform number .purgeSoft).2 } := by
  rcases lockstep.either number with ⟨-, missing⟩ | ⟨cache, bare, located, bared, paired⟩
  · rw [Workbench.perform_unknown missing]
    exact lockstep
  · have found := (Fleet.find?_eq_some_iff.mp located).2
    have moment := paired.moment lockstep.clock
    have matched : Tiers.Matches (twin.fleet.moment cache) cache.tiers
        (Tiers.purgeSoft (.still (twin.fleet.moment cache)) bare.tiers bare.tally).2.1 := by
      rw [Tiers.purgeSoft_snd]
      exact paired.tiers.symm.purge.symm
    have order := Tiers.order_operate (.still (twin.fleet.moment cache)) bare.tiers bare.tally .purgeSoft
    have counted := Tiers.purgeSoft_alike paired.tally.symm bare.tiers (twin.fleet.moment cache)
    have settled := lockstep.settle found bared order paired.cacheValid
      (paired.tiersValid.purgeSoft _ _) matched counted.symm
    rw [Fleet.adjust_self found rfl] at settled
    have asked : Workbench.Action.operation? twin.bench .purgeSoft = some .purgeSoft := rfl
    rw [Workbench.perform_operation bared asked, moment]
    exact settled

/-- Reclaiming ends the life of the same entries on both sides, as long as no epoch comes back. -/
theorem Lockstep.reclaim (lockstep : Lockstep count (.reclaim number :: rest) twin) :
    Lockstep count rest ⟨(twin.fleet.call (.mk number .reclaim)).2,
      (twin.bench.perform number (.reclaim (Workbench.sharedHandles + number))).2⟩ := by
  have later := lockstep.later
  rcases lockstep.either number with ⟨missing, absent⟩ | ⟨cache, bare, located, bared, paired⟩
  · rw [Fleet.call_unknown missing, Workbench.perform_unknown absent]
    exact later
  · have found := (Fleet.find?_eq_some_iff.mp located).2
    have stored : Workbench.sharedHandles + number < twin.bench.epochs.size := by
      rw [lockstep.epochs, ← lockstep.caches]
      exact Nat.add_lt_add_left (Array.getElem?_eq_some_iff.mp found).1 _
    rw [Fleet.call_reclaim located, Workbench.perform_reclaim bared]
    refine {
      quiet := later.quiet.adjust number (fun _ => rfl) fun _ => rfl
      handles := later.handles
      caches := by
        rw [Fleet.adjust, Array.size_modify]
        exact later.caches
      tiers := later.tiers
      epochs := by
        rw [Workbench.reclaim, Array.size_modify]
        exact later.epochs
      clock := later.clock
      paired := ?_ }
    intro other otherCache otherBare otherFound otherBared
    dsimp only at otherFound otherBared
    rw [Fleet.caches_adjust] at otherFound
    by_cases here : number = other
    · subst here
      rw [if_pos rfl, found] at otherFound
      obtain rfl := Option.some.inj otherFound
      obtain rfl := Option.some.inj (bared.symm.trans otherBared)
      exact paired.reclaim stored
    · rw [if_neg here] at otherFound
      have kept := later.paired other otherCache otherBare otherFound otherBared
      have apart : Workbench.sharedHandles + number ≠ otherBare.reclaimHandle := by
        rw [kept.handle]
        exact fun same => here (Nat.add_left_cancel same)
      exact { kept with epoch := (Workbench.epochOf_reclaim_of_ne apart).trans kept.epoch }

theorem Lockstep.advance (lockstep : Lockstep count remaining twin) (number nanoseconds : Nat) :
    Lockstep count remaining ⟨(twin.fleet.call (.mk number (.advance nanoseconds))).2,
      (twin.bench.perform number (.advance nanoseconds)).2⟩ := by
  rcases lockstep.either number with ⟨missing, absent⟩ | ⟨cache, bare, located, bared, -⟩
  · rw [Fleet.call_unknown missing, Workbench.perform_unknown absent]
    exact lockstep
  · rw [Fleet.call_advance located, Workbench.perform_advance bared]
    refine { lockstep with
      clock := congrArg (· + nanoseconds) lockstep.clock
      paired := ?_ }
    intro other otherCache otherBare otherFound otherBared
    have paired := lockstep.paired other otherCache otherBare otherFound otherBared
    have order : (twin.fleet.moment otherCache).Before ⟨twin.fleet.clock + nanoseconds, otherCache.epoch⟩ :=
      ⟨Nat.le_add_right _ _, UInt64.le_refl _⟩
    exact { paired with tiers := paired.tiers.later order }

section Ask

variable {action : Action Key Value} {counterpart : Workbench.Action Key Value}
  {read : Reply Key Value → Reply Key Value}

theorem Lockstep.operate (lockstep : Lockstep count remaining twin)
    (located : twin.fleet.find? number = some (number, cache))
    (bared : twin.bench.caches[number]? = some bare) {operation : Operation Key Value}
    (asked : action.operation? twin.fleet = some operation)
    (also : counterpart.operation? twin.bench = some operation) (kept : operation ≠ .purgeSoft) :
    (twin.fleet.call (.mk number action)).1 = (twin.bench.perform number counterpart).1 ∧
      Lockstep count remaining ⟨(twin.fleet.call (.mk number action)).2, (twin.bench.perform number counterpart).2⟩ := by
  have found := (Fleet.find?_eq_some_iff.mp located).2
  have paired := lockstep.paired number cache bare found bared
  have matching := Tiers.serve_matching paired.tiers paired.tally paired.cacheValid paired.tiersValid operation kept
  rw [Fleet.call_operation lockstep.quiet located asked, Workbench.perform_operation bared also,
    paired.moment lockstep.clock]
  exact ⟨congrArg Answer.reply matching.result,
    lockstep.settle found bared (Tiers.order_operate _ _ _ operation) (paired.cacheValid.serve _ operation _)
      (paired.tiersValid.operate _ operation _) matching.tiers matching.tally⟩

theorem Lockstep.report (lockstep : Lockstep count remaining twin)
    (located : twin.fleet.find? number = some (number, cache))
    (bared : twin.bench.caches[number]? = some bare) {first second : Reply Key Value}
    (plain : action.plain = true) (reported : cache.report? twin.fleet.clock action = some first)
    (also : Workbench.report? bare.tiers (twin.fleet.moment cache) counterpart = some second)
    (same : first = read second) :
    (twin.fleet.call (.mk number action)).1 = read (twin.bench.perform number counterpart).1 ∧
      Lockstep count remaining ⟨(twin.fleet.call (.mk number action)).2, (twin.bench.perform number counterpart).2⟩ := by
  have paired := lockstep.paired number cache bare (Fleet.find?_eq_some_iff.mp located).2 bared
  rw [← paired.moment lockstep.clock] at also
  rw [Fleet.call_report lockstep.quiet located plain reported, Workbench.perform_report bared also]
  exact ⟨same, lockstep⟩

theorem Lockstep.putAll (lockstep : Lockstep count remaining twin)
    (located : twin.fleet.find? number = some (number, cache))
    (bared : twin.bench.caches[number]? = some bare) (source : Nat) (replaceExisting : Bool) :
    (twin.fleet.call (.mk number (.putAll source replaceExisting))).1 =
        (twin.bench.perform number (.putAll source replaceExisting)).1 ∧
      Lockstep count remaining ⟨(twin.fleet.call (.mk number (.putAll source replaceExisting))).2,
        (twin.bench.perform number (.putAll source replaceExisting)).2⟩ := by
  rcases lockstep.either source with ⟨missing, absent⟩ | ⟨origin, other, sourced, stored, paired⟩
  · rw [Fleet.call, Fleet.perform, located, Workbench.perform, bared]
    dsimp only
    rw [missing, absent]
    exact ⟨rfl, lockstep⟩
  · have asked : (Action.putAll source replaceExisting).operation? twin.fleet =
        some (.putAll (origin.tiers.entries (twin.fleet.moment origin)) replaceExisting) := by
      rw [Action.operation?, sourced]
      rfl
    have also : (Workbench.Action.putAll source replaceExisting).operation? twin.bench =
        some (.putAll (origin.tiers.entries (twin.fleet.moment origin)) replaceExisting) := by
      rw [Workbench.Action.operation?, stored, paired.tiers.entries, ← paired.moment lockstep.clock]
      rfl
    exact lockstep.operate located bared asked also (by simp)

/-- Both sides reply the same to whatever both can be asked. -/
theorem Lockstep.ask (lockstep : Lockstep count remaining twin) (number : Nat)
    (known : action.counterpart? = some (counterpart, read)) :
    (twin.fleet.call (.mk number action)).1 = read (twin.bench.perform number counterpart).1 ∧
      Lockstep count remaining ⟨(twin.fleet.call (.mk number action)).2, (twin.bench.perform number counterpart).2⟩ := by
  rcases lockstep.either number with ⟨missing, absent⟩ | ⟨cache, bare, located, bared, paired⟩
  · rw [Fleet.call_unknown missing, Workbench.perform_unknown absent]
    exact ⟨(Action.counterpart_unknown known number).symm, lockstep⟩
  · have tiers := paired.tiers
    have entries := tiers.entries
    have size := congrArg (fun lengths => lengths.1 + lengths.2.1 + lengths.2.2) tiers.lengths
    cases action with
    | put | putShared | get | remove | pin | unpin | clear | setCacheSize | setSoftReferenceSize =>
        cases known
        exact lockstep.operate located bared rfl rfl nofun
    | putAll source replaceExisting =>
        cases known
        exact lockstep.putAll located bared source replaceExisting
    | containsKey key =>
        cases known
        exact lockstep.report located bared rfl rfl rfl (congrArg Reply.flag (tiers.containsKey key))
    | containsValue value during =>
        cases during with
        | nil =>
            cases known
            exact lockstep.report located bared rfl rfl rfl
              (congrArg (fun entries => Reply.flag (entries.any fun entry => entry.value == value)) entries)
        | cons => cases known
    | isPinned key =>
        cases known
        exact lockstep.report located bared rfl rfl rfl
          (congrArg (fun pinned => Reply.flag (PinnedTier.isPinned pinned key)) tiers.pinned)
    | pinnedKeys =>
        cases known
        exact lockstep.report located bared rfl rfl rfl
          (congrArg (fun pinned => Reply.pinnedKeys (PinnedTier.keys pinned)) tiers.pinned)
    | keys =>
        cases known
        exact lockstep.report located bared rfl rfl rfl
          (congrArg (fun entries => Reply.asKeys (.entries entries)) entries)
    | entries =>
        cases known
        exact lockstep.report located bared rfl rfl rfl (congrArg Reply.entries entries)
    | size =>
        cases known
        exact lockstep.report located bared rfl rfl rfl (congrArg Reply.number size)
    | isEmpty =>
        cases known
        exact lockstep.report located bared rfl rfl rfl (congrArg (fun size => Reply.flag (size == 0)) size)
    | cacheSize =>
        cases known
        exact lockstep.report located bared rfl rfl rfl
          (congrArg (fun primary => Reply.number (PrimaryTier.capacity primary)) tiers.primary)
    | softReferenceSize =>
        cases known
        exact lockstep.report located bared rfl rfl rfl (congrArg Reply.number tiers.softReferenceSize)
    | evictionOrder =>
        cases known
        exact lockstep.report located bared rfl rfl rfl (congrArg Reply.order paired.order.symm)
    | isLru =>
        cases known
        exact lockstep.report located bared rfl rfl rfl
          (congrArg (fun order => Reply.flag (EvictionOrder.isLru order)) paired.order.symm)
    | audit =>
        cases known
        have sound := paired.cacheValid.audit_eq_ok.trans paired.tiersValid.audit_eq_ok.symm
        exact lockstep.report located bared rfl rfl rfl (congrArg Reply.audit sound)
    | _ => cases known

end Ask

theorem Lockstep.step (lockstep : Lockstep count (next :: rest) twin) :
    (∀ replies ∈ (twin.step next).1, replies.1 = replies.2) ∧ Lockstep count rest (twin.step next).2 := by
  have later := lockstep.later
  have unasked : ∀ replies ∈ (none : Option (Reply Key Value × Reply Key Value)), replies.1 = replies.2 :=
    fun replies asked => absurd asked (Option.not_mem_none replies)
  cases next with
  | ask number action =>
      rw [Twin.step]
      cases known : action.counterpart? with
      | none => exact ⟨unasked, later⟩
      | some counterpart =>
          obtain ⟨same, after⟩ := later.ask number known
          refine ⟨?_, after⟩
          intro replies asked
          cases asked
          exact same
  | purgeCache number => exact ⟨unasked, later.purgeCache number⟩
  | purgeTiers number => exact ⟨unasked, later.purgeTiers number⟩
  | reclaim number => exact ⟨unasked, lockstep.reclaim⟩
  | advance number nanoseconds => exact ⟨unasked, later.advance number nanoseconds⟩

theorem Lockstep.run {steps : List (Step Key Value)} (lockstep : Lockstep count steps twin) :
    (∀ replies ∈ (twin.run steps).1, replies.1 = replies.2) ∧ Lockstep count [] (twin.run steps).2 := by
  induction steps generalizing twin with
  | nil => exact ⟨fun replies asked => absurd asked List.not_mem_nil, lockstep⟩
  | cons next rest ih =>
      obtain ⟨same, after⟩ := lockstep.step
      obtain ⟨sameLater, final⟩ := ih after
      refine ⟨?_, final⟩
      intro replies asked
      rcases List.mem_append.mp asked with now | later
      · exact same replies (Option.mem_toList.mp now)
      · exact sameLater replies later

end Twin

end LayeredCache
