import LayeredCache.Proofs.Fleet.Closure
import LayeredCache.Proofs.Tiers.Lifetime
import Mathlib.Algebra.Group.Nat.Defs

/-! Fleets in the course of time. Every reclaim is noted in the journal, so that an epoch never exceeds the count of
reclaims noted; as long as that count fits an epoch, neither the clock nor an epoch runs backwards in a call, callbacks
included, and the stamps of every soft tier stay in order. -/

set_option autoImplicit false

namespace LayeredCache

variable {Key Value : Type} [DecidableEq Key]

/-- Whether a note tells of a reclaim. -/
def Note.isReclaim : Note Key Value → Bool
  | .answered (.mk _ .reclaim) .done => true
  | _ => false

namespace Fleet

/-- How many reclaims the journal tells of. -/
def reclaims (fleet : Fleet Key Value) : Nat := fleet.journal.countP Note.isReclaim

def epochOf (fleet : Fleet Key Value) (number : Nat) : Epoch := (fleet.caches[number]?).elim 0 Cache.epoch

/-- The present of a cache. -/
def momentOf (fleet : Fleet Key Value) (number : Nat) : Moment := ⟨fleet.clock, fleet.epochOf number⟩

/-- The lifetime that entries have in the soft tier of a cache, if there is such a cache. -/
def ttlOf? (fleet : Fleet Key Value) (number : Nat) : Option (Option Span) :=
  fleet.caches[number]?.map fun cache => cache.tiers.soft.ttl

/-- Epochs count some of the reclaims, and as long as these are few enough, the stamps of every soft tier are in
order. -/
structure Dated (fleet : Fleet Key Value) : Prop where
  epochs : ∀ number, (fleet.epochOf number).toNat ≤ fleet.reclaims
  reachable : ∀ (number : Nat) (cache : Cache Key Value),
    fleet.caches[number]? = some cache → cache.tiers.Reachable
  aged : fleet.reclaims < 2 ^ 64 → ∀ (number : Nat) (cache : Cache Key Value),
    fleet.caches[number]? = some cache → Aged (fleet.moment cache) cache.tiers.soft.toList

/-- Time has passed from one fleet to the next, and each epoch has grown by some of the reclaims noted since. -/
structure Elapsed (before after : Fleet Key Value) : Prop where
  clock : before.clock ≤ after.clock
  reclaims : before.reclaims ≤ after.reclaims
  epochs : ∀ number, ∃ more, before.reclaims + more ≤ after.reclaims ∧
    after.epochOf number = before.epochOf number + UInt64.ofNat more
  lifetimes : ∀ number, after.ttlOf? number = before.ttlOf? number

/-- Time has passed in good order. -/
structure Passed (before after : Fleet Key Value) : Prop extends Elapsed before after where
  dated : before.Dated → after.Dated

variable {fleet first second third : Fleet Key Value} {number : Nat} {cache : Cache Key Value}
  {change : Cache Key Value → Cache Key Value}

theorem Elapsed.refl (fleet : Fleet Key Value) : Elapsed fleet fleet where
  clock := Nat.le_refl _
  reclaims := Nat.le_refl _
  epochs _ := ⟨0, Nat.le_refl _, (UInt64.add_zero _).symm⟩
  lifetimes _ := rfl

theorem Elapsed.trans (start : Elapsed first second) (rest : Elapsed second third) : Elapsed first third where
  clock := start.clock.trans rest.clock
  reclaims := start.reclaims.trans rest.reclaims
  epochs number := by
    obtain ⟨more, counted, grown⟩ := start.epochs number
    obtain ⟨again, recounted, regrown⟩ := rest.epochs number
    refine ⟨more + again, by omega, ?_⟩
    rw [regrown, grown, UInt64.ofNat_add, UInt64.add_assoc]
  lifetimes number := (rest.lifetimes number).trans (start.lifetimes number)

/-- An epoch that counts some of few reclaims has not come round. -/
theorem Elapsed.epoch_le (elapsed : Elapsed first second) (dated : first.Dated)
    (few : second.reclaims < 2 ^ 64) (number : Nat) : first.epochOf number ≤ second.epochOf number := by
  obtain ⟨more, counted, grown⟩ := elapsed.epochs number
  have bounded := dated.epochs number
  rw [grown, UInt64.le_iff_toNat_le, UInt64.toNat_add, UInt64.toNat_ofNat']
  omega

theorem Elapsed.moment_before (elapsed : Elapsed first second) (dated : first.Dated)
    (few : second.reclaims < 2 ^ 64) (number : Nat) : (first.momentOf number).Before (second.momentOf number) :=
  ⟨elapsed.clock, elapsed.epoch_le dated few number⟩

theorem moment_eq (found : fleet.caches[number]? = some cache) : fleet.moment cache = fleet.momentOf number := by
  rw [moment, momentOf, epochOf, found]
  rfl

theorem Passed.refl (fleet : Fleet Key Value) : Passed fleet fleet := ⟨.refl fleet, id⟩

theorem Passed.trans (start : Passed first second) (rest : Passed second third) : Passed first third :=
  ⟨start.toElapsed.trans rest.toElapsed, fun dated => rest.dated (start.dated dated)⟩

theorem epochOf_adjust (same : ∀ cache, (change cache).epoch = cache.epoch) (fleet : Fleet Key Value)
    (number other : Nat) : (fleet.adjust number change).epochOf other = fleet.epochOf other := by
  rw [epochOf, epochOf, caches_adjust]
  split
  · cases fleet.caches[other]? with
    | none => rfl
    | some cache => exact same cache
  · rfl

theorem host_moment (react : Reaction Key Value) (number : Nat) (listener : Option (Listener Key Value))
    (fleet : Fleet Key Value) : (host react number listener).moment fleet = fleet.momentOf number :=
  rfl

/-- A count takes no time. -/
theorem moment_record (react : Reaction Key Value) (number : Nat) (listener : Option (Listener Key Value))
    (recording : Metrics.Recording) (fleet : Fleet Key Value) :
    (host react number listener).moment ((host react number listener).record recording fleet) =
      (host react number listener).moment fleet := by
  have epoch : (fleet.adjust number (Cache.record recording)).epochOf number = fleet.epochOf number := by
    apply epochOf_adjust
    exact fun _ => rfl
  exact congrArg (Moment.mk fleet.clock) epoch

theorem Elapsed.adjust (epoch : ∀ cache, (change cache).epoch = cache.epoch)
    (ttl : ∀ cache, fleet.caches[number]? = some cache → (change cache).tiers.soft.ttl = cache.tiers.soft.ttl) :
    Elapsed fleet (fleet.adjust number change) where
  clock := Nat.le_refl _
  reclaims := Nat.le_refl _
  epochs other := ⟨0, Nat.le_refl _, by rw [epochOf_adjust epoch]; exact (UInt64.add_zero _).symm⟩
  lifetimes other := by
    rw [ttlOf?, ttlOf?, caches_adjust]
    split
    next same =>
      subst same
      cases found : fleet.caches[number]? with
      | none => rfl
      | some cache => exact congrArg some (ttl cache found)
    next => rfl

theorem Dated.adjust (dated : fleet.Dated) (epoch : ∀ cache, (change cache).epoch = cache.epoch)
    (reachable : ∀ cache, fleet.caches[number]? = some cache → (change cache).tiers.Reachable)
    (aged : fleet.reclaims < 2 ^ 64 → ∀ cache, fleet.caches[number]? = some cache →
      Aged (fleet.moment cache) (change cache).tiers.soft.toList) :
    (fleet.adjust number change).Dated where
  epochs other := by
    rw [epochOf_adjust epoch]
    exact dated.epochs other
  reachable other cache found := by
    rw [caches_adjust] at found
    split at found
    next same =>
      subst same
      obtain ⟨stored, present, rfl⟩ := Option.map_eq_some_iff.mp found
      exact reachable stored present
    next => exact dated.reachable other cache found
  aged few other cache found := by
    rw [caches_adjust] at found
    split at found
    next same =>
      subst same
      obtain ⟨stored, present, rfl⟩ := Option.map_eq_some_iff.mp found
      have moment : (fleet.adjust number change).moment (change stored) = fleet.moment stored :=
        congrArg (Moment.mk fleet.clock) (epoch stored)
      rw [moment]
      exact aged few stored present
    next => exact dated.aged few other cache found

/-- A change of a cache takes no time that leaves its tiers and its epoch alone. -/
theorem Passed.adjust (tiers : ∀ cache, (change cache).tiers = cache.tiers)
    (epoch : ∀ cache, (change cache).epoch = cache.epoch) : Passed fleet (fleet.adjust number change) where
  toElapsed := Elapsed.adjust epoch fun cache _ => by rw [tiers]
  dated dated := by
    refine dated.adjust epoch ?_ ?_
    · intro cache found
      rw [tiers]
      exact dated.reachable number cache found
    · intro few cache found
      rw [tiers]
      exact dated.aged few number cache found

theorem Passed.hold (fleet : Fleet Key Value) (number : Nat) (mode : LockMode) :
    Passed fleet (fleet.hold number mode) :=
  Passed.adjust (fun _ => rfl) fun _ => rfl

theorem Passed.record (fleet : Fleet Key Value) (number : Nat) (recording : Metrics.Recording) :
    Passed fleet (fleet.adjust number (Cache.record recording)) :=
  Passed.adjust (fun _ => rfl) fun _ => rfl

/-- A note takes no time; at most it counts a reclaim more. -/
theorem Passed.note (fleet : Fleet Key Value) (line : Note Key Value) : Passed fleet (fleet.note line) := by
  have counted : fleet.reclaims ≤ (fleet.note line).reclaims := by
    rw [reclaims, reclaims, Fleet.note, List.countP_append]
    exact Nat.le_add_right _ _
  constructor
  · exact ⟨Nat.le_refl _, counted, fun _ => ⟨0, counted, (UInt64.add_zero _).symm⟩, fun _ => rfl⟩
  · intro dated
    exact ⟨fun number => (dated.epochs number).trans counted, dated.reachable,
      fun few number cache found => dated.aged (counted.trans_lt few) number cache found⟩

theorem Passed.advance (fleet : Fleet Key Value) (nanoseconds : Nat) :
    Passed fleet { fleet with clock := fleet.clock + nanoseconds } := by
  have later : fleet.clock ≤ fleet.clock + nanoseconds := Nat.le_add_right _ _
  constructor
  · exact ⟨later, Nat.le_refl _, fun _ => ⟨0, Nat.le_refl _, (UInt64.add_zero _).symm⟩, fun _ => rfl⟩
  · intro dated
    refine ⟨dated.epochs, dated.reachable, ?_⟩
    intro few number cache found
    exact (dated.aged few number cache found).mono ⟨later, UInt64.le_refl _⟩

theorem caches_reclaimed (fleet : Fleet Key Value) (handle number other : Nat) :
    (fleet.reclaimed handle number).caches[other]? =
      if number = other then fleet.caches[other]?.map fun cache => { cache with epoch := cache.epoch + 1 }
      else fleet.caches[other]? :=
  caches_adjust fleet number other _

theorem reclaims_reclaimed (fleet : Fleet Key Value) (handle number : Nat) :
    (fleet.reclaimed handle number).reclaims = fleet.reclaims + 1 :=
  List.countP_append

theorem epochOf_reclaimed (fleet : Fleet Key Value) (handle number other : Nat) :
    ∃ more ≤ 1, (fleet.reclaimed handle number).epochOf other = fleet.epochOf other + UInt64.ofNat more := by
  rw [epochOf, caches_reclaimed, epochOf]
  split
  · cases fleet.caches[other]? with
    | none => exact ⟨0, Nat.zero_le _, rfl⟩
    | some cache => exact ⟨1, Nat.le_refl _, rfl⟩
  · exact ⟨0, Nat.zero_le _, (UInt64.add_zero _).symm⟩

theorem Elapsed.reclaim (fleet : Fleet Key Value) (handle number : Nat) :
    Elapsed fleet (fleet.reclaimed handle number) := by
  have counted := reclaims_reclaimed fleet handle number
  refine ⟨Nat.le_refl _, by omega, ?_, ?_⟩
  · intro other
    obtain ⟨more, single, grown⟩ := epochOf_reclaimed fleet handle number other
    exact ⟨more, by omega, grown⟩
  · intro other
    rw [ttlOf?, caches_reclaimed, ttlOf?]
    split
    · rw [Option.map_map]
      rfl
    · rfl

/-- A reclaim begins an epoch of one cache, which leaves the stamps in order. -/
theorem Dated.reclaim (dated : fleet.Dated) (handle number : Nat) : (fleet.reclaimed handle number).Dated := by
  have counted := reclaims_reclaimed fleet handle number
  constructor
  · intro other
    obtain ⟨more, single, grown⟩ := epochOf_reclaimed fleet handle number other
    have before := dated.epochs other
    rw [grown, UInt64.toNat_add, UInt64.toNat_ofNat']
    omega
  · intro other cache found
    rw [caches_reclaimed] at found
    split at found
    · obtain ⟨stored, present, rfl⟩ := Option.map_eq_some_iff.mp found
      exact dated.reachable other stored present
    · exact dated.reachable other cache found
  · intro few other cache found
    have order := (Elapsed.reclaim fleet handle number).epoch_le dated few other
    have before := dated.aged (by omega)
    rw [epochOf, epochOf, found] at order
    rw [caches_reclaimed] at found
    split at found
    · obtain ⟨stored, present, rfl⟩ := Option.map_eq_some_iff.mp found
      rw [present] at order
      exact (before other stored present).mono ⟨Nat.le_refl _, order⟩
    · exact before other cache found

/-- Between a world in which an operation read its instant and a later one, stamps stay in order. -/
def Ages (start : Fleet Key Value) (number : Nat) (read now : Fleet Key Value) (_ : Option Span)
    (line : List (Key × Stamped Value)) : Prop :=
  Passed start now ∧ (now.reclaims < 2 ^ 64 →
    read.clock ≤ now.clock ∧ Aged ⟨read.clock, now.epochOf number⟩ line)

variable {react : Reaction Key Value} {listener : Option (Listener Key Value)}

theorem ages_later {start read now later : Fleet Key Value} {ttl : Option Span}
    {line : List (Key × Stamped Value)} (dated : start.Dated) (passed : Passed now later)
    (ages : Ages start number read now ttl line) : Ages start number read later ttl line := by
  obtain ⟨since, aged⟩ := ages
  refine ⟨since.trans passed, fun few => ?_⟩
  obtain ⟨order, past⟩ := aged (passed.reclaims.trans_lt few)
  have epoch := passed.epoch_le (since.dated dated) few number
  exact ⟨order.trans passed.clock, past.mono ⟨Nat.le_refl _, epoch⟩⟩

theorem ages_law {start : Fleet Key Value} (dated : start.Dated)
    (moves : (host react number listener).Moves Passed) :
    Law (host react number listener) (Ages start number) where
  sublist ages included := ⟨ages.1, fun few => ⟨(ages.2 few).1, (ages.2 few).2.sublist included⟩⟩
  record recording ages := ages_later dated (moves.record recording _) ages
  notify event ages := ages_later dated (moves.notify event _) ages
  reread ages := by
    refine ⟨ages.1, fun few => ?_⟩
    obtain ⟨order, aged⟩ := ages.2 few
    exact ⟨Nat.le_refl _, aged.mono ⟨order, UInt64.le_refl _⟩⟩
  accepted key value ages := by
    refine ⟨ages.1, fun few => ?_⟩
    obtain ⟨order, aged⟩ := ages.2 few
    refine ⟨order, aged.append ?_⟩
    intro entry member
    rw [List.mem_singleton.mp member]
    rfl

/-- A writer lets its cache go in no time. -/
theorem elapsed_release (found : fleet.caches[number]? = some cache) {operation : Operation Key Value}
    (working : Elapsed (fleet.hold number .exclusive) (Tiers.operateHeld (host react number cache.listener) operation
      cache.tiers (fleet.hold number .exclusive)).2.2) :
    Elapsed (Tiers.operateHeld (host react number cache.listener) operation cache.tiers
      (fleet.hold number .exclusive)).2.2 (work react number cache operation fleet).2 := by
  refine Elapsed.adjust (fun _ => rfl) ?_
  intro now settled
  have held := caches_adjust fleet number number fun cache => { cache with hold := .held .exclusive }
  rw [if_pos rfl, found] at held
  have same := working.lifetimes number
  rw [ttlOf?, ttlOf?, settled, hold, held] at same
  exact (Tiers.ttl_operateHeld _ operation cache.tiers _).trans (Option.some.inj same).symm

/-- A writer that meets a fleet in good order leaves it so. -/
theorem work_passed (found : fleet.caches[number]? = some cache)
    (moves : (host react number cache.listener).Moves Passed) (operation : Operation Key Value) :
    Passed fleet (work react number cache operation fleet).2 := by
  let held := fleet.hold number .exclusive
  have holding : Passed fleet held := .hold fleet number .exclusive
  have present : held.caches[number]? = some { cache with hold := .held .exclusive } := by
    have caches := caches_adjust fleet number number fun cache => { cache with hold := .held .exclusive }
    rw [if_pos rfl, found] at caches
    exact caches
  let worked := Tiers.operateHeld (host react number cache.listener) operation cache.tiers held
  have keeps := moves.keeps Passed.trans held
  have working : Passed held worked.2.2 :=
    Tiers.operateHeld_keeps keeps operation cache.tiers (Passed.refl held)
  constructor
  · exact (holding.trans working).toElapsed.trans (elapsed_release found working.toElapsed)
  · intro dated
    have start := holding.dated dated
    have begun : Tiers.Obeys (Ages held number) held (cache.tiers, held) := by
      refine ⟨Passed.refl held, fun few => ⟨Nat.le_refl _, ?_⟩⟩
      have aged := start.aged few number _ present
      rw [epochOf, present]
      exact aged
    have ages := begun.operateHeld (ages_law start moves) operation
    refine (working.dated start).adjust (fun _ => rfl) ?_ ?_
    · intro now settled
      exact (dated.reachable number cache found).operateHeld _ operation held
    · intro few now settled
      have aged := (ages.2 few).2
      rw [epochOf, settled] at aged
      exact aged

theorem passed_closed [BEq Value] : Closed (@Passed Key Value _) fun _ => Passed where
  refl := Passed.refl
  trans := Passed.trans
  working_of_related passed := passed
  working_trans := Passed.trans
  told number event fleet := Passed.note fleet (.event number event)
  answered call reply fleet := Passed.note fleet (.answered call reply)
  beside fleet number _ beside := Passed.adjust beside.tiers beside.epoch
  cloned fleet number :=
    ⟨⟨Nat.le_refl _, Nat.le_refl _, fun _ => ⟨0, Nat.le_refl _, (UInt64.add_zero _).symm⟩, fun _ => rfl⟩,
      fun dated => ⟨dated.epochs, dated.reachable, dated.aged⟩⟩
  advanced := Passed.advance
  reclaimed {fleet handle number _} _ := ⟨.reclaim fleet handle number, fun dated => dated.reclaim handle number⟩
  searched {fleet after number cache} _ _ searched := by
    exact (Passed.hold fleet number .shared).trans (searched.trans (Passed.adjust (fun _ => rfl) fun _ => rfl))
  worked {fleet react handle number cache action operation} located _ _ moves := by
    have worked := work_passed (find?_eq_some_iff.mp located).2 moves operation
    exact worked.trans (Passed.note _ _)
  purged found _ moves := work_passed found moves .purgeSoft

theorem cache_ofSettings {settings : List Settings}
    (found : (ofSettings settings : Fleet Key Value).caches[number]? = some cache) :
    ∃ chosen ∈ settings, cache = .ofSettings chosen := by
  rw [ofSettings, List.getElem?_toArray, List.getElem?_map] at found
  obtain ⟨chosen, listed, rfl⟩ := Option.map_eq_some_iff.mp found
  exact ⟨chosen, List.mem_of_getElem? listed, rfl⟩

theorem ofSettings_dated (settings : List Settings) : (ofSettings settings : Fleet Key Value).Dated := by
  constructor
  · intro number
    rw [epochOf]
    cases found : (ofSettings settings : Fleet Key Value).caches[number]? with
    | none => exact Nat.le_refl _
    | some cache =>
        obtain ⟨chosen, -, rfl⟩ := cache_ofSettings found
        exact Nat.le_refl _
  · intro number cache found
    obtain ⟨chosen, -, rfl⟩ := cache_ofSettings found
    exact .fresh _ _ _ _
  · intro few number cache found
    obtain ⟨chosen, -, rfl⟩ := cache_ofSettings found
    exact ⟨List.Pairwise.nil, nofun⟩

/-- Whatever was called, tiers are such as operations lead to. -/
theorem reachable_converse [BEq Value] {settings : List Settings} {requests : List (Call Key Value)}
    (reached : (ofSettings settings).converse requests = fleet) (found : fleet.caches[number]? = some cache) :
    cache.tiers.Reachable := by
  have passed := converse_related (@passed_closed Key Value _ _) (ofSettings settings) requests
  rw [reached] at passed
  exact (passed.dated (ofSettings_dated settings)).reachable number cache found

end Fleet

end LayeredCache
