import LayeredCache.Proofs.Fleet.Reckoning
import LayeredCache.Proofs.Tiers.Outcomes

/-! Calls and their outcomes, as the counts of a cache show them. Every call has counted what it came to at once, as a
reader or as a writer, so that the counters of outcomes add up to those of calls whenever no writer is at work on the
cache. -/

set_option autoImplicit false

namespace LayeredCache

open Metrics (Consistent Counter Recording Tally total)

variable {Key Value : Type} [DecidableEq Key]

theorem Tiers.consistent_lookupRecordings (tiers : Tiers Key Value) (key : Key) (found : Lookup Value) :
    Consistent (tiers.lookupRecordings key found) := by
  cases found with
  | hit value => exact tiers.consistent_getRecordings key true
  | miss => exact tiers.consistent_getRecordings key false
  | needsWrite => exact Metrics.consistent_nil

/-- What a call has counted is consistent, whether it is refused, looks something up or does something. -/
theorem Frame.consistent (frame : Frame Key Value) (number : Nat) : Consistent (frame.recordings number) := by
  rw [recordings]
  split
  · split <;> decide
  · have looked : Consistent (frame.lookedUp number) := by
      rw [lookedUp]
      split
      next place cache key located asked =>
        split
        · exact cache.tiers.consistent_lookupRecordings key _
        · exact Metrics.consistent_nil
      next => exact Metrics.consistent_nil
    exact looked.append (Metrics.consistent_flatMap fun done _ => done.consistent)

/-- What has been counted since the counts were set back is consistent. -/
theorem consistent_countedSince (number : Nat) (trace : List (Frame Key Value)) :
    Consistent (countedSince number trace) := by
  have each : ∀ past, Consistent past → Consistent (trace.foldl
      (fun past frame => if frame.resets number then [] else past ++ frame.recordings number) past) := by
    induction trace with
    | nil => exact fun _ => id
    | cons frame rest ih =>
        intro past before
        refine ih _ ?_
        dsimp only
        split
        · exact Metrics.consistent_nil
        · exact before.append (frame.consistent number)
  exact each [] Metrics.consistent_nil

namespace Fleet

variable {fleet : Fleet Key Value} {number handle : Nat} {cache : Cache Key Value} {react : Reaction Key Value}
  {writers : List Nat} {key : Key} {inner trace : List (Frame Key Value)}

/-- Whatever is called while a writer is at work is not counted as a value that was asked for. -/
theorem total_busy (busy : ∀ frame ∈ inner, frame.fleet.Busy number ∧ frame.deedsOn number = []) {counter : Counter}
    (asked : counter ∈ Counter.gets) : total counter (inner.flatMap (Frame.recordings number)) = 0 := by
  induction inner with
  | nil => rfl
  | cons frame rest ih =>
      obtain ⟨⟨held, idle⟩, others⟩ := List.forall_mem_cons.mp busy
      have timeouts := List.eq_replicate_of_mem (recordings_busy held idle)
      have none : ∀ counter ∈ Counter.gets, Recording.lockTimeout.amount counter = 0 := by decide
      rw [List.flatMap_cons, Metrics.total_append, ih others, timeouts, Metrics.total_replicate, none counter asked]
      rfl

variable [BEq Value]

/-- A value that is got is counted once, by the lookup or by the writer; and not at all if the call is refused. -/
theorem gotOnce_recordings (located : fleet.find? handle = some (number, cache)) (react : Reaction Key Value)
    (writers : List Nat) (key : Key) :
    let frame := Frame.begin react writers (.mk handle (.get key)) fleet
    let reply := (perform react (.mk handle (.get key)) fleet).1
    (∃ found, reply = .value found ∧ GotOnce (frame.recordings number) found.isSome) ∨
      ∃ timeout, reply = .refused timeout ∧ ∀ counter ∈ Counter.gets, total counter (frame.recordings number) = 0 := by
  intro frame reply
  let request : Call Key Value := .mk handle (.get key)
  cases refused : fleet.refusal? request with
  | some acquisition =>
      refine .inr ⟨acquisition.timeout, congrArg Prod.fst (perform_refused refused), ?_⟩
      have counted : frame.recordings number = _ := recordings_refused refused number
      rw [counted]
      split <;> decide
  | none =>
      refine .inl ?_
      cases taken : fleet.undertaking? request with
      | some undertaking =>
          obtain ⟨-, resolved, -, asked⟩ := undertaking?_eq_some taken
          obtain ⟨rfl, rfl⟩ := Prod.mk.inj (Option.some.inj (located.symm.trans resolved))
          obtain ⟨found, answered, once⟩ := Tiers.gotOnce_held (undertaking.host react) key undertaking.cache.tiers
            (fleet.hold undertaking.number .exclusive)
          obtain ⟨place, cache, operation⟩ := undertaking
          obtain rfl : Operation.get key = operation := Option.some.inj asked
          have counted := recordings_taken taken react writers place
          rw [if_pos rfl] at counted
          refine ⟨found, ?_, counted ▸ once⟩
          have told : reply = (Undertaking.worked ⟨place, cache, .get key⟩ react fleet).1.reply :=
            congrArg Prod.fst (perform_undertaking taken react).2
          rw [told, Undertaking.worked, answered]
          rfl
      | none =>
          have reached : Outcome react fleet number cache (.get key) (perform react request fleet) :=
            outcome_of_granted refused located react
          have undertaken := undertaking?_of_writes refused located
          have counted : ∀ {found after},
              cache.tiers.lookup (host react number cache.listener) key fleet = (found, after) →
                frame.recordings number = cache.tiers.lookupRecordings key found :=
            fun looked => (recordings_lookup refused taken located rfl looked number).trans (if_pos rfl)
          have told : reply = (perform react request fleet).1 := rfl
          rw [told]
          generalize perform react request fleet = outcome at reached
          cases reached with
          | told reported => cases reported
          | @hit _ value _ looked => exact ⟨some value, rfl, counted looked ▸ cache.tiers.gotOnce_getRecordings key true⟩
          | miss looked => exact ⟨none, rfl, counted looked ▸ cache.tiers.gotOnce_getRecordings key false⟩
          | worked asked free writes =>
              rw [taken] at undertaken
              cases (undertaken writes).trans (congrArg (Option.map _) asked)

/-- Whatever is called while a value is got finds a writer at work, and does nothing on the cache. -/
theorem waiting_get (located : fleet.find? handle = some (number, cache))
    (within : CarriedOut (nested react writers (.mk handle (.get key)) fleet) inner) :
    ∀ frame ∈ inner, frame.fleet.Busy number ∧ frame.deedsOn number = [] ∧ number ∈ frame.writers := by
  let request : Call Key Value := .mk handle (.get key)
  obtain ⟨pieces, rfl, made⟩ := within.within (reckoned_composed number)
  cases taken : fleet.undertaking? request with
  | some undertaking =>
      obtain ⟨rfl, -⟩ := Prod.mk.inj (Option.some.inj (located.symm.trans (undertaking?_eq_some taken).2.1))
      rw [nested, taken] at made
      exact waiting_within taken made
  | none =>
      have quiet : fleet.search? request = none := by
        rw [search?, show request.action = .get key from rfl]
        split
        · contradiction
        · rfl
      rw [nested, taken, quiet] at made
      cases made
      exact List.forall_mem_nil _

/-- Of the values that were asked for, a call that gets one leaves those counted that it has counted itself. -/
theorem counted_get (located : fleet.find? handle = some (number, cache))
    (within : CarriedOut (nested react writers (.mk handle (.get key)) fleet) inner) (spared : Spared number inner) :
    ∃ left, (perform react (.mk handle (.get key)) fleet).2.caches[number]? = some left ∧
      ∀ counter ∈ Counter.gets, left.tally.count counter = cache.tally.count counter +
        (total counter ((Frame.begin react writers (.mk handle (.get key)) fleet).recordings number)).toUInt64 := by
  have waits := waiting_get located within
  have sparing : (Frame.begin react writers (.mk handle (.get key)) fleet).resets number = false := by
    refine spared_of_action ?_ number
    intro reset
    cases reset
  obtain ⟨left, found, tally⟩ := tally_perform located within fun frame listed =>
    spared frame listed (waits frame listed).2.2
  refine ⟨left, found, ?_⟩
  intro counter asked
  have nothing := total_busy (fun frame listed => ⟨(waits frame listed).1, (waits frame listed).2.1⟩) asked
  rw [tally, Tally.count_recordAll, nothing, tallied_of_spared sparing, Tally.count_recordAll]
  exact UInt64.add_zero _

/-- Whenever no writer is at work on a cache, its counters of calls are those of their outcomes taken together, and no
more is found than was looked for, as long as no count has left its range. A value that is got is counted once, and so is
its outcome, by whomever it was found; a call that is refused counts neither. -/
theorem calls_are_partitioned_by_outcome :
    (∀ {settings : List Settings} {requests : List (Call Key Value)} {trace : List (Frame Key Value)},
      CarriedOut [⟨[], requests, ofSettings settings, (ofSettings settings).converse requests⟩] trace →
        ∀ {number past now}, number < settings.length → Spared number trace →
          Between number trace ((ofSettings settings).converse requests) past now →
            ∃ cache, now.caches[number]? = some cache ∧
              (∀ counter, cache.tally.count counter = (total counter (countedSince number past)).toUInt64) ∧
              cache.tally.Partitioned ∧
              ((∀ counter, total counter (countedSince number past) < 2 ^ 64) → cache.tally.Bounded)) ∧
      ∀ {react : Reaction Key Value} {writers fleet handle number cache key inner},
        fleet.find? handle = some (number, cache) →
          CarriedOut (nested react writers (.mk handle (.get key)) fleet) inner → Spared number inner →
            let outcome := perform react (.mk handle (.get key)) fleet
            ∃ left, outcome.2.caches[number]? = some left ∧
              ((∃ found, outcome.1 = .value found ∧ ∃ result ∈ Counter.getOutcomes,
                  (result = .getMisses ↔ found = none) ∧ ∀ counter ∈ Counter.gets, left.tally.count counter =
                    cache.tally.count counter + if counter = .getCalls ∨ counter = result then 1 else 0) ∨
                ∃ timeout, outcome.1 = .refused timeout ∧ ∀ counter ∈ Counter.gets,
                  left.tally.count counter = cache.tally.count counter) := by
  constructor
  · intro settings requests trace carried number past now listed spared between
    obtain ⟨cache, found, tally⟩ := between.countedSince carried listed spared
    have consistent := consistent_countedSince number past
    refine ⟨cache, found, ?_, ?_, ?_⟩
    · intro counter
      rw [tally, Tally.count_recordAll_zero]
    · rw [tally]
      exact Tally.partitioned_of_consistent consistent
    · intro fits
      rw [tally]
      exact Tally.bounded_of_consistent consistent fits
  · intro react writers fleet handle number cache key inner located within spared outcome
    obtain ⟨left, found, counts⟩ := counted_get located within spared
    refine ⟨left, found, ?_⟩
    rcases gotOnce_recordings located react writers key with
      ⟨value, told, result, listed, missed, once⟩ | ⟨timeout, told, none⟩
    · have silent : value.isSome = false ↔ value = none := Option.isSome_eq_false_iff.trans Option.isNone_iff_eq_none
      refine .inl ⟨value, told, result, listed, missed.trans silent, ?_⟩
      intro counter asked
      rw [counts counter asked, once counter asked]
      split <;> rfl
    · refine .inr ⟨timeout, told, ?_⟩
      intro counter asked
      rw [counts counter asked, none counter asked]
      exact UInt64.add_zero _

/-- Two values are got, one of them in vain, after the counts were set back. Another one is got from the soft tier while
a listener asks for it as well and is refused; and none while a reader holds the cache. -/
theorem promoted_value_is_counted_once :
    let listener : Listener Nat Nat := .mk (fun _ => true) fun _ _ => [.mk 0 (.get 1)]
    let settings : Settings := { cacheSize := 1, softReferenceSize := 1 }
    let requests : List (Call Nat Nat) :=
      [.mk 0 (.put 1 10), .mk 0 (.get 1), .mk 0 .resetMetrics, .mk 0 (.put 2 20), .mk 0 (.get 2), .mk 0 (.get 3),
        .mk 0 (.setListener (some listener))]
    let settled := (ofSettings [settings]).converse requests
    let got := perform (reactTo 1) (.mk 0 (.get 1)) settled
    let refused := perform (reactTo 1) (.mk 0 (.get 1)) (settled.hold 0 .shared)
    ∃ cache left other, settled.caches[0]? = some cache ∧ got.2.caches[0]? = some left ∧
      refused.2.caches[0]? = some other ∧ cache.tally.Partitioned ∧ cache.tally.Bounded ∧
        cache.tally.count .getCalls = 2 ∧ left.tally.count .getCalls = 3 ∧ left.tally.count .lockTimeouts = 1 ∧
          other.tally.count .getCalls = 2 := by
  intro listener settings requests settled got refused
  let fleet : Fleet Nat Nat := .ofSettings [settings]
  let request : Call Nat Nat := .mk 0 (.get 1)
  let trace := begun (reactTo fleet.caches.size) [] requests fleet
  let held := settled.hold 0 .shared
  have each : trace.all (alone (reactTo fleet.caches.size)) = true := by decide +kernel
  have outside : trace.all (fun frame => frame.writers.isEmpty) = true := by decide +kernel
  have fits : Counter.all.all (fun counter => decide (total counter (countedSince 0 trace) < 2 ^ 64)) = true := by
    decide +kernel
  have asked : total .getCalls (countedSince 0 trace) = 2 := by decide +kernel
  have quiet : (settled.search? request).isNone = true := by decide +kernel
  have inside : (askedFor 0 [] request settled).all (alone (reactTo 0)) = true := by decide +kernel
  have sparing : (askedFor 0 [] request settled).all (fun frame => !frame.resets 0) = true := by decide +kernel
  have timeouts : got.2.caches[0]?.map (fun cache => cache.tally.count .lockTimeouts) = some 1 := by decide +kernel
  have granted : (settled.refusal? request).isNone = true := by decide +kernel
  have denied : (held.refusal? request).isSome = true := by decide +kernel
  have nobody : (nested (reactTo 1) [] request held).isEmpty = true := by decide +kernel
  have handle : settled.handles[0]? = some 0 := by decide +kernel
  have spared : Spared 0 trace := by
    intro frame listed waits
    rw [List.isEmpty_iff.mp (List.all_eq_true.mp outside frame listed)] at waits
    cases waits
  have counted : ∃ cache, settled.caches[0]? = some cache ∧
      (∀ counter, cache.tally.count counter = (total counter (countedSince 0 trace)).toUInt64) ∧ cache.tally.Partitioned ∧
        ((∀ counter, total counter (countedSince 0 trace) < 2 ^ 64) → cache.tally.Bounded) :=
    calls_are_partitioned_by_outcome.1 (converse_begun fleet each) Nat.zero_lt_one spared .ended
  clear_value trace settled
  obtain ⟨cache, found, counts, partitioned, bounded⟩ := counted
  have calls : cache.tally.count .getCalls = 2 := by
    rw [counts, asked]
    rfl
  have present : held.caches[0]? = some { cache with hold := .held .shared } := by
    rw [show held = settled.hold 0 .shared from rfl, hold, caches_adjust, if_pos rfl, found]
    rfl
  obtain ⟨left, heard, outcome⟩ := calls_are_partitioned_by_outcome.2 (find?_eq_some_iff.mpr ⟨handle, found⟩)
    (nested_askedFor (Option.isNone_iff_eq_none.mp quiet) inside)
    fun frame listed _ => Bool.not_eq_true' _ ▸ List.all_eq_true.mp sparing frame listed
  have resolved : held.find? 0 = some (0, { cache with hold := .held .shared }) :=
    find?_eq_some_iff.mpr ⟨handle, present⟩
  have unasked : CarriedOut (nested (reactTo 1) [] request held) [] := by
    rw [List.isEmpty_iff.mp nobody]
    exact .nothing
  obtain ⟨other, unheard, instead⟩ := calls_are_partitioned_by_outcome.2 resolved unasked (List.forall_mem_nil _)
  refine ⟨cache, left, other, found, heard, unheard, partitioned, bounded ?_, calls, ?_, ?_, ?_⟩
  · exact fun counter => of_decide_eq_true (List.all_eq_true.mp fits counter counter.mem_all)
  · rcases outcome with ⟨value, -, result, -, -, once⟩ | ⟨timeout, told, -⟩
    · rw [once .getCalls (by decide), calls]
      rfl
    · exact absurd told (perform_granted (Option.isNone_iff_eq_none.mp granted) timeout)
  · rw [heard] at timeouts
    exact Option.some.inj timeouts
  · rcases instead with ⟨value, told, -⟩ | ⟨timeout, -, same⟩
    · obtain ⟨acquisition, first⟩ := Option.isSome_iff_exists.mp denied
      rw [perform_refused first] at told
      cases told
    · exact (same .getCalls (by decide)).trans calls

end Fleet

end LayeredCache
