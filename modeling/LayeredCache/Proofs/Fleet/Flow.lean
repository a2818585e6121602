import LayeredCache.Proofs.Fleet.Listening
import LayeredCache.Proofs.Fleet.Reckoning
import LayeredCache.Proofs.Tiers.Balance

/-! Entries that are moved between tiers, as listeners are told of them and as the counts show them. A cache that is held
has nothing done to it and nothing told of it but by its writer, so that what is counted of a call is what is told in its
course; and in the course of all calls, what came to the soft tier is there or has been counted as it left. -/

set_option autoImplicit false

namespace LayeredCache

open Metrics (Counter Recording Tally total)

variable {Key Value : Type} [DecidableEq Key]

/-- The counters of entries that come to the soft tier or leave it, or would have come to it. -/
def Metrics.Counter.passages : List Counter := .softPromotions :: moves

/-- A value that is looked up without a write stays where it is. -/
theorem Tiers.total_lookup {World : Type} (host : Host World Key Value) (key : Key) (tiers : Tiers Key Value)
    (world : World) :
    ∀ counter ∈ Counter.passages, total counter (tiers.lookupRecordings key (tiers.lookup host key world).1) = 0 := by
  have missed : ∀ counter ∈ Counter.passages, total counter (tiers.getRecordings key false) = 0 := by
    show ∀ counter ∈ Counter.passages, total counter [.getCall, .getMiss] = 0
    decide
  rw [lookup]
  cases slot : tiers.pinned.slot? key with
  | some held =>
      have pinned : tiers.isPinned key = true := by rw [isPinned_eq, slot]; rfl
      cases held with
      | none => exact missed
      | some value =>
          simp only [lookupRecordings, getRecordings, pinned, Bool.not_true, Bool.false_eq_true, ↓reduceIte]
          decide
  | none =>
      have pinned : tiers.isPinned key = false := by rw [isPinned_eq, slot]; rfl
      cases present : tiers.primary.peek? key with
      | some value =>
          dsimp only
          split
          · exact fun _ _ => rfl
          · simp only [lookupRecordings, getRecordings, pinned, present, Bool.not_true, Bool.false_eq_true, ↓reduceIte,
              Option.isSome_some]
            decide
      | none =>
          dsimp only
          split
          · exact fun _ _ => rfl
          · exact missed

theorem Frame.total_lookedUp (frame : Frame Key Value) (number : Nat) :
    ∀ counter ∈ Counter.passages, total counter (frame.lookedUp number) = 0 := by
  rw [lookedUp]
  split
  next place cache key located asked =>
    split
    · exact cache.tiers.total_lookup _ key cache.tally
    · decide
  next => decide

/-- Of a call, the entries that come to the soft tier or leave it are counted as its deeds count them. -/
theorem Frame.total_passages (frame : Frame Key Value) (number : Nat) {counter : Counter}
    (passes : counter ∈ Counter.passages) :
    total counter (frame.recordings number) = total counter ((frame.deedsOn number).flatMap Deed.recordings) := by
  cases refused : frame.fleet.refusal? frame.request with
  | none =>
      rw [Fleet.recordings_granted refused, Metrics.total_append, frame.total_lookedUp number counter passes,
        Nat.zero_add]
  | some acquisition =>
      have idle : frame.deedsOn number = [] := by
        have calm : frame.fleet.undertaking? frame.request = none := by
          rw [Fleet.undertaking?, refused]
        rw [deedsOn, calm]
        rfl
      have timeout : ∀ counter ∈ Counter.passages, total counter [.lockTimeout] = 0 := by decide
      rw [Fleet.recordings_refused refused, idle]
      split
      · exact timeout counter passes
      · rfl

/-- In the course of calls as well. -/
theorem total_passages_flatMap (trace : List (Frame Key Value)) (number : Nat) {counter : Counter}
    (passes : counter ∈ Counter.passages) :
    total counter (trace.flatMap (Frame.recordings number)) =
      total counter ((trace.flatMap (Frame.deedsOn number)).flatMap Deed.recordings) := by
  induction trace with
  | nil => rfl
  | cons frame rest ih =>
      rw [List.flatMap_cons, List.flatMap_cons, List.flatMap_append, Metrics.total_append, Metrics.total_append, ih,
        frame.total_passages number passes]

namespace Fleet

variable {fleet before between after world : Fleet Key Value} {number place : Nat} {cache : Cache Key Value}
  {change : Cache Key Value → Cache Key Value} {writers : List Nat} {request : Call Key Value}
  {react : Reaction Key Value} {undertaking : Undertaking Key Value} {trace more inner : List (Frame Key Value)}
  {listener : Listener Key Value}

theorem eventsOf_told (listener : Listener Key Value) (place number : Nat) (event : Event Key Value)
    (fleet : Fleet Key Value) :
    (listener.told place event fleet).eventsOf number =
      fleet.eventsOf number ++ if place = number then [event].filter listener.journals else [] := by
  rw [Listener.told, List.filter_singleton]
  cases listener.journals event with
  | true =>
      rw [if_pos rfl, eventsOf_note, Note.eventOf?]
      split <;> rfl
  | false =>
      rw [if_neg Bool.false_ne_true, cond_false, ite_self, List.append_nil]

/-- From one fleet to the next, nothing was done to a cache that is held, and nothing told of it. -/
structure Retained (number : Nat) (trace : List (Frame Key Value)) (before after : Fleet Key Value) : Prop where
  holds : after.holds = before.holds
  quiet : before.Held number → after.eventsOf number = before.eventsOf number ∧ ∀ frame ∈ trace, frame.deedsOn number = []

namespace Retained

theorem same (holds : after.holds = before.holds) (journal : after.eventsOf number = before.eventsOf number) :
    Retained number [] before after :=
  ⟨holds, fun _ => ⟨journal, nofun⟩⟩

theorem trans (first : Retained number trace before between) (second : Retained number more between after) :
    Retained number (trace ++ more) before after := by
  refine ⟨second.holds.trans first.holds, ?_⟩
  intro held
  obtain ⟨told, idle⟩ := first.quiet held
  obtain ⟨silent, still⟩ := second.quiet (held.of_holds first.holds)
  exact ⟨silent.trans told, List.forall_mem_append.mpr ⟨idle, still⟩⟩

/-- A call that does nothing to the cache itself, with others in its middle. -/
theorem around {start : Fleet Key Value} (inner : Retained number trace start between)
    (held : before.Held number → start.Held number) (begun : start.eventsOf number = before.eventsOf number)
    (holds : after.holds = before.holds) (ended : after.eventsOf number = between.eventsOf number)
    {frame : Frame Key Value} (idle : before.Held number → frame.deedsOn number = []) :
    Retained number (frame :: trace) before after := by
  refine ⟨holds, ?_⟩
  intro retained
  obtain ⟨silent, still⟩ := inner.quiet (held retained)
  exact ⟨ended.trans (silent.trans begun), List.forall_mem_cons.mpr ⟨idle retained, still⟩⟩

/-- What neither holds nor events show does not matter at the end. -/
theorem left (retained : Retained number trace before between) (holds : after.holds = between.holds)
    (silent : after.eventsOf number = between.eventsOf number) : Retained number trace before after := by
  have whole := retained.trans (.same holds silent)
  rwa [List.append_nil] at whole

theorem noted (retained : Retained number trace before after) (request : Call Key Value) (reply : Reply Key Value) :
    Retained number trace before (after.note (.answered request reply)) :=
  retained.left rfl ((eventsOf_note after number _).trans (List.append_nil _))

end Retained

theorem Aside.journal {outcome : Reply Key Value × Fleet Key Value} (aside : fleet.Aside request outcome) :
    outcome.2.journal = fleet.journal := by
  cases aside <;> rfl

theorem retained_coherent [BEq Value] (number : Nat) :
    @Coherent Key Value _ _ (fun _ trace before after => Retained number trace before after)
      fun writer _ trace start world =>
        world.holds = start.holds ∧ (writer ≠ number → Retained number trace start world) where
  refl _ _ := .same rfl rfl
  trans first second := first.trans second
  begun _ _ _ := ⟨rfl, fun _ => .same rfl rfl⟩
  recorded recording working :=
    ⟨(holds_record _ _ recording).trans working.1, fun apart => (working.2 apart).left (holds_record _ _ recording) rfl⟩
  notified {writer _ _ _ _ world _} listener event working made := by
    refine ⟨made.holds.trans ((holds_told listener writer event world).trans working.1), ?_⟩
    intro apart
    have silent := eventsOf_told listener writer number event world
    rw [if_neg apart, List.append_nil] at silent
    exact ((working.2 apart).left (holds_told listener writer event world) silent).trans made
  aside {fleet request outcome} react writers calm aside :=
    have quiet : outcome.2.eventsOf number = fleet.eventsOf number := congrArg _ aside.journal
    have nothing : Retained number [] fleet fleet := .same rfl rfl
    (nothing.around id rfl aside.holds quiet fun _ => deedsOn_calm calm react writers number).noted _ _
  searched {fleet after request place cache calls trace} react writers reply calm sought shared made := by
    have found := (find?_eq_some_iff.mp (search?_eq_some sought).2.1).2
    exact (made.around (fun held => held_hold (.inr held) found .shared) rfl (holds_searched sought made.holds) rfl
      fun _ => deedsOn_calm calm react writers number).noted _ _
  worked {fleet request undertaking trace} react writers reply taken free working := by
    have found := (find?_eq_some_iff.mp (undertaking?_eq_some taken).2.1).2
    refine Retained.noted ⟨holds_worked taken free working.1, ?_⟩ _ _
    intro held
    have apart : undertaking.number ≠ number := (held.ne found free).symm
    have quiet := deedsOn_taken taken react writers number
    rw [if_neg apart] at quiet
    exact ((working.2 apart).around (fun held => held_hold (.inr held) found .exclusive) rfl
      (holds_worked taken free working.1) rfl fun _ => quiet).quiet held

/-- The events that are told in the course of a call, by the writer if it is one. -/
def deliveries (react : Reaction Key Value) (request : Call Key Value) (fleet : Fleet Key Value) :
    List (Event Key Value) :=
  (fleet.undertaking? request).elim [] fun undertaking => (undertaking.happenings react fleet).map Happening.event

/-- What is told of is what deeds tell. -/
theorem deliveries_eq (react : Reaction Key Value) (writers : List Nat)
    (located : fleet.find? request.handle = some (number, cache)) :
    deliveries react request fleet =
      ((Frame.begin react writers request fleet).deedsOn number).flatMap Deed.events := by
  rw [deliveries]
  cases taken : fleet.undertaking? request with
  | none =>
      rw [deedsOn_calm taken]
      rfl
  | some undertaking =>
      obtain ⟨rfl, -⟩ := Prod.mk.inj (Option.some.inj (located.symm.trans (undertaking?_eq_some taken).2.1))
      have recounts := Tiers.recounts_operateHeld (undertaking.host react) undertaking.operation undertaking.cache.tiers
        (fleet.hold undertaking.number .exclusive)
      rw [deedsOn_taken taken, if_pos rfl]
      exact recounts.told

variable [BEq Value]

/-- A listener is told of what happens, and has it written down as it chooses; nobody else has anything told of the cache
meanwhile. -/
theorem eventsOf_worked (found : fleet.caches[undertaking.number]? = some undertaking.cache)
    (listening : undertaking.cache.listener = some listener)
    (within : CarriedOut (undertaking.runs react fleet writers) inner) :
    (undertaking.worked react fleet).2.2.eventsOf undertaking.number = fleet.eventsOf undertaking.number ++
      ((undertaking.happenings react fleet).map Happening.event).filter listener.journals := by
  let number := undertaking.number
  let start := fleet.hold number .exclusive
  let faithful (happening : Happening (Fleet Key Value) Key Value) : Prop :=
    happening.before.Held number → happening.after.holds = happening.before.holds ∧
      happening.after.eventsOf number = happening.before.eventsOf number ++ [happening.event].filter listener.journals
  have each : ∀ happening ∈ undertaking.happenings react fleet, faithful happening := by
    intro happening happened held
    rw [Undertaking.runs, listening] at within
    obtain ⟨piece, carried, -⟩ := within.each _ (List.mem_map_of_mem happened)
    have retained := carried.leaves (retained_coherent number)
    have told := holds_told listener number happening.event happening.before
    have events := eventsOf_told listener number number happening.event happening.before
    rw [if_pos rfl] at events
    exact ⟨retained.holds.trans told, (retained.quiet (held.of_holds told)).1.trans events⟩
  let along (_ : List Recording) (happened : List (Happening (Fleet Key Value) Key Value)) (world : Fleet Key Value) :
      Prop :=
    (∀ happening ∈ happened, faithful happening) → world.holds = start.holds ∧
      world.eventsOf number = start.eventsOf number ++ (happened.map Happening.event).filter listener.journals
  have accompanies : (undertaking.host react).Accompanies along := by
    constructor
    · intro recording counted happened world before all
      exact ⟨(holds_record world _ recording).trans (before all).1, (before all).2⟩
    · intro event counted happened world before all
      obtain ⟨earlier, latest⟩ := List.forall_mem_append.mp all
      obtain ⟨holds, events⟩ := before earlier
      have held : world.Held number := (held_hold (.inl rfl) found .exclusive).of_holds holds
      obtain ⟨kept, told⟩ := List.forall_mem_singleton.mp latest held
      refine ⟨kept.trans holds, told.trans ?_⟩
      rw [events, List.map_append, List.filter_append, List.append_assoc]
      rfl
  have empty : along [] [] start := fun _ => ⟨rfl, (List.append_nil _).symm⟩
  exact (Tiers.operateHeld_accompanied accompanies undertaking.operation undertaking.cache.tiers empty each).2

/-- The journal of a cache gets what its listener is told of in the course of a call, as far as the listener has it
written down. -/
theorem eventsOf_perform (located : fleet.find? request.handle = some (number, cache))
    (listening : cache.listener = some listener) (within : CarriedOut (nested react writers request fleet) inner) :
    (perform react request fleet).2.eventsOf number =
      fleet.eventsOf number ++ (deliveries react request fleet).filter listener.journals := by
  have found := (find?_eq_some_iff.mp located).2
  cases taken : fleet.undertaking? request with
  | some undertaking =>
      obtain ⟨rfl, rfl⟩ := Prod.mk.inj (Option.some.inj (located.symm.trans (undertaking?_eq_some taken).2.1))
      rw [nested, taken] at within
      rw [(perform_undertaking taken react).2, deliveries, taken]
      exact eventsOf_worked found listening within
  | none =>
      have silent : (perform react request fleet).2.eventsOf number = fleet.eventsOf number := by
        rw [nested, taken] at within
        cases sought : fleet.search? request with
        | some place =>
            obtain ⟨other, searched, calls⟩ := place
            obtain ⟨rfl, -⟩ := Prod.mk.inj (Option.some.inj (located.symm.trans (search?_eq_some sought).2.1))
            obtain ⟨told, performed⟩ := (perform_search sought react).2
            rw [sought] at within
            have retained := within.leaves (retained_coherent number)
            rw [performed]
            exact (retained.quiet (held_hold (.inl rfl) found .shared)).1
        | none => exact congrArg _ (perform_aside taken sought react).journal
      rw [silent, deliveries, taken]
      exact (List.append_nil _).symm

/-- Nothing is done on a cache in the middle of a call on it. -/
theorem idle_within (located : fleet.find? request.handle = some (number, cache))
    (within : CarriedOut (nested react writers request fleet) inner) : ∀ frame ∈ inner, frame.deedsOn number = [] := by
  have found := (find?_eq_some_iff.mp located).2
  cases taken : fleet.undertaking? request with
  | some undertaking =>
      obtain ⟨rfl, -⟩ := Prod.mk.inj (Option.some.inj (located.symm.trans (undertaking?_eq_some taken).2.1))
      obtain ⟨pieces, rfl, made⟩ := within.within (reckoned_composed undertaking.number)
      rw [nested, taken] at made
      exact fun frame listed => (waiting_within taken made frame listed).2.1
  | none =>
      rw [nested, taken] at within
      cases sought : fleet.search? request with
      | some place =>
          obtain ⟨other, searched, calls⟩ := place
          obtain ⟨rfl, -⟩ := Prod.mk.inj (Option.some.inj (located.symm.trans (search?_eq_some sought).2.1))
          rw [sought] at within
          exact ((within.leaves (retained_coherent number)).quiet (held_hold (.inl rfl) found .shared)).2
      | none =>
          rw [sought] at within
          cases within
          exact List.forall_mem_nil _

/-- The counts of moved entries grow in the course of a call by the events that are told, from nothing if the call sets
them back. -/
theorem counted_moves (located : fleet.find? request.handle = some (number, cache))
    (within : CarriedOut (nested react writers request fleet) inner)
    (unreset : ∀ frame ∈ inner, frame.resets number = false) :
    ∃ left, (perform react request fleet).2.caches[number]? = some left ∧
      ∀ counter ∈ Counter.moves, left.tally.count counter =
        (if (Frame.begin react writers request fleet).resets number then 0 else cache.tally.count counter) +
          ((deliveries react request fleet).countP (Event.counts counter)).toUInt64 := by
  obtain ⟨left, found, tally⟩ := tally_perform located within unreset
  refine ⟨left, found, ?_⟩
  intro counter moves
  have idle : inner.flatMap (Frame.deedsOn number) = [] := List.flatMap_eq_nil_iff.mpr (idle_within located within)
  have passes : counter ∈ Counter.passages := List.mem_cons_of_mem _ moves
  have nothing : total counter (inner.flatMap (Frame.recordings number)) = 0 := by
    rw [total_passages_flatMap inner number passes, idle]
    rfl
  have counted : left.tally.count counter =
      ((Frame.begin react writers request fleet).tallied number cache.tally).count counter := by
    rw [tally, Tally.count_recordAll, nothing]
    exact UInt64.add_zero _
  rw [counted, deliveries_eq react writers located, ← Tiers.total_moves_flatMap _ moves, Frame.tallied]
  split
  next resets =>
    have calm : fleet.undertaking? request = none := by
      cases taken : fleet.undertaking? request with
      | none => rfl
      | some undertaking => exact absurd resets (Bool.eq_false_iff.mp (spared_of_taken taken number))
    rw [deedsOn_calm calm, Tally.count_zero]
    rfl
  next =>
    rw [Tally.count_recordAll, Frame.total_passages _ number passes]

/-- The counts of moved entries grow in the course of a call by the events that its listener is told of, from nothing if
the call sets them back; and in the course of all calls that set none back, an entry that was demoted is in the soft tier,
or was displaced, promoted, reclaimed or taken out. -/
theorem moves_are_told_and_balanced :
    (∀ {react : Reaction Key Value} {writers fleet request number cache listener inner},
      fleet.find? request.handle = some (number, cache) → cache.listener = some listener →
        CarriedOut (nested react writers request fleet) inner →
          (∀ frame ∈ inner, frame.resets number = false) →
            let resets := (Frame.begin react writers request fleet).resets number
            let after := (perform react request fleet).2
            let told := deliveries react request fleet
            after.eventsOf number = fleet.eventsOf number ++ told.filter listener.journals ∧
              ∃ left, after.caches[number]? = some left ∧ ∀ counter ∈ Counter.moves,
                left.tally.count counter =
                  (if resets then 0 else cache.tally.count counter) + (told.countP (Event.counts counter)).toUInt64) ∧
      ∀ {settings : List Settings} {requests : List (Call Key Value)} {trace : List (Frame Key Value)},
        CarriedOut [⟨[], requests, ofSettings settings, (ofSettings settings).converse requests⟩] trace →
          ∀ {number past now}, number < settings.length → (∀ frame ∈ trace, frame.resets number = false) →
            Between number trace ((ofSettings settings).converse requests) past now →
              total .softDemotions (countedSince number past) < 2 ^ 64 →
                ∃ cache, now.caches[number]? = some cache ∧
                  (cache.tally.count .softDemotions).toNat =
                    cache.tiers.soft.storedSize + (cache.tally.count .softOverflows).toNat +
                      (cache.tally.count .softPromotions).toNat + (cache.tally.count .softReclaimed).toNat +
                        ((past.flatMap (Frame.deedsOn number)).map Deed.taken).sum := by
  constructor
  · intro react writers fleet request number cache listener inner located listening within unreset resets after told
    exact ⟨eventsOf_perform located listening within, counted_moves located within unreset⟩
  · intro settings requests trace carried number past now listed unreset between fits
    obtain ⟨cache, found, tally⟩ := between.countedSince carried listed fun frame member _ => unreset frame member
    obtain ⟨tiers, here, course⟩ := between.shown.course carried
      (congrArg (Option.map Cache.tiers) (caches_ofSettings listed))
    obtain rfl : cache.tiers = tiers := by
      rw [tiers?, found] at here
      exact Option.some.inj here
    have balanced := course.balanced (.empty _ _ _ _)
    have empty : (Cache.ofSettings settings[number] : Cache Key Value).tiers.soft.storedSize = 0 := rfl
    have passed : ∀ counter ∈ Counter.passages, total counter (countedSince number past) =
        total counter ((past.flatMap (Frame.deedsOn number)).flatMap Deed.recordings) := by
      intro counter passes
      rw [countedSince_of_unreset fun frame listed => unreset frame (between.subset listed)]
      exact total_passages_flatMap past number passes
    dsimp only at balanced
    rw [empty, ← passed .softDemotions (by decide), ← passed .softOverflows (by decide),
      ← passed .softPromotions (by decide), ← passed .softReclaimed (by decide), Nat.zero_add] at balanced
    have counts : ∀ counter, total counter (countedSince number past) < 2 ^ 64 →
        (cache.tally.count counter).toNat = total counter (countedSince number past) := by
      intro counter small
      rw [tally, Tally.count_recordAll_zero, Metrics.toNat_toUInt64 small]
    refine ⟨cache, found, ?_⟩
    rw [counts .softDemotions fits, counts .softOverflows (by omega), counts .softPromotions (by omega),
      counts .softReclaimed (by omega)]
    exact balanced

/-- Of five entries that were demoted, one was promoted, one displaced, one reclaimed and one removed; one is left. It is
displaced by the next one, and the listener is told of both, although it asks for more and is refused. -/
theorem five_demotions_are_accounted_for :
    let listener : Listener Nat Nat := .mk (fun _ => true) fun _ _ => [.mk 0 (.get 4)]
    let settings : Settings := { cacheSize := 1, softReferenceSize := 1 }
    let requests : List (Call Nat Nat) :=
      [.mk 0 (.put 1 10), .mk 0 (.put 2 20), .mk 0 (.get 1), .mk 0 (.put 3 30), .mk 0 .reclaim, .mk 0 .purgeSoft,
        .mk 0 (.put 4 40), .mk 0 (.remove 3), .mk 0 (.put 5 50)]
    let settled := (ofSettings [settings]).converse requests
    let after := (perform (reactTo 1) (.mk 0 (.put 6 60)) (settled.listening 0 (some listener))).2
    ∃ cache left, settled.caches[0]? = some cache ∧ after.caches[0]? = some left ∧
      (cache.tally.count .softDemotions).toNat = cache.tiers.soft.storedSize + 1 + 1 + 1 + 1 ∧
        after.eventsOf 0 = [.primaryOverflow 5 50 true, .softOverflow 4 40] ∧
          left.tally.count .softDemotions = cache.tally.count .softDemotions + 1 ∧
            left.tally.count .softOverflows = cache.tally.count .softOverflows + 1 := by
  intro listener settings requests settled after
  let fleet : Fleet Nat Nat := .ofSettings [settings]
  let request : Call Nat Nat := .mk 0 (.put 6 60)
  let trace := begun (reactTo fleet.caches.size) [] requests fleet
  let heard := settled.listening 0 (some listener)
  let inner := askedFor 0 [] request heard
  have each : trace.all (alone (reactTo fleet.caches.size)) = true := by decide +kernel
  have unreset : trace.all (fun frame => !frame.resets 0) = true := by decide +kernel
  have fits : total .softDemotions (countedSince 0 trace) < 2 ^ 64 := by decide +kernel
  have taken : ((trace.flatMap (Frame.deedsOn 0)).map Deed.taken).sum = 1 := by decide +kernel
  have counted : settled.caches[0]?.map (fun cache => (cache.tally.count .softOverflows,
      cache.tally.count .softPromotions, cache.tally.count .softReclaimed)) = some (1, 1, 1) := by
    decide +kernel
  have handle : settled.handles[0]? = some 0 := by decide +kernel
  have quiet : (heard.search? request).isNone = true := by decide +kernel
  have inside : inner.all (alone (reactTo 0)) = true := by decide +kernel
  have sparing : inner.all (fun frame => !frame.resets 0) = true := by decide +kernel
  have counting : (Frame.begin (reactTo 1) [] request heard).resets 0 = false := by decide +kernel
  have told : deliveries (reactTo 1) request heard = [.primaryOverflow 5 50 true, .softOverflow 4 40] := by
    decide +kernel
  have silent : heard.eventsOf 0 = [] := by decide +kernel
  have spares : ∀ frames : List (Frame Nat Nat), frames.all (fun frame => !frame.resets 0) = true →
      ∀ frame ∈ frames, frame.resets 0 = false :=
    fun frames all frame listed => Bool.not_eq_true' _ ▸ List.all_eq_true.mp all frame listed
  have balanced : ∃ cache, settled.caches[0]? = some cache ∧ (cache.tally.count .softDemotions).toNat =
      cache.tiers.soft.storedSize + (cache.tally.count .softOverflows).toNat + (cache.tally.count .softPromotions).toNat +
        (cache.tally.count .softReclaimed).toNat + ((trace.flatMap (Frame.deedsOn 0)).map Deed.taken).sum :=
    moves_are_told_and_balanced.2 (converse_begun fleet each) Nat.zero_lt_one (spares trace unreset) .ended fits
  clear_value trace settled
  obtain ⟨cache, found, balance⟩ := balanced
  have located : heard.find? request.handle = some (0, cache.swapped 0 (some listener) 0) := by
    have resolved : settled.find? request.handle = some (0, cache) := find?_eq_some_iff.mpr ⟨handle, found⟩
    rw [show heard = settled.listening 0 (some listener) from rfl, find?_listening, resolved]
    rfl
  obtain ⟨events, left, present, moved⟩ := moves_are_told_and_balanced.1 located rfl
    (nested_askedFor (Option.isNone_iff_eq_none.mp quiet) inside) (spares _ sparing)
  rw [found] at counted
  obtain ⟨overflows, rest⟩ := Prod.mk.inj (Option.some.inj counted)
  obtain ⟨promotions, reclaimed⟩ := Prod.mk.inj rest
  refine ⟨cache, left, found, present, ?_, ?_, ?_, ?_⟩
  · rw [balance, overflows, promotions, reclaimed, taken]
    rfl
  · refine events.trans ?_
    rw [silent, told]
    rfl
  · rw [moved .softDemotions (by decide), told, counting]
    rfl
  · rw [moved .softOverflows (by decide), told, counting]
    rfl

end Fleet

end LayeredCache
