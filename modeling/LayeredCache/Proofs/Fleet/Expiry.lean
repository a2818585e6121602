import LayeredCache.Proofs.Fleet.Timeline
import LayeredCache.Proofs.Tiers.Lasting

/-! The lifetime of entries in the soft tiers of a fleet. It runs from the instant that the operation read that demoted the
entry, which is not after the callback of its demotion has returned, and may be long before. -/

set_option autoImplicit false

namespace LayeredCache

variable {Key Value : Type} [DecidableEq Key]

namespace Undertaking

variable {undertaking : Undertaking Key Value} {react : Fleet.Reaction Key Value} {fleet : Fleet Key Value}
  {happening : Happening (Fleet Key Value) Key Value} {key : Key} {value : Value} {writers : List Nat}
  {inner : List (Frame Key Value)}

/-- An operation demotes an entry, as something that happens tells, and does not displace it again. -/
structure Admits (undertaking : Undertaking Key Value) (react : Fleet.Reaction Key Value) (fleet : Fleet Key Value)
    (happening : Happening (Fleet Key Value) Key Value) (key : Key) (value : Value) : Prop where
  elementary : undertaking.operation.elementary = true
  happened : happening ∈ undertaking.happenings react fleet
  demoted : happening.event = .primaryOverflow key value true
  undisplaced : Undisplaced key ((undertaking.happenings react fleet).map Happening.event)

/-- A single demotion, of which nothing else is told, is not displaced again. -/
theorem admits_of_told (elementary : undertaking.operation.elementary = true)
    (told : (undertaking.happenings react fleet).map Happening.event = [.primaryOverflow key value true])
    (happened : happening ∈ undertaking.happenings react fleet) :
    undertaking.Admits react fleet happening key value where
  elementary := elementary
  happened := happened
  demoted := List.mem_singleton.mp (told ▸ List.mem_map_of_mem happened)
  undisplaced other displaced := by
    rw [told] at displaced
    cases List.mem_singleton.mp displaced

/-- The instant at which an operation begins, after its purge. -/
def reading (undertaking : Undertaking Key Value) (react : Fleet.Reaction Key Value) (fleet : Fleet Key Value) :
    Instant :=
  (Tiers.purgeSoft (undertaking.host react) undertaking.cache.tiers
    (fleet.hold undertaking.number .exclusive)).2.2.clock

/-- What is counted takes no time. -/
theorem reading_host (operation : Operation Key Value) (world : Fleet Key Value) :
    operation.reading (undertaking.host react) world = world.clock := by
  cases operation <;> rfl

theorem Admits.stored (admits : undertaking.Admits react fleet happening key value)
    (valid : undertaking.cache.tiers.Valid) :
    (key, ⟨value, undertaking.reading react fleet, happening.after.epochOf undertaking.number⟩) ∈
      (undertaking.worked react fleet).2.1.soft.toList := by
  have stored := Tiers.admitted_operateHeld valid admits.elementary admits.happened admits.demoted admits.undisplaced
  rw [reading_host] at stored
  exact stored

/-- An operation begins after it was called, and before the callback of any of its demotions returns. -/
theorem Admits.in_time [BEq Value] (admits : undertaking.Admits react fleet happening key value)
    (carried : CarriedOut (undertaking.runs react fleet writers) inner) :
    fleet.clock ≤ undertaking.reading react fleet ∧ undertaking.reading react fleet ≤ happening.after.clock := by
  obtain ⟨other, demoted⟩ := Tiers.demoted_after_purge admits.happened admits.demoted
  obtain ⟨late, -, told⟩ := Fleet.elapsed_purge other (Fleet.elapsed_runs carried)
  exact ⟨late.clock, (told happening demoted).clock⟩

end Undertaking

namespace Fleet

variable {fleet before after now : Fleet Key Value} {number : Nat} {key : Key} {value : Value} {epoch : Epoch}
  {trace past frames : List (Frame Key Value)}

/-- Since some point, as far as the deeds on a cache tell, an entry of its soft tier was neither displaced, nor taken or
cleared as long as it was stored, nor reclaimed, and no other was written for its key. -/
structure LeftAlone (number : Nat) (key : Key) (epoch : Epoch) (frames : List (Frame Key Value))
    (now : Fleet Key Value) : Prop where
  deeds : ∀ frame ∈ frames, ∀ done ∈ frame.deedsOn number, done.Spares key ∧ frame.fleet.epochOf number = epoch
  epoch : now.epochOf number = epoch

/-- Nothing is done to a cache, and nothing is reclaimed there. -/
theorem leftAlone_of_idle (idle : frames.all (fun frame => (frame.deedsOn number).isEmpty) = true)
    (same : now.epochOf number = epoch) (key : Key) : LeftAlone number key epoch frames now where
  epoch := same
  deeds frame listed done does := by
    rw [List.isEmpty_iff.mp (List.all_eq_true.mp idle frame listed)] at does
    cases does

/-- Whatever is seen of a cache later on, a key shows a value there until a lifetime has passed since an instant, and then
nothing, as long as it is left alone. -/
def Lasts (number : Nat) (trace : List (Frame Key Value)) (after : Fleet Key Value) (past : List (Frame Key Value))
    (key : Key) (value : Value) (epoch : Epoch) (lifetime : Span) (since : Instant) : Prop :=
  ∀ frames now, Between number trace after (past ++ frames) now → LeftAlone number key epoch frames now →
    ∃ cache, now.caches[number]? = some cache ∧
      cache.tiers.value? (now.moment cache) key = if now.clock - since < lifetime.nanoseconds then some value else none

/-- What a key retains is retained through the deeds of a call that leaves it alone. -/
theorem retains_begin {start tiers : Tiers Key Value} {stored : Stamped Value}
    {react : Reaction Key Value} {writers : List Nat} {request : Call Key Value}
    (alone : ∀ done ∈ (Frame.begin react writers request fleet).deedsOn number,
      done.Spares key ∧ fleet.epochOf number = stored.stamp.epoch)
    (course : Tiers.Course start ((Frame.begin react writers request fleet).deedsOn number) tiers) (valid : start.Valid)
    (retains : start.Retains key stored fleet.clock) : tiers.Retains key stored fleet.clock := by
  rcases deedsOn_cases react writers request fleet number with idle | ⟨undertaking, -, rfl, deeds⟩
  · rw [idle] at course
    have same : tiers = start := course.leads
    rw [same]
    exact retains
  · rw [deeds] at course alone
    let held := fleet.hold undertaking.number .exclusive
    let purge := Tiers.deed (undertaking.host react) .purgeSoft undertaking.cache.tiers held
    obtain ⟨rest, purged⟩ : ∃ rest, undertaking.deeds react fleet = purge :: rest := Tiers.deedsHeld_purge ..
    obtain ⟨rfl, worked⟩ := course_deeds course
    rw [worked]
    have epoch : held.epochOf undertaking.number = fleet.epochOf undertaking.number := by
      apply epochOf_adjust
      exact fun _ => rfl
    have current : fleet.epochOf undertaking.number = stored.stamp.epoch := by
      refine (alone purge ?_).2
      rw [purged]
      exact List.mem_cons_self
    rw [← epoch] at current
    exact retains.operateHeld valid (Nat.le_refl _) current fun done listed => (alone done listed).1

variable [BEq Value]

/-- Whatever the soft tier of a cache stores lasts for its lifetime since the instant of its stamp. -/
theorem lasts_of_stored {calls : List (Call Key Value)} {writers : List Nat} {start tiers : Tiers Key Value}
    {stored : Stamped Value} {lifetime : Span} (carried : CarriedOut [⟨writers, calls, before, after⟩] trace)
    (begun : before.tiers? number = some start) (valid : start.Valid)
    (course : start.Course (past.flatMap (Frame.deedsOn number)) tiers) (member : (key, stored) ∈ tiers.soft.toList)
    (lasting : tiers.soft.ttl = some lifetime) :
    Lasts number trace after past key stored.value stored.stamp.epoch lifetime stored.stamp.instant := by
  intro frames now between alone
  obtain ⟨later, seen, whole⟩ := between.shown.course carried begun
  rw [List.flatMap_append] at whole
  obtain ⟨reached, first, onward⟩ := whole.cut
  obtain rfl : reached = tiers := first.leads.trans course.leads.symm
  have validHere := course.valid valid
  have rising : (0 :: (frames.map (fun frame => frame.fleet.clock) ++ [now.clock])).IsChain (· ≤ ·) := by
    have ordered := between.elapsed carried
    rw [points, List.map_append, List.append_assoc] at ordered
    have clocks := List.pairwise_map.mpr ((List.pairwise_append.mp ordered).2.1.imp Elapsed.clock)
    rw [List.map_append, List.map_map, List.map_singleton] at clocks
    exact (List.pairwise_cons.mpr ⟨fun _ _ => Nat.zero_le _, clocks⟩).isChain
  have retains : later.Retains key stored now.clock := by
    let holds (instant : Instant) (tiers : Tiers Key Value) : Prop := tiers.Valid ∧ tiers.Retains key stored instant
    have kept : holds now.clock later := by
      refine kept_along Fleet.clock (fun order kept => ⟨kept.1, kept.2.mono order⟩) ?_ rising onward
        ⟨validHere, .stays member⟩
      intro frame listed start tiers course kept
      obtain ⟨before, rest, split⟩ := List.append_of_mem (between.subset (List.mem_append_right _ listed))
      obtain ⟨react, same, -⟩ := carried.begun split
      refine ⟨course.valid kept.1, ?_⟩
      have spared := alone.deeds frame listed
      rw [same] at course spared
      exact retains_begin spared course kept.1 kept.2
    exact kept.2
  obtain ⟨cache, found, rfl⟩ := Option.map_eq_some_iff.mp seen
  refine ⟨cache, found, ?_⟩
  rw [moment_eq found, momentOf, alone.epoch]
  have kept : cache.tiers.Retains key stored (Moment.mk now.clock stored.stamp.epoch).instant := retains
  rw [kept.value?_eq (onward.valid validHere) rfl, onward.ttl, lasting]
  have lives : stored.isLive (some lifetime) ⟨now.clock, stored.stamp.epoch⟩ = true ↔
      now.clock - stored.stamp.instant < lifetime.nanoseconds := by
    rw [Stamped.isLive_iff]
    exact ⟨fun live => live.2 lifetime rfl, fun young => ⟨rfl, fun given same => Option.some.inj same ▸ young⟩⟩
  simp only [lives]

/-- The lifetime of a demoted entry runs from the instant at which the operation began that demotes it, after its call and
its purge but before its callbacks. Until that lifetime is over its key shows its value, and afterwards nothing, as long as
it is left alone. -/
theorem lifetime_runs_from_reading {settings : List Settings} {requests calls : List (Call Key Value)}
    {future : List (Frame Key Value)} {frame : Frame Key Value} {react : Reaction Key Value}
    {undertaking : Undertaking Key Value} {happening : Happening (Fleet Key Value) Key Value} {lifetime : Span}
    (reached : (ofSettings settings).converse requests = fleet)
    (carried : CarriedOut [⟨[], calls, fleet, fleet.converse calls⟩] trace) (split : trace = past ++ frame :: future)
    (begun : frame.Begun react future) (taken : frame.fleet.undertaking? frame.request = some undertaking)
    (lasting : undertaking.cache.tiers.soft.ttl = some lifetime)
    (admits : undertaking.Admits react frame.fleet happening key value) :
    let number := undertaking.number
    let reading := undertaking.reading react frame.fleet
    frame.fleet.clock ≤ reading ∧ reading ≤ happening.after.clock ∧
      Lasts number trace (fleet.converse calls) (past ++ [frame]) key value (happening.after.epochOf number) lifetime
        reading := by
  intro number reading
  have listed : frame ∈ trace := split ▸ List.mem_append_right _ List.mem_cons_self
  have found := (find?_eq_some_iff.mp (undertaking?_eq_some taken).2.1).2
  have seen : frame.fleet ∈ points trace (fleet.converse calls) := List.mem_append_left _ (List.mem_map_of_mem listed)
  obtain ⟨start, stored⟩ := tiers?_of_later carried seen found
  have valid : start.Valid := by
    obtain ⟨cache, first, rfl⟩ := Option.map_eq_some_iff.mp stored
    exact (reachable_converse reached first).valid
  obtain ⟨same, inner, rest, -, within⟩ := begun
  rw [nested, taken] at within
  obtain ⟨late, early⟩ := admits.in_time within
  refine ⟨late, early, ?_⟩
  have idle : ¬frame.fleet.Busy number := by
    refine not_busy found ?_
    rw [(perform_undertaking taken react).1]
    intro held
    cases held
  have shown : Shown number trace (fleet.converse calls) _ _ := .begun split idle
  obtain ⟨here, present, before⟩ := shown.course carried stored
  obtain rfl := Option.some.inj ((tiers?_undertaking taken).symm.trans present)
  have deeds : frame.deedsOn number = undertaking.deeds react frame.fleet := by
    have done := deedsOn_taken taken react frame.writers number
    rwa [← same, if_pos rfl] at done
  have worked := Tiers.Course.operateHeld (undertaking.host react) undertaking.operation undertaking.cache.tiers
    (frame.fleet.hold number .exclusive)
  have course : start.Course ((past ++ [frame]).flatMap (Frame.deedsOn number))
      (undertaking.worked react frame.fleet).2.1 := by
    rw [List.flatMap_append, List.flatMap_singleton, deeds]
    exact before.append worked
  refine lasts_of_stored carried stored valid course (admits.stored (before.valid valid)) ?_
  exact worked.ttl.trans lasting

/-- A call demotes a single entry, in a fleet of one cache: it reads the clock, and the callback of the demotion leaves a
moment. Stated so that it can be computed. -/
structure DemotesOne (request : Call Key Value) (fleet : Fleet Key Value) (key : Key) (value : Value) (lifetime : Span)
    (reading : Instant) (left : Moment) : Prop where
  size : fleet.caches.size = 0 + 1
  quiet : (fleet.search? request).isNone = true
  each : (askedFor 0 [] request fleet).all (alone (reactTo 0)) = true
  taken : (fleet.undertaking? request).map (fun undertaking => (undertaking.number, undertaking.operation.elementary,
    undertaking.cache.tiers.soft.ttl, undertaking.reading (reactTo 1) fleet)) = some (0, true, some lifetime, reading)
  told : (fleet.undertaking? request).map (fun undertaking => (undertaking.happenings (reactTo 1) fleet).map
    fun happening => (happening.event, happening.after.clock, happening.after.epochOf 0)) =
      some [(.primaryOverflow key value true, left.instant, left.epoch)]

variable {request : Call Key Value} {lifetime : Span} {reading : Instant} {left : Moment}

theorem DemotesOne.carried (demotes : DemotesOne request fleet key value lifetime reading left) :
    CarriedOut [⟨[], [request], fleet, fleet.converse [request]⟩]
        (.begin (reactTo 1) [] request fleet :: askedFor 0 [] request fleet) ∧
      (Frame.begin (reactTo 1) [] request fleet).Begun (reactTo 1) (askedFor 0 [] request fleet) := by
  have quiet := Option.isNone_iff_eq_none.mp demotes.quiet
  have carried := converse_askedFor demotes.size quiet demotes.each
  rw [demotes.size] at carried
  exact ⟨carried, rfl, _, [], (List.append_nil _).symm, nested_askedFor quiet demotes.each⟩

theorem DemotesOne.admits (demotes : DemotesOne request fleet key value lifetime reading left) :
    ∃ undertaking happening, fleet.undertaking? request = some undertaking ∧ undertaking.number = 0 ∧
      undertaking.cache.tiers.soft.ttl = some lifetime ∧ undertaking.reading (reactTo 1) fleet = reading ∧
        undertaking.Admits (reactTo 1) fleet happening key value ∧ happening.after.clock = left.instant ∧
          happening.after.epochOf 0 = left.epoch := by
  obtain ⟨undertaking, located, facts⟩ := Option.map_eq_some_iff.mp demotes.taken
  simp only [Prod.mk.injEq] at facts
  obtain ⟨number, elementary, ttl, read⟩ := facts
  have told := demotes.told
  rw [located] at told
  obtain ⟨happening, single, same⟩ := List.map_eq_singleton_iff.mp (Option.some.inj told)
  simp only [Prod.mk.injEq] at same
  obtain ⟨event, instant, era⟩ := same
  have admits : undertaking.Admits (reactTo 1) fleet happening key value := by
    refine undertaking.admits_of_told elementary ?_ (single ▸ List.mem_singleton_self _)
    rw [single, List.map_singleton, event]
  exact ⟨undertaking, happening, located, number, ttl, read, admits, instant, era⟩

/-- A callback that takes three milliseconds leaves an entry two of its five. -/
theorem demoted_entry_lives_on :
    let listener : Listener Nat Nat := .mk (fun _ => true) fun _ _ => [.mk 0 (.advance 3000000)]
    let settings : Settings := { cacheSize := 1, softReferenceSize := 1, softTtl := some 5 }
    let fleet : Fleet Nat Nat :=
      (ofSettings [settings]).converse [.mk 0 (.setListener (some listener)), .mk 0 (.put 1 10)]
    let request : Call Nat Nat := .mk 0 (.put 2 20)
    let ended := fleet.converse [request]
    let frame : Frame Nat Nat := .begin (reactTo 1) [] request fleet
    let trace := askedFor 0 [] request fleet
    DemotesOne request fleet 1 10 ⟨5000000⟩ 0 ⟨3000000, 0⟩ ∧ LeftAlone 0 1 0 trace ended ∧
      Lasts 0 (frame :: trace) ended [frame] 1 10 0 ⟨5000000⟩ 0 ∧
        ∃ cache, ended.caches[0]? = some cache ∧ cache.tiers.value? (ended.moment cache) 1 = some 10 := by
  intro listener settings fleet request ended frame trace
  have demotes : DemotesOne request fleet 1 10 ⟨5000000⟩ 0 ⟨3000000, 0⟩ := by
    constructor <;> decide +kernel
  have idle : trace.all (fun frame => (frame.deedsOn 0).isEmpty) = true := by decide +kernel
  have clock : ended.clock = 3000000 := by decide +kernel
  have epoch : ended.epochOf 0 = 0 := by decide +kernel
  have reached : ∃ requests, (ofSettings [settings]).converse requests = fleet := ⟨_, rfl⟩
  have same : fleet.converse [request] = ended := rfl
  have asked : askedFor 0 [] request fleet = trace := rfl
  clear_value trace ended fleet
  obtain ⟨requests, reached⟩ := reached
  obtain ⟨carried, begun⟩ := demotes.carried
  rw [asked] at carried begun
  obtain ⟨undertaking, happening, located, number, ttl, read, admits, -, era⟩ := demotes.admits
  have lasts : Lasts undertaking.number (frame :: trace) (fleet.converse [request]) [frame] 1 10
      (happening.after.epochOf undertaking.number) ⟨5000000⟩ (undertaking.reading (reactTo 1) fleet) :=
    (lifetime_runs_from_reading reached carried (List.nil_append _).symm begun located ttl admits).2.2
  rw [read, number, era, same] at lasts
  have alone := leftAlone_of_idle idle epoch 1
  obtain ⟨cache, found, shown⟩ := lasts trace ended .ended alone
  rw [clock] at shown
  exact ⟨demotes, alone, lasts, cache, found, shown⟩

/-- An entry may be dead as soon as it is demoted. The callback of its demotion takes five milliseconds, which is its
lifetime; when the write that demotes it ends, it is not seen any more, although no time has passed since the callback
returned. -/
theorem demoted_entry_is_already_dead :
    let listener : Listener Nat Nat := .mk (fun _ => true) fun _ _ => [.mk 0 (.advance 5000000)]
    let settings : Settings := { cacheSize := 1, softReferenceSize := 1, softTtl := some 5 }
    let fleet : Fleet Nat Nat :=
      (ofSettings [settings]).converse [.mk 0 (.setListener (some listener)), .mk 0 (.put 1 10)]
    let request : Call Nat Nat := .mk 0 (.put 2 20)
    let ended := fleet.converse [request]
    let frame : Frame Nat Nat := .begin (reactTo 1) [] request fleet
    let trace := askedFor 0 [] request fleet
    CarriedOut [⟨[], [request], fleet, ended⟩] (frame :: trace) ∧ frame.Begun (reactTo 1) trace ∧
      ∃ undertaking happening, fleet.undertaking? request = some undertaking ∧ undertaking.number = 0 ∧
        undertaking.cache.tiers.soft.ttl = some ⟨5000000⟩ ∧ undertaking.Admits (reactTo 1) fleet happening 1 10 ∧
          LeftAlone 0 1 (happening.after.epochOf 0) trace ended ∧ ended.clock = happening.after.clock ∧
            ended.caches[0]?.map (fun cache => cache.tiers.value? (ended.moment cache) 1) = some none ∧
              ¬Lasts 0 (frame :: trace) ended [frame] 1 10 (happening.after.epochOf 0) ⟨5000000⟩
                happening.after.clock := by
  intro listener settings fleet request ended frame trace
  have demotes : DemotesOne request fleet 1 10 ⟨5000000⟩ 0 ⟨5000000, 0⟩ := by
    constructor <;> decide +kernel
  have idle : trace.all (fun frame => (frame.deedsOn 0).isEmpty) = true := by decide +kernel
  have clock : ended.clock = 5000000 := by decide +kernel
  have epoch : ended.epochOf 0 = 0 := by decide +kernel
  have hidden : ended.caches[0]?.map (fun cache => cache.tiers.value? (ended.moment cache) 1) = some none := by
    decide +kernel
  have same : fleet.converse [request] = ended := rfl
  have asked : askedFor 0 [] request fleet = trace := rfl
  clear_value trace ended fleet
  obtain ⟨carried, begun⟩ := demotes.carried
  rw [asked] at carried begun
  rw [same] at carried
  obtain ⟨undertaking, happening, located, number, ttl, -, admits, returned, era⟩ := demotes.admits
  have alone := leftAlone_of_idle idle (epoch.trans era.symm) 1
  have still : ended.clock = happening.after.clock := clock.trans returned.symm
  refine ⟨carried, begun, undertaking, happening, located, number, ttl, admits, alone, still, hidden, ?_⟩
  intro lasts
  obtain ⟨cache, found, shown⟩ := lasts trace ended .ended alone
  rw [found] at hidden
  rw [still, Nat.sub_self] at shown
  cases (Option.some.inj hidden).symm.trans shown

end Fleet

end LayeredCache
