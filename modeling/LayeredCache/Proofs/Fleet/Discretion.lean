import LayeredCache.Proofs.Fleet.Listening
import LayeredCache.Proofs.Fleet.Timeouts

/-! What a listener can do to the cache that calls it. Its cache is held while it is called, so that it is refused whatever
takes a hold of this cache, and everything else leaves the tiers alone. Unless it reclaims its cache or lets time pass, the
call that it is told of comes to what it would have come to with nobody listening. -/

set_option autoImplicit false

namespace LayeredCache

variable {Key Value : Type}

namespace Metrics.Tally

variable {left middle right : Tally}

/-- Counts that agree, but for those of holds that could not be had. -/
def SameButTimeouts (left right : Tally) : Prop :=
  ∀ counter, counter ≠ .lockTimeouts → left.count counter = right.count counter

theorem SameButTimeouts.refl (tally : Tally) : SameButTimeouts tally tally := fun _ _ => rfl

theorem SameButTimeouts.symm (same : SameButTimeouts left right) : SameButTimeouts right left :=
  fun counter other => (same counter other).symm

theorem SameButTimeouts.trans (first : SameButTimeouts left middle) (second : SameButTimeouts middle right) :
    SameButTimeouts left right :=
  fun counter other => (first counter other).trans (second counter other)

theorem SameButTimeouts.record (same : SameButTimeouts left right) (recording : Recording) :
    SameButTimeouts (left.record recording) (right.record recording) :=
  fun counter other => count_record_congr (same counter other) recording

theorem sameButTimeouts_timeout (tally : Tally) : SameButTimeouts (tally.record .lockTimeout) tally :=
  fun counter other => (count_change tally .lockTimeouts counter .increment).trans (if_neg other)

end Metrics.Tally

variable [DecidableEq Key]

namespace Frame

/-- Whether a call neither reclaims a cache nor lets time pass. -/
def discreet (number : Nat) (frame : Frame Key Value) : Bool :=
  match frame.fleet.find? frame.request.handle, frame.request.action with
  | some (place, _), .reclaim => place != number
  | some _, .advance nanoseconds => nanoseconds == 0
  | _, _ => true

/-- Whether a call sets the counts of a cache back. -/
def resets (number : Nat) (frame : Frame Key Value) : Bool :=
  match frame.fleet.find? frame.request.handle, frame.request.action with
  | some (place, _), .resetMetrics => place == number
  | _, _ => false

end Frame

/-- Whatever is called while the writer of a cache waits neither reclaims this cache nor lets time pass; nor does it set the
counts back, if these are spared. -/
def Tactful (number : Nat) (spared : Prop) (trace : List (Frame Key Value)) : Prop :=
  ∀ frame ∈ trace, number ∈ frame.writers → frame.discreet number = true ∧ (spared → frame.resets number = false)

namespace Fleet

/-- From one fleet to the next, no time passes and nothing changes of a cache but its counts; and of these only those of
timeouts, if the counts are spared. -/
structure Untouched (number : Nat) (spared : Prop) (before after : Fleet Key Value) : Prop where
  clock : after.clock = before.clock
  cache : ∀ {cache}, before.caches[number]? = some cache →
    ∃ tally, after.caches[number]? = some { cache with tally } ∧ (spared → tally.SameButTimeouts cache.tally)

variable {fleet before between after : Fleet Key Value} {number place : Nat} {cache : Cache Key Value} {spared : Prop}
  {change : Cache Key Value → Cache Key Value} {writers : List Nat} {request : Call Key Value}
  {react : Reaction Key Value} {undertaking : Undertaking Key Value} {trace more : List (Frame Key Value)}

theorem Untouched.same (clock : after.clock = before.clock) (caches : after.caches[number]? = before.caches[number]?) :
    Untouched number spared before after :=
  ⟨clock, fun found => ⟨_, caches.trans found, fun _ => .refl _⟩⟩

theorem Untouched.trans (first : Untouched number spared before between)
    (second : Untouched number spared between after) : Untouched number spared before after := by
  refine ⟨second.clock.trans first.clock, ?_⟩
  intro cache found
  obtain ⟨middle, reached, near⟩ := first.cache found
  obtain ⟨tally, left, nearer⟩ := second.cache reached
  exact ⟨tally, left, fun sparing => (nearer sparing).trans (near sparing)⟩

theorem Untouched.busy (untouched : Untouched number spared before after) (busy : before.Busy number) :
    after.Busy number := by
  obtain ⟨cache, found, held⟩ := busy
  obtain ⟨tally, left, -⟩ := untouched.cache found
  exact ⟨_, left, held⟩

theorem untouched_adjust (apart : place ≠ number) (fleet : Fleet Key Value) (change : Cache Key Value → Cache Key Value) :
    Untouched number spared fleet (fleet.adjust place change) :=
  .same rfl (by rw [caches_adjust, if_neg apart])

theorem untouched_timeout (fleet : Fleet Key Value) (place number : Nat) :
    Untouched number spared fleet (fleet.adjust place (Cache.record .lockTimeout)) := by
  refine ⟨rfl, ?_⟩
  intro cache found
  rw [caches_adjust, found]
  split
  · exact ⟨_, rfl, fun _ => Metrics.Tally.sameButTimeouts_timeout cache.tally⟩
  · exact ⟨_, rfl, fun _ => .refl _⟩

theorem ne_of_shared (busy : fleet.Busy number) (found : fleet.caches[place]? = some cache)
    (shared : cache.hold.admits .shared = true) : place ≠ number := by
  rintro rfl
  refine not_busy found ?_ busy
  intro exclusive
  rw [exclusive] at shared
  cases shared

/-- A discreet call that neither writes nor searches leaves a cache alone that has a writer. -/
theorem Aside.untouched {outcome : Reply Key Value × Fleet Key Value} (aside : fleet.Aside request outcome)
    (busy : fleet.Busy number) {frame : Frame Key Value} (made : frame.request = request) (there : frame.fleet = fleet)
    (discreet : frame.discreet number = true) (sparing : spared → frame.resets number = false) :
    Untouched number spared fleet outcome.2 := by
  subst made there
  rw [Frame.discreet] at discreet
  rw [Frame.resets] at sparing
  cases aside with
  | refused refused => exact untouched_timeout frame.fleet _ number
  | idle => exact .same rfl rfl
  | looked located shared =>
      have apart := ne_of_shared busy (find?_eq_some_iff.mp located).2 shared
      exact (untouched_adjust apart frame.fleet _).trans (untouched_adjust apart _ _)
  | reclaimed located asked =>
      rw [located, asked] at discreet
      exact untouched_adjust (bne_iff_ne.mp discreet) frame.fleet _
  | @reset place cache located asked =>
      by_cases here : place = number
      · subst here
        refine ⟨rfl, ?_⟩
        intro cache found
        rw [caches_adjust, if_pos rfl, found]
        refine ⟨.zero, rfl, ?_⟩
        intro spares
        have kept := sparing spares
        rw [located, asked] at kept
        exact absurd (beq_self_eq_true place) (ne_true_of_eq_false kept)
      · exact untouched_adjust here frame.fleet _
  | cloned => exact .same rfl rfl
  | advanced located asked =>
      rw [located, asked] at discreet
      obtain rfl := beq_iff_eq.mp discreet
      exact .same rfl rfl

/-- What is carried out with tact while a writer waits leaves its cache alone. -/
def Aloof (number : Nat) (spared : Prop) (writers : List Nat) (trace : List (Frame Key Value))
    (before after : Fleet Key Value) : Prop :=
  number ∈ writers → before.Busy number → Tactful number spared trace → Untouched number spared before after

theorem Aloof.trans (first : Aloof number spared writers trace before between)
    (second : Aloof number spared writers more between after) :
    Aloof number spared writers (trace ++ more) before after := by
  intro waits busy tactful
  obtain ⟨early, late⟩ := List.forall_mem_append.mp tactful
  have start := first waits busy early
  exact start.trans (second waits (start.busy busy) late)

theorem told_untouched (listener : Listener Key Value) (place number : Nat) (event : Event Key Value)
    (fleet : Fleet Key Value) : Untouched number spared fleet (listener.told place event fleet) := by
  rw [Listener.told]
  split
  · exact .same rfl rfl
  · exact .same rfl rfl

theorem aloof_coherent [BEq Value] (number : Nat) (spared : Prop) :
    Coherent (@Aloof Key Value _ number spared) fun writer writers trace start world =>
      writer ≠ number → Aloof number spared writers trace start world where
  refl _ _ _ _ _ := .same rfl rfl
  trans first second := first.trans second
  begun _ _ _ _ _ _ _ := .same rfl rfl
  recorded recording working apart waits busy tactful :=
    (working apart waits busy tactful).trans (untouched_adjust apart _ _)
  notified {writer _ _ _ _ world _} listener event working made apart waits busy tactful := by
    obtain ⟨early, late⟩ := List.forall_mem_append.mp tactful
    have told := (working apart waits busy early).trans (told_untouched listener writer number event world)
    exact told.trans (made (List.mem_cons_of_mem writer waits) (told.busy busy) late)
  aside {fleet request outcome} react writers calm aside waits busy tactful := by
    obtain ⟨discreet, sparing⟩ := tactful (.begin react writers request fleet) List.mem_cons_self waits
    have left : Untouched number spared fleet outcome.2 := aside.untouched busy rfl rfl discreet sparing
    exact left.trans (.same rfl rfl)
  searched {fleet after request place cache calls trace} react writers reply calm sought shared made waits busy
      tactful := by
    have apart := ne_of_shared busy (find?_eq_some_iff.mp (search?_eq_some sought).2.1).2 shared
    have held : Untouched number spared fleet (fleet.hold place .shared) := untouched_adjust apart fleet _
    have inner := held.trans (made waits (held.busy busy) (List.forall_mem_cons.mp tactful).2)
    have released := inner.trans (untouched_adjust apart after fun other => { other with hold := cache.hold })
    exact released.trans (.same rfl rfl)
  worked {fleet request undertaking trace} react writers reply taken free working waits busy tactful := by
    have found := (find?_eq_some_iff.mp (undertaking?_eq_some taken).2.1).2
    have apart := ne_of_shared busy found (by rw [free]; rfl)
    have held : Untouched number spared fleet (fleet.hold undertaking.number .exclusive) :=
      untouched_adjust apart fleet _
    have inner := held.trans (working apart waits (held.busy busy) (List.forall_mem_cons.mp tactful).2)
    have released : Untouched number spared fleet (undertaking.after react fleet) :=
      inner.trans (untouched_adjust apart _ _)
    exact (released.trans (untouched_adjust apart _ request.action.install)).trans (.same rfl rfl)

/-- The cache of a writer at work, as a still host knows it. -/
structure Stands (number : Nat) (moment : Moment) (spared : Prop) (world : Fleet Key Value) (tally : Metrics.Tally) :
    Prop where
  clock : world.clock = moment.instant
  cache : ∃ cache, world.caches[number]? = some cache ∧ cache.hold = .held .exclusive ∧ cache.epoch = moment.epoch ∧
    (spared → cache.tally.SameButTimeouts tally)

/-- What a writer is told and asked is what a still host tells and is told, as long as its cache is left alone whenever
the listener is called. -/
theorem shadows_still (react : Reaction Key Value) (number : Nat) (listener : Option (Listener Key Value))
    (moment : Moment) (spared : Prop) :
    (host react number listener).Shadows (.still moment)
      (fun happening => happening.before.Busy number → Untouched number spared happening.before happening.after)
      (Stands number moment spared) where
  clock stands := stands.clock
  epoch stands := by
    obtain ⟨cache, found, -, epoch, -⟩ := stands.cache
    simp only [host, found]
    exact epoch
  record recording world tally stands := by
    obtain ⟨cache, found, held, epoch, near⟩ := stands.cache
    refine ⟨stands.clock, cache.record recording, ?_, held, epoch, fun spares => (near spares).record recording⟩
    show (Fleet.adjust _ _ _).caches[number]? = _
    rw [caches_adjust, if_pos rfl, found]
    rfl
  notify event world tally stands welcome := by
    obtain ⟨cache, found, held, epoch, near⟩ := stands.cache
    have untouched := welcome ⟨cache, found, held⟩
    obtain ⟨later, left, nearer⟩ := untouched.cache found
    exact ⟨untouched.clock.trans stands.clock, _, left, held, epoch, fun spares => (nearer spares).trans (near spares)⟩

/-- A writer whose cache is left alone whenever its listener is called comes to what it comes to before a still host. -/
theorem worked_still (found : fleet.caches[undertaking.number]? = some undertaking.cache)
    (quiet : ∀ happening ∈ undertaking.happenings react fleet, happening.before.Busy undertaking.number →
      Untouched undertaking.number spared happening.before happening.after) :
    Tiers.SameOutcome (Stands undertaking.number (fleet.moment undertaking.cache) spared) (undertaking.worked react fleet)
      (Tiers.operateHeld (.still (fleet.moment undertaking.cache)) undertaking.operation undertaking.cache.tiers
        undertaking.cache.tally) := by
  refine Tiers.operateHeld_shadows (shadows_still react undertaking.number undertaking.cache.listener _ spared)
    undertaking.operation undertaking.cache.tiers ⟨rfl, ?_⟩ quiet
  rw [hold, caches_adjust, if_pos rfl, found]
  exact ⟨_, rfl, rfl, rfl, fun _ => .refl _⟩

theorem note_inj {first second : Fleet Key Value} {line other : Note Key Value}
    (same : first.note line = second.note other) :
    first = second ∧ line = other := by
  obtain ⟨caches, handles, clock, journal⟩ := first
  obtain ⟨moreCaches, moreHandles, laterClock, moreJournal⟩ := second
  obtain ⟨rfl, rfl, rfl, journals⟩ := Fleet.mk.inj same
  obtain ⟨rfl, lines⟩ := List.append_inj' journals rfl
  exact ⟨rfl, List.head_eq_of_cons_eq lines⟩

variable [BEq Value]

/-- A call that leaves the same answered has come to the same. -/
theorem perform_of_answer {other : Reaction Key Value} (same : answer react request fleet = answer other request fleet) :
    perform react request fleet = perform other request fleet := by
  obtain ⟨left, answered⟩ := note_inj same
  obtain ⟨-, replied⟩ := Note.answered.inj answered
  exact Prod.ext replied left

/-- What a call comes to, and what is carried out in its middle. -/
theorem carriedOut_single (carried : CarriedOut [⟨writers, [request], fleet, after⟩] trace) :
    ∃ react inner, answer react request fleet = after ∧ CarriedOut (nested react writers request fleet) inner ∧
      inner ⊆ trace := by
  cases carried with
  | called react within further =>
      cases further with
      | finished others =>
          refine ⟨react, _, rfl, within, ?_⟩
          exact List.subset_append_of_subset_left _ (List.subset_cons_self _ _)

/-- Whatever is called with tact by the listener of a cache leaves this cache alone. -/
theorem quiet_of_carriedOut (within : CarriedOut (undertaking.runs react fleet writers) trace)
    (tactful : Tactful undertaking.number spared trace) :
    ∀ happening ∈ undertaking.happenings react fleet, happening.before.Busy undertaking.number →
      Untouched undertaking.number spared happening.before happening.after := by
  intro happening happened busy
  cases listening : undertaking.cache.listener with
  | none =>
      have notified := Dialogue.happenings_notified _ _ _ happening happened
      rw [Undertaking.host, listening] at notified
      rw [notified]
      exact .same rfl rfl
  | some listener =>
      rw [Undertaking.runs, listening] at within
      obtain ⟨piece, carried, part⟩ := within.each _ (List.mem_map_of_mem happened)
      have told : Untouched undertaking.number spared happening.before
          (listener.told undertaking.number happening.event happening.before) := told_untouched listener _ _ _ _
      have aloof := carried.leaves (aloof_coherent undertaking.number spared)
      exact told.trans (aloof List.mem_cons_self (told.busy busy) fun frame listed => tactful frame (part listed))

/-- A writer whose listener is tactful answers what it answers before a still host, and leaves the same tiers. -/
theorem perform_still (taken : fleet.undertaking? request = some undertaking)
    (within : CarriedOut (undertaking.runs react fleet writers) trace)
    (tactful : Tactful undertaking.number spared trace) :
    let still := Tiers.operateHeld (.still (fleet.moment undertaking.cache)) undertaking.operation undertaking.cache.tiers
      undertaking.cache.tally
    (perform react request fleet).1 = request.action.render still.1 ∧
      ∃ left, (perform react request fleet).2.caches[undertaking.number]? = some left ∧ left.tiers = still.2.1 ∧
        left.epoch = undertaking.cache.epoch ∧ (spared → left.tally.SameButTimeouts still.2.2) := by
  intro still
  have found := (find?_eq_some_iff.mp (undertaking?_eq_some taken).2.1).2
  obtain ⟨answered, tiers, stands⟩ := worked_still found (quiet_of_carriedOut within tactful)
  obtain ⟨cache, present, -, epoch, near⟩ := stands.cache
  have here := present
  rw [Undertaking.worked, Undertaking.host] at here
  rw [(perform_undertaking taken react).2]
  refine ⟨congrArg (Action.render · request.action) answered, ?_⟩
  dsimp only
  rw [caches_adjust, if_pos rfl, Undertaking.after, caches_work, if_pos rfl, here]
  have beside := beside_install request.action
  have counted : ∀ cache, (request.action.install cache).tally = cache.tally := by
    intro cache
    cases request.action <;> rfl
  refine ⟨_, rfl, (beside.tiers _).trans tiers, (beside.epoch _).trans epoch, ?_⟩
  intro spares
  rw [counted]
  exact near spares

/-- Whoever waits has a writer at work, so that nobody gets a hold of its cache. -/
theorem refused_while_waiting {frame : Frame Key Value} (manned : Manned frame.writers frame.fleet)
    (waits : number ∈ frame.writers) {acquisition : Acquisition Key Value}
    (taken : acquisition ∈ frame.fleet.acquisitions frame.request) (here : acquisition.number = number) :
    ∃ timeout, ∀ react, (perform react frame.request frame.fleet).1 = .refused timeout := by
  obtain ⟨cache, found, held⟩ := manned.busy number waits
  have also := cache_of_acquisition taken
  rw [here, found] at also
  have refused : acquisition.granted = false := by
    rw [Acquisition.granted, ← Option.some.inj also, held]
    cases acquisition.mode <;> rfl
  cases first : frame.fleet.refusal? frame.request with
  | none => exact absurd (by rw [refused]; rfl) (List.find?_eq_none.mp first acquisition taken)
  | some earlier => exact ⟨earlier.timeout, fun react => by rw [perform_refused first]; rfl⟩

/-- What two calls come to that reply the same and leave the same tiers, epoch and counts of a cache. The counts may
differ in the timeouts, and anyhow if they were not spared. -/
structure SameFor (number : Nat) (spared : Prop) (heard unheard : Reply Key Value × Fleet Key Value) : Prop where
  reply : heard.1 = unheard.1
  cache : ∃ first second, heard.2.caches[number]? = some first ∧ unheard.2.caches[number]? = some second ∧
    first.tiers = second.tiers ∧ first.epoch = second.epoch ∧ (spared → first.tally.SameButTimeouts second.tally)

theorem call_calm (calm : fleet.undertaking? request = none)
    (located : fleet.find? request.handle = some (number, cache)) :
    SameFor number spared (fleet.call request) ((fleet.listening number none).call request) := by
  have kept : (fleet.call request).2.holds = fleet.holds := answer_holds fleet.caches.size request fleet
  have present := getElem?_holds (fleet.call request).2 number
  rw [kept, getElem?_holds, (find?_eq_some_iff.mp located).2] at present
  obtain ⟨left, found, -⟩ := Option.map_eq_some_iff.mp present.symm
  rw [call_listening calm located none]
  refine ⟨rfl, left, left.swapped number none number, found, ?_, rfl, rfl, fun _ => .refl _⟩
  rw [caches_listening, found]
  rfl

theorem call_tactful (taken : fleet.undertaking? request = some undertaking)
    (carried : CarriedOut [⟨[], [request], fleet, fleet.converse [request]⟩] trace)
    (tactful : Tactful undertaking.number spared trace) :
    SameFor undertaking.number spared (fleet.call request) ((fleet.listening undertaking.number none).call request) := by
  let unheard := fleet.listening undertaking.number none
  obtain ⟨react, inner, same, within, part⟩ := carriedOut_single carried
  rw [nested, taken] at within
  have performed : perform react request fleet = fleet.call request := perform_of_answer same
  obtain ⟨replied, first, found, tiers, epoch, near⟩ := perform_still taken within fun frame listed =>
    tactful frame (part listed)
  rw [performed] at replied found
  -- The same writer with nobody listening comes to the same before the same still host.
  have also := undertaking?_listening fleet undertaking.number none request
  rw [taken] at also
  have silent := undertaking.runs_swapped (reactTo unheard.caches.size) unheard []
  have silence : Tactful undertaking.number spared ([] : List (Frame Key Value)) := List.forall_mem_nil _
  obtain ⟨answered, second, present, left, instant, close⟩ := perform_still also (silent ▸ CarriedOut.nothing) silence
  exact ⟨replied.trans answered.symm, first, second, found, present, tiers.trans left.symm, epoch.trans instant.symm,
    fun spares => (near spares).trans (close spares).symm⟩

/-- A call is not influenced by whoever listens to its cache, unless the listener, or what it sets in motion, reclaims this
cache or lets time pass. Whatever is called meanwhile that takes a hold of the cache is refused. -/
theorem listeners_do_not_interfere {number : Nat} {cache : Cache Key Value}
    (located : fleet.find? request.handle = some (number, cache)) {trace : List (Frame Key Value)}
    (carried : CarriedOut [⟨[], [request], fleet, fleet.converse [request]⟩] trace)
    (discreet : ∀ frame ∈ trace, number ∈ frame.writers → frame.discreet number = true) :
    SameFor number (∀ frame ∈ trace, number ∈ frame.writers → frame.resets number = false)
        (fleet.call request) ((fleet.listening number none).call request) ∧
      ∀ frame ∈ trace, number ∈ frame.writers →
        (∃ acquisition ∈ frame.fleet.acquisitions frame.request, acquisition.number = number) →
          ∃ timeout, ∀ react, (perform react frame.request frame.fleet).1 = .refused timeout := by
  have nobody : Manned [] fleet := ⟨List.nodup_nil, nofun⟩
  have manned := (carried.leaves wellNested_coherent).2 nobody
  constructor
  · cases taken : fleet.undertaking? request with
    | none => exact call_calm taken located
    | some undertaking =>
        have here := (undertaking?_eq_some taken).2.1
        rw [located] at here
        obtain ⟨rfl, -⟩ := Prod.mk.inj (Option.some.inj here)
        refine call_tactful taken carried ?_
        exact fun frame listed waits => ⟨discreet frame listed waits, fun spares => spares frame listed waits⟩
  · intro frame listed waits taking
    obtain ⟨acquisition, taken, here⟩ := taking
    exact refused_while_waiting (manned frame listed).1 waits taken here

/-- A listener that puts and removes keys of the cache that calls it is refused both. -/
theorem meddling_listener_is_refused :
    let listener : Listener Nat Nat := .mk (fun _ => true) fun _ _ => [.mk 0 (.put 1 11), .mk 0 (.remove 2)]
    let settings : Settings := { cacheSize := 1, softReferenceSize := 1 }
    let fleet : Fleet Nat Nat :=
      (ofSettings [settings]).converse [.mk 0 (.put 1 10), .mk 0 (.setListener (some listener))]
    let request : Call Nat Nat := .mk 0 (.put 2 20)
    ∃ first second, (fleet.call request).2.caches[0]? = some first ∧
      ((fleet.listening 0 none).call request).2.caches[0]? = some second ∧ first.tiers = second.tiers ∧
        first.tally.SameButTimeouts second.tally ∧ first.tally.count .lockTimeouts = 2 ∧
          second.tally.count .lockTimeouts = 0 := by
  intro listener settings fleet request
  let trace := .begin (reactTo fleet.caches.size) [] request fleet :: askedFor 0 [] request fleet
  have located : (fleet.find? request.handle).map Prod.fst = some 0 := by decide +kernel
  have size : fleet.caches.size = 0 + 1 := by decide +kernel
  have quiet : (fleet.search? request).isNone = true := by decide +kernel
  have each : (askedFor 0 [] request fleet).all (alone (reactTo 0)) = true := by decide +kernel
  have discreet : trace.all (Frame.discreet 0) = true := by decide +kernel
  have sparing : trace.all (fun frame => !frame.resets 0) = true := by decide +kernel
  have refused : (fleet.call request).2.caches[0]?.map (fun cache => cache.tally.count .lockTimeouts) = some 2 := by
    decide +kernel
  have granted : ((fleet.listening 0 none).call request).2.caches[0]?.map
      (fun cache => cache.tally.count .lockTimeouts) = some 0 := by decide +kernel
  have carried : CarriedOut [⟨[], [request], fleet, fleet.converse [request]⟩] trace :=
    converse_askedFor size (Option.isNone_iff_eq_none.mp quiet) each
  clear_value trace fleet request
  obtain ⟨⟨number, cache⟩, found, rfl⟩ := Option.map_eq_some_iff.mp located
  obtain ⟨⟨-, first, second, heard, unheard, tiers, -, near⟩, -⟩ := listeners_do_not_interfere found carried
    fun frame listed _ => List.all_eq_true.mp discreet frame listed
  rw [heard] at refused
  rw [unheard] at granted
  refine ⟨first, second, heard, unheard, tiers, near ?_, Option.some.inj refused, Option.some.inj granted⟩
  intro frame listed _
  exact Bool.not_eq_true' _ ▸ List.all_eq_true.mp sparing frame listed

end Fleet

end LayeredCache
