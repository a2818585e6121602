import LayeredCache.Proofs.Fleet.Passing
import LayeredCache.Proofs.Tiers.Conservation

/-! What a listener is told of the entries that leave its cache. While a writer holds a cache, nobody else has anything to
tell of it, whatever the listeners do, so that the journal keeps the events of the operation and no others. -/

set_option autoImplicit false

namespace LayeredCache

variable {Key Value : Type} [DecidableEq Key]

/-- The event that a note tells of a cache. -/
def Note.eventOf? (number : Nat) : Note Key Value → Option (Event Key Value)
  | .event cache told => if cache = number then some told else none
  | .answered _ _ => none

namespace Fleet

/-- The events of a cache that the journal keeps, in order. -/
def eventsOf (fleet : Fleet Key Value) (number : Nat) : List (Event Key Value) :=
  fleet.journal.filterMap (Note.eventOf? number)

/-- A writer holds a cache. -/
def Busy (fleet : Fleet Key Value) (number : Nat) : Prop :=
  ∃ cache, fleet.caches[number]? = some cache ∧ cache.hold = .held .exclusive

/-- A cache that a writer held is still held, and nothing was told of it. -/
def Undisturbed (number : Nat) (before after : Fleet Key Value) : Prop :=
  before.Busy number → after.Busy number ∧ after.eventsOf number = before.eventsOf number

variable {fleet first second third : Fleet Key Value} {number other : Nat} {cache : Cache Key Value}
  {change : Cache Key Value → Cache Key Value} {react : Reaction Key Value} {listener : Listener Key Value}

theorem Undisturbed.refl (number : Nat) (fleet : Fleet Key Value) : Undisturbed number fleet fleet :=
  fun busy => ⟨busy, rfl⟩

theorem Undisturbed.trans (start : Undisturbed number first second) (rest : Undisturbed number second third) :
    Undisturbed number first third := by
  intro busy
  obtain ⟨held, same⟩ := start busy
  obtain ⟨stillHeld, again⟩ := rest held
  exact ⟨stillHeld, again.trans same⟩

theorem eventsOf_note (fleet : Fleet Key Value) (number : Nat) (line : Note Key Value) :
    (fleet.note line).eventsOf number = fleet.eventsOf number ++ (line.eventOf? number).toList := by
  rw [eventsOf, eventsOf, note, List.filterMap_append]
  cases told : line.eventOf? number with
  | none => rw [List.filterMap_cons_none told]; rfl
  | some event => rw [List.filterMap_cons_some told]; rfl

/-- A note that tells no event of a cache leaves it undisturbed. -/
theorem Undisturbed.note (fleet : Fleet Key Value) {line : Note Key Value}
    (silent : line.eventOf? number = none) : Undisturbed number fleet (fleet.note line) := by
  intro busy
  refine ⟨busy, ?_⟩
  rw [eventsOf_note, silent]
  exact List.append_nil _

theorem Busy.adjust (busy : fleet.Busy number) (kept : number = other → ∀ cache, (change cache).hold = cache.hold) :
    (fleet.adjust other change).Busy number := by
  obtain ⟨cache, found, held⟩ := busy
  rw [Busy, caches_adjust, found]
  split
  next same => exact ⟨change cache, rfl, (kept same.symm cache).trans held⟩
  next => exact ⟨cache, rfl, held⟩

/-- Whoever takes a hold to write is at work. -/
theorem busy_hold (found : fleet.caches[number]? = some cache) : (fleet.hold number .exclusive).Busy number := by
  rw [Busy, hold, caches_adjust, if_pos rfl, found]
  exact ⟨_, rfl, rfl⟩

theorem Undisturbed.adjust (fleet : Fleet Key Value)
    (kept : number = other → ∀ cache, (change cache).hold = cache.hold) :
    Undisturbed number fleet (fleet.adjust other change) :=
  fun busy => ⟨busy.adjust kept, rfl⟩

/-- Who finds a cache free, or held by readers only, knows that no writer holds it. -/
theorem not_busy (found : fleet.caches[number]? = some cache) (idle : cache.hold ≠ .held .exclusive) :
    ¬fleet.Busy number := by
  rintro ⟨holder, present, held⟩
  rw [found] at present
  exact idle (Option.some.inj present ▸ held)

/-- A writer at work on another cache does not disturb, if its callbacks do not. -/
theorem work_undisturbed (found : fleet.caches[other]? = some cache) (free : cache.hold = .free)
    (moves : (host react other cache.listener).Moves fun before after =>
      other ≠ number → Undisturbed number before after) (operation : Operation Key Value) :
    Undisturbed number fleet (work react other cache operation fleet).2 := by
  by_cases same : number = other
  · intro busy
    refine absurd busy (same ▸ not_busy found ?_)
    rw [free]
    exact nofun
  · have apart : other ≠ number := fun equal => same equal.symm
    have within : (host react other cache.listener).Moves (Undisturbed number) :=
      moves.imp fun undisturbed => undisturbed apart
    let held := fleet.hold other .exclusive
    have holding : Undisturbed number fleet held := .adjust fleet fun equal => absurd equal same
    have worked := Tiers.operateHeld_keeps (within.keeps Undisturbed.trans held) operation cache.tiers
      (Undisturbed.refl number held)
    exact holding.trans (worked.trans (.adjust _ fun equal => absurd equal same))

theorem undisturbed_closed [BEq Value] (number : Nat) :
    Closed (@Undisturbed Key Value _ number) fun worker before after =>
      worker ≠ number → Undisturbed number before after where
  refl := Undisturbed.refl number
  trans := Undisturbed.trans
  working_of_related undisturbed _ := undisturbed
  working_trans start rest apart := (start apart).trans (rest apart)
  told worker event fleet apart := .note fleet (if_neg apart)
  answered call reply fleet := .note fleet rfl
  beside fleet other _ beside := .adjust fleet fun _ => beside.hold
  cloned fleet other busy := ⟨busy, rfl⟩
  advanced fleet nanoseconds busy := ⟨busy, rfl⟩
  reclaimed {fleet handle other _} _ := by
    have begun : Undisturbed number fleet
        (fleet.adjust other fun cache => { cache with epoch := cache.epoch + 1 }) :=
      .adjust fleet fun _ _ => rfl
    exact begun.trans (.note _ rfl)
  searched {fleet after other cache} found shared searched := by
    by_cases same : number = other
    · intro busy
      refine absurd busy (same ▸ not_busy found ?_)
      intro exclusive
      rw [exclusive] at shared
      cases shared
    · have holding : Undisturbed number fleet (fleet.hold other .shared) :=
        .adjust fleet fun equal => absurd equal same
      exact holding.trans (searched.trans (.adjust _ fun equal => absurd equal same))
  worked {fleet react handle other cache action operation} located free _ moves := by
    have worked := work_undisturbed (find?_eq_some_iff.mp located).2 free moves operation
    exact worked.trans (.note _ rfl)
  purged found free moves := work_undisturbed found free moves .purgeSoft

/-- The journal is a log of a cache that a writer holds, if its listener has every event written down. -/
theorem host_logs [BEq Value] (depth number : Nat) (journals : ∀ event, listener.journals event = true) :
    (host (reactTo depth) number (some listener)).Logs (fun fleet => fleet.Busy number)
      fun fleet => fleet.eventsOf number := by
  have notified : ∀ event {world : Fleet Key Value}, world.Busy number →
      ((host (reactTo depth) number (some listener)).notify event world).Busy number ∧
        ((host (reactTo depth) number (some listener)).notify event world).eventsOf number =
          world.eventsOf number ++ [event] := by
    intro event world busy
    have reacts := reactTo_related (undisturbed_closed number) depth (listener.reacts world.heard event)
      (world.note (.event number event))
    obtain ⟨held, told⟩ := reacts busy
    simp only [host, journals event, ↓reduceIte]
    refine ⟨held, told.trans ((eventsOf_note world number _).trans ?_)⟩
    rw [Note.eventOf?, if_pos rfl]
    rfl
  constructor
  · constructor
    · intro recording world busy
      exact busy.adjust fun _ _ => rfl
    · exact fun event _ busy => (notified event busy).1
  · exact fun recording _ _ => rfl
  · exact fun event _ busy => (notified event busy).2

/-- What the events told of a cache say of an operation that a call asks of it. A call that is refused tells and loses
nothing; a copy that is not refused comes to its pins and puts, one after another, from the tiers that the writer finds to
the tiers that it leaves. -/
structure Accounts [BEq Value] (depth : Nat) (request : Call Key Value) (operation : Operation Key Value) (number : Nat)
    (cache settled : Cache Key Value) (fleet : Fleet Key Value) (events : List (Event Key Value)) : Prop where
  single : operation.single = true → Tiers.Conserves operation (fleet.moment cache) events cache.tiers settled.tiers
  refused : fleet.refusal? request ≠ none → events = [] ∧ settled.tiers = cache.tiers
  copy : fleet.refusal? request = none → ∀ entries replaceExisting, operation = .putAll entries replaceExisting →
    let host := host (reactTo depth) number cache.listener
    let held := fleet.hold number .exclusive
    ∃ last, Tiers.ConservesEach host (fun fleet => fleet.eventsOf number)
      (Tiers.copySteps host replaceExisting entries cache.tiers held) (cache.tiers, held) events (settled.tiers, last)

/-- From one fleet to the next, the events told of a cache account for an operation that a call asks of it. -/
def Conserved [BEq Value] (depth : Nat) (request : Call Key Value) (operation : Operation Key Value) (number : Nat)
    (cache : Cache Key Value) (before after : Fleet Key Value) : Prop :=
  ∃ settled events, after.caches[number]? = some settled ∧
    after.eventsOf number = before.eventsOf number ++ events ∧
    Accounts depth request operation number cache settled before events

/-- A call that tells nothing and leaves the tiers alone loses nothing, unless it is a copy that is not refused. -/
theorem Conserved.nothing [BEq Value] {depth : Nat} {request : Call Key Value} {operation : Operation Key Value}
    {after : Fleet Key Value} (found : fleet.caches[number]? = some cache)
    (idle : fleet.refusal? request = none → operation.single = true) (journal : after.journal = fleet.journal)
    (tiers : after.caches[number]?.map Cache.tiers = fleet.caches[number]?.map Cache.tiers) :
    Conserved depth request operation number cache fleet after := by
  rw [found] at tiers
  obtain ⟨settled, present, same⟩ := Option.map_eq_some_iff.mp tiers
  refine ⟨settled, [], present, ?_, ?_, fun _ => ⟨rfl, same⟩, ?_⟩
  · rw [eventsOf, journal]
    exact (List.append_nil _).symm
  · rw [same]
    exact fun _ => .nothing operation (fleet.moment cache) cache.tiers
  · rintro granted entries replaceExisting rfl
    cases idle granted

theorem work_conserved [BEq Value] {depth : Nat} {request : Call Key Value}
    (found : fleet.caches[number]? = some cache) (reachable : cache.tiers.Reachable)
    (listening : cache.listener = some listener) (journals : ∀ event, listener.journals event = true)
    (granted : fleet.refusal? request = none) (operation : Operation Key Value) :
    Conserved depth request operation number cache fleet
      (work (reactTo depth) number cache operation fleet).2 := by
  let held := fleet.hold number .exclusive
  have present : held.caches[number]? = some { cache with hold := .held .exclusive } := by
    have caches := caches_adjust fleet number number fun cache => { cache with hold := .held .exclusive }
    rw [if_pos rfl, found] at caches
    exact caches
  have busy : held.Busy number := ⟨_, present, rfl⟩
  have logs := host_logs depth number journals
  rw [← listening] at logs
  have moment : (host (reactTo depth) number cache.listener).moment held = fleet.moment cache :=
    moment_host present cache.listener
  obtain ⟨events, told, conserved⟩ := Tiers.operateHeld_conserved logs busy reachable.valid operation
  obtain ⟨holder, holding, -⟩ := Tiers.operateHeld_keeps logs.keeps operation cache.tiers busy
  let worked := Tiers.operateHeld (host (reactTo depth) number cache.listener) operation cache.tiers held
  refine ⟨{ holder with tiers := worked.2.1, hold := .free }, events, ?_, told, ?_, ?_, ?_⟩
  · rw [caches_work, if_pos rfl]
    exact congrArg (Option.map _) holding
  · exact moment ▸ conserved.single
  · exact fun refused => absurd granted refused
  · exact fun _ entries replaceExisting copies => ⟨worked.2.2, conserved.copy entries replaceExisting copies⟩

theorem tiers_lookup (react : Reaction Key Value) (number : Nat) (listener : Option (Listener Key Value)) (key : Key)
    (tiers : Tiers Key Value) (fleet : Fleet Key Value) :
    let after := (tiers.lookup (host react number listener) key fleet).2
    after.journal = fleet.journal ∧ after.caches[number]?.map Cache.tiers = fleet.caches[number]?.map Cache.tiers := by
  rcases Tiers.lookup_snd (host react number listener) key tiers fleet with same | ⟨recording, counted⟩
  · rw [same]
    exact ⟨rfl, rfl⟩
  · rw [counted]
    refine ⟨rfl, (tiers_adjust _ number number ?_).trans (tiers_adjust fleet number number ?_)⟩
    · exact fun _ => rfl
    · exact fun _ => rfl

/-- A lookup counts and does nothing else. -/
theorem lookup_conserved [BEq Value] {depth : Nat} {request : Call Key Value} {key : Key} {outcome : Lookup Value}
    {after : Fleet Key Value} (found : fleet.caches[number]? = some cache)
    (looked : cache.tiers.lookup (host (reactTo depth) number cache.listener) key fleet = (outcome, after)) :
    Conserved depth request (.get key) number cache fleet after := by
  obtain ⟨journal, tiers⟩ := tiers_lookup (reactTo depth) number cache.listener key cache.tiers fleet
  rw [looked] at journal tiers
  exact .nothing found (fun _ => rfl) journal tiers

/-- Whatever is asked of a cache whose listener has every event written down, the events told of it account for what
leaves it: an operation that is refused, or answered by a lookup, tells and loses nothing. -/
theorem departures_told_once [BEq Value] {handle : Nat} {action : Action Key Value}
    {operation : Operation Key Value} (located : fleet.find? handle = some (number, cache))
    (reachable : cache.tiers.Reachable) (listening : cache.listener = some listener)
    (journals : ∀ event, listener.journals event = true) (asked : action.operation? fleet = some operation)
    (depth : Nat) :
    Conserved depth (.mk handle action) operation number cache fleet
      (perform (reactTo depth) (.mk handle action) fleet).2 := by
  have found := (find?_eq_some_iff.mp located).2
  cases refused : fleet.refusal? (.mk handle action) with
  | some acquisition =>
      rw [perform_refused refused]
      have granted : fleet.refusal? (.mk handle action) ≠ none := fun none => nomatch refused.symm.trans none
      refine .nothing found (fun none => absurd none granted) rfl (tiers_adjust fleet acquisition.number number ?_)
      exact fun _ => rfl
  | none =>
      have reached := @perform_outcome Key Value _ fleet number cache (reactTo depth) _ handle action located
        (granted_of_not_refused located refused)
      generalize perform (reactTo depth) (.mk handle action) fleet = outcome at reached
      cases reached with
      | @worked _ chosen chose free =>
          obtain rfl := Option.some.inj (asked.symm.trans chose)
          exact work_conserved found reachable listening journals refused operation
      | hit looked | miss looked =>
          cases asked
          exact lookup_conserved found looked
      | told reported =>
          cases action with
          | put | putShared | get | remove | pin | unpin | putAll | clear | setCacheSize | setSoftReferenceSize
          | purgeSoft => cases reported
          | _ => cases asked
      | unknownSource missing => cases (congrArg (Option.map _) missing).symm.trans asked
      | listened | searched | reclaimed | reset | cloned | advanced => cases asked

/-- A put into full tiers tells of the entry that it demotes and of the one that is displaced, although every event makes
the listener reclaim the cache; so does a copy that passes over the one and writes another. -/
theorem put_tells_what_it_displaces :
    let recorder : Listener Nat Nat := .mk (fun _ => true) fun _ _ => [.mk 0 .reclaim]
    let fleet : Fleet Nat Nat := ((ofSettings [{ cacheSize := 1, softReferenceSize := 1 }, { cacheSize := 2 }]).converse
      [.mk 0 (.put 1 10), .mk 0 (.put 2 20), .mk 1 (.put 2 21), .mk 1 (.put 3 30)]).adjust 0
        fun cache => { cache with listener := some recorder }
    let after := fun action => (perform (reactTo 1) (.mk 0 action) fleet).2
    (after (.put 3 30)).eventsOf 0 = [.primaryOverflow 2 20 true, .softOverflow 1 10] ∧
      (after (.putAll 1 false)).eventsOf 0 = [.primaryOverflow 2 20 true, .softOverflow 1 10] ∧
      ∃ cache, fleet.find? 0 = some (0, cache) ∧
        Conserved 1 (.mk 0 (.put 3 30)) (.put 3 30) 0 cache fleet (after (.put 3 30)) ∧
        ∃ entries, Conserved 1 (.mk 0 (.putAll 1 false)) (.putAll entries false) 0 cache fleet
          (after (.putAll 1 false)) := by
  intro recorder fleet after
  have toldPut : (after (.put 3 30)).eventsOf 0 = [.primaryOverflow 2 20 true, .softOverflow 1 10] := by
    decide +kernel
  have toldCopy : (after (.putAll 1 false)).eventsOf 0 = [.primaryOverflow 2 20 true, .softOverflow 1 10] := by
    decide +kernel
  refine ⟨toldPut, toldCopy, ?_⟩
  let settings : List Settings := [{ cacheSize := 1, softReferenceSize := 1 }, { cacheSize := 2 }]
  have passed := converse_related (@passed_closed Nat Nat _ _) (ofSettings settings)
    [.mk 0 (.put 1 10), .mk 0 (.put 2 20), .mk 1 (.put 2 21), .mk 1 (.put 3 30)]
  have dated := passed.dated (ofSettings_dated settings)
  have numbered : (fleet.find? 0).map Prod.fst = some 0 := by decide +kernel
  obtain ⟨⟨number, cache⟩, located, rfl⟩ := Option.map_eq_some_iff.mp numbered
  have found := (find?_eq_some_iff.mp located).2
  rw [caches_adjust, if_pos rfl] at found
  obtain ⟨stored, present, listening⟩ := Option.map_eq_some_iff.mp found
  subst listening
  have reachable : stored.tiers.Reachable := dated.reachable 0 stored present
  have sourced : (fleet.find? 1).isSome = true := by decide +kernel
  obtain ⟨source, there⟩ := Option.isSome_iff_exists.mp sourced
  have asked : Action.operation? fleet (.putAll 1 false) =
      some (.putAll (source.2.tiers.entries (fleet.moment source.2)) false) := by
    rw [Action.operation?, there]
    rfl
  exact ⟨_, located, departures_told_once located reachable rfl (fun _ => rfl) rfl 1, _,
    departures_told_once located reachable rfl (fun _ => rfl) asked 1⟩

end Fleet

end LayeredCache
