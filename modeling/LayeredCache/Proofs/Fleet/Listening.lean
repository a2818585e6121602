import LayeredCache.Proofs.Fleet.Determinacy

/-! Listeners that are not called. Only a writer calls the listener of its cache, and while a cache is held no writer begins
on it. Whatever is called meanwhile, on this cache or on others, comes to the same with another listener in its place. -/

set_option autoImplicit false

namespace LayeredCache

variable {Key Value : Type} [DecidableEq Key]

/-- What the cache of a place becomes when the cache of a number is given a listener, or loses it. -/
def Cache.swapped (number : Nat) (listener : Option (Listener Key Value)) (place : Nat) (cache : Cache Key Value) :
    Cache Key Value :=
  { cache with listener := if number = place then listener else cache.listener }

theorem Cache.swapped_of_ne {number place : Nat} (apart : number ≠ place) (listener : Option (Listener Key Value))
    (cache : Cache Key Value) : cache.swapped number listener place = cache := by
  rw [swapped, if_neg apart]

def Acquisition.swapped (number : Nat) (listener : Option (Listener Key Value)) (acquisition : Acquisition Key Value) :
    Acquisition Key Value :=
  { acquisition with cache := acquisition.cache.swapped number listener acquisition.number }

def Undertaking.swapped (number : Nat) (listener : Option (Listener Key Value)) (undertaking : Undertaking Key Value) :
    Undertaking Key Value :=
  { undertaking with cache := undertaking.cache.swapped number listener undertaking.number }

/-- Where nobody listens, nobody calls. -/
theorem Undertaking.runs_swapped (undertaking : Undertaking Key Value) (react : Fleet.Reaction Key Value)
    (fleet : Fleet Key Value) (writers : List Nat) :
    (undertaking.swapped undertaking.number none).runs react fleet writers = [] := by
  simp only [runs, swapped, Cache.swapped, ↓reduceIte]

namespace Fleet

/-- A fleet one of whose caches has been given a listener, or has lost it. -/
def listening (fleet : Fleet Key Value) (number : Nat) (listener : Option (Listener Key Value)) : Fleet Key Value :=
  fleet.adjust number fun cache => { cache with listener }

def Held (fleet : Fleet Key Value) (number : Nat) : Prop :=
  ∃ hold, fleet.holds[number]? = some hold ∧ hold ≠ .free

variable {World : Type} {fleet world : Fleet Key Value} {number place : Nat} {cache : Cache Key Value}
  {listener : Option (Listener Key Value)} {change : Cache Key Value → Cache Key Value} {request : Call Key Value}
  {action : Action Key Value} {react : Reaction Key Value} {outcome instead : Reply Key Value × Fleet Key Value}

theorem Held.of_holds (held : fleet.Held number) (same : world.holds = fleet.holds) : world.Held number := by
  rw [Held, same]
  exact held

theorem held_hold (held : place = number ∨ fleet.Held number) (found : fleet.caches[place]? = some cache)
    (mode : LockMode) : (fleet.hold place mode).Held number := by
  rw [Held, getElem?_holds, hold, caches_adjust]
  by_cases here : place = number
  · subst here
    rw [if_pos rfl, found]
    exact ⟨_, rfl, by simp⟩
  · rw [if_neg here, ← getElem?_holds]
    exact held.resolve_left here

theorem Held.ne (held : fleet.Held number) (found : fleet.caches[place]? = some cache) (free : cache.hold = .free) :
    number ≠ place := by
  rintro rfl
  obtain ⟨hold, present, taken⟩ := held
  rw [getElem?_holds, found] at present
  exact taken ((Option.some.inj present).symm.trans free)

/-! ### What does not depend on the listener -/

theorem caches_listening (fleet : Fleet Key Value) (number : Nat) (listener : Option (Listener Key Value)) (place : Nat) :
    (fleet.listening number listener).caches[place]? =
      fleet.caches[place]?.map (Cache.swapped number listener place) := by
  rw [listening, caches_adjust]
  cases fleet.caches[place]? with
  | none => exact ite_self _
  | some cache =>
      simp only [Option.map_some, Cache.swapped]
      split <;> rfl

theorem find?_listening (fleet : Fleet Key Value) (number : Nat) (listener : Option (Listener Key Value)) (handle : Nat) :
    (fleet.listening number listener).find? handle =
      (fleet.find? handle).map fun located => (located.1, located.2.swapped number listener located.1) := by
  cases handled : fleet.handles[handle]? with
  | none =>
      have also : (fleet.listening number listener).handles[handle]? = none := handled
      simp only [find?, handled, also, Option.bind_eq_bind, Option.bind_none, Option.map_none]
  | some place =>
      have also : (fleet.listening number listener).handles[handle]? = some place := handled
      simp only [find?, handled, also, Option.bind_eq_bind, Option.bind_some, caches_listening]
      cases fleet.caches[place]? <;> rfl

theorem acquisitions_listening (fleet : Fleet Key Value) (number : Nat) (listener : Option (Listener Key Value))
    (place : Nat) (cache : Cache Key Value) (action : Action Key Value) :
    action.acquisitions (fleet.listening number listener) place (cache.swapped number listener place) =
      (action.acquisitions fleet place cache).map (Acquisition.swapped number listener) := by
  cases action with
  | get key =>
      have same : ((cache.swapped number listener place).tiers.lookup
          (.still ((fleet.listening number listener).moment (cache.swapped number listener place))) key
          (cache.swapped number listener place).tally).1 =
            (cache.tiers.lookup (.still (fleet.moment cache)) key cache.tally).1 := rfl
      rw [Action.acquisitions, Action.acquisitions, same]
      cases (cache.tiers.lookup (.still (fleet.moment cache)) key cache.tally).1 <;> rfl
  | putAll source replaceExisting =>
      rw [Action.acquisitions, Action.acquisitions, find?_listening]
      cases fleet.find? source <;> rfl
  | _ => rfl

theorem writes_listening (fleet : Fleet Key Value) (number : Nat) (listener : Option (Listener Key Value)) (place : Nat)
    (cache : Cache Key Value) (action : Action Key Value) :
    action.writes (fleet.listening number listener) place (cache.swapped number listener place) =
      action.writes fleet place cache := by
  rw [Action.writes, Action.writes, acquisitions_listening, List.any_map]
  rfl

theorem operation?_listening (fleet : Fleet Key Value) (number : Nat) (listener : Option (Listener Key Value))
    (action : Action Key Value) : action.operation? (fleet.listening number listener) = action.operation? fleet := by
  cases action with
  | putAll source replaceExisting =>
      rw [Action.operation?, Action.operation?, find?_listening]
      cases fleet.find? source <;> rfl
  | _ => rfl

theorem written?_listening (fleet : Fleet Key Value) (number : Nat) (listener : Option (Listener Key Value))
    (action : Action Key Value) : action.written? (fleet.listening number listener) = action.written? fleet := by
  cases action with
  | putAll source replaceExisting => exact operation?_listening fleet number listener (.putAll source replaceExisting)
  | _ => rfl

theorem refusal?_listening (fleet : Fleet Key Value) (number : Nat) (listener : Option (Listener Key Value))
    (request : Call Key Value) :
    (fleet.listening number listener).refusal? request =
      (fleet.refusal? request).map (Acquisition.swapped number listener) := by
  have taken : (fleet.listening number listener).acquisitions request =
      (fleet.acquisitions request).map (Acquisition.swapped number listener) := by
    rw [acquisitions, acquisitions, find?_listening]
    cases fleet.find? request.handle with
    | none => rfl
    | some located => exact acquisitions_listening fleet number listener located.1 located.2 request.action
  rw [refusal?, refusal?, taken, List.find?_map]
  rfl

theorem undertaking?_listening (fleet : Fleet Key Value) (number : Nat) (listener : Option (Listener Key Value))
    (request : Call Key Value) :
    (fleet.listening number listener).undertaking? request =
      (fleet.undertaking? request).map (Undertaking.swapped number listener) := by
  rw [undertaking?, undertaking?, refusal?_listening, find?_listening]
  cases fleet.refusal? request with
  | some acquisition => rfl
  | none =>
      cases fleet.find? request.handle with
      | none => rfl
      | some located =>
          simp only [Option.map_none, Option.map_some, writes_listening, written?_listening]
          split
          · rw [Option.map_map]
            rfl
          · rfl

/-- A change of another cache or beside the listener comes to the same before a listener is given and after. -/
theorem adjust_listening (fleet : Fleet Key Value) (listener : Option (Listener Key Value))
    (beside : number = place →
      ∀ cache : Cache Key Value, change { cache with listener } = { change cache with listener }) :
    (fleet.listening number listener).adjust place change = (fleet.adjust place change).listening number listener := by
  have caches : (fleet.caches.modify number fun cache => { cache with listener }).modify place change =
      (fleet.caches.modify place change).modify number fun cache => { cache with listener } := by
    apply Array.ext_getElem?
    intro other
    simp only [Array.getElem?_modify]
    split
    next first =>
      split
      next second =>
        rw [Option.map_map, Option.map_map]
        exact congrArg (fun change => Option.map change _) (funext (beside (second.trans first.symm)))
      next => rfl
    next => rfl
  simp only [listening, adjust, caches]

theorem hold_listening (fleet : Fleet Key Value) (number place : Nat) (listener : Option (Listener Key Value))
    (mode : LockMode) :
    (fleet.listening number listener).hold place mode = (fleet.hold place mode).listening number listener :=
  adjust_listening fleet listener fun _ _ => rfl

theorem record_listening (fleet : Fleet Key Value) (number place : Nat) (listener : Option (Listener Key Value))
    (recording : Metrics.Recording) :
    (fleet.listening number listener).adjust place (Cache.record recording) =
      (fleet.adjust place (Cache.record recording)).listening number listener :=
  adjust_listening fleet listener fun _ _ => rfl

/-! ### Calls while the cache is held -/

/-- A reaction that neither changes holds nor tells listeners of a held cache from each other. -/
structure Deaf (number : Nat) (listener : Option (Listener Key Value)) (react : Reaction Key Value) : Prop where
  same : ∀ calls {fleet}, fleet.Held number →
    react calls (fleet.listening number listener) = (react calls fleet).listening number listener
  holds : ∀ calls fleet, (react calls fleet).holds = fleet.holds

theorem epoch_listening (react : Reaction Key Value) (place : Nat) (other : Option (Listener Key Value))
    (fleet : Fleet Key Value) (number : Nat) (listener : Option (Listener Key Value)) :
    (host react place other).epoch fleet = (host react place other).epoch (fleet.listening number listener) := by
  simp only [host, caches_listening]
  cases fleet.caches[place]? <;> rfl

/-- A lookup calls no listener. -/
theorem lookup_listening (number : Nat) (listener : Option (Listener Key Value)) {key : Key} {found : Lookup Value}
    {after : Fleet Key Value} (looked : cache.tiers.lookup (host react place cache.listener) key fleet = (found, after)) :
    cache.tiers.lookup (host react place (cache.swapped number listener place).listener) key
      (fleet.listening number listener) = (found, after.listening number listener) := by
  have simulates : (host react place none).Simulates (host react place none) fun world image =>
      image = world.listening number listener := by
    constructor
    · rintro world image rfl
      rfl
    · rintro world image rfl
      exact epoch_listening react place none world number listener
    · rintro recording world image rfl
      exact record_listening world number place listener recording
    · exact fun _ => id
  have start : fleet.listening number listener = fleet.listening number listener := rfl
  obtain ⟨same, left⟩ := Tiers.lookup_simulates simulates key cache.tiers start
  have unheard : cache.tiers.lookup (host react place none) key fleet = (found, after) := looked
  rw [unheard] at same left
  exact Prod.ext same.symm left

theorem host_deaf (deaf : Deaf number listener react) (place : Nat) (other : Option (Listener Key Value)) :
    (host react place other).Simulates (host react place other) fun world image =>
      image = world.listening number listener ∧ world.Held number where
  clock := by
    rintro world image ⟨rfl, -⟩
    rfl
  epoch := by
    rintro world image ⟨rfl, -⟩
    exact epoch_listening react place other world number listener
  record := by
    rintro recording world image ⟨rfl, held⟩
    exact ⟨record_listening world number place listener recording, held.of_holds (holds_record world place recording)⟩
  notify := by
    rintro event world image ⟨rfl, held⟩
    cases other with
    | none => exact ⟨rfl, held⟩
    | some hearing =>
        have noted : (world.note (.event place event)).Held number := held.of_holds rfl
        have told := deaf.same (hearing.reacts world.heard event) noted
        have silent := deaf.same (hearing.reacts world.heard event) held
        simp only [host]
        split
        · exact ⟨told, noted.of_holds (deaf.holds _ _)⟩
        · exact ⟨silent, held.of_holds (deaf.holds _ _)⟩

theorem work_deaf (deaf : Deaf number listener react) (held : fleet.Held number)
    (found : fleet.caches[place]? = some cache) (free : cache.hold = .free) (operation : Operation Key Value) :
    work react place (cache.swapped number listener place) operation (fleet.listening number listener) =
      ((work react place cache operation fleet).1,
        (work react place cache operation fleet).2.listening number listener) := by
  have apart := held.ne found free
  have begun := held_hold (.inr held) found .exclusive
  obtain ⟨answered, tiers, left, -⟩ := Tiers.operateHeld_simulates (host_deaf deaf place cache.listener) operation
    cache.tiers (show (fleet.hold place .exclusive).listening number listener = _ ∧ _ from ⟨rfl, begun⟩)
  rw [Cache.swapped_of_ne apart, work, work, hold_listening]
  refine Prod.ext answered.symm ?_
  dsimp only
  rw [left, ← tiers]
  exact adjust_listening _ listener fun _ _ => rfl

variable [BEq Value]

theorem Outcome.deaf (deaf : Deaf number listener react) (found : fleet.caches[place]? = some cache)
    (held : action.writes fleet place cache = true → fleet.Held number)
    (quiet : ∀ value calls, action ≠ .containsValue value calls)
    (reached : Outcome react fleet place cache action outcome) :
    Outcome react (fleet.listening number listener) place (cache.swapped number listener place) action
      (outcome.1, outcome.2.listening number listener) := by
  cases reached with
  | told reported =>
      refine .told (Eq.trans ?_ reported)
      cases action <;> rfl
  | unknownSource missing => exact .unknownSource (by rw [find?_listening, missing]; rfl)
  | hit looked => exact .hit (lookup_listening number listener looked)
  | miss looked => exact .miss (lookup_listening number listener looked)
  | @worked _ operation asked free writes =>
      have same := work_deaf deaf (held writes) found free operation
      have demanded := (operation?_listening fleet number listener action).trans asked
      have writing := (writes_listening fleet number listener place cache action).trans writes
      have reached := @Outcome.worked Key Value _ _ react (fleet.listening number listener) place
        (cache.swapped number listener place) action operation demanded free writing
      rw [same] at reached
      exact reached
  | @listened installed free =>
      have same := work_deaf deaf (held rfl) found free .purgeSoft
      have reached := @Outcome.listened Key Value _ _ react (fleet.listening number listener) place
        (cache.swapped number listener place) installed free
      rw [same, adjust_listening _ listener fun here => absurd here ((held rfl).ne found free)] at reached
      exact reached
  | searched => exact absurd rfl (quiet _ _)
  | reclaimed =>
      have also := @Outcome.reclaimed Key Value _ _ react (fleet.listening number listener) place
        (cache.swapped number listener place)
      rw [adjust_listening fleet listener fun _ _ => rfl] at also
      exact also
  | reset =>
      have also := @Outcome.reset Key Value _ _ react (fleet.listening number listener) place
        (cache.swapped number listener place)
      rw [adjust_listening fleet listener fun _ _ => rfl] at also
      exact also
  | cloned => exact .cloned
  | advanced => exact .advanced

/-- A search that finds its cache in reach calls no listener. -/
theorem searchValue_shared (shared : cache.hold.admits .shared = true) (value : Value)
    (atFirst : Fleet Key Value → Fleet Key Value) (fleet : Fleet Key Value) :
    searchValue react place cache value atFirst fleet =
      (.ok (cache.tiers.searchValue (host react place none) atFirst value (fleet.hold place .shared)).1,
        (cache.tiers.searchValue (host react place none) atFirst value (fleet.hold place .shared)).2.adjust place
          fun other => { other with hold := cache.hold }) := by
  rw [searchValue, shared]
  rfl

/-- A search comes to the same with another listener of any cache if the calls made in its middle do. -/
theorem search_deaf {calls : List (Call Key Value)} (sought : fleet.search? request = some (place, cache, calls))
    (during : performEach react calls ((fleet.hold place .shared).listening number listener) =
      (performEach react calls (fleet.hold place .shared)).listening number listener) :
    perform react request (fleet.listening number listener) =
      ((perform react request fleet).1, (perform react request fleet).2.listening number listener) := by
  obtain ⟨granted, located, value, asked, searches, rfl⟩ := search?_eq_some sought
  obtain ⟨handle, action⟩ := request
  obtain rfl : action = .containsValue value asked := searches
  rw [Call.handle] at located
  have also := find?_listening fleet number listener handle
  rw [located] at also
  have shared : cache.hold.admits .shared = true := granted_of_not_refused located granted _ List.mem_cons_self
  let unheard := host react place none
  have epoch : ∀ {world image : Fleet Key Value}, image = world.listening number listener →
      unheard.epoch world = unheard.epoch image := by
    rintro world image rfl
    exact epoch_listening react place none world number listener
  have clock : ∀ {world image : Fleet Key Value}, image = world.listening number listener →
      unheard.clock world = unheard.clock image := by
    rintro world image rfl
    rfl
  have moment : unheard.moment (fleet.hold place .shared) = fleet.moment cache :=
    @moment_hold Key Value _ fleet place cache react (find?_eq_some_iff.mp located).2 .shared
  have first : (cache.tiers.entries (unheard.moment (fleet.hold place .shared))).isEmpty = false →
      performEach react asked ((fleet.hold place .shared).listening number listener) =
        (performEach react asked (fleet.hold place .shared)).listening number listener := by
    rw [moment]
    intro stored
    rw [stored] at during
    exact during
  obtain ⟨same, left⟩ := searchValue_simulates clock epoch value cache.tiers rfl first
  rw [perform, perform, located, also]
  dsimp only [Option.map_some]
  rw [searchValue_shared shared, searchValue_shared (show (cache.swapped number listener place).hold.admits .shared = true
    from shared), hold_listening]
  have released := congrArg (fun world : Fleet Key Value =>
    world.adjust place fun other => { other with hold := cache.hold }) left
  exact Prod.ext (congrArg Reply.flag same.symm) (released.trans (adjust_listening _ listener fun _ _ => rfl))

/-- While a cache is held, or if no writer begins, a call comes to the same with another listener in its place. -/
theorem perform_deaf (deaf : Deaf number listener react)
    (held : ∀ undertaking, fleet.undertaking? request = some undertaking → fleet.Held number)
    (during : ∀ {place cache calls}, fleet.search? request = some (place, cache, calls) →
      performEach react calls ((fleet.hold place .shared).listening number listener) =
        (performEach react calls (fleet.hold place .shared)).listening number listener) :
    perform react request (fleet.listening number listener) =
      ((perform react request fleet).1, (perform react request fleet).2.listening number listener) := by
  have refusals := refusal?_listening fleet number listener request
  have places := find?_listening fleet number listener request.handle
  cases refused : fleet.refusal? request with
  | some acquisition =>
      rw [refused] at refusals
      rw [perform_refused refused, perform_refused refusals]
      exact Prod.ext rfl (record_listening fleet number acquisition.number listener .lockTimeout)
  | none =>
      rw [refused] at refusals
      cases located : fleet.find? request.handle with
      | none =>
          rw [located] at places
          obtain ⟨handle, action⟩ := request
          rw [Call.handle] at located places
          rw [perform, perform, located, places]
          rfl
      | some found =>
          obtain ⟨place, cache⟩ := found
          rw [located] at places
          cases sought : fleet.search? request with
          | some searched => exact search_deaf sought (during sought)
          | none =>
              have quiet : ∀ value calls, request.action ≠ .containsValue value calls := by
                intro value calls asked
                rw [search?, refused, located, asked] at sought
                cases sought
              have stored := (find?_eq_some_iff.mp located).2
              have reached := outcome_of_granted refused located react
              have busy : request.action.writes fleet place cache = true → fleet.Held number := by
                intro writes
                obtain ⟨-, operation, asked, -⟩ := reached.worked_of_writes stored writes
                have taken := undertaking?_of_writes refused located writes
                rw [asked] at taken
                exact held _ taken
              have also := outcome_of_granted refusals places react
              exact also.unique (find?_eq_some_iff.mp places).2 (reached.deaf deaf stored busy quiet) quiet

theorem answer_deaf (performed : perform react request (fleet.listening number listener) =
      ((perform react request fleet).1, (perform react request fleet).2.listening number listener)) :
    answer react request (fleet.listening number listener) = (answer react request fleet).listening number listener := by
  rw [answer, answer, performed]
  rfl

theorem performEach_deaf (deaf : Deaf number listener react) :
    (calls : List (Call Key Value)) → ∀ {fleet : Fleet Key Value}, fleet.Held number →
      performEach react calls (fleet.listening number listener) =
        (performEach react calls fleet).listening number listener
  | [], _, _ => by rw [performEach, performEach]
  | request :: rest, fleet, held => by
      have during : ∀ {place cache calls}, fleet.search? request = some (place, cache, calls) →
          performEach react calls ((fleet.hold place .shared).listening number listener) =
            (performEach react calls (fleet.hold place .shared)).listening number listener := by
        intro place cache calls sought
        have smaller := sizeOf_search sought
        have found := (find?_eq_some_iff.mp (search?_eq_some sought).2.1).2
        exact performEach_deaf deaf calls (held_hold (.inr held) found .shared)
      have answered := answer_deaf (perform_deaf deaf (fun _ _ => held) during)
      have kept : (answer react request fleet).holds = fleet.holds := answer_related holds_closed deaf.holds request fleet
      rw [performEach, performEach]
      show performEach react rest (answer react request _) = _
      rw [answered]
      exact performEach_deaf deaf rest (held.of_holds kept)
termination_by calls => sizeOf calls
decreasing_by
  all_goals simp only [List.cons.sizeOf_spec]
  all_goals omega

theorem reactTo_deaf (number : Nat) (listener : Option (Listener Key Value)) (depth : Nat) :
    Deaf number listener (reactTo depth) := by
  have holds := reactTo_related (@holds_closed Key Value _ _) depth
  induction depth with
  | zero => exact ⟨fun _ _ _ => rfl, holds⟩
  | succ depth ih =>
      have deaf := ih (reactTo_related holds_closed depth)
      exact ⟨fun calls _ held => performEach_deaf deaf calls held, holds⟩

/-- A call that takes nothing for itself comes to the same, whoever listens to its cache. -/
theorem call_listening (calm : fleet.undertaking? request = none)
    (located : fleet.find? request.handle = some (number, cache)) (listener : Option (Listener Key Value)) :
    (fleet.listening number listener).call request =
      ((fleet.call request).1, (fleet.call request).2.listening number listener) := by
  have deaf := reactTo_deaf number listener fleet.caches.size
  have size : (fleet.listening number listener).caches.size = fleet.caches.size := Array.size_modify ..
  rw [call, call, size]
  refine perform_deaf deaf ?_ ?_
  · intro undertaking taken
    rw [calm] at taken
    cases taken
  · intro place other calls sought
    obtain ⟨-, here, -⟩ := search?_eq_some sought
    obtain ⟨rfl, rfl⟩ := Prod.mk.inj (Option.some.inj (here.symm.trans located))
    exact performEach_deaf deaf calls (held_hold (.inl rfl) (find?_eq_some_iff.mp located).2 .shared)

end Fleet

end LayeredCache
