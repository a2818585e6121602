import LayeredCache.Proofs.Fleet.Acquisition

/-! Everything that a call can do. It is refused a hold and counts a timeout; or it takes the holds that it needs, and
then it tells what it reads, or carries out one operation on the tiers of its cache, or makes the calls that come in the
middle of a search, or changes one thing beside the tiers. -/

set_option autoImplicit false

namespace LayeredCache

variable {World Key Value Result : Type} [DecidableEq Key]

/-- The operation that an action carries out when it writes. To install a listener takes no more than a purge. -/
def Action.written? (fleet : Fleet Key Value) : Action Key Value → Option (Operation Key Value)
  | .setListener _ => some .purgeSoft
  | action => action.operation? fleet

/-- How an action replies when it writes. -/
def Action.render (answer : Answer Value) : Action Key Value → Reply Key Value
  | .setListener _ => .done
  | _ => answer.reply

/-- What an action changes of its cache beside the tiers when it writes. -/
def Action.install : Action Key Value → Cache Key Value → Cache Key Value
  | .setListener listener, cache => { cache with listener }
  | _, cache => cache

namespace Fleet

variable {fleet : Fleet Key Value} {number : Nat} {cache : Cache Key Value} {react : Reaction Key Value}

/-- A fleet one of whose caches is held. -/
def hold (fleet : Fleet Key Value) (number : Nat) (mode : LockMode) : Fleet Key Value :=
  fleet.adjust number fun cache => { cache with hold := .held mode }

/-- What a writer leaves behind that found its cache free. -/
def work (react : Reaction Key Value) (number : Nat) (cache : Cache Key Value)
    (operation : Operation Key Value) (fleet : Fleet Key Value) : Answer Value × Fleet Key Value :=
  let worked := Tiers.operateHeld (host react number cache.listener) operation cache.tiers
    (fleet.hold number .exclusive)
  (worked.1, worked.2.2.adjust number fun cache => { cache with tiers := worked.2.1, hold := .free })

/-- A writer puts the tiers that it worked on back, and lets its cache go. -/
theorem caches_work (react : Reaction Key Value) (cache : Cache Key Value) (operation : Operation Key Value)
    (fleet : Fleet Key Value) (number other : Nat) :
    let worked := Tiers.operateHeld (host react number cache.listener) operation cache.tiers
      (fleet.hold number .exclusive)
    (work react number cache operation fleet).2.caches[other]? =
      if number = other then
        worked.2.2.caches[other]?.map fun cache => { cache with tiers := worked.2.1, hold := .free }
      else worked.2.2.caches[other]? :=
  caches_adjust _ number other _

theorem adjust_id (fleet : Fleet Key Value) (number : Nat) : fleet.adjust number (fun cache => cache) = fleet := by
  have caches : fleet.caches.modify number (fun cache => cache) = fleet.caches := by
    apply Array.ext_getElem?
    intro other
    rw [Array.getElem?_modify, Option.map_id', ite_self]
  rw [adjust, caches]

/-- What a reader leaves behind that searched for a value, having made calls in the middle or not. -/
def search (during : Fleet Key Value → Fleet Key Value) (number : Nat) (cache : Cache Key Value)
    (fleet : Fleet Key Value) : Fleet Key Value :=
  (during (fleet.hold number .shared)).adjust number fun other => { other with hold := cache.hold }

/-- What a call on a cache comes to that is not refused. -/
inductive Outcome [BEq Value] (react : Reaction Key Value) (fleet : Fleet Key Value) (number : Nat)
    (cache : Cache Key Value) : Action Key Value → Reply Key Value × Fleet Key Value → Prop where
  | told {action : Action Key Value} {reply : Reply Key Value}
      (reported : cache.report? fleet.clock action = some reply) : Outcome react fleet number cache action (reply, fleet)
  | unknownSource {source : Nat} {replaceExisting : Bool} (missing : fleet.find? source = none) :
      Outcome react fleet number cache (.putAll source replaceExisting) (.unknownHandle source, fleet)
  | hit {key : Key} {value : Value} {after : Fleet Key Value}
      (looked : cache.tiers.lookup (host react number cache.listener) key fleet = (.hit value, after)) :
      Outcome react fleet number cache (.get key) (.value (some value), after)
  | miss {key : Key} {after : Fleet Key Value}
      (looked : cache.tiers.lookup (host react number cache.listener) key fleet = (.miss, after)) :
      Outcome react fleet number cache (.get key) (.value none, after)
  | worked {action : Action Key Value} {operation : Operation Key Value}
      (asked : action.operation? fleet = some operation) (free : cache.hold = .free)
      (writes : action.writes fleet number cache = true) :
      Outcome react fleet number cache action
        ((work react number cache operation fleet).1.reply, (work react number cache operation fleet).2)
  | listened {listener : Option (Listener Key Value)} (free : cache.hold = .free) :
      Outcome react fleet number cache (.setListener listener)
        (.done, (work react number cache .purgeSoft fleet).2.adjust number fun cache => { cache with listener })
  | searched {value : Value} {calls : List (Call Key Value)} {found : Bool} (shared : cache.hold.admits .shared = true) :
      Outcome react fleet number cache (.containsValue value calls)
        (.flag found, search (if (cache.tiers.entries (fleet.moment cache)).isEmpty then id else performEach react calls)
          number cache fleet)
  | reclaimed :
      Outcome react fleet number cache .reclaim
        (.done, fleet.adjust number fun cache => { cache with epoch := cache.epoch + 1 })
  | reset :
      Outcome react fleet number cache .resetMetrics
        (.done, fleet.adjust number fun cache => { cache with tally := .zero })
  | cloned :
      Outcome react fleet number cache .clone
        (.number fleet.handles.length, { fleet with handles := fleet.handles ++ [number] })
  | advanced {nanoseconds : Nat} :
      Outcome react fleet number cache (.advance nanoseconds)
        (.done, { fleet with clock := fleet.clock + nanoseconds })

theorem free_of_granted {operation : String}
    (granted : (⟨number, cache, operation, .exclusive⟩ : Acquisition Key Value).granted = true) :
    cache.hold = .free := by
  rw [Acquisition.granted] at granted
  dsimp only at granted
  cases held : cache.hold with
  | free => rfl
  | held mode =>
      rw [held] at granted
      cases mode <;> cases granted

theorem exclusively_of_free (free : cache.hold = .free) {operation : Operation Key Value}
    {body : Host (Fleet Key Value) Key Value → Tiers Key Value → Fleet Key Value →
      Result × Tiers Key Value × Fleet Key Value}
    (same : ∀ host tiers fleet,
      (Tiers.operateHeld host operation tiers fleet).2 = (body host tiers fleet).2) (name : String) :
    exclusively react number cache name body fleet =
      (.ok (body (host react number cache.listener) cache.tiers (fleet.hold number .exclusive)).1,
        (work react number cache operation fleet).2) := by
  rw [exclusively, work, free, same]
  rfl

/-- A writer purges, and then does what it is asked for. -/
theorem operateHeld_of_carriesOut {operation : Operation Key Value} (kept : operation ≠ .purgeSoft)
    {wrap : Result → Answer Value}
    {body : Host (Fleet Key Value) Key Value → Tiers Key Value → Fleet Key Value →
      Result × Tiers Key Value × Fleet Key Value}
    (carries : CarriesOut operation wrap body) (host : Host (Fleet Key Value) Key Value)
    (tiers : Tiers Key Value) (fleet : Fleet Key Value) :
    Tiers.operateHeld host operation tiers fleet = (purgingFirst body host tiers fleet).map wrap id := by
  rcases Tiers.operateHeld_cases host operation tiers fleet with ⟨purges, -⟩ | purged
  · exact absurd purges kept
  · rw [purged, Tiers.operatePurged, carries]
    rfl

theorem isEmpty_entries (tiers : Tiers Key Value) (moment : Moment) :
    (tiers.entries moment).isEmpty =
      ((tiers.pinned.toList ++ tiers.primary.toList).isEmpty && (tiers.soft.live moment).isEmpty) := by
  rw [Bool.eq_iff_iff]
  simp [Tiers.entries, List.isEmpty_iff, and_assoc]

/-- Something happens in a search if there is an entry to compare. -/
theorem searchValue_snd [BEq Value] (host : Host World Key Value) (atFirst : World → World)
    (value : Value) (tiers : Tiers Key Value) (world : World) :
    (tiers.searchValue host atFirst value world).2 =
      (if (tiers.entries (host.moment world)).isEmpty then id else atFirst) world := by
  rw [isEmpty_entries]
  cases early : (tiers.pinned.toList ++ tiers.primary.toList).isEmpty with
  | false =>
      simp only [Tiers.searchValue, early, Bool.false_eq_true, ↓reduceIte, Bool.false_and]
      split <;> rfl
  | true =>
      have nothing := List.isEmpty_iff.mp early
      simp only [Tiers.searchValue, nothing, List.isEmpty_nil, List.any_nil, Bool.false_eq_true, ↓reduceIte,
        Bool.true_and]
      change (if !(tiers.soft.live (host.moment world)).isEmpty then atFirst world else world) = _
      cases (tiers.soft.live (host.moment world)).isEmpty <;> rfl

theorem moment_hold (found : fleet.caches[number]? = some cache) {mode : LockMode} :
    (host react number cache.listener).moment (fleet.hold number mode) = fleet.moment cache := by
  simp only [Host.moment, host, hold, caches_adjust, ↓reduceIte, found]
  rfl

variable [BEq Value]

theorem exclusively_outcome (free : cache.hold = .free) {action : Action Key Value}
    (writes : action.writes fleet number cache = true)
    (operation : Operation Key Value) (asked : action.operation? fleet = some operation)
    (wrap : Result → Answer Value) {render : Result → Reply Key Value}
    (rendered : ∀ result, render result = (wrap result).reply)
    {body : Host (Fleet Key Value) Key Value → Tiers Key Value → Fleet Key Value →
      Result × Tiers Key Value × Fleet Key Value}
    (carries : ∀ host tiers fleet,
      Tiers.operateHeld host operation tiers fleet = (body host tiers fleet).map wrap id) (name : String) :
    Outcome react fleet number cache action
      (reply render (exclusively react number cache name body fleet)) := by
  have same : ∀ host tiers fleet,
      (Tiers.operateHeld host operation tiers fleet).2 = (body host tiers fleet).2 := by
    intro host tiers fleet
    rw [carries]
    rfl
  have outcome := @Outcome.worked Key Value _ _ react fleet number cache action operation asked free writes
  have answered : (work react number cache operation fleet).1 =
      wrap (body (host react number cache.listener) cache.tiers (fleet.hold number .exclusive)).1 := by
    rw [work, carries]
    rfl
  rw [exclusively_of_free free same, reply, rendered, ← answered]
  exact outcome

theorem write_outcome (free : cache.hold = .free) {action : Action Key Value}
    (writes : action.writes fleet number cache = true) (operation : Operation Key Value)
    (asked : action.operation? fleet = some operation) (kept : operation ≠ .purgeSoft)
    (wrap : Result → Answer Value) {render : Result → Reply Key Value}
    (rendered : ∀ result, render result = (wrap result).reply)
    {body : Host (Fleet Key Value) Key Value → Tiers Key Value → Fleet Key Value →
      Result × Tiers Key Value × Fleet Key Value}
    (carries : CarriesOut operation wrap body) (name : String) :
    Outcome react fleet number cache action (reply render (write react number cache name body fleet)) :=
  exclusively_outcome free writes operation asked wrap rendered (operateHeld_of_carriesOut kept carries) name

theorem get_outcome (found : fleet.caches[number]? = some cache) {key : Key}
    (granted : ∀ acquisition ∈ (Action.get key).acquisitions fleet number cache,
      acquisition.granted = true) :
    Outcome react fleet number cache (.get key) (reply .value (get react number cache key fleet)) := by
  have shared : cache.hold.admits .shared = true := granted _ List.mem_cons_self
  have answered := @lookup_host Key Value _ fleet number cache react found key
  rw [get, shared]
  simp only [↓reduceIte]
  cases looked : cache.tiers.lookup (host react number cache.listener) key fleet with
  | mk answer after =>
      cases answer with
      | hit value => exact .hit looked
      | miss => exact .miss looked
      | needsWrite =>
          rw [looked] at answered
          have taken : (⟨number, cache, "get", .exclusive⟩ : Acquisition Key Value) ∈
              (Action.get key).acquisitions fleet number cache := by
            rw [Action.acquisitions, ← answered]
            exact List.mem_cons_of_mem _ List.mem_cons_self
          have free := free_of_granted (granted _ taken)
          have writes : (Action.get key).writes fleet number cache = true :=
            List.any_eq_true.mpr ⟨_, taken, rfl⟩
          obtain ⟨-, rfl⟩ :=
            Prod.mk.inj ((Tiers.lookup_of_needsWrite (congrArg Prod.fst looked)).symm.trans looked)
          exact write_outcome free writes (.get key) rfl (by simp) .value (fun _ => rfl) (fun _ _ _ => rfl) _

theorem reply_searchValue (found : fleet.caches[number]? = some cache) (shared : cache.hold.admits .shared = true)
    (value : Value) (calls : List (Call Key Value)) :
    ∃ found, reply .flag (searchValue react number cache value (performEach react calls) fleet) =
      (.flag found, search (if (cache.tiers.entries (fleet.moment cache)).isEmpty then id else performEach react calls)
        number cache fleet) := by
  have during := searchValue_snd (host react number cache.listener) (performEach react calls) value
    cache.tiers (fleet.hold number .shared)
  rw [moment_hold found] at during
  rw [searchValue, shared]
  simp only [↓reduceIte]
  rw [← hold]
  revert during
  generalize cache.tiers.searchValue _ _ value _ = searched
  obtain ⟨found, after⟩ := searched
  rintro rfl
  exact ⟨found, rfl⟩

theorem putAll_outcome {source : Nat} {replaceExisting : Bool}
    (granted : ∀ acquisition ∈ (Action.putAll source replaceExisting).acquisitions fleet number cache,
      acquisition.granted = true)
    {origin : Nat × Cache Key Value} (sourced : fleet.find? source = some origin) :
    Outcome react fleet number cache (.putAll source replaceExisting)
      (reply (fun _ => .done) (putAll react number cache origin.1 origin.2 replaceExisting fleet)) := by
  rw [Action.acquisitions, sourced] at granted
  have shared : origin.2.hold.admits .shared = true := granted _ List.mem_cons_self
  have free := free_of_granted (granted _ (List.mem_cons_of_mem _ List.mem_cons_self))
  rw [putAll, shared]
  simp only [↓reduceIte]
  refine write_outcome free ?_ (.putAll _ replaceExisting) ?_ (by simp) (fun _ => .done) (fun _ => rfl)
    (fun _ _ _ => rfl) _
  · rw [Action.writes, Action.acquisitions, sourced]
    rfl
  · rw [Action.operation?, sourced]
    rfl

/-- A call that takes every hold that it needs has one of the outcomes. -/
theorem perform_outcome {handle : Nat} {action : Action Key Value}
    (located : fleet.find? handle = some (number, cache))
    (granted : ∀ acquisition ∈ action.acquisitions fleet number cache, acquisition.granted = true) :
    Outcome react fleet number cache action (perform react (.mk handle action) fleet) := by
  have found := (find?_eq_some_iff.mp located).2
  rw [perform, located]
  cases action with
  | put key value | putShared key value =>
      have free := free_of_granted (granted _ List.mem_cons_self)
      exact write_outcome free rfl (.put key value) rfl (by simp) .value (fun _ => rfl) (fun _ _ _ => rfl) _
  | get key => exact get_outcome found granted
  | remove key =>
      have free := free_of_granted (granted _ List.mem_cons_self)
      exact write_outcome free rfl (.remove key) rfl (by simp) .value (fun _ => rfl) (fun _ _ _ => rfl) _
  | pin key =>
      have free := free_of_granted (granted _ List.mem_cons_self)
      exact write_outcome free rfl (.pin key) rfl (by simp) .flag (fun _ => rfl) (fun _ _ _ => rfl) _
  | unpin key =>
      have free := free_of_granted (granted _ List.mem_cons_self)
      exact write_outcome free rfl (.unpin key) rfl (by simp) .flag (fun _ => rfl) (fun _ _ _ => rfl) _
  | clear =>
      have free := free_of_granted (granted _ List.mem_cons_self)
      exact write_outcome free rfl .clear rfl (by simp) (fun _ => .done) (fun _ => rfl) (fun _ _ _ => rfl) _
  | setCacheSize capacity =>
      have free := free_of_granted (granted _ List.mem_cons_self)
      exact write_outcome free rfl (.setCacheSize capacity) rfl (by simp) (fun _ => .done) (fun _ => rfl)
        (fun _ _ _ => rfl) _
  | setSoftReferenceSize capacity =>
      have free := free_of_granted (granted _ List.mem_cons_self)
      exact write_outcome free rfl (.setSoftReferenceSize capacity) rfl (by simp) (fun _ => .done) (fun _ => rfl)
        (fun _ _ _ => rfl) _
  | putAll source replaceExisting =>
      dsimp only
      cases sourced : fleet.find? source with
      | none => exact .unknownSource sourced
      | some origin => exact putAll_outcome granted sourced
  | purgeSoft =>
      have free := free_of_granted (granted _ List.mem_cons_self)
      exact exclusively_outcome free rfl .purgeSoft rfl .count (fun _ => rfl) (fun _ _ _ => rfl) _
  | setListener listener =>
      have free := free_of_granted (granted _ List.mem_cons_self)
      have purges : ∀ (host : Host (Fleet Key Value) Key Value) (tiers : Tiers Key Value)
          (fleet : Fleet Key Value), (Tiers.operateHeld host .purgeSoft tiers fleet).2 =
            (purgingFirst (fun _ tiers fleet => ((), tiers, fleet)) host tiers fleet).2 := fun _ _ _ => rfl
      dsimp only
      rw [write, exclusively_of_free free purges]
      exact .listened free
  | containsValue value calls =>
      have shared := granted _ List.mem_cons_self
      obtain ⟨flag, searched⟩ := @reply_searchValue Key Value _ fleet number cache react _ found shared value calls
      dsimp only
      rw [searched]
      exact .searched shared
  | containsKey | isPinned | size | isEmpty | cacheSize | softReferenceSize | pinnedKeys | keys
  | entries | audit | metrics | exposition =>
      have shared : cache.hold.admits .shared = true := granted _ List.mem_cons_self
      simp only [read, shared, ↓reduceIte]
      exact .told rfl
  | concurrencyLevel | isLru | evictionOrder | lockTimeout | epoch | debug | debugIndented =>
      exact .told rfl
  | reclaim => exact .reclaimed
  | resetMetrics =>
      rw [Cache.resetMetrics_eq]
      exact .reset
  | clone => exact .cloned
  | advance nanoseconds => exact .advanced

theorem Outcome.not_refused {action : Action Key Value} {outcome : Reply Key Value × Fleet Key Value}
    (reached : Outcome react fleet number cache action outcome) (timeout : LockTimeout) :
    outcome.1 ≠ .refused timeout := by
  cases reached with
  | @told action reply reported =>
      rintro rfl
      cases action <;> cases reported
  | @worked _ operation asked free =>
      dsimp only
      cases (work react number cache operation fleet).1 <;> exact nofun
  | unknownSource | hit | miss | listened | searched | reclaimed | reset | cloned | advanced => exact nofun

/-- Where no hold is refused, no timeout is reported. -/
theorem perform_granted {request : Call Key Value} (granted : fleet.refusal? request = none)
    (timeout : LockTimeout) : (perform react request fleet).1 ≠ .refused timeout := by
  obtain ⟨handle, action⟩ := request
  cases located : fleet.find? handle with
  | none =>
      rw [perform, located]
      simp
  | some place =>
      obtain ⟨number, cache⟩ := place
      exact (perform_outcome located (granted_of_not_refused located granted)).not_refused timeout

/-- A call that takes its cache for itself finds it free, does what a writer does, and at most installs a listener. -/
theorem Outcome.worked_of_writes (found : fleet.caches[number]? = some cache) {action : Action Key Value}
    {outcome : Reply Key Value × Fleet Key Value} (reached : Outcome react fleet number cache action outcome)
    (writes : action.writes fleet number cache = true) :
    cache.hold = .free ∧ ∃ operation, action.written? fleet = some operation ∧
      outcome.1 = action.render (work react number cache operation fleet).1 ∧
      outcome.2 = (work react number cache operation fleet).2.adjust number action.install := by
  cases reached with
  | told reported =>
      cases action with
      | containsKey | isPinned | containsValue | size | isEmpty | cacheSize | softReferenceSize | pinnedKeys
      | keys | entries | audit | metrics | exposition | concurrencyLevel | isLru | evictionOrder | lockTimeout
      | epoch | debug | debugIndented => exact absurd writes Bool.false_ne_true
      | _ => cases reported
  | unknownSource missing =>
      rw [Action.writes, Action.acquisitions, missing] at writes
      cases writes
  | @hit key value after looked =>
      have answered := @lookup_host Key Value _ fleet number cache react found key
      rw [looked] at answered
      rw [Action.writes, Action.acquisitions, ← answered] at writes
      exact absurd writes Bool.false_ne_true
  | @miss key after looked =>
      have answered := @lookup_host Key Value _ fleet number cache react found key
      rw [looked] at answered
      rw [Action.writes, Action.acquisitions, ← answered] at writes
      exact absurd writes Bool.false_ne_true
  | @worked _ operation asked free =>
      refine ⟨free, operation, ?_⟩
      cases action with
      | setListener => cases asked
      | _ => exact ⟨asked, rfl, (adjust_id _ number).symm⟩
  | listened free => exact ⟨free, .purgeSoft, rfl, rfl, rfl⟩
  | searched | reclaimed | reset | cloned | advanced => exact absurd writes Bool.false_ne_true

end Fleet

end LayeredCache
