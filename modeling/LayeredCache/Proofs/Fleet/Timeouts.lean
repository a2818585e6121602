import LayeredCache.Proofs.Fleet.Outcome

/-! A call times out exactly when a hold that it takes cannot be had, and then nothing has happened but that the cache
whose hold was refused has counted the timeout. -/

set_option autoImplicit false

namespace LayeredCache.Fleet

variable {Key Value : Type} [DecidableEq Key] {fleet after : Fleet Key Value} {number : Nat}
  {cache : Cache Key Value} {react : Reaction Key Value}

/-- From one fleet to the next, one cache has counted a timeout, and nothing else has happened. -/
structure CountedTimeout (number : Nat) (before after : Fleet Key Value) : Prop where
  handles : after.handles = before.handles
  clock : after.clock = before.clock
  journal : after.journal = before.journal
  size : after.caches.size = before.caches.size
  caches : ∀ (other : Nat) (cache : Cache Key Value), before.caches[other]? = some cache →
    ∃ tally, after.caches[other]? = some { cache with tally } ∧
      ∀ counter, tally.count counter =
        if other = number ∧ counter = .lockTimeouts then cache.tally.count counter + 1
        else cache.tally.count counter

theorem counted_timeout (fleet : Fleet Key Value) (number : Nat) :
    CountedTimeout number fleet (fleet.adjust number (Cache.record .lockTimeout)) where
  handles := rfl
  clock := rfl
  journal := rfl
  size := Array.size_modify ..
  caches other cache found := by
    rw [caches_adjust]
    by_cases same : number = other
    · refine ⟨cache.tally.record .lockTimeout, ?_, ?_⟩
      · rw [if_pos same, found]
        rfl
      · intro counter
        refine (Metrics.Tally.count_change cache.tally .lockTimeouts counter .increment).trans ?_
        simp only [same, true_and, Metrics.Count.apply]
    · refine ⟨cache.tally, ?_, ?_⟩
      · rw [if_neg same, found]
      · intro counter
        rw [if_neg fun both => same both.1.symm]

/-- A hold that a call takes is a hold of a cache of the fleet. -/
theorem cache_of_acquisition {request : Call Key Value} {acquisition : Acquisition Key Value}
    (taken : acquisition ∈ fleet.acquisitions request) :
    fleet.caches[acquisition.number]? = some acquisition.cache := by
  rw [acquisitions] at taken
  split at taken
  next => cases taken
  next number cache located =>
    have found := (find?_eq_some_iff.mp located).2
    obtain ⟨handle, action⟩ := request
    dsimp only [Call.action] at taken
    cases action with
    | get key =>
        rcases List.mem_cons.mp taken with rfl | later
        · exact found
        · split at later
          · obtain rfl := List.mem_singleton.mp later
            exact found
          · cases later
          · cases later
    | putAll source replaceExisting =>
        rw [Action.acquisitions] at taken
        split at taken
        next => cases taken
        next sourceNumber sourceCache sourced =>
          rcases List.mem_cons.mp taken with rfl | later
          · exact (find?_eq_some_iff.mp sourced).2
          · obtain rfl := List.mem_singleton.mp later
            exact found
    | concurrencyLevel | isLru | evictionOrder | lockTimeout | reclaim | epoch | resetMetrics | debug
    | debugIndented | clone | advance => cases taken
    | _ =>
        obtain rfl := List.mem_singleton.mp taken
        exact found

variable [BEq Value]

/-- A call is refused if and only if a hold that it takes cannot be had. It then reports the first such hold, the cache
of that hold counts one timeout, and nothing else happens, whatever the reaction to events would have been. -/
theorem refused_exactly_and_without_trace (react : Reaction Key Value) (request : Call Key Value)
    (fleet : Fleet Key Value) :
    ((∃ timeout, (perform react request fleet).1 = .refused timeout) ↔
        ∃ acquisition ∈ fleet.acquisitions request, acquisition.granted = false) ∧
      ∀ timeout, (perform react request fleet).1 = .refused timeout →
        (∀ other : Reaction Key Value, perform other request fleet = perform react request fleet) ∧
          ∃ acquisition, fleet.refusal? request = some acquisition ∧
            fleet.caches[acquisition.number]? = some acquisition.cache ∧
            timeout = acquisition.timeout ∧
            CountedTimeout acquisition.number fleet (perform react request fleet).2 := by
  cases first : fleet.refusal? request with
  | none =>
      have granted := List.find?_eq_none.mp first
      refine ⟨⟨?_, ?_⟩, ?_⟩
      · rintro ⟨timeout, reported⟩
        exact absurd reported (perform_granted first timeout)
      · rintro ⟨acquisition, taken, refused⟩
        exact absurd (by rw [refused]; rfl) (granted acquisition taken)
      · intro timeout reported
        exact absurd reported (perform_granted first timeout)
  | some acquisition =>
      have same : ∀ other : Reaction Key Value, perform other request fleet = fleet.refusedBy acquisition :=
        fun _ => perform_refused first
      have taken := List.mem_of_find?_eq_some first
      have refused : acquisition.granted = false := by simpa using List.find?_some first
      rw [same react]
      refine ⟨⟨fun _ => ⟨acquisition, taken, refused⟩, fun _ => ⟨acquisition.timeout, rfl⟩⟩, ?_⟩
      intro timeout reported
      exact ⟨same, acquisition, rfl, cache_of_acquisition taken, (Reply.refused.inj reported).symm,
        counted_timeout fleet acquisition.number⟩

/-- A copy from a cache that a writer holds is refused at its source. -/
theorem copy_refused_at_source :
    let fleet : Fleet Nat Nat := (ofSettings [{}, {}]).hold 1 .exclusive
    let copied := perform (reactTo 2) (.mk 0 (.putAll 1 true)) fleet
    copied.1 = .refused ⟨"put_all", .shared, Settings.lockTimeoutSpan {}⟩ ∧
      CountedTimeout 1 fleet copied.2 := by
  intro fleet copied
  obtain ⟨-, acquisition, first, -, -, counted⟩ :=
    (refused_exactly_and_without_trace (reactTo 2) (.mk 0 (.putAll 1 true)) fleet).2 _ rfl
  obtain rfl := Option.some.inj first
  exact ⟨rfl, counted⟩

end LayeredCache.Fleet
