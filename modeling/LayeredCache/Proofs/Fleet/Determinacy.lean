import LayeredCache.Proofs.Fleet.Nesting

/-! Calls come to one end. A reaction is only ever asked for what the calls that answer an event are carried out to. If
those come to one end, then a writer meets the same worlds whatever the reaction, and so does what it answers. -/

set_option autoImplicit false

namespace LayeredCache

variable {World Other Key Value : Type} [DecidableEq Key]

namespace Fleet

/-- A search comes to the same before hosts that tell the same moments, if what happens at the first comparison keeps
their worlds related. -/
theorem searchValue_simulates [BEq Value] {host : Host World Key Value} {other : Host Other Key Value}
    {related : World → Other → Prop} {atFirst : World → World} {instead : Other → Other}
    (clock : ∀ {world image}, related world image → host.clock world = other.clock image)
    (epoch : ∀ {world image}, related world image → host.epoch world = other.epoch image) (value : Value)
    (tiers : Tiers Key Value) {world : World} {image : Other} (start : related world image)
    (both : (tiers.entries (host.moment world)).isEmpty = false → related (atFirst world) (instead image)) :
    (tiers.searchValue host atFirst value world).1 = (tiers.searchValue other instead value image).1 ∧
      related (tiers.searchValue host atFirst value world).2 (tiers.searchValue other instead value image).2 := by
  rw [isEmpty_entries] at both
  rw [Tiers.searchValue, Tiers.searchValue, ← clock start]
  cases early : (tiers.pinned.toList ++ tiers.primary.toList).isEmpty with
  | false =>
      rw [early] at both
      have reached := both rfl
      simp only [Bool.false_eq_true, ↓reduceIte, ← epoch reached, Bool.false_and]
      split
      · exact ⟨rfl, reached⟩
      · exact ⟨rfl, reached⟩
  | true =>
      rw [early, Host.moment] at both
      have nothing := List.isEmpty_iff.mp early
      simp only [nothing, ↓reduceIte, List.any_nil, Bool.false_eq_true, Bool.true_and, ← epoch start, true_and]
      cases late : (tiers.soft.live ⟨host.clock world, host.epoch world⟩).isEmpty with
      | true => exact start
      | false =>
          rw [late] at both
          exact both rfl

variable {fleet : Fleet Key Value} {request : Call Key Value} {react other : Reaction Key Value} {writers : List Nat}
  {undertaking : Undertaking Key Value} {number : Nat} {cache : Cache Key Value} {action : Action Key Value}
  {outcome instead : Reply Key Value × Fleet Key Value}

/-- A writer that is answered alike, wherever it tells the same in the same world, does the same. -/
theorem worked_agree (agree : ∀ run ∈ undertaking.runs react fleet writers,
      ∀ twin ∈ undertaking.runs other fleet writers, run.calls = twin.calls → run.before = twin.before →
        run.after = twin.after) :
    undertaking.worked react fleet = undertaking.worked other fleet := by
  rw [Undertaking.runs, Undertaking.runs] at agree
  cases listening : undertaking.cache.listener with
  | none =>
      have same : undertaking.host react = undertaking.host other := by
        rw [Undertaking.host, Undertaking.host, listening]
        rfl
      rw [Undertaking.worked, Undertaking.worked, same]
  | some listener =>
      rw [listening] at agree
      rw [Undertaking.worked, Undertaking.worked, ← Tiers.perform_dialogueHeld, ← Tiers.perform_dialogueHeld,
        Dialogue.perform, Dialogue.perform]
      have same := @Dialogue.run_agree (Fleet Key Value) Key Value _ (undertaking.host react) (undertaking.host other)
        rfl rfl rfl (Tiers.dialogueHeld undertaking.operation undertaking.cache.tiers)
        (fleet.hold undertaking.number .exclusive)
      rw [same]
      intro happening happened twin told event before
      refine agree _ (List.mem_map_of_mem happened) _ (List.mem_map_of_mem told) ?_ ?_
      · exact congrArg₂ (fun fleet => listener.reacts (Fleet.heard fleet)) before event
      · exact congrArg₂ (listener.told undertaking.number) event before

theorem after_runs {run : Run Key Value} (made : run ∈ undertaking.runs react fleet writers) :
    run.after = react run.calls run.before := by
  rw [Undertaking.runs] at made
  cases listening : undertaking.cache.listener with
  | none =>
      rw [listening] at made
      cases made
  | some listener =>
      rw [listening] at made
      obtain ⟨happening, happened, rfl⟩ := List.mem_map.mp made
      have notified := Dialogue.happenings_notified _ _ _ happening happened
      rw [Undertaking.host, listening] at notified
      exact notified

open Classical in
/-- A reaction that leaves a fleet alone where it would leave a relation. -/
noncomputable def restrained (related : Fleet Key Value → Fleet Key Value → Prop) (react : Reaction Key Value) :
    Reaction Key Value :=
  fun calls fleet => if related fleet (react calls fleet) then react calls fleet else fleet

theorem restrained_related {related : Fleet Key Value → Fleet Key Value → Prop} (refl : ∀ fleet, related fleet fleet)
    (react : Reaction Key Value) (calls : List (Call Key Value)) (fleet : Fleet Key Value) :
    related fleet (restrained related react calls fleet) := by
  rw [restrained]
  split
  next kept => exact kept
  next => exact refl fleet

/-- A writer that is never answered out of a relation does the same if its reaction is restrained to it. -/
theorem worked_restrained {related : Fleet Key Value → Fleet Key Value → Prop}
    (each : ∀ run ∈ undertaking.runs react fleet writers, related run.before run.after) :
    undertaking.worked react fleet = undertaking.worked (restrained related react) fleet := by
  apply worked_agree
  intro run made twin also calls before
  have kept := each run made
  rw [after_runs made] at kept
  rw [after_runs made, after_runs also, restrained, ← calls, ← before, if_pos kept]

variable [BEq Value]

theorem perform_of_worked (taken : fleet.undertaking? request = some undertaking)
    (same : undertaking.worked react fleet = undertaking.worked other fleet) :
    perform react request fleet = perform other request fleet := by
  have left : undertaking.after react fleet = undertaking.after other fleet := by
    rw [Undertaking.after, Undertaking.after, work, work]
    exact congrArg (fun done : Answer Value × Tiers Key Value × Fleet Key Value =>
      done.2.2.adjust undertaking.number fun cache => { cache with tiers := done.2.1, hold := .free }) same
  rw [(perform_undertaking taken react).2, (perform_undertaking taken other).2, same, left]

/-- A call that neither writes nor searches comes to the same, whatever the reaction. -/
theorem Outcome.agree (reached : Outcome react fleet number cache action outcome)
    (again : Outcome other fleet number cache action instead) (calm : action.writes fleet number cache ≠ true)
    (quiet : ∀ value calls, action ≠ .containsValue value calls) : outcome = instead := by
  cases reached with
  | told reported =>
      cases again with
      | told also =>
          cases reported.symm.trans also
          rfl
      | worked asked free writes => exact absurd writes calm
      | searched => exact absurd rfl (quiet _ _)
      | _ => cases reported
  | hit looked =>
      cases again with
      | told reported => cases reported
      | hit also =>
          cases looked.symm.trans also
          rfl
      | miss also => cases looked.symm.trans also
      | worked asked free writes => exact absurd writes calm
  | miss looked =>
      cases again with
      | told reported => cases reported
      | hit also => cases looked.symm.trans also
      | miss also =>
          cases looked.symm.trans also
          rfl
      | worked asked free writes => exact absurd writes calm
  | worked asked free writes => exact absurd writes calm
  | listened => exact absurd rfl calm
  | searched => exact absurd rfl (quiet _ _)
  | unknownSource | reclaimed | reset | cloned | advanced =>
      cases again with
      | told reported => cases reported
      | worked asked free writes => exact absurd writes calm
      | _ => rfl

/-- Short of a search, a call on a cache has one outcome. -/
theorem Outcome.unique (found : fleet.caches[number]? = some cache)
    (reached : Outcome react fleet number cache action outcome) (again : Outcome react fleet number cache action instead)
    (quiet : ∀ value calls, action ≠ .containsValue value calls) : outcome = instead := by
  by_cases writes : action.writes fleet number cache = true
  · obtain ⟨-, operation, asked, replied, left⟩ := reached.worked_of_writes found writes
    obtain ⟨-, other, also, answered, ended⟩ := again.worked_of_writes found writes
    obtain rfl := Option.some.inj (asked.symm.trans also)
    exact Prod.ext (replied.trans answered.symm) (left.trans ended.symm)
  · exact reached.agree again writes quiet

theorem perform_aside_agree (calm : fleet.undertaking? request = none) (quiet : fleet.search? request = none) :
    perform react request fleet = perform other request fleet := by
  cases refused : fleet.refusal? request with
  | some acquisition => rw [perform_refused refused, perform_refused refused]
  | none =>
      cases located : fleet.find? request.handle with
      | none =>
          obtain ⟨handle, action⟩ := request
          rw [Call.handle] at located
          rw [perform, perform, located]
      | some place =>
          obtain ⟨number, cache⟩ := place
          have reached := outcome_of_granted refused located react
          refine reached.agree (outcome_of_granted refused located other) ?_ ?_
          · intro writes
            obtain ⟨-, operation, asked, -⟩ := reached.worked_of_writes (find?_eq_some_iff.mp located).2 writes
            rw [undertaking?_of_writes refused located writes, asked] at calm
            cases calm
          · intro value calls asked
            rw [search?, refused, located, asked] at quiet
            cases quiet

theorem perform_search_agree {calls : List (Call Key Value)}
    (sought : fleet.search? request = some (number, cache, calls))
    (agree : performEach react calls (fleet.hold number .shared) = performEach other calls (fleet.hold number .shared)) :
    perform react request fleet = perform other request fleet := by
  obtain ⟨granted, located, value, during, asked, rfl⟩ := search?_eq_some sought
  obtain ⟨handle, action⟩ := request
  obtain rfl : action = .containsValue value during := asked
  rw [Call.handle] at located
  have same := @searchValue_simulates (Fleet Key Value) (Fleet Key Value) Key Value _ _ (host react number cache.listener)
    (host other number cache.listener) Eq (performEach react during) (performEach other during) (congrArg _) (congrArg _)
    value cache.tiers _ (fleet.hold number .shared) rfl (by
      rw [moment_hold (find?_eq_some_iff.mp located).2]
      intro stored
      rw [stored] at agree
      exact agree)
  rw [perform, perform, located]
  dsimp only
  rw [searchValue, searchValue, ← hold]
  dsimp only
  rw [Prod.ext same.1 same.2]

/-- A call comes to the same if what others ask for in the middle of it does. -/
theorem perform_agree (agree : ∀ run ∈ nested react writers request fleet,
      ∀ twin ∈ nested other writers request fleet, run.calls = twin.calls → run.before = twin.before →
        run.after = twin.after) :
    perform react request fleet = perform other request fleet := by
  rw [nested, nested] at agree
  cases taken : fleet.undertaking? request with
  | some undertaking =>
      rw [taken] at agree
      exact perform_of_worked taken (worked_agree agree)
  | none =>
      rw [taken] at agree
      cases sought : fleet.search? request with
      | some place =>
          obtain ⟨number, cache, calls⟩ := place
          rw [sought] at agree
          exact perform_search_agree sought
            (agree _ (List.mem_singleton.mpr rfl) _ (List.mem_singleton.mpr rfl) rfl rfl)
      | none => exact perform_aside_agree taken sought

omit [BEq Value] in
theorem writers_runs {run : Run Key Value} (made : run ∈ undertaking.runs react fleet writers) :
    run.writers = undertaking.number :: writers := by
  rw [Undertaking.runs] at made
  split at made
  · cases made
  · obtain ⟨happening, -, rfl⟩ := List.mem_map.mp made
    rfl

/-- What calls cannot leave is not left by calls that are carried out either, whatever the reactions. -/
theorem Closed.composed {related : Fleet Key Value → Fleet Key Value → Prop} (closed : Closed related fun _ => related) :
    Composed fun _ (_ : List (Frame Key Value)) before after => related before after where
  refl _ := closed.refl
  trans := closed.trans
  answered {react writers request fleet pieces} within := by
    have kept := answer_related closed (restrained_related closed.refl react) request fleet
    rw [nested] at within
    cases taken : fleet.undertaking? request with
    | some undertaking =>
        rw [taken] at within
        have each : ∀ run ∈ undertaking.runs react fleet writers, related run.before run.after :=
          each_of_within within id
        rw [answer, perform_of_worked taken (worked_restrained each)]
        exact kept
    | none =>
        rw [taken] at within
        cases sought : fleet.search? request with
        | some place =>
            obtain ⟨number, cache, calls⟩ := place
            obtain ⟨shared, found, performed⟩ := perform_search sought react
            have stored := (find?_eq_some_iff.mp (search?_eq_some sought).2.1).2
            rw [sought] at within
            cases within with
            | cons made _ =>
                rw [answer, performed]
                exact closed.trans (closed.searched stored shared made) (closed.answered _ _ _)
        | none =>
            rw [answer, perform_aside_agree taken sought]
            exact kept

/-- Whatever is asked for in the middle of a call finds the same writers at work. -/
theorem writers_nested {run twin : Run Key Value} (made : run ∈ nested react writers request fleet)
    (also : twin ∈ nested other writers request fleet) : run.writers = twin.writers := by
  rw [nested] at made also
  cases taken : fleet.undertaking? request with
  | some undertaking =>
      rw [taken] at made also
      rw [writers_runs made, writers_runs also]
  | none =>
      rw [taken] at made also
      cases sought : fleet.search? request with
      | some place =>
          rw [sought] at made also
          rw [List.mem_singleton.mp made, List.mem_singleton.mp also]
      | none =>
          rw [sought] at made
          cases made

end Fleet

namespace CarriedOut

variable [BEq Value] {runs : List (Run Key Value)} {trace : List (Frame Key Value)}

/-- Where runs are carried out, each of them is. -/
theorem each (carried : CarriedOut runs trace) : ∀ run ∈ runs, ∃ piece, CarriedOut [run] piece ∧ piece ⊆ trace := by
  induction carried with
  | nothing => exact nofun
  | finished _ ih => exact List.forall_mem_cons.mpr ⟨⟨[], .finished .nothing, List.nil_subset _⟩, ih⟩
  | called react within _ _ ih =>
      obtain ⟨⟨piece, further, part⟩, others⟩ := List.forall_mem_cons.mp ih
      refine List.forall_mem_cons.mpr ⟨⟨_, .called react within further, ?_⟩, ?_⟩
      · exact List.append_subset_of_subset_of_subset (List.subset_append_left _ _)
          (List.subset_append_of_subset_right _ part)
      · intro run listed
        obtain ⟨piece, made, part⟩ := others run listed
        exact ⟨piece, made, List.subset_append_of_subset_right _ part⟩

end CarriedOut

/-- A run that cannot be carried out to another end. -/
def Run.Settled [BEq Value] (run : Run Key Value) : Prop :=
  ∀ {after trace}, CarriedOut [⟨run.writers, run.calls, run.before, after⟩] trace → after = run.after

/-- Runs of which one cannot be carried out to another end agree with others that can be carried out. -/
theorem Run.Settled.agree [BEq Value] {run twin : Run Key Value} {piece : List (Frame Key Value)}
    (settled : run.Settled) (carried : CarriedOut [twin] piece) (writers : run.writers = twin.writers)
    (calls : run.calls = twin.calls) (before : run.before = twin.before) : run.after = twin.after := by
  obtain ⟨runWriters, runCalls, runBefore, runAfter⟩ := run
  obtain ⟨twinWriters, twinCalls, twinBefore, twinAfter⟩ := twin
  obtain rfl : runWriters = twinWriters := writers
  obtain rfl : runCalls = twinCalls := calls
  obtain rfl : runBefore = twinBefore := before
  exact (settled carried).symm

theorem CarriedOut.settled [BEq Value] {runs : List (Run Key Value)} {trace : List (Frame Key Value)}
    (carried : CarriedOut runs trace) : ∀ run ∈ runs, run.Settled := by
  induction carried with
  | nothing => exact nofun
  | finished _ ih =>
      refine List.forall_mem_cons.mpr ⟨?_, ih⟩
      intro after trace again
      cases again
      rfl
  | @called writers request _ fleet _ _ _ _ react _ _ inside ih =>
      obtain ⟨further, others⟩ := List.forall_mem_cons.mp ih
      refine List.forall_mem_cons.mpr ⟨?_, others⟩
      intro after trace again
      cases again with
      | called other within rest =>
          have same : Fleet.perform react request fleet = Fleet.perform other request fleet := by
            refine @Fleet.perform_agree Key Value _ fleet request react other writers _ ?_
            intro run made twin also calls before
            obtain ⟨piece, carried, -⟩ := within.each twin also
            exact Run.Settled.agree (inside run made) carried (Fleet.writers_nested made also) calls before
          rw [Fleet.answer, ← same] at rest
          exact further rest

/-- Calls come to one end. -/
theorem CarriedOut.after_eq [BEq Value] {run : Run Key Value} {trace more : List (Frame Key Value)}
    {after : Fleet Key Value} (carried : CarriedOut [run] trace)
    (again : CarriedOut [⟨run.writers, run.calls, run.before, after⟩] more) : after = run.after :=
  carried.settled run List.mem_cons_self again

/-- Whatever the listeners ask for, a call comes to an end, with no callback cut off. Callbacks never nest deeper than
there are caches, and no cache has two writers at work. -/
theorem Fleet.call_ends [BEq Value] (fleet : Fleet Key Value) (request : Call Key Value) :
    let outcome := fleet.call request
    let left := outcome.2.note (.answered request outcome.1)
    (∃ trace, CarriedOut [⟨[], [request], fleet, left⟩] trace) ∧
      ∀ after trace, CarriedOut [⟨[], [request], fleet, after⟩] trace →
        after = left ∧ ∀ frame ∈ trace, frame.writers.length ≤ fleet.caches.size ∧ frame.active.Nodup := by
  intro outcome left
  obtain ⟨course, ended⟩ := converse_carriedOut fleet [request]
  refine ⟨⟨course, ended⟩, ?_⟩
  intro after trace carried
  refine ⟨ended.after_eq carried, ?_⟩
  intro frame listed
  have nobody : Manned [] fleet := ⟨List.nodup_nil, nofun⟩
  obtain ⟨manned, size⟩ := (carried.leaves wellNested_coherent).2 nobody frame listed
  exact ⟨size ▸ manned.length_le, manned.nodup_active⟩

end LayeredCache
