import LayeredCache.Proofs.Fleet.Passing
import LayeredCache.Proofs.Fleet.Reckoning

/-! Time in the course of calls. Whatever is called, by users or by listeners, neither the clock nor an epoch goes back from
one call to the next that is begun, nor from an event to what its callback leaves. -/

set_option autoImplicit false

namespace LayeredCache

variable {Key Value : Type} [DecidableEq Key] [BEq Value]

/-- A call was begun before a reaction that takes nothing back, and had been answered by some time. -/
def Frame.AnsweredBy (frame : Frame Key Value) (after : Fleet Key Value) : Prop :=
  ∃ react, frame = .begin react frame.writers frame.request frame.fleet ∧
    (∀ run ∈ Fleet.nested react frame.writers frame.request frame.fleet, Fleet.Elapsed run.before run.after) ∧
      Fleet.Elapsed (Fleet.answer react frame.request frame.fleet) after

namespace Fleet

variable {fleet before between after now : Fleet Key Value} {number : Nat} {trace more past : List (Frame Key Value)}
  {writers : List Nat} {request : Call Key Value} {react : Reaction Key Value} {undertaking : Undertaking Key Value}
  {pieces : List (List (Frame Key Value))}

/-- From one fleet to the next time has passed in good order, and so it has between the calls begun meanwhile. -/
structure Paced (trace : List (Frame Key Value)) (before after : Fleet Key Value) : Prop where
  passed : Passed before after
  within : ∀ frame ∈ trace, Passed before frame.fleet ∧ Elapsed frame.fleet after
  ordered : trace.Pairwise fun earlier later => Elapsed earlier.fleet later.fleet
  answered : ∀ frame ∈ trace, frame.AnsweredBy after

namespace Paced

theorem same (passed : Passed before after) : Paced [] before after :=
  ⟨passed, List.forall_mem_nil _, .nil, List.forall_mem_nil _⟩

theorem trans (start : Paced trace before between) (rest : Paced more between after) :
    Paced (trace ++ more) before after where
  passed := start.passed.trans rest.passed
  within frame listed := by
    rcases List.mem_append.mp listed with earlier | later
    · exact (start.within frame earlier).imp_right fun order => order.trans rest.passed.toElapsed
    · exact (rest.within frame later).imp_left start.passed.trans
  ordered := by
    refine List.pairwise_append.mpr ⟨start.ordered, rest.ordered, ?_⟩
    intro earlier first later second
    exact (start.within earlier first).2.trans (rest.within later second).1.toElapsed
  answered frame listed := by
    rcases List.mem_append.mp listed with earlier | later
    · obtain ⟨react, begun, inner, ended⟩ := start.answered frame earlier
      exact ⟨react, begun, inner, ended.trans rest.passed.toElapsed⟩
    · exact rest.answered frame later

theorem left (paced : Paced trace before between) (passed : Passed between after) : Paced trace before after := by
  have whole := paced.trans (same passed)
  rwa [List.append_nil] at whole

/-- A call that is begun first, with those made in its middle. -/
theorem begin {start : Fleet Key Value} (inner : Paced trace start between) (begun : Passed before start)
    (ended : Elapsed between (answer react request before)) (passed : Passed before (answer react request before))
    (each : ∀ run ∈ nested react writers request before, Elapsed run.before run.after) :
    Paced (.begin react writers request before :: trace) before (answer react request before) where
  passed := passed
  within := by
    refine List.forall_mem_cons.mpr ⟨⟨.refl before, passed.toElapsed⟩, ?_⟩
    intro frame listed
    obtain ⟨since, order⟩ := inner.within frame listed
    exact ⟨begun.trans since, order.trans ended⟩
  ordered := by
    refine List.pairwise_cons.mpr ⟨?_, inner.ordered⟩
    exact fun frame listed => (begun.trans (inner.within frame listed).1).toElapsed
  answered := by
    refine List.forall_mem_cons.mpr ⟨⟨react, rfl, each, .refl _⟩, ?_⟩
    intro frame listed
    obtain ⟨other, first, middle, order⟩ := inner.answered frame listed
    exact ⟨other, first, middle, order.trans ended⟩

end Paced

omit [BEq Value] in
theorem passed_told (listener : Listener Key Value) (number : Nat) (event : Event Key Value) (fleet : Fleet Key Value) :
    Passed fleet (listener.told number event fleet) := by
  rw [Listener.told]
  split
  · exact Passed.note fleet _
  · exact .refl fleet

/-- A writer whose work is done is answered in no time. -/
theorem elapsed_answer (taken : fleet.undertaking? request = some undertaking)
    (working : Elapsed (fleet.hold undertaking.number .exclusive) (undertaking.worked react fleet).2.2) :
    Elapsed (undertaking.worked react fleet).2.2 (answer react request fleet) := by
  have found := (find?_eq_some_iff.mp (undertaking?_eq_some taken).2.1).2
  have released : Elapsed (undertaking.worked react fleet).2.2 (undertaking.after react fleet) :=
    elapsed_release found working
  have installed := beside_install request.action
  rw [answer, (perform_undertaking taken react).2]
  exact released.trans ((Passed.adjust installed.tiers installed.epoch).trans (Passed.note _ _)).toElapsed

theorem paced_answer (within : List.Forall₂ (Run.Within fun _ => Paced) (nested react writers request fleet) pieces) :
    Paced (.begin react writers request fleet :: pieces.flatten) fleet (answer react request fleet) := by
  have each : ∀ run ∈ nested react writers request fleet, Elapsed run.before run.after :=
    each_of_within within fun made => made.passed.toElapsed
  -- That stamps are in order afterwards takes more than the worlds of the writer: its tiers are part of what is left.
  have passed : Passed fleet (answer react request fleet) :=
    passed_closed.composed.answered (within.imp fun _ _ made => made.passed)
  rw [nested] at within
  cases taken : fleet.undertaking? request with
  | some undertaking =>
      rw [taken] at within
      have attends : undertaking.Attends writers (fun _ => Paced) fun _ trace world =>
          Paced trace (fleet.hold undertaking.number .exclusive) world := by
        constructor
        · intro recording counted trace world before
          exact before.left (.record world undertaking.number recording)
        · intro listener event counted trace more world after before made
          exact (before.left (passed_told listener _ event world)).trans made
      have inner := undertaking.attended attends within (.same (.refl _))
      exact inner.begin (.hold fleet _ .exclusive) (elapsed_answer taken inner.passed.toElapsed) passed each
  | none =>
      rw [taken] at within
      cases sought : fleet.search? request with
      | some place =>
          obtain ⟨number, cache, calls⟩ := place
          obtain ⟨shared, found, performed⟩ := perform_search sought react
          rw [sought] at within
          cases within with
          | cons made rest =>
              cases rest
              rw [List.flatten_singleton]
              refine Paced.begin made (.hold fleet number .shared) ?_ passed each
              have released : Passed _ (search (performEach react calls) number cache fleet) :=
                Passed.adjust (fun _ => rfl) fun _ => rfl
              rw [answer, performed]
              exact (released.trans (Passed.note _ _)).toElapsed
      | none =>
          rw [sought] at within
          cases within
          exact Paced.begin (.same (.refl fleet)) (.refl fleet) passed.toElapsed passed each

/-- Whatever is carried out, time passes in good order from call to call. -/
theorem paced_composed : Composed fun _ => @Paced Key Value _ _ where
  refl _ fleet := .same (.refl fleet)
  trans start rest := start.trans rest
  answered := paced_answer

namespace Paced

variable (paced : Paced trace before after)

include paced

theorem elapsed_points : (points trace after).Pairwise Elapsed := by
  refine List.pairwise_append.mpr ⟨List.pairwise_map.mpr paced.ordered, List.pairwise_singleton _ _, ?_⟩
  intro earlier begun later ended
  obtain ⟨frame, listed, rfl⟩ := List.mem_map.mp begun
  obtain rfl := List.mem_singleton.mp ended
  exact (paced.within frame listed).2

theorem passed_points : ∀ now ∈ points trace after, Passed before now ∧ Elapsed now after := by
  refine List.forall_mem_append.mpr ⟨?_, List.forall_mem_singleton.mpr ⟨paced.passed, .refl after⟩⟩
  intro now begun
  obtain ⟨frame, listed, rfl⟩ := List.mem_map.mp begun
  exact paced.within frame listed

/-- As long as there are few reclaims, the present of a cache only moves forward. -/
theorem rising (dated : before.Dated) (few : after.reclaims < 2 ^ 64) (number : Nat) :
    (points trace after).Pairwise fun earlier later => (earlier.momentOf number).Before (later.momentOf number) := by
  refine paced.elapsed_points.imp_of_mem ?_
  intro earlier later first second elapsed
  have reclaims := (paced.passed_points later second).2.reclaims
  exact elapsed.moment_before ((paced.passed_points earlier first).1.dated dated) (reclaims.trans_lt few) number

end Paced

omit [BEq Value] in
/-- What can be seen of a cache is to be seen in the course of the calls, after those made until then. -/
theorem Between.split (between : Between number trace after past now) :
    ∃ rest, points trace after = past.map Frame.fleet ++ now :: rest := by
  cases between with
  | begun split idle =>
      rw [points, split, List.map_append, List.append_assoc]
      exact ⟨_, rfl⟩
  | ended => exact ⟨[], rfl⟩

omit [BEq Value] in
theorem Between.mem_points (between : Between number trace after past now) : now ∈ points trace after := by
  obtain ⟨rest, split⟩ := between.split
  rw [split]
  exact List.mem_append_right _ List.mem_cons_self

/-- Whatever is seen of a cache, time has passed in good order between the calls begun until then. -/
theorem Between.elapsed {calls : List (Call Key Value)} (between : Between number trace after past now)
    (carried : CarriedOut [⟨writers, calls, before, after⟩] trace) : (points past now).Pairwise Elapsed := by
  have ordered := (carried.composes paced_composed).elapsed_points
  obtain ⟨rest, split⟩ := between.split
  rw [split] at ordered
  exact ordered.sublist ((List.Sublist.refl _).append (List.singleton_sublist.mpr List.mem_cons_self))

/-- Whatever runs are carried out take nothing back. -/
theorem elapsed_runs {runs : List (Run Key Value)} (carried : CarriedOut runs trace) :
    ∀ run ∈ runs, Elapsed run.before run.after := by
  intro run made
  obtain ⟨piece, single, -⟩ := carried.each run made
  exact (single.composes paced_composed).passed.toElapsed

omit [BEq Value] in
/-- No callback takes anything back whose calls do not. -/
theorem elapsed_happenings (each : ∀ run ∈ undertaking.runs react fleet writers, Elapsed run.before run.after) :
    ∀ happening ∈ undertaking.happenings react fleet, Elapsed happening.before happening.after := by
  intro happening happened
  cases listening : undertaking.cache.listener with
  | none =>
      have notified := Dialogue.happenings_notified _ _ _ happening happened
      rw [Undertaking.host, listening] at notified
      have same : happening.after = happening.before := notified
      rw [same]
      exact .refl _
  | some listener =>
      have made : listener.run undertaking.number writers happening ∈ undertaking.runs react fleet writers := by
        rw [Undertaking.runs, listening]
        exact List.mem_map_of_mem happened
      exact (passed_told listener undertaking.number happening.event happening.before).toElapsed.trans (each _ made)

omit [BEq Value] in
/-- A writer purges after it was called, and before anything is told of what it does then. -/
theorem elapsed_purge (other : undertaking.operation ≠ .purgeSoft)
    (each : ∀ run ∈ undertaking.runs react fleet writers, Elapsed run.before run.after) :
    let host := undertaking.host react
    let held := fleet.hold undertaking.number .exclusive
    let purged := Tiers.purgeSoft host undertaking.cache.tiers held
    Elapsed held purged.2.2 ∧ Elapsed purged.2.2 (undertaking.worked react fleet).2.2 ∧
      ∀ happening ∈ (Tiers.dialogue undertaking.operation purged.2.1).happenings host purged.2.2,
        Elapsed purged.2.2 happening.after := by
  intro host held purged
  have counted : ∀ recording world, Elapsed world (host.record recording world) := fun recording world =>
    (Passed.record world undertaking.number recording).toElapsed
  have whole : undertaking.happenings react fleet =
      (Tiers.dialogue .purgeSoft undertaking.cache.tiers).happenings host held ++
        (Tiers.dialogue undertaking.operation purged.2.1).happenings host purged.2.2 := Tiers.happenings_held other ..
  have onward := elapsed_happenings each
  rw [whole, List.forall_mem_append] at onward
  have begun := (Dialogue.run_related Elapsed.refl Elapsed.trans counted _ onward.1).1
  obtain ⟨ended, told⟩ := Dialogue.run_related Elapsed.refl Elapsed.trans counted _ onward.2
  have left (dialogue : Dialogue Key Value (Answer Value × Tiers Key Value)) (world : Fleet Key Value) :
      (dialogue.run host world).2 = (dialogue.perform host world).2.2 := rfl
  rw [left, Tiers.perform_dialogue] at begun ended
  refine ⟨begun, ?_, told⟩
  rw [Undertaking.worked, (Tiers.operateHeld_cases ..).resolve_left fun purges => other purges.1]
  exact ended

end Fleet

/-- A call was begun before a reaction, and what was asked for in the middle of it was carried out next. -/
def Frame.Begun (frame : Frame Key Value) (react : Fleet.Reaction Key Value)
    (future : List (Frame Key Value)) : Prop :=
  frame = .begin react frame.writers frame.request frame.fleet ∧
    ∃ inner rest, future = inner ++ rest ∧
      CarriedOut (Fleet.nested react frame.writers frame.request frame.fleet) inner

theorem Frame.Begun.append {frame : Frame Key Value} {react : Fleet.Reaction Key Value}
    {future : List (Frame Key Value)} (begun : frame.Begun react future) (more : List (Frame Key Value)) :
    frame.Begun react (future ++ more) := by
  obtain ⟨same, inner, rest, rfl, within⟩ := begun
  exact ⟨same, inner, rest ++ more, List.append_assoc _ _ _, within⟩

/-- Every call that is listed was begun before some reaction. -/
theorem CarriedOut.begun {runs : List (Run Key Value)} {trace past future : List (Frame Key Value)}
    {frame : Frame Key Value} (carried : CarriedOut runs trace) (split : trace = past ++ frame :: future) :
    ∃ react, frame.Begun react future := by
  induction carried generalizing past future with
  | nothing => cases past <;> cases split
  | finished _ ih => exact ih split
  | @called _ _ _ _ _ _ inner more react within _ ihWithin ihFurther =>
      cases past with
      | nil =>
          obtain ⟨rfl, rfl⟩ := List.cons.inj split
          exact ⟨react, rfl, _, _, rfl, within⟩
      | cons head past =>
          have rest : inner ++ more = past ++ frame :: future := (List.cons.inj split).2
          rcases Fleet.split_append rest with ⟨remaining, early⟩ | ⟨first, -, late⟩
          · obtain ⟨other, begun⟩ := ihWithin early
            rw [early, List.append_assoc, List.cons_append] at rest
            obtain ⟨-, rfl⟩ := List.cons.inj (List.append_cancel_left rest)
            exact ⟨other, begun.append _⟩
          · exact ihFurther late

end LayeredCache
