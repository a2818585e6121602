import LayeredCache.Proofs.Fleet.Execution
import Mathlib.Data.List.Forall2

/-! What runs leave related. A relation between the fleet before and after, and the calls listed in between, holds across
whatever is carried out to its end if it holds across each thing that a call can do, given that it holds across the calls
made in the middle. Nothing is asked of the reaction but that. -/

set_option autoImplicit false

namespace LayeredCache

variable {Key Value : Type} [DecidableEq Key]

/-- The relations that runs cannot leave. While a writer is at work on a cache, another relation may be all there is. -/
structure Coherent [BEq Value]
    (related : List Nat → List (Frame Key Value) → Fleet Key Value → Fleet Key Value → Prop)
    (working : Nat → List Nat → List (Frame Key Value) → Fleet Key Value → Fleet Key Value → Prop) : Prop where
  refl : ∀ writers fleet, related writers [] fleet fleet
  trans : ∀ {writers trace more first second third}, related writers trace first second →
    related writers more second third → related writers (trace ++ more) first third
  begun : ∀ number writers fleet, working number writers [] fleet fleet
  recorded : ∀ {number writers trace start world} recording, working number writers trace start world →
    working number writers trace start (world.adjust number (Cache.record recording))
  notified : ∀ {number writers trace more start world after} (listener : Listener Key Value) event,
    working number writers trace start world →
    related (number :: writers) more (listener.told number event world) after →
    working number writers (trace ++ more) start after
  aside : ∀ {fleet : Fleet Key Value} {request outcome} react writers, fleet.undertaking? request = none →
    fleet.Aside request outcome →
    related writers [.begin react writers request fleet] fleet (outcome.2.note (.answered request outcome.1))
  searched : ∀ {fleet after : Fleet Key Value} {request number cache calls trace} react writers reply,
    fleet.undertaking? request = none → fleet.search? request = some (number, cache, calls) →
    cache.hold.admits .shared = true → related writers trace (fleet.hold number .shared) after →
    related writers (.begin react writers request fleet :: trace) fleet
      ((after.adjust number fun other => { other with hold := cache.hold }).note (.answered request reply))
  worked : ∀ {fleet : Fleet Key Value} {request undertaking trace} react writers reply,
    fleet.undertaking? request = some undertaking → undertaking.cache.hold = .free →
    working undertaking.number writers trace (fleet.hold undertaking.number .exclusive)
      (undertaking.worked react fleet).2.2 →
    related writers (.begin react writers request fleet :: trace) fleet
      (((undertaking.after react fleet).adjust undertaking.number request.action.install).note
        (.answered request reply))

theorem forall₂_concat {Left Right : Type} {relation : Left → Right → Prop} {items : List Left} {item : Left}
    {others : List Right} (paired : List.Forall₂ relation (items ++ [item]) others) :
    ∃ first last, others = first ++ [last] ∧ List.Forall₂ relation items first ∧ relation item last := by
  induction items generalizing others with
  | nil =>
      cases paired with
      | cons both rest =>
          cases rest
          exact ⟨[], _, rfl, .nil, both⟩
  | cons head tail ih =>
      cases paired with
      | cons both rest =>
          obtain ⟨first, last, rfl, paired, ends⟩ := ih rest
          exact ⟨_ :: first, last, rfl, .cons both paired, ends⟩

variable [BEq Value]
  {related : List Nat → List (Frame Key Value) → Fleet Key Value → Fleet Key Value → Prop}
  {working : Nat → List Nat → List (Frame Key Value) → Fleet Key Value → Fleet Key Value → Prop}
  {react : Fleet.Reaction Key Value} {writers : List Nat} {request : Call Key Value} {fleet : Fleet Key Value}
  {undertaking : Undertaking Key Value} {pieces : List (List (Frame Key Value))}

/-- A run stays within a relation, with its part of the trace. -/
def Run.Within (related : List Nat → List (Frame Key Value) → Fleet Key Value → Fleet Key Value → Prop)
    (run : Run Key Value) (piece : List (Frame Key Value)) : Prop :=
  related run.writers piece run.before run.after

omit [BEq Value] in
/-- What holds of every run that stays within a relation holds of each of several that do. -/
theorem each_of_within {runs : List (Run Key Value)} {holds : Run Key Value → Prop}
    (within : List.Forall₂ (Run.Within related) runs pieces)
    (imp : ∀ {run piece}, run.Within related piece → holds run) : ∀ run ∈ runs, holds run :=
  ((List.forall₂_and_left runs pieces).mp (within.imp fun _ _ made => ⟨imp made, made⟩)).1

/-- What stays true of the world of a writer, of what it has had counted and of what its listener has called so far. -/
structure Undertaking.Attends (undertaking : Undertaking Key Value) (writers : List Nat)
    (related : List Nat → List (Frame Key Value) → Fleet Key Value → Fleet Key Value → Prop)
    (along : List Metrics.Recording → List (Frame Key Value) → Fleet Key Value → Prop) : Prop where
  recorded : ∀ recording {counted trace world}, along counted trace world →
    along (counted ++ [recording]) trace (world.adjust undertaking.number (Cache.record recording))
  notified : ∀ (listener : Listener Key Value) event {counted trace more world after}, along counted trace world →
    related (undertaking.number :: writers) more (listener.told undertaking.number event world) after →
    along counted (trace ++ more) after

omit [BEq Value] in
/-- While a writer is at work, what is counted and called does not leave what stays true of both. -/
theorem Undertaking.attended
    {along : List Metrics.Recording → List (Frame Key Value) → Fleet Key Value → Prop}
    (attends : undertaking.Attends writers related along)
    (within : List.Forall₂ (Run.Within related) (undertaking.runs react fleet writers) pieces)
    (begun : along [] [] (fleet.hold undertaking.number .exclusive)) :
    along ((Tiers.dialogueHeld undertaking.operation undertaking.cache.tiers).recordings (undertaking.host react)
        (fleet.hold undertaking.number .exclusive))
      pieces.flatten (undertaking.worked react fleet).2.2 := by
  let start := fleet.hold undertaking.number .exclusive
  cases listening : undertaking.cache.listener with
  | none =>
      rw [runs, listening] at within
      cases within
      have accompanies : (undertaking.host react).Accompanies fun counted _ world => along counted [] world := by
        rw [host, listening]
        exact ⟨fun recording _ _ _ => attends.recorded recording, fun _ _ _ _ => id⟩
      exact Tiers.operateHeld_accompanied accompanies undertaking.operation undertaking.cache.tiers begun
  | some listener =>
      -- The parts of the trace that belong to what has happened so far lead to the world so far.
      let whole (counted : List Metrics.Recording) (happened : List (Happening (Fleet Key Value) Key Value))
          (world : Fleet Key Value) : Prop :=
        ∀ pieces, List.Forall₂ (Run.Within related) (happened.map (listener.run undertaking.number writers)) pieces →
          along counted pieces.flatten world
      have accompanies : (undertaking.host react).Accompanies whole := by
        rw [host, listening]
        constructor
        · intro recording counted happened world before pieces within
          exact attends.recorded recording (before pieces within)
        · intro event counted happened world before pieces within
          rw [List.map_append] at within
          obtain ⟨first, last, rfl, earlier, latest⟩ := forall₂_concat within
          rw [List.flatten_append, List.flatten_singleton]
          exact attends.notified listener event (before first earlier) latest
      have empty : whole [] [] start := by
        intro pieces within
        cases within
        exact begun
      rw [runs, listening] at within
      exact Tiers.operateHeld_accompanied accompanies undertaking.operation undertaking.cache.tiers empty pieces within

/-- While a writer is at work, what happens to it keeps its world within the relation. -/
theorem Undertaking.works (coherent : Coherent related working)
    (within : List.Forall₂ (Run.Within related) (undertaking.runs react fleet writers) pieces) :
    working undertaking.number writers pieces.flatten (fleet.hold undertaking.number .exclusive)
      (undertaking.worked react fleet).2.2 := by
  let start := fleet.hold undertaking.number .exclusive
  have attends : undertaking.Attends writers related
      fun _ trace world => working undertaking.number writers trace start world :=
    ⟨fun recording _ _ _ => coherent.recorded recording, fun listener event _ _ _ _ _ => coherent.notified listener event⟩
  exact undertaking.attended attends within (coherent.begun undertaking.number writers start)

theorem answer_coherent (coherent : Coherent related working)
    (within : List.Forall₂ (Run.Within related) (Fleet.nested react writers request fleet) pieces) :
    related writers (.begin react writers request fleet :: pieces.flatten) fleet
      (Fleet.answer react request fleet) := by
  rw [Fleet.answer]
  cases taken : fleet.undertaking? request with
  | some undertaking =>
      obtain ⟨free, performed⟩ := Fleet.perform_undertaking taken react
      rw [Fleet.nested, taken] at within
      rw [performed]
      exact coherent.worked react writers _ taken free (undertaking.works coherent within)
  | none =>
      rw [Fleet.nested, taken] at within
      cases sought : fleet.search? request with
      | some place =>
          obtain ⟨number, cache, calls⟩ := place
          obtain ⟨shared, found, performed⟩ := Fleet.perform_search sought react
          rw [sought] at within
          rw [performed]
          cases within with
          | cons made rest =>
              cases rest
              rw [List.flatten_singleton]
              exact coherent.searched react writers _ taken sought shared made
      | none =>
          rw [sought] at within
          cases within
          exact coherent.aside react writers taken (Fleet.perform_aside taken sought react)

/-- The relations that hold across calls if they hold across what is made in the middle of each, and so across runs. -/
structure Composed (related : List Nat → List (Frame Key Value) → Fleet Key Value → Fleet Key Value → Prop) : Prop where
  refl : ∀ writers fleet, related writers [] fleet fleet
  trans : ∀ {writers trace more first second third}, related writers trace first second →
    related writers more second third → related writers (trace ++ more) first third
  answered : ∀ {react writers request fleet pieces},
    List.Forall₂ (Run.Within related) (Fleet.nested react writers request fleet) pieces →
    related writers (.begin react writers request fleet :: pieces.flatten) fleet (Fleet.answer react request fleet)

theorem Coherent.composed (coherent : Coherent related working) : Composed related :=
  ⟨coherent.refl, coherent.trans, answer_coherent coherent⟩

namespace CarriedOut

theorem within (composed : Composed related) {runs : List (Run Key Value)} {trace : List (Frame Key Value)}
    (carried : CarriedOut runs trace) :
    ∃ pieces, trace = pieces.flatten ∧ List.Forall₂ (Run.Within related) runs pieces := by
  induction carried with
  | nothing => exact ⟨[], rfl, .nil⟩
  | finished _ ih =>
      obtain ⟨pieces, rfl, within⟩ := ih
      exact ⟨[] :: pieces, rfl, .cons (composed.refl _ _) within⟩
  | called react _ _ ihWithin ihFurther =>
      obtain ⟨inner, rfl, made⟩ := ihWithin
      obtain ⟨pieces, rfl, rest⟩ := ihFurther
      cases rest with
      | @cons _ _ piece _ further others =>
          have answered := composed.answered made
          refine ⟨_, ?_, .cons (composed.trans answered further) others⟩
          rw [List.flatten_cons, List.flatten_cons, List.append_assoc]

/-- What a single run leaves related. -/
theorem composes (composed : Composed related) {run : Run Key Value} {trace : List (Frame Key Value)}
    (carried : CarriedOut [run] trace) : related run.writers trace run.before run.after := by
  obtain ⟨pieces, rfl, within⟩ := carried.within composed
  cases within with
  | cons made rest =>
      cases rest
      rw [List.flatten_singleton]
      exact made

theorem leaves (coherent : Coherent related working) {run : Run Key Value} {trace : List (Frame Key Value)}
    (carried : CarriedOut [run] trace) : related run.writers trace run.before run.after :=
  carried.composes coherent.composed

end CarriedOut

end LayeredCache
